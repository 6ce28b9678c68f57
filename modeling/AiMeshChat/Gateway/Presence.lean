import AiMeshChat.Gateway.Records

/-!
# Alive runtimes

The sweep takes a runtime offline when it is `active` and was not heard of in time; it
looks at no other status. So a record whose presence is `alive` is recent after a sweep
if its status is `active`, and that is the invariant here.

Two entry points do not keep it. `runtime_heartbeat` lets any record be alive and takes
only `offline` back to `active`; `runtime_lifecycle` lets any record be alive and takes
none back.
-/

namespace AiMeshChat.Gateway

open Lib

/-- A sign of life comes from a runtime that is active, or one that it takes back. -/
def FromActive (s : GatewayState) (_now : ℤ) : Request → Prop
  | .heartbeat runtimeId => ∀ r, s.runtimes.get? runtimeId = some r →
      r.status = .active ∨ r.status = .offline
  | .lifecycle runtimeId name => name = "heartbeat" ∨ name = "session_ready" →
      ∀ r, s.runtimes.get? runtimeId = some r → r.status = .active
  | _ => True

/-- Only an active runtime is alive. -/
def Record.Truthful (r : Record) : Prop := r.presence = .alive → r.status = .active

def GatewayState.Truthful (s : GatewayState) : Prop := ∀ r ∈ s.runtimes.list, r.Truthful

theorem alive_of_isHot {r : RuntimeRecord} (h : isHot r = true) : r.presence = .alive := by
  unfold isHot at h
  split at h
  · cases h
  · next hgate =>
    simp only [Bool.not_eq_true', Bool.and_eq_true, decide_eq_true_eq, Bool.not_eq_false] at hgate
    exact hgate.1.1

/-! ## One call -/

theorem beat_truthful {now : ℤ} {r : Record} (h : r.status = .active ∨ r.status = .offline) :
    (r.beat now).Truthful := by
  intro _
  show (if r.status = .offline then Status.active else r.status) = .active
  split
  · rfl
  · next hne => exact h.resolve_right hne

theorem lived_presence {now : ℤ} {name : String} {r : Record} :
    (r.lived now name).status = r.status ∧
      ((r.lived now name).presence = r.presence ∨ name = "heartbeat" ∨ name = "session_ready") := by
  unfold Record.lived reduceLifecycle
  split
  · next h => exact ⟨rfl, .inr (.inl h)⟩
  · split
    · next h => exact ⟨rfl, .inr (.inr h)⟩
    · repeat' split
      all_goals exact ⟨rfl, .inl rfl⟩

theorem lived_truthful {now : ℤ} {name : String} {r : Record} (hr : r.Truthful)
    (h : name = "heartbeat" ∨ name = "session_ready" → r.status = .active) :
    (r.lived now name).Truthful := by
  intro halive
  obtain ⟨hstatus, hpresence⟩ := @lived_presence now name r
  rw [hstatus]
  rcases hpresence with heq | hname
  · exact hr (heq ▸ halive)
  · exact h hname

theorem swept_cases (now : ℤ) (r : Record) :
    (r.swept now = r ∧ overdue now r = false) ∨ (r.swept now).presence ≠ .alive := by
  unfold Record.swept
  by_cases hlate : overdue now r = true
  · refine .inr ?_
    simp only [hlate, if_true]
    split <;> nofun
  · simp only [hlate, Bool.false_eq_true, if_false]
    split
    · exact .inr nofun
    · exact .inl ⟨rfl, trivial⟩

theorem swept_truthful {now : ℤ} {r : Record} (hr : r.Truthful) : (r.swept now).Truthful := by
  intro halive
  rcases swept_cases now r with ⟨heq, -⟩ | hne
  · rw [heq] at halive ⊢
    exact hr halive
  · exact absurd halive hne

theorem perform_truthful (s : GatewayState) (now : ℤ) (q : Request) (hs : s.Truthful)
    (h : FromActive s now q) : (q.perform now s).2.Truthful := by
  intro r hr
  cases Request.origin hr with
  | kept old => exact hs r old
  | registered _ new => exact new ▸ fun _ => rfl
  | refreshed _ new => exact new ▸ fun _ => rfl
  | declared _ new => exact new ▸ fun _ => rfl
  | spawned new => exact new ▸ fun _ => rfl
  | beat old new => exact new ▸ beat_truthful (h _ old)
  | noted old new =>
    have hold := hs _ (Rows.mem_of_get? old)
    subst new
    exact hold
  | lived old new =>
    exact new ▸ lived_truthful (hs _ (Rows.mem_of_get? old)) fun hname => h hname _ old
  | halted _ new => exact new ▸ nofun
  | restored _ new => exact new ▸ nofun
  | restarted new => exact new ▸ nofun
  | swept old new => exact new ▸ swept_truthful (hs _ old)

/-! ## A sweep -/

theorem timeoutOf_le (now : ℤ) (r : Record) : timeoutOf now r ≤ 2 * offlineTimeout := by
  unfold timeoutOf offlineTimeout second
  split
  · split <;> omega
  · omega

theorem swept_recent {s : GatewayState} (hs : s.Truthful) (now : ℤ) {r : Record}
    (hr : r ∈ (sweepOnce now s).2.runtimes.list) (halive : r.presence = .alive) :
    r.status = .active ∧ now - 2 * offlineTimeout ≤ r.lastActivity := by
  obtain ⟨-, r₀, hold, rfl⟩ := mem_sweptRecords.mp hr
  rcases swept_cases now r₀ with ⟨heq, hintime⟩ | hne
  · rw [heq] at halive ⊢
    have hactive := hs r₀ hold halive
    have hle : now - r₀.lastActivity ≤ timeoutOf now r₀ := by
      simpa [overdue, hactive] using hintime
    have hmax := timeoutOf_le now r₀
    exact ⟨hactive, by omega⟩
  · exact absurd halive hne

/-! ## Runs -/

/-- **If signs of life come from active runtimes, or offline ones that a heartbeat takes
back, then only active runtimes are alive, or hot, in any state of a run; and right after a
sweep those that are alive were heard of within twice the timeout.** -/
theorem alive_recent (events : EventStore) (commands : String → Option CommandRow)
    (calls : List (ℤ × Request))
    (h : GatewayState.Admits { events := events, commands := commands } FromActive calls) :
    let s := GatewayState.run { events := events, commands := commands } calls
    (∀ r ∈ s.runtimes.list, (r.presence = .alive → r.status = .active) ∧
      (isHot r.toRuntimeRecord = true → r.status = .active)) ∧
    ∀ now, ∀ r ∈ (sweepOnce now s).2.runtimes.list, r.presence = .alive →
      r.status = .active ∧ now - 2 * offlineTimeout ≤ r.lastActivity := by
  intro s
  have hs : s.Truthful := h.invariant (fun s x => perform_truthful s x.1 x.2)
    fun _ hr => absurd hr List.not_mem_nil
  exact ⟨fun r hr => ⟨hs r hr, fun hhot => hs r hr (alive_of_isHot hhot)⟩,
    fun now r hr halive => swept_recent hs now hr halive⟩

theorem alive_recent_taken_back :
    let s := GatewayState.run { events := { sourceHost := "h" } }
      [(0, .register { sessionId := "s", agentId := "a", runtimeId := "r" } (some ["a"])),
        (601 * second, .sweep), (602 * second, .heartbeat "r")]
    (∀ r ∈ s.runtimes.list, (r.presence = .alive → r.status = .active) ∧
      (isHot r.toRuntimeRecord = true → r.status = .active)) ∧
    ∀ now, ∀ r ∈ (sweepOnce now s).2.runtimes.list, r.presence = .alive →
      r.status = .active ∧ now - 2 * offlineTimeout ≤ r.lastActivity :=
  alive_recent _ _ _ ⟨trivial, trivial, fun r h => by cases h; exact .inr rfl, trivial⟩

/-- A placeholder whose session is ready is hot, before and after a sweep. -/
theorem placeholder_hot :
    ∃ r ∈ (sweepOnce (2000 * second) (GatewayState.run { events := { sourceHost := "h" } }
      [(1000 * second, .restore
        [({ reviewKey := "omp:0123456789abcdef0123",
            swarmSessionId := "s", backendSessionId := "b" }, "00000000")]),
        (1001 * second, .lifecycle "park-omp-0123456789abcdef0123" "session_ready")])).2.runtimes.list,
      r.presence = .alive ∧ isHot r.toRuntimeRecord = true ∧ r.status = .unknown ∧
        r.lastActivity < 2000 * second - 2 * offlineTimeout := by decide +kernel

end AiMeshChat.Gateway
