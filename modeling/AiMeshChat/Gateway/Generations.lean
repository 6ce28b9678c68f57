import AiMeshChat.Gateway.Records

/-!
# Generations

The guard of `runtime_register` compares with the record in memory. As long as there is
one, its generation does not decrease: every other call keeps it, and a registration is
checked against it. The record is meant to go away, though: a stopped one is removed by
the next sweep or purge, and all of them by a restart of the gateway, and a runtime that
registers then starts from any generation.
-/

namespace AiMeshChat.Gateway

open Lib

/-- The record of the runtime stays: the gateway is not restarted, no spawn and no first
declaration of a session makes another record under its name, and it is not removed. -/
def Stays (runtimeId : String) (s : GatewayState) (now : ℤ) (q : Request) : Prop :=
  (match q with
    | .restart _ => False
    | .spawn _ launched => ∀ h, launched = .ok h → h.runtimeId ≠ runtimeId
    | .declare p manifest slug => declaredBefore p s = none → ∀ m, manifest = some m →
        (declared now p m slug).runtimeId ≠ runtimeId
    | _ => True) ∧
  (q.perform now s).2.runtimes.get? runtimeId ≠ none

/-- The runtime has a record, of that generation or a later one. -/
def Reached (runtimeId : String) (generation : ℤ) (s : GatewayState) : Prop :=
  ∃ r, s.runtimes.get? runtimeId = some r ∧ generation ≤ r.generation

variable {s : GatewayState} {now : ℤ}

/-! ## The guards -/

variable {p : RegisterParams} {roster : Option (List String)} {r : Record}

theorem checkRegister_eq_ok
    (h : checkRegister p roster s = .ok ()) :
    checkOwner p (s.runtimes.get? p.runtimeId) = .ok () := by
  unfold checkRegister at h
  split at h
  · cases h
  · cases hown : checkOwner p (s.runtimes.get? p.runtimeId) with
    | ok => rfl
    | error e =>
      rw [hown] at h
      cases h

theorem le_of_checkRegister (h : checkRegister p roster s = .ok ())
    (hr : s.runtimes.get? p.runtimeId = some r) : r.generation ≤ p.generation := by
  have hown := checkRegister_eq_ok h
  rw [hr] at hown
  unfold checkOwner at hown
  dsimp only at hown
  split at hown
  · cases hown
  · next hle => omega

theorem register_stale (hr : s.runtimes.get? p.runtimeId = some r)
    (hlt : p.generation < r.generation) : ∃ e, runtimeRegister now p roster s = (.error e, s) := by
  cases hcheck : checkRegister p roster s with
  | ok =>
    have hle := le_of_checkRegister hcheck hr
    omega
  | error e => exact ⟨e, by simp only [runtimeRegister, hcheck]⟩

theorem event_stale {d : RuntimeEventDraft} (hr : s.runtimes.get? d.runtimeId = some r)
    (hlt : d.generation < r.generation) : ∃ e, runtimeEvent now d s = (.error e, s) := by
  have hne : d.generation ≠ r.generation := by omega
  simp only [runtimeEvent, hr, if_pos hne]
  exact ⟨_, rfl⟩

theorem register_reached (h : (runtimeRegister now p roster s).1 = .ok ()) :
    Reached p.runtimeId p.generation (runtimeRegister now p roster s).2 := by
  refine ⟨registered now p (s.runtimes.get? p.runtimeId), ?_, le_refl p.generation⟩
  unfold runtimeRegister at h ⊢
  split
  · next hcheck =>
    rw [hcheck] at h
    cases h
  · dsimp only
    split <;> exact Rows.get?_put_self _ _

/-! ## One call -/

theorem lived_identity {name : String} :
    (r.lived now name).runtimeId = r.runtimeId ∧ (r.lived now name).generation = r.generation := by
  unfold Record.lived reduceLifecycle
  repeat' split
  all_goals exact ⟨rfl, rfl⟩

theorem swept_identity :
    (r.swept now).runtimeId = r.runtimeId ∧ (r.swept now).generation = r.generation := by
  unfold Record.swept
  dsimp only
  repeat' split
  all_goals exact ⟨rfl, rfl⟩

theorem perform_reached {runtimeId : String} {generation : ℤ} (s : GatewayState) (now : ℤ)
    (q : Request) (hs : Reached runtimeId generation s) (h : Stays runtimeId s now q) :
    Reached runtimeId generation (q.perform now s).2 := by
  obtain ⟨r, hr, hle⟩ := hs
  obtain ⟨hcall, hpresent⟩ := h
  obtain ⟨r', hr'⟩ := Option.ne_none_iff_exists'.mp hpresent
  refine ⟨r', hr', ?_⟩
  have hkey : r'.runtimeId = runtimeId := runtimeId_of_get? hr'
  -- a record that is written over one of the same name is written over `r`
  have written {r₀ : Record} (old : r₀ ∈ s.runtimes.list) (hid : r'.runtimeId = r₀.runtimeId)
      (hgen : r'.generation = r₀.generation) : generation ≤ r'.generation := by
    rw [hgen, eq_of_runtimeId hr old (hid.symm.trans hkey)]
    exact hle
  cases Request.origin (Rows.mem_of_get? hr') with
  | kept old => exact written old rfl rfl
  | @registered p _ checked new =>
    have hid : p.runtimeId = runtimeId := (congrArg (·.runtimeId) new).symm.trans hkey
    have hle' : r.generation ≤ p.generation := le_of_checkRegister checked (hid ▸ hr)
    exact hle.trans (new ▸ hle')
  | refreshed old new => exact written old (congrArg (·.runtimeId) new) (congrArg (·.generation) new)
  | declared first new =>
    exact absurd ((congrArg (·.runtimeId) new).symm.trans hkey) (hcall first _ rfl)
  | spawned new => exact absurd ((congrArg (·.runtimeId) new).symm.trans hkey) (hcall _ rfl)
  | beat old new =>
    exact written (Rows.mem_of_get? old) (congrArg (·.runtimeId) new) (congrArg (·.generation) new)
  | noted old new =>
    exact written (Rows.mem_of_get? old) (congrArg (·.runtimeId) new) (congrArg (·.generation) new)
  | lived old new =>
    obtain ⟨hid, hgen⟩ := lived_identity
    exact written (Rows.mem_of_get? old) (new ▸ hid) (new ▸ hgen)
  | halted old new =>
    exact written (Rows.mem_of_get? old) (congrArg (·.runtimeId) new) (congrArg (·.generation) new)
  | @restored _ m name free new =>
    have hid : name = runtimeId := (congrArg (·.runtimeId) new).symm.trans hkey
    rw [hid, hr] at free
    cases free
  | restarted => exact hcall.elim
  | swept old new =>
    obtain ⟨hid, hgen⟩ := swept_identity
    exact written old (new ▸ hid) (new ▸ hgen)

/-! ## Runs -/

/-- **After an accepted registration, and as long as the record stays, no registration of an
earlier generation is accepted for the runtime, and no event of one is appended.** -/
theorem generation_kept {p : RegisterParams} {roster : Option (List String)}
    {calls : List (ℤ × Request)} (accepted : (runtimeRegister now p roster s).1 = .ok ())
    (stays : (runtimeRegister now p roster s).2.Admits (Stays p.runtimeId) calls) :
    let t := (runtimeRegister now p roster s).2.run calls
    (∀ now' p' roster', p'.runtimeId = p.runtimeId → p'.generation < p.generation →
      ∃ e, runtimeRegister now' p' roster' t = (.error e, t)) ∧
    ∀ now' d, d.runtimeId = p.runtimeId → d.generation < p.generation →
      ∃ e, runtimeEvent now' d t = (.error e, t) := by
  intro t
  obtain ⟨r, hr, hle⟩ : Reached p.runtimeId p.generation t :=
    stays.invariant (fun s x => perform_reached s x.1 x.2) (register_reached accepted)
  exact ⟨fun now' p' roster' hid hlt => register_stale (hid ▸ hr) (by omega),
    fun now' d hid hlt => event_stale (hid ▸ hr) (by omega)⟩

theorem generation_kept_stopped :
    let t := (runtimeRegister 0 { sessionId := "s", agentId := "a", runtimeId := "r", generation := 5 }
      (some ["a"]) { events := { sourceHost := "h" } }).2.run
        [(1, .heartbeat "r"), (2, .stop "r" "done"), (3, .declare { reviewKey := "k" } none "")]
    (∀ now' p' roster', p'.runtimeId = "r" → p'.generation < 5 →
      ∃ e, runtimeRegister now' p' roster' t = (.error e, t)) ∧
    ∀ now' d, d.runtimeId = "r" → d.generation < 5 → ∃ e, runtimeEvent now' d t = (.error e, t) :=
  @generation_kept { events := { sourceHost := "h" } } 0
    { sessionId := "s", agentId := "a", runtimeId := "r", generation := 5 } (some ["a"])
    [(1, .heartbeat "r"), (2, .stop "r" "done"), (3, .declare { reviewKey := "k" } none "")] rfl
    ⟨⟨trivial, nofun⟩, ⟨trivial, nofun⟩, ⟨fun _ _ h => absurd h (Option.some_ne_none _).symm, nofun⟩,
      trivial⟩

/-- A runtime is registered, stopped and swept, and registers with an older generation. -/
theorem register_older :
    let s₀ : GatewayState := { events := { sourceHost := "h" } }
    let s := s₀.run [(0, .register { sessionId := "s", agentId := "a", runtimeId := "r", generation := 5 }
      (some ["a"])), (1, .stop "r" "done"), (2, .sweep)]
    (s₀.runtimes.get? "r").isNone ∧
    (runtimeRegister 0 { sessionId := "s", agentId := "a", runtimeId := "r", generation := 5 }
      (some ["a"]) s₀).1.isOk = true ∧
    (runtimeRegister 3 { sessionId := "s", agentId := "a", runtimeId := "r", generation := 1 }
      (some ["a"]) s).1.isOk = true := by decide +kernel

end AiMeshChat.Gateway
