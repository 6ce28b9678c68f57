import AiMeshChat.Gateway.Finality

/-!
# One command for one `request_id`

`runtime_send` looks for a row of its `request_id` and inserts one only if there
is none. Two calls may both find none; the insert, which leaves an existing row
alone, decides which of them goes on.

So whatever the calls are and wherever they die, at most one message carries a
given `command_id` (`injects_at_most_once`). The invariant is that at most one
call has had its insert answered with "created", and that it writes once.
-/

namespace AiMeshChat.Gateway

open Lib

/-- The messages written for the command `r`. -/
def Control.injected (s : Control) (r : String) : ℕ := s.posted.countP (·.args.commandId = r)

/-! ## At most one message -/

section

variable (r : String)

/-- How far a call has come with the command: it has not inserted the row, it has,
or it has written the message. -/
inductive Stage
  | waiting
  | creator
  | mailed
  deriving DecidableEq

/-- A message for `r` is written only by the call that created the row, and only
once. -/
abbrev injectRole : Role GateOp GateAns where
  St := Stage
  allows := fun q o => match o with
    | .mail a => a.commandId = r → q = .creator
    | _ => True
  assumes := fun _ _ _ => True
  next := fun q o a => match o, a with
    | .enqueue row, true => if row.requestId = r then .creator else q
    | .mail args, _ => if args.commandId = r then .mailed else q
    | _, _ => q

/-- At most one call has created the row, and it has written at most once. -/
structure OneCreator (s : Control) (q : ℕ → Stage) : Prop where
  row : ∀ i, q i ≠ .waiting → s.commands r ≠ none
  unique : ∀ i j, q i ≠ .waiting → q j ≠ .waiting → i = j
  once : s.injected r ≤ 1
  done : s.injected r ≠ 0 → s.commands r ≠ none ∧ ∀ i, q i ≠ .creator

/-! ### Calls for the command, and others -/

/-- The steps of a call that is about the command `r'`. -/
def Concerns (r' : String) : GateOp → Prop
  | .getCommand r₁ => r₁ = r'
  | .update r₁ _ _ => r₁ = r'
  | .enqueue row => row.requestId = r'
  | .mail a => a.commandId = r'
  | _ => True

variable {r' : String} {o : GateOp} {q : Stage} {s : Control}

theorem concerns_of_follows (h : Follows r' o) : Concerns r' o := by
  cases o with
  | getCommand r₁ => exact h
  | update r₁ ch basis => exact h.1
  | enqueue row => exact h.elim
  | mail a => exact h.elim
  | _ => trivial

theorem dispatch_concerns (fuel : ℕ) (p : SendParams) (record : RuntimeRecord) :
    (dispatch fuel p record).Only (Concerns p.requestId) := by
  unfold dispatch
  split_ifs
  · exact (refusal_only _ _ _).mono fun _ => concerns_of_follows
  · obtain ⟨k, hk, hrest, -⟩ := mailAndGate_eq fuel p record
    rw [hk]
    exact ⟨rfl, fun answer => (hrest answer).mono fun _ => concerns_of_follows⟩

theorem runtimeSend_concerns (sha256 : String → String) (fuel : ℕ) (p : SendParams) :
    (runtimeSend sha256 fuel p).Only (Concerns p.requestId) := by
  refine (require_only _ _).bind fun _ => ⟨trivial, fun record => ?_⟩
  cases record with
  | none => trivial
  | some record =>
    refine (require_only _ _).bind fun _ => ⟨rfl, fun row => ?_⟩
    cases row with
    | some existing => exact replayCommand_only _ _ _
    | none =>
      refine ⟨trivial, fun uid => ⟨rfl, fun created => ?_⟩⟩
      cases created with
      | true => exact dispatch_concerns fuel p record
      | false => exact (finish_only _).mono fun _ => concerns_of_follows

theorem injectRole_ignores_of_concerns (hr : r' ≠ r)
    (ho : Concerns r' o) : (injectRole r).Ignores .waiting o := by
  cases o with
  | enqueue row =>
    have hne : row.requestId ≠ r := by rw [ho]; exact hr
    refine ⟨trivial, fun created => ?_⟩
    cases created <;> simp [hne]
  | mail a =>
    have hne : a.commandId ≠ r := by rw [ho]; exact hr
    exact ⟨fun h => absurd h hne, fun _ => if_neg hne⟩
  | _ => exact ⟨trivial, fun _ => rfl⟩

theorem injectRole_ignores_of_follows (ho : Follows r' o) : (injectRole r).Ignores q o := by
  cases o with
  | enqueue row => exact ho.elim
  | mail a => exact ho.elim
  | _ => exact ⟨trivial, fun _ => rfl⟩

theorem injectRole_ignores_of_acks (ho : Acks r' o) : (injectRole r).Ignores q o := by
  cases o with
  | enqueue row => exact ho.elim
  | mail a => exact ho.elim
  | _ => exact ⟨trivial, fun _ => rfl⟩

theorem follows_keeps {α : Type} {t : GateCall α}
    (ht : t.Only (Follows r')) : t.Keeps (injectRole r) q fun _ _ => True :=
  (ht.keeps fun _ => injectRole_ignores_of_follows r).mono fun _ _ _ => trivial

theorem dispatch_keeps (fuel : ℕ) (p : SendParams) (record : RuntimeRecord) :
    (dispatch fuel p record).Keeps (injectRole r) .creator fun _ _ => True := by
  unfold dispatch
  split_ifs
  · exact follows_keeps r (refusal_only _ _ _)
  · obtain ⟨k, hk, hrest, -⟩ := mailAndGate_eq fuel p record
    rw [hk]
    exact ⟨fun _ => rfl, fun answer _ => follows_keeps r (hrest answer)⟩

theorem require_keeps {R : Role GateOp GateAns} {q : R.St} {β : Type} {c : Bool} {e : GatewayErr}
    {t : GateCall β} {Q : R.St → Except GatewayErr β → Prop} (he : c = false → Q q (.error e))
    (ht : c = true → t.Keeps R q Q) : (require c e >>= fun _ => t).Keeps R q Q := by
  cases c with
  | true => exact ht rfl
  | false => exact he rfl

theorem runtimeSend_keeps (sha256 : String → String) (fuel : ℕ) (p : SendParams) :
    (runtimeSend sha256 fuel p).Keeps (injectRole r) .waiting fun _ _ => True := by
  by_cases hp : p.requestId = r
  · refine require_keeps (fun _ => trivial) fun _ => ⟨trivial, fun record _ => ?_⟩
    cases record with
    | none => trivial
    | some record =>
      refine require_keeps (fun _ => trivial) fun _ => ⟨trivial, fun row _ => ?_⟩
      cases row with
      | some existing =>
        exact follows_keeps r (replayCommand_only (φ := Follows r) _ _ _)
      | none =>
        refine ⟨trivial, fun uid _ => ⟨trivial, fun created _ => ?_⟩⟩
        cases created with
        | true =>
          have hnext : (injectRole r).next .waiting
              (.enqueue (newRow p record (p.hash sha256) uid)) true = .creator := if_pos hp
          rw [hnext]
          exact dispatch_keeps r fuel p record
        | false => exact follows_keeps r (finish_only _)
  · exact ((runtimeSend_concerns sha256 fuel p).keeps fun _ =>
      injectRole_ignores_of_concerns r hp).mono fun _ _ _ => trivial

/-! ### The invariant -/

variable {r}

theorem OneCreator.frame {s' : Control} {q : ℕ → Stage} (h : OneCreator r s q)
    (hrow : s.commands r ≠ none → s'.commands r ≠ none) (hposted : s'.injected r = s.injected r) :
    OneCreator r s' q where
  row := fun i hi => hrow (h.row i hi)
  unique := h.unique
  once := by rw [hposted]; exact h.once
  done := fun h0 => by
    rw [hposted] at h0
    exact ⟨hrow (h.done h0).1, (h.done h0).2⟩

theorem setRow_ne_none {row : CommandRow}
    (h : s.commands r ≠ none) : (s.setRow r' row).commands r ≠ none := by
  by_cases hr : r = r'
  · subst hr
    simp [Control.setRow]
  · simpa [Control.setRow, Function.update_of_ne hr] using h

theorem OneCreator.create {q : ℕ → Stage} {i : ℕ} {row : CommandRow} (h : OneCreator r s q)
    (hnone : s.commands r = none) :
    OneCreator r (s.setRow r row) (Function.update q i .creator) := by
  have hwait (j : ℕ) : q j = .waiting := by
    by_contra hj
    exact h.row j hj hnone
  have hzero : s.injected r = 0 := by
    by_contra h0
    exact (h.done h0).1 hnone
  have hrow : (s.setRow r row).commands r ≠ none := by simp [Control.setRow]
  have hat {j : ℕ} (hj : Function.update q i Stage.creator j ≠ .waiting) : j = i := by
    by_contra hji
    rw [Function.update_of_ne hji] at hj
    exact hj (hwait j)
  exact ⟨fun _ _ => hrow, fun j k hj hk => (hat hj).trans (hat hk).symm,
    by rw [show (s.setRow r row).injected r = 0 from hzero]; exact Nat.zero_le 1,
    fun h0 => absurd hzero h0⟩

theorem OneCreator.mail {q : ℕ → Stage} {i : ℕ} {posted : List Posted} (h : OneCreator r s q)
    (hi : q i = .creator) (hposted : posted.countP (·.args.commandId = r) ≤ s.injected r + 1) :
    OneCreator r { s with posted := posted } (Function.update q i .mailed) := by
  have hi' : q i ≠ .waiting := by rw [hi]; nofun
  have hzero : s.injected r = 0 := by
    by_contra h0
    exact (h.done h0).2 i hi
  have hback {j : ℕ} (hj : Function.update q i Stage.mailed j ≠ .waiting) : q j ≠ .waiting := by
    by_cases hji : j = i
    · rw [hji]; exact hi'
    · rwa [Function.update_of_ne hji] at hj
  refine ⟨fun j hj => h.row j (hback hj), fun j k hj hk => h.unique j k (hback hj) (hback hk),
    ?_, fun _ => ⟨h.row i hi', fun j hj => ?_⟩⟩
  · rw [hzero] at hposted
    exact hposted
  · by_cases hji : j = i
    · subst hji
      rw [Function.update_self] at hj
      cases hj
    · rw [Function.update_of_ne hji] at hj
      have hj' : q j ≠ .waiting := by rw [hj]; nofun
      exact hji (h.unique j i hj' hi')

/-- **One step** of a call that keeps its role. -/
theorem oneCreator_op :
    Pool.OpKeeps gateWorld (injectRole r) (fun _ _ _ _ => True) (OneCreator r) := by
  intro s q i o c a s' h ho _ hw
  refine ⟨trivial, ?_⟩
  cases o with
  | enqueue row =>
    simp only [gateWorld, Control.perform] at hw
    cases hrow : s.commands row.requestId with
    | some row' =>
      simp only [hrow, Option.some.injEq, Prod.mk.injEq] at hw
      obtain ⟨rfl, rfl⟩ := hw
      simpa using h
    | none =>
      simp only [hrow, Option.some.injEq, Prod.mk.injEq] at hw
      obtain ⟨rfl, rfl⟩ := hw
      by_cases hr : row.requestId = r
      · subst hr
        simpa using h.create hrow
      · simpa [hr] using h.frame setRow_ne_none rfl
  | mail args =>
    simp only [gateWorld, Control.perform, Option.some.injEq, Prod.mk.injEq] at hw
    obtain ⟨-, rfl⟩ := hw
    by_cases hr : args.commandId = r
    · have hnext : (injectRole r).next (q i) (.mail args) a = .mailed := if_pos hr
      rw [hnext]
      refine h.mail (ho hr) ?_
      split_ifs
      · simp [Control.injected, hr]
      · exact Nat.le_succ _
    · have hnext : (injectRole r).next (q i) (.mail args) a = q i := if_neg hr
      rw [hnext, Function.update_eq_self]
      refine h.frame id ?_
      split_ifs
      · simp [Control.injected, hr]
      · rfl
  | update r' ch basis =>
    have hnext : (injectRole r).next (q i) (.update r' ch basis) a = q i := rfl
    rw [hnext, Function.update_eq_self]
    simp only [gateWorld, Control.perform] at hw
    cases hrow : s.commands r' with
    | none =>
      simp only [hrow, Option.some.injEq, Prod.mk.injEq] at hw
      rw [← hw.2]
      exact h
    | some row =>
      simp only [hrow, Option.some.injEq, Prod.mk.injEq] at hw
      rw [← hw.2]
      exact h.frame setRow_ne_none rfl
  | _ =>
    simp only [gateWorld, Control.perform, Option.some.injEq, Prod.mk.injEq] at hw
    rw [← hw.2]
    simpa using h

theorem oneCreator_crash : Pool.CrashKeeps gateWorld (injectRole r) (OneCreator r) := by
  intro s q i h
  have hback {j : ℕ} (hj : Function.update q i Stage.waiting j ≠ .waiting) : q j ≠ .waiting := by
    by_cases hji : j = i
    · subst hji
      simp at hj
    · rwa [Function.update_of_ne hji] at hj
  refine ⟨.waiting, fun j hj => h.row j (hback hj),
    fun j k hj hk => h.unique j k (hback hj) (hback hk), h.once,
    fun h0 => ⟨(h.done h0).1, fun j hj => ?_⟩⟩
  have hj' : Function.update q i Stage.waiting j ≠ .waiting := by rw [hj]; nofun
  by_cases hji : j = i
  · subst hji
    simp at hj'
  · rw [Function.update_of_ne hji] at hj
    exact (h.done h0).2 j hj

variable (r)

theorem call_keeps (sha256 : String → String) (fuel : ℕ) (q : GateRequest) :
    (q.call sha256 fuel).Keeps (injectRole r) .waiting fun _ _ => True := by
  cases q with
  | send p => exact runtimeSend_keeps r sha256 fuel p
  | ack a =>
    exact ((runtimeCommandAck_only a).keeps fun _ => injectRole_ignores_of_acks r).mono
      fun _ _ _ => trivial

/-- **At most one message per command.**  Any number of `runtime_send` and
`runtime_command_ack` calls, for this `request_id` and for others, in any order
and dying anywhere: at most one message with `command_id = r` is ever written. -/
theorem injects_at_most_once (sha256 : String → String) (fuel : ℕ)
    (reqs : ℕ → Option GateRequest) (es : List (Event GateChoice)) :
    ((gatePool sha256 fuel .empty reqs).run gateWorld es).shared.injected r ≤ 1 := by
  have hstart : (gatePool sha256 fuel .empty reqs).Kept (injectRole r) (OneCreator r)
      (fun _ _ _ => True) := by
    refine ⟨fun _ => .waiting, ⟨fun _ h => absurd rfl h, fun _ _ h => absurd rfl h,
      Nat.zero_le 1, fun h => absurd rfl h⟩, fun i => ?_⟩
    simp only [gatePool]
    cases reqs i with
    | none => trivial
    | some q => exact call_keeps r sha256 fuel q
  have hall : (gatePool sha256 fuel .empty reqs).Admits gateWorld (fun _ _ _ _ => True) es :=
    Pool.admits_of_forall (fun _ _ _ _ => trivial) es
  obtain ⟨q, hJ, -⟩ := Pool.run_keeps oneCreator_op oneCreator_crash es hstart hall
  exact hJ.once

end

end AiMeshChat.Gateway
