import AiMeshChat.Park.Sweep
import Mathlib.Logic.Relation

/-!
# The time limits of a lease

One key, and calls of `acquire`, `renew`, `update` and `sweep`, one after another. Each
update writes back the manifest that a lookup returned, with any fields changed but the
two deadlines. `Seen` remembers the hard deadline that the last successful `acquire`
fixed and the soft one that the last `renew` set since then; `Within` says that the row
keeps to both.

An update computes the deadlines of the row from the manifest alone, and `acquire` leaves
a zero in the manifest when it takes the default. So the update takes the default again,
from its own time. `Respected` says when it does not matter.
-/

namespace AiMeshChat.Park

open Lib PARK_DEFAULTS

/-- A change of a manifest that leaves the deadlines. -/
structure Amendment where
  apply : ParkManifest → ParkManifest
  soft : ∀ m, (apply m).softExpiresAt = m.softExpiresAt
  hard : ∀ m, (apply m).hardExpiresAt = m.hardExpiresAt

/-- A lookup, and an update with what it returns, changed. -/
def amend (key : String) (a : Amendment) : ParkCall Unit := do
  match ← lookup key with
  | none => return ()
  | some m => update key (a.apply m)

inductive LimitCall
  | acquire (m : ParkManifest)
  | renew
  | amend (a : Amendment)
  | sweep

/-- The call; the result is whether it acquired the key. -/
def LimitCall.prog (key : String) : LimitCall → ParkCall Bool
  | .acquire m => Park.acquire key m
  | .renew => do
    Park.renew key
    return false
  | .amend a => do
    Park.amend key a
    return false
  | .sweep => do
    let _ ← Park.sweep
    return false

/-- The hard deadline that was fixed, and the soft one that was set. -/
structure Seen where
  fixed : Option ℤ := none
  renewed : Option ℤ := none

/-- What is remembered after a call that returned `r` and left the table `t`. -/
def Seen.after (x : Seen) (key : String) (c : LimitCall) (r : Except ParkErr Bool) (t : Leases) :
    Seen :=
  match c, r with
  | .acquire _, .ok true => { fixed := (t.get? key).map (·.hardExpires) }
  | .renew, .ok _ => { x with renewed := (t.get? key).map (·.softExpires) }
  | _, _ => x

/-- The row keeps to what was fixed and set. -/
def Within (key : String) (x : Seen) (t : Leases) : Prop :=
  ∀ r, t.get? key = some r →
    (∀ h ∈ x.fixed, r.hardExpires ≤ h) ∧ ∀ v ∈ x.renewed, v ≤ r.softExpires

structure LimitState where
  registry : Registry
  seen : Seen := {}

/-- Some process makes the call, alone. -/
def LimitState.Step (key : String) (c : LimitCall) (s s' : LimitState) : Prop :=
  ∃ i r, (c.prog key).Runs parkWorld i (fun _ => True) s.registry r s'.registry ∧
    s'.seen = s.seen.after key c r s'.registry.rows

/-- An update finds deadlines in the manifest, or takes defaults that are within the limits.
The hard one is not later than the fixed one only if no time has gone by since. -/
def Respected (key : String) (c : LimitCall) (s s' : LimitState) : Prop :=
  match c with
  | .amend _ => ∀ r, s.registry.rows.get? key = some r →
      (r.manifest.hardExpiresAt ≠ 0 ∨
        ∀ h ∈ s.seen.fixed, s'.registry.clock + hardLimitSeconds ≤ h) ∧
      (r.manifest.softExpiresAt = 0 ∨ ∀ v ∈ s.seen.renewed, v ≤ r.manifest.softExpiresAt)
  | _ => True

/-! ## The invariant -/

/-- The row keeps to the limits, and so do the deadlines of its manifest; the soft deadline
that was set is not beyond the default. -/
structure Limited (key : String) (s : LimitState) : Prop where
  idle : ∀ n, s.registry.locks n = none
  renewed : ∀ v ∈ s.seen.renewed, v ≤ s.registry.clock + ttlSeconds
  hard : ∀ r, s.registry.rows.get? key = some r → ∀ h ∈ s.seen.fixed, r.hardExpires ≤ h ∧
    (r.manifest.hardExpiresAt ≠ 0 → r.manifest.hardExpiresAt ≤ h)
  soft : ∀ r, s.registry.rows.get? key = some r → ∀ v ∈ s.seen.renewed, v ≤ r.softExpires

theorem Limited.within {key : String} {s : LimitState} (h : Limited key s) :
    Within key s.seen s.registry.rows :=
  fun r hr => ⟨fun d hd => (h.hard r hr d hd).1, h.soft r hr⟩

variable {i : ℕ} {P : ParkChoice → Prop}

theorem amend_computes {key : String} {a : Amendment} {s : Registry} (hfree : Free i s.locks) :
    Computes i P (amend key a) s fun t => (.ok (), match s.rows.get? key with
      | none => s.rows
      | some r => s.rows.put (rowOf t key (a.apply r.manifest))) := by
  refine lookup_bind_does fun s₁ hrows₁ _ hlocks₁ => ?_
  cases s.rows.get? key with
  | none => exact ret_does ⟨by rw [hrows₁], rfl⟩
  | some r =>
    have h := @update_computes i P key (a.apply r.manifest) s₁ (hlocks₁ ▸ hfree)
    rwa [hrows₁] at h

theorem Computes.runs {α : Type} {p : ParkCall α} {s s' : Registry} {r : Except ParkErr α}
    {f : ℤ → Except ParkErr α × Leases} (h : Computes i P p s f)
    (hrun : p.Runs parkWorld i P s r s') :
    s'.locks = s.locks ∧ ∃ t, s.clock ≤ t ∧ t ≤ s'.clock ∧ f t = (r, s'.rows) := by
  obtain ⟨hlocks, t, -, ht, ht', -, hf, -⟩ := Prog.Total.ends h r s' hrun
  exact ⟨hlocks, t, ht, ht', hf⟩

theorem orTime_of_ne {v d : ℤ} (h : v ≠ 0) : orTime v d = v := if_neg h

theorem orTime_zero (d : ℤ) : orTime 0 d = d := if_pos rfl

variable {key : String} {s s' : LimitState} {r : Except ParkErr Bool}

theorem Limited.keep (h : Limited key s) (hlocks : s'.registry.locks = s.registry.locks)
    (hclock : s.registry.clock ≤ s'.registry.clock) (hseen : s'.seen = s.seen)
    (hrow : ∀ r', s'.registry.rows.get? key = some r' → ∃ r, s.registry.rows.get? key = some r ∧
      r'.hardExpires = r.hardExpires ∧ r'.softExpires = r.softExpires ∧
      r'.manifest.hardExpiresAt = r.manifest.hardExpiresAt) : Limited key s' where
  idle := hlocks ▸ h.idle
  renewed v hv := (h.renewed v (hseen ▸ hv)).trans (by omega)
  hard r' hr' d hd := by
    obtain ⟨r, hr, hhard, -, hman⟩ := hrow r' hr'
    rw [hhard, hman]
    exact h.hard r hr d (hseen ▸ hd)
  soft r' hr' v hv := by
    obtain ⟨r, hr, -, hsoft, -⟩ := hrow r' hr'
    rw [hsoft]
    exact h.soft r hr v (hseen ▸ hv)

theorem limited_acquire {m : ParkManifest} (h : Limited key s)
    (hrun : (acquire key m).Runs parkWorld i P s.registry r s'.registry)
    (hseen : s'.seen = s.seen.after key (.acquire m) r s'.registry.rows) : Limited key s' := by
  obtain ⟨hlocks, t, ht, ht', heq⟩ := (acquire_computes fun n => .inl (h.idle n)).runs hrun
  have hnew (hr : r = .ok true) (hrows : s'.registry.rows = s.registry.rows.put (rowOf t key m)) :
      Limited key s' := by
    have hself : s'.registry.rows.get? key = some (rowOf t key m) := by
      rw [hrows]
      exact Rows.get?_put_self _ (rowOf t key m)
    have hfix : s'.seen = { fixed := some (rowOf t key m).hardExpires } := by
      rw [hseen, hr]
      simp only [Seen.after, hself, Option.map_some]
    refine ⟨hlocks ▸ h.idle, fun v hv => ?_, fun r' hr' d hd => ?_, fun r' hr' v hv => ?_⟩
    · rw [hfix] at hv
      cases hv
    · rw [hself] at hr'
      cases hr'
      rw [hfix] at hd
      cases hd
      exact ⟨le_rfl, fun hne => (orTime_of_ne hne).ge⟩
    · rw [hfix] at hv
      cases hv
  have hsame (hr : r ≠ .ok true) (hrows : s'.registry.rows = s.registry.rows) :
      Limited key s' := by
    refine h.keep hlocks (ht.trans ht') ?_ fun r' hr' => ⟨r', hrows ▸ hr', rfl, rfl, rfl⟩
    rw [hseen]
    rcases r with e | (_ | _)
    · rfl
    · rfl
    · exact absurd rfl hr
  simp only [acquireRows] at heq
  split at heq
  · obtain ⟨hr, hrows⟩ := Prod.mk.inj heq
    exact hnew hr.symm hrows.symm
  · split at heq
    · obtain ⟨hr, hrows⟩ := Prod.mk.inj heq
      exact hsame (by simp [← hr]) hrows.symm
    · split at heq
      · obtain ⟨hr, hrows⟩ := Prod.mk.inj heq
        exact hsame (by simp [← hr]) hrows.symm
      · obtain ⟨hr, hrows⟩ := Prod.mk.inj heq
        exact hnew hr.symm hrows.symm

theorem limited_renew (h : Limited key s)
    (hrun : (LimitCall.renew.prog key).Runs parkWorld i P s.registry r s'.registry)
    (hseen : s'.seen = s.seen.after key .renew r s'.registry.rows) : Limited key s' := by
  have hfree : Free i s.registry.locks := fun n => .inl (h.idle n)
  obtain ⟨hlocks, t, ht, ht', heq⟩ := ((renew_computes hfree).map fun _ => false).runs hrun
  obtain ⟨rfl, hrows⟩ := Prod.mk.inj heq
  have hget : s'.registry.rows.get? key =
      (s.registry.rows.get? key).map (·.renewed t (t + ttlSeconds)) := by
    rw [← hrows, Rows.get?_update_key, if_pos rfl]
  cases hrow : s.registry.rows.get? key with
  | none =>
    rw [hrow] at hget
    refine ⟨hlocks ▸ h.idle, fun v hv => ?_, fun r' hr' => ?_, fun r' hr' => ?_⟩
    · rw [hseen] at hv
      simp [Seen.after, hget, Except.map] at hv
    · rw [hget] at hr'
      cases hr'
    · rw [hget] at hr'
      cases hr'
  | some r =>
    rw [hrow, Option.map_some] at hget
    have hseen' : s'.seen = { s.seen with renewed := some (t + ttlSeconds) } := by
      rw [hseen]
      simp only [Seen.after, Except.map, hget, Option.map_some]
      rfl
    refine ⟨hlocks ▸ h.idle, fun v hv => ?_, fun r' hr' d hd => ?_, fun r' hr' v hv => ?_⟩
    · rw [hseen'] at hv
      cases hv
      omega
    · rw [hget] at hr'
      cases hr'
      rw [hseen'] at hd
      exact h.hard r hrow d hd
    · rw [hget] at hr'
      cases hr'
      rw [hseen'] at hv
      cases hv
      exact le_rfl

theorem limited_amend {a : Amendment} (h : Limited key s)
    (hrun : ((LimitCall.amend a).prog key).Runs parkWorld i P s.registry r s'.registry)
    (hseen : s'.seen = s.seen.after key (.amend a) r s'.registry.rows)
    (hok : Respected key (.amend a) s s') : Limited key s' := by
  have hfree : Free i s.registry.locks := fun n => .inl (h.idle n)
  obtain ⟨hlocks, t, ht, ht', heq⟩ := ((amend_computes hfree).map fun _ => false).runs hrun
  obtain ⟨-, hrows⟩ := Prod.mk.inj heq
  replace hseen : s'.seen = s.seen := hseen
  cases hrow : s.registry.rows.get? key with
  | none =>
    simp only [hrow] at hrows
    exact h.keep hlocks (ht.trans ht') hseen fun r' hr' => ⟨r', hrows ▸ hr', rfl, rfl, rfl⟩
  | some r =>
    simp only [hrow] at hrows
    obtain ⟨hhard, hsoft⟩ := hok r hrow
    have hself : s'.registry.rows.get? key = some (rowOf t key (a.apply r.manifest)) := by
      rw [← hrows]
      exact Rows.get?_put_self _ (rowOf t key (a.apply r.manifest))
    refine ⟨hlocks ▸ h.idle, fun v hv => ?_, fun r' hr' d hd => ?_, fun r' hr' v hv => ?_⟩
    · exact (h.renewed v (hseen ▸ hv)).trans (by omega)
    · rw [hself] at hr'
      cases hr'
      rw [hseen] at hd
      have hkept := (h.hard r hrow d hd).2
      simp only [rowOf, a.hard]
      refine ⟨?_, hkept⟩
      by_cases hzero : r.manifest.hardExpiresAt = 0
      · have hclock := (hhard.resolve_left (not_not.mpr hzero)) d hd
        rw [hzero, orTime_zero]
        omega
      · rw [orTime_of_ne hzero]
        exact hkept hzero
    · rw [hself] at hr'
      cases hr'
      rw [hseen] at hv
      simp only [rowOf, a.soft]
      by_cases hzero : r.manifest.softExpiresAt = 0
      · have hset := h.renewed v hv
        rw [hzero, orTime_zero]
        omega
      · rw [orTime_of_ne hzero]
        exact (hsoft.resolve_left hzero) v hv

theorem limited_sweep (h : Limited key s)
    (hrun : (LimitCall.sweep.prog key).Runs parkWorld i P s.registry r s'.registry)
    (hseen : s'.seen = s.seen.after key .sweep r s'.registry.rows) : Limited key s' := by
  have hfree : Free i s.registry.locks := fun n => .inl (h.idle n)
  have hdoes : Does i P (LimitCall.sweep.prog key) s.registry fun _ _ rows _ =>
      Swept s.registry.rows rows :=
    Does.bind (sweep_swept hfree) (fun _ _ _ _ _ _ hswept => ret_does hswept)
      fun _ _ _ _ hswept => hswept
  obtain ⟨hlocks, t, -, ht, ht', -, hswept⟩ := Prog.Total.ends hdoes r s'.registry hrun
  refine h.keep hlocks (ht.trans ht') hseen fun r' hr' => ?_
  obtain ⟨r₀, hr₀, heq⟩ := hswept r' (Rows.mem_of_get? hr')
  have hkey : r₀.key = key := by
    rw [← Rows.key_of_get? hr']
    rcases heq with rfl | rfl <;> rfl
  refine ⟨r₀, hkey ▸ Rows.get?_of_mem hr₀, ?_⟩
  rcases heq with rfl | rfl <;> exact ⟨rfl, rfl, rfl⟩

/-- **One call keeps the invariant**, if an update respects the limits. -/
theorem limited_step {c : LimitCall} (h : Limited key s) (hstep : s.Step key c s')
    (hok : Respected key c s s') : Limited key s' := by
  obtain ⟨i, r, hrun, hseen⟩ := hstep
  cases c with
  | acquire m => exact limited_acquire h hrun hseen
  | renew => exact limited_renew h hrun hseen
  | amend a => exact limited_amend h hrun hseen hok
  | sweep => exact limited_sweep h hrun hseen

/-- **The time limits over runs.**  From any table, when every update respects the limits,
the row of the key keeps to the hard deadline that was fixed and to the soft one that was
set. -/
theorem limits_kept (key : String) (t : Leases) (start : ℤ) (s : LimitState)
    (hrun : Relation.ReflTransGen (fun s s' => ∃ c, s.Step key c s' ∧ Respected key c s s')
      { registry := { rows := t, clock := start } } s) : Within key s.seen s.registry.rows := by
  refine Limited.within ?_
  induction hrun with
  | refl =>
    have hnone {v : ℤ} {p : Prop} (h : v ∈ (none : Option ℤ)) : p := by cases h
    exact ⟨fun _ => rfl, fun _ h => hnone h, fun _ _ _ h => hnone h, fun _ _ _ h => hnone h⟩
  | tail _ hstep ih =>
    obtain ⟨c, hstep, hok⟩ := hstep
    exact limited_step ih hstep hok

/-! ## Runs that can be evaluated -/

/-- The call, made by process `0` with one choice for all its steps. -/
def LimitState.play (key : String) (choice : ParkChoice) (c : LimitCall) (s : LimitState) :
    Option LimitState :=
  ((c.prog key).exec parkWorld 0 choice 20 s.registry).map fun x =>
    ⟨x.2, s.seen.after key c x.1 x.2.rows⟩

theorem step_of_play {choice : ParkChoice} {c : LimitCall} (h : s.play key choice c = some s') :
    s.Step key c s' := by
  obtain ⟨⟨r, reg⟩, hexec, rfl⟩ := Option.map_eq_some_iff.mp h
  exact ⟨0, r, Prog.runs_of_exec trivial hexec, rfl⟩

/-- An update with nothing changed. -/
def Amendment.same : Amendment := ⟨id, fun _ => rfl, fun _ => rfl⟩

def noLeases : LimitState := { registry := { rows := Rows.empty, clock := 0 } }

/-- One second at every step. -/
def tick : ParkChoice := { elapsed := 1000000 }

/-- The deadlines of this lease are in its manifest. -/
def dated : ParkManifest := { reviewKey := "k", hardExpiresAt := 9000000000 }

theorem limits_kept_dated : ∃ s₁ s₂, noLeases.play "k" tick (.acquire dated) = some s₁ ∧
    s₁.play "k" tick (.amend .same) = some s₂ ∧ s₂.seen.fixed = some 9000000000 ∧
    Within "k" s₂.seen s₂.registry.rows := by
  obtain ⟨s₁, h₁, hrest⟩ := (Option.any_eq_true _ _).mp (show
    (noLeases.play "k" tick (.acquire dated)).any (fun s₁ =>
      (s₁.registry.rows.get? "k").all (fun r =>
        r.manifest.hardExpiresAt ≠ 0 && r.manifest.softExpiresAt = 0) &&
      (s₁.play "k" tick (.amend .same)).any (fun s₂ => s₂.seen.fixed = some 9000000000)) = true by
    decide +kernel)
  obtain ⟨hrow, hnext⟩ := Bool.and_eq_true_iff.mp hrest
  obtain ⟨s₂, h₂, hfixed⟩ := (Option.any_eq_true _ _).mp hnext
  refine ⟨s₁, s₂, h₁, h₂, of_decide_eq_true hfixed, limits_kept "k" Rows.empty 0 s₂ ?_⟩
  have hok : Respected "k" (.amend .same) s₁ s₂ := by
    intro r hr
    have hdates := (Option.all_eq_true _ _).mp hrow r hr
    simp only [Bool.and_eq_true, decide_eq_true_eq] at hdates
    exact ⟨.inl hdates.1, .inl hdates.2⟩
  exact (Relation.ReflTransGen.single ⟨_, step_of_play h₁, trivial⟩).tail ⟨_, step_of_play h₂, hok⟩

/-- The lease of `acquire` with the default deadlines, and one update. -/
theorem limits_moved : ¬ ∀ (key : String) (t : Leases) (start : ℤ) (s : LimitState),
    Relation.ReflTransGen (fun s s' => ∃ c, s.Step key c s')
      { registry := { rows := t, clock := start } } s → Within key s.seen s.registry.rows := by
  intro h
  obtain ⟨s₂, hplay, hlate⟩ := (Option.any_eq_true _ _).mp (show
    ((noLeases.play "k" tick (.acquire { reviewKey := "k" })).bind
      (·.play "k" tick (.amend .same))).any (fun s₂ => (s₂.registry.rows.get? "k").any fun r =>
        s₂.seen.fixed.any fun d => d < r.hardExpires) = true by
    decide +kernel)
  obtain ⟨s₁, h₁, h₂⟩ := Option.bind_eq_some_iff.mp hplay
  obtain ⟨r, hr, hd⟩ := (Option.any_eq_true _ _).mp hlate
  obtain ⟨d, hfixed, hlt⟩ := (Option.any_eq_true _ _).mp hd
  have hrun : Relation.ReflTransGen (fun s s' => ∃ c, LimitState.Step "k" c s s') noLeases s₂ :=
    (Relation.ReflTransGen.single ⟨_, step_of_play h₁⟩).tail ⟨_, step_of_play h₂⟩
  exact absurd ((h "k" Rows.empty 0 s₂ hrun r hr).1 d hfixed) (not_le.mpr (of_decide_eq_true hlt))

end AiMeshChat.Park
