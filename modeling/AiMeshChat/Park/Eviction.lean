import AiMeshChat.Park.Registry

/-!
# Evictions while others write

One sweep, and any number of calls of `renew`, `update` and `release`, in any order of
their statements. The sweep selects rows in one statement and evicts each in another,
under the lock of its key; the statement that evicts looks at the lifecycle alone and
writes the manifest that was selected. The locks keep the calls on one key apart, but
between the selection and the eviction nobody holds the lock of the key.

`Eviction.Sound` is what a row may expect of an eviction, `Stands` the condition on the
row as it is found, and `evictions_sound_iff` says that in every run one comes to the
other.
-/

namespace AiMeshChat.Park

open Lib PARK_DEFAULTS

/-! ## The calls of a run -/

/-- A call that writes a row. -/
inductive Writer
  | renew (key : String)
  | update (key : String) (m : ParkManifest)
  | release (key mode : String)

def Writer.prog : Writer → ParkCall (List String)
  | .renew key => do
    Park.renew key
    return []
  | .update key m => do
    Park.update key m
    return []
  | .release key mode => do
    Park.release key mode
    return []

/-- Process `0` sweeps, the others write. -/
def writersAndSweep (ws : ℕ → Writer) : ℕ → ParkCall (List String)
  | 0 => sweep
  | i + 1 => (ws i).prog

/-- The registry before the calls. -/
def contest (ws : ℕ → Writer) (t : Leases) (start : ℤ) :
    Pool ParkOp ParkAns Registry ParkErr (List String) :=
  ⟨{ rows := t, clock := start }, writersAndSweep ws⟩

/-- By the deadlines, only a row that has passed one of them is evicted; and the manifest of
an evicted row changes in its lifecycle alone. -/
def Eviction.Sound (e : Eviction) : Prop :=
  (e.rule = .ttl → e.row.pastDeadline e.time = true) ∧
    { e.manifest with lifecycle := e.row.manifest.lifecycle } = e.row.manifest

/-- The row that is evicted at the time `now` still has the manifest that was selected, its
lifecycle apart; and the deadlines too, unless those that it was given have passed. -/
def Stands (now : ℤ) (rule : Rule) (selected r : LeaseRow) : Prop :=
  { selected.manifest with lifecycle := r.manifest.lifecycle } = r.manifest ∧
    (rule = .ttl → (r.softExpires = selected.softExpires ∧ r.hardExpires = selected.hardExpires) ∨
      r.pastDeadline now = true)

/-- The condition on a step. -/
def EvictsStanding (sh : Registry) (_ : ℕ) (o : ParkOp) (c : ParkChoice) : Prop :=
  match o with
  | .evict rule selected _ => ∀ r, sh.rows.get? selected.key = some r → r.isHot = true →
      Stands (sh.clock + c.elapsed) rule selected r
  | _ => True

/-! ## What a sweep knows -/

/-- The time that the process has read; by the rule of the deadlines it evicts what it has
selected at that time. -/
def sweepRole : Role ParkOp ParkAns where
  St := ℤ
  allows now
    | .expired now' => now' = now
    | .evict .ttl selected _ => selected.pastDeadline now = true
    | _ => True
  assumes _
    | .expired now, rows => ∀ r ∈ rows, r.pastDeadline now = true
    | _, _ => True
  next now
    | .clock, now' => now'
    | _, _ => now

/-- What a writer may call. -/
def Writes : ParkOp → Prop
  | .expired _ | .evict _ _ _ => False
  | _ => True

theorem writes_of_stores {o : ParkOp} (h : o.Stores) : Writes o := by
  cases o <;> trivial

theorem release_only (key mode : String) : (release key mode).Only Writes := by
  unfold release
  split
  · exact withLock_only ⟨trivial, fun _ => trivial⟩ trivial trivial
  · refine withLock_only ⟨trivial, fun found => ?_⟩ trivial trivial
    cases found with
    | none => trivial
    | some d => exact ⟨trivial, fun now => ⟨trivial, fun _ => trivial⟩⟩

theorem writer_only (w : Writer) : w.prog.Only Writes := by
  cases w with
  | renew key =>
    have hrenew : (renew key).Only Writes :=
      ⟨trivial, fun now => withLock_only ⟨trivial, fun _ => trivial⟩ trivial trivial⟩
    exact hrenew.bind fun _ => trivial
  | update key m => exact ((update_only key m).mono fun _ => writes_of_stores).bind fun _ => trivial
  | release key mode => exact (release_only key mode).bind fun _ => trivial

theorem evictOne_only {now : ℤ} {rule : Rule} {r : LeaseRow} (target : Lifecycle)
    (h : rule = .ttl → r.pastDeadline now = true) :
    (evictOne rule r target).Only (sweepRole.Ignores now) := by
  have hevict : sweepRole.Ignores now (.evict rule r target) := by
    cases rule with
    | ttl => exact ⟨h rfl, fun _ => rfl⟩
    | lru => exact ⟨trivial, fun _ => rfl⟩
    | rounds => exact ⟨trivial, fun _ => rfl⟩
  refine withLock_only ⟨⟨trivial, fun _ => rfl⟩, fun found => ?_⟩ ⟨trivial, fun _ => rfl⟩
    ⟨trivial, fun _ => rfl⟩
  match found with
  | .error msg => trivial
  | .ok true => exact ⟨hevict, fun _ => trivial⟩
  | .ok false => exact ⟨⟨trivial, fun _ => rfl⟩, fun _ => ⟨hevict, fun _ => trivial⟩⟩

theorem evictAll_only {now : ℤ} {rule : Rule} {rs : List LeaseRow}
    (h : rule = .ttl → ∀ r ∈ rs, r.pastDeadline now = true) :
    ∀ evicted, (evictAll rule rs evicted).Only (sweepRole.Ignores now) := by
  induction rs with
  | nil => exact fun _ => trivial
  | cons r rs ih =>
    intro evicted
    refine (evictOne_only _ fun hr => h hr r List.mem_cons_self).bind fun done => ?_
    exact ih (fun hr r' hr' => h hr r' (List.mem_cons_of_mem r hr')) _

theorem sweep_keeps (now₀ : ℤ) : sweep.Keeps sweepRole now₀ fun _ _ => True := by
  refine Prog.keeps_op_bind trivial fun now _ => ?_
  refine Prog.keeps_op_bind trivial fun _ _ => ?_
  refine Prog.Keeps.ensure (M := fun _ _ => True) ?_ fun _ _ _ => ⟨trivial, fun _ _ => trivial⟩
  refine Prog.keeps_op_bind rfl fun rows hrows => ?_
  have hrest (evicted : List String) : Prog.Only (sweepRole.Ignores now) (do
      Prog.op (ParkOp.purgeCold now)
      let active ← Prog.op ParkOp.hotByActivity
      let evicted ← evictAll .lru (excess active) evicted
      let hot ← Prog.op ParkOp.hot
      let evicted ← evictAll .rounds (hot.filter (·.overRounds)) evicted
      Prog.op (ParkOp.purgeReleased (now - hardLimitSeconds))
      return evicted : ParkCall (List String)) := by
    refine ⟨⟨trivial, fun _ => rfl⟩, fun _ => ⟨⟨trivial, fun _ => rfl⟩, fun active => ?_⟩⟩
    have hlru : (evictAll .lru (excess active) evicted).Only (sweepRole.Ignores now) :=
      evictAll_only (fun h => by cases h) evicted
    have hrounds (hot : List LeaseRow) (evicted : List String) :
        (evictAll .rounds (hot.filter (·.overRounds)) evicted).Only (sweepRole.Ignores now) :=
      evictAll_only (fun h => by cases h) evicted
    refine hlru.bind fun evicted => ⟨⟨trivial, fun _ => rfl⟩, fun hot => ?_⟩
    exact (hrounds hot evicted).bind fun _ => ⟨⟨trivial, fun _ => rfl⟩, fun _ => trivial⟩
  exact (((evictAll_only (fun _ => hrows) []).bind hrest).keeps fun _ h => h).mono
    fun _ _ _ => trivial

theorem contest_keeps (ws : ℕ → Writer) (i : ℕ) (now : ℤ) :
    (writersAndSweep ws i).Keeps sweepRole now fun _ _ => True := by
  cases i with
  | zero => exact sweep_keeps now
  | succ i =>
    refine (writer_only (ws i)).keeps_of_allows (R := sweepRole) (fun now o ho => ?_) now
    cases o <;> trivial

/-! ## The invariant -/

/-- No process has read a time to come, and the evictions so far were sound. -/
def SoundSoFar (sh : Registry) (now : ℕ → ℤ) : Prop :=
  (∀ i, now i ≤ sh.clock) ∧ ∀ e ∈ sh.evictions, e.Sound

theorem pastDeadline_mono {now now' : ℤ} {r : LeaseRow} (hle : now ≤ now')
    (h : r.pastDeadline now = true) : r.pastDeadline now' = true := by
  simp only [LeaseRow.pastDeadline, Bool.or_eq_true, Bool.and_eq_true, decide_eq_true_eq] at h ⊢
  omega

theorem pastDeadline_congr {now : ℤ} {r r' : LeaseRow} (hsoft : r.softExpires = r'.softExpires)
    (hhard : r.hardExpires = r'.hardExpires) : r.pastDeadline now = r'.pastDeadline now := by
  rw [LeaseRow.pastDeadline, LeaseRow.pastDeadline, hsoft, hhard]

theorem mem_evicts {o : ParkOp} {s : Registry} {e : Eviction} (h : e ∈ o.evicts s) :
    ∃ rule selected target r, o = .evict rule selected target ∧
      s.rows.get? selected.key = some r ∧ r.isHot = true ∧
      e = ⟨rule, s.clock, r, { selected.manifest with lifecycle := target }⟩ := by
  cases o with
  | evict rule selected target =>
    simp only [ParkOp.evicts, List.mem_map, Option.mem_toList, Option.filter_eq_some_iff] at h
    obtain ⟨r, ⟨hget, hhot⟩, rfl⟩ := h
    exact ⟨rule, selected, target, r, rfl, hget, hhot, rfl⟩
  | _ => simp [ParkOp.evicts] at h

theorem sound_of_stands {now now' : ℤ} {rule : Rule} {selected r : LeaseRow} {target : Lifecycle}
    (hle : now ≤ now') (hsel : rule = .ttl → selected.pastDeadline now = true)
    (h : Stands now' rule selected r) :
    Eviction.Sound ⟨rule, now', r, { selected.manifest with lifecycle := target }⟩ := by
  refine ⟨fun hrule => ?_, h.1⟩
  rcases h.2 hrule with ⟨hsoft, hhard⟩ | hpast
  · show r.pastDeadline now' = true
    rw [pastDeadline_congr hsoft hhard]
    exact pastDeadline_mono hle (hsel hrule)
  · exact hpast

theorem op_keeps_sound : Pool.OpKeeps parkWorld sweepRole EvictsStanding SoundSoFar := by
  intro sh now i o c a sh' hJ hallow hG hw
  obtain ⟨hclock, hsound⟩ := hJ
  obtain ⟨-, rfl, rfl⟩ := perform_eq_some.mp hw
  have hle : sh.clock ≤ (sh.later c).clock := by
    show sh.clock ≤ sh.clock + c.elapsed
    omega
  refine ⟨?_, fun j => ?_, fun e he => ?_⟩
  · cases o with
    | expired now =>
      intro r hr
      have hp := (Rows.mem_select.mp hr).2
      exact (Bool.and_eq_true_iff.mp hp).2
    | _ => trivial
  · by_cases hj : j = i
    · subst hj
      rw [Function.update_self]
      cases o with
      | clock => exact le_rfl
      | _ => exact (hclock j).trans hle
    · rw [Function.update_of_ne hj]
      exact (hclock j).trans hle
  · rcases List.mem_append.mp he with he | he
    · exact hsound e he
    · obtain ⟨rule, selected, target, r, rfl, hget, hhot, rfl⟩ := mem_evicts he
      refine sound_of_stands ((hclock i).trans hle) (fun hrule => ?_) (hG r hget hhot)
      subst hrule
      exact hallow

theorem step_evictions {α : Type} (s : Pool ParkOp ParkAns Registry ParkErr α)
    (e : Event ParkChoice) :
    ∃ new, (Pool.step parkWorld s e).shared.evictions = s.shared.evictions ++ new := by
  cases e with
  | crash i => exact ⟨[], (List.append_nil _).symm⟩
  | tick i c =>
    rcases Pool.step_tick_cases (W := parkWorld) s i c with h | ⟨o, k, a, sh, -, hw, h⟩
    · exact ⟨[], by rw [h, List.append_nil]⟩
    · obtain ⟨-, -, rfl⟩ := perform_eq_some.mp hw
      exact ⟨o.evicts (s.shared.later c), by rw [h]; rfl⟩

theorem run_evictions {α : Type} : ∀ (es : List (Event ParkChoice))
    (s : Pool ParkOp ParkAns Registry ParkErr α),
    ∃ new, (Pool.run parkWorld s es).shared.evictions = s.shared.evictions ++ new := by
  intro es
  induction es with
  | nil => exact fun s => ⟨[], (List.append_nil _).symm⟩
  | cons e es ih =>
    intro s
    obtain ⟨new, hnew⟩ := step_evictions s e
    obtain ⟨new', hnew'⟩ := ih (Pool.step parkWorld s e)
    exact ⟨new ++ new', by rw [Pool.run_cons, hnew', hnew, List.append_assoc]⟩

theorem step_evict {α : Type} {s : Pool ParkOp ParkAns Registry ParkErr α} {i : ℕ} {c : ParkChoice}
    {rule : Rule} {selected : LeaseRow} {target : Lifecycle}
    (h : (s.procs i).head? = some (.evict rule selected target)) :
    (Pool.step parkWorld s (.tick i c)).shared =
      (s.shared.later c).next i (.evict rule selected target) := by
  cases hp : s.procs i with
  | call o k =>
    rw [hp] at h
    cases h
    have hw := (@perform_eq_some i (.evict rule selected target) c s.shared _ _).mpr ⟨rfl, rfl, rfl⟩
    simp only [Pool.step, hp, hw]
  | ret a => rw [hp] at h; cases h
  | raise e => rw [hp] at h; cases h
  | hang => rw [hp] at h; cases h

theorem meets_of_sound {α : Type} {s : Pool ParkOp ParkAns Registry ParkErr α}
    {e : Event ParkChoice}
    (h : ∀ v ∈ (Pool.step parkWorld s e).shared.evictions, v.Sound) : s.Meets EvictsStanding e := by
  cases e with
  | crash i => trivial
  | tick i c =>
    intro o ho
    cases o with
    | evict rule selected target =>
      intro r hget hhot
      rw [step_evict ho] at h
      have hmem : ⟨rule, s.shared.clock + c.elapsed, r,
          { selected.manifest with lifecycle := target }⟩ ∈
          (ParkOp.evict rule selected target).evicts (s.shared.later c) := by
        have hget' : (s.shared.later c).rows.get? selected.key = some r := hget
        simp only [ParkOp.evicts, hget', Option.filter_some, hhot, if_true, Option.toList_some,
          List.map_singleton, List.mem_singleton]
        rfl
      have hsound := h _ (List.mem_append_right _ hmem)
      exact ⟨hsound.2, fun hrule => .inr (hsound.1 hrule)⟩
    | _ => trivial

/-- A row that has passed its soft deadline. -/
def lateRow : LeaseRow := ⟨"k", { reviewKey := "k" }, "hot_parked", 1, 0, 0⟩

/-- The sweep selects the row, the writer renews it, the sweep evicts it. -/
def renewedBetween : List (Event ParkChoice) :=
  List.replicate 3 (.tick 0 {}) ++ List.replicate 4 (.tick 1 {}) ++ List.replicate 3 (.tick 0 {})

end AiMeshChat.Park
