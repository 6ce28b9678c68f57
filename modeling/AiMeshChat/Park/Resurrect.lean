import AiMeshChat.Park.Registry

/-!
# Releases and registrations

Any number of releases of one key, soft and hard, and any number of registrations of a
runtime for it, in any order of their statements. A registration looks the manifest up
and, if it is a hot one, writes it back with the new backend session; the lookup takes no
lock, and the update neither looks at the lifecycle again nor stops when the row is gone,
but falls back to `acquire`.

`FindsHot` is the condition on the statement that writes. Under it a key that is not hot
stays so (`cold_stays`), and a release that has returned has left the key cold
(`released_stays`).
-/

namespace AiMeshChat.Park

open Lib

/-! ## The calls -/

/-- What an accepted `runtime_register` does to the registry; an exception is logged. -/
def syncBackend (reviewKey backendSessionId : String) : ParkCall Unit :=
  if reviewKey ≠ "" ∧ backendSessionId ≠ "" then
    tryCatch (do
      match ← lookup reviewKey with
      | none => return ()
      | some m =>
        if m.lifecycle = .hotParked then
          update reviewKey { m with backendSessionId := backendSessionId, lifecycle := .hotParked }
        else return ()) fun _ => return ()
  else return ()

inductive Party
  | release (mode : String)
  | register (backendSessionId : String)

def Party.prog (key : String) : Party → ParkCall Unit
  | .release mode => Park.release key mode
  | .register backendSessionId => syncBackend key backendSessionId

/-- The registry before the calls. -/
def parties (key : String) (ps : ℕ → Party) (t : Leases) (start : ℤ) :
    Pool ParkOp ParkAns Registry ParkErr Unit :=
  ⟨{ rows := t, clock := start }, fun i => (ps i).prog key⟩

/-- `lookup` reports the key as hot. -/
def HotLease (key : String) (t : Leases) : Prop :=
  ∃ r, t.get? key = some r ∧ r.manifest.lifecycle = .hotParked

instance (key : String) (t : Leases) : Decidable (HotLease key t) :=
  decidable_of_iff ((t.get? key).any fun r => r.manifest.lifecycle = .hotParked) (by
    simp [HotLease, Option.any_eq_true])

/-- The row that a registration writes. -/
def ParkOp.written? : ParkOp → Option LeaseRow
  | .overwrite row | .insert row => some row
  | _ => none

/-- A statement that writes the manifest of a registration finds the lease hot. -/
def FindsHot (key : String) (sh : Registry) (_ : ℕ) (o : ParkOp) (_ : ParkChoice) : Prop :=
  ∀ row ∈ o.written?, row.key = key → HotLease key sh.rows

instance (key : String) (sh : Registry) (i : ℕ) (o : ParkOp) (c : ParkChoice) :
    Decidable (FindsHot key sh i o c) :=
  inferInstanceAs (Decidable (∀ row ∈ o.written?, row.key = key → HotLease key sh.rows))

/-! ## What a release knows -/

/-- Whether the process has seen the key cold. -/
def releaseRole (key : String) : Role ParkOp ParkAns where
  St := Bool
  allows _
    | .markReleased _ m _ => m.lifecycle = .releasedSoft
    | .evict _ _ _ | .purgeCold _ | .purgeReleased _ => False
    | _ => True
  assumes _ _ _ := True
  next cold
    | .manifestOf k, found => cold || (k = key && found.isNone)
    | .markReleased k _ _, _ | .delete k, _ => cold || k = key
    | _, _ => cold

variable {key : String}

theorem register_keeps (cold : Bool) (backendSessionId : String) :
    (syncBackend key backendSessionId).Keeps (releaseRole key) cold fun _ _ => True := by
  have hstores (q : Bool) (o : ParkOp) (ho : o.Stores) : (releaseRole key).allows q o := by
    cases o <;> trivial
  unfold syncBackend
  split
  · refine Prog.Keeps.tryCatch (M := fun _ _ => True) ⟨trivial, fun found _ => ?_⟩
      (fun _ _ _ => trivial) fun _ _ _ => trivial
    cases found with
    | none => trivial
    | some m =>
      show Prog.Keeps _ (if m.lifecycle = .hotParked then _ else _) _ _
      split
      · exact (update_only key _).keeps_of_allows hstores _
      · trivial
  · trivial

theorem release_keeps (cold : Bool) (mode : String) :
    (release key mode).Keeps (releaseRole key) cold fun cold' r => r = .ok () → cold' = true := by
  unfold release
  split
  · refine ⟨trivial, fun _ _ => ?_⟩
    refine Prog.Keeps.ensure (M := fun cold' _ => cold' = true) ⟨trivial, fun _ _ => ?_⟩ ?_
    · show (cold || decide (key = key)) = true
      simp
    · exact fun q r hq => ⟨trivial, fun _ _ _ => hq⟩
  · refine ⟨trivial, fun _ _ => ?_⟩
    refine Prog.Keeps.ensure (M := fun cold' _ => cold' = true) ⟨trivial, fun found _ => ?_⟩ ?_
    · cases found with
      | none =>
        show (cold || (decide (key = key) && true)) = true
        simp
      | some d =>
        refine ⟨trivial, fun now _ => ⟨rfl, fun _ _ => ?_⟩⟩
        show ((cold || (decide (key = key) && false)) || decide (key = key)) = true
        simp
    · exact fun q r hq => ⟨trivial, fun _ _ _ => hq⟩

theorem parties_keep (ps : ℕ → Party) (i : ℕ) : ((ps i).prog key).Keeps (releaseRole key) false
    fun cold r => (∃ mode, ps i = .release mode) → r = .ok () → cold = true := by
  cases h : ps i with
  | release mode => exact (release_keeps false mode).mono fun _ _ hr _ => hr
  | register backend => exact (register_keeps false backend).mono fun _ _ _ ⟨_, hm⟩ => by cases hm

/-! ## The invariant -/

theorem hot_of_same_row {t t' : Leases} (h : t'.get? key = t.get? key) (hot : HotLease key t') :
    HotLease key t := by
  obtain ⟨r, hr, hl⟩ := hot
  exact ⟨r, h ▸ hr, hl⟩

theorem hot_after {cold : Bool} {o : ParkOp} {i : ℕ} {c : ParkChoice} {sh : Registry}
    (hallow : (releaseRole key).allows cold o) (hG : FindsHot key sh i o c)
    (h : HotLease key (o.rowsAfter sh.rows)) :
    HotLease key sh.rows ∧
      (releaseRole key).next cold o (o.answer c (sh.later c)) = cold := by
  cases o with
  | insert row =>
    refine ⟨?_, rfl⟩
    by_cases hk : row.key = key
    · exact hG row rfl hk
    · refine hot_of_same_row ?_ h
      simp only [ParkOp.rowsAfter]
      split
      · rfl
      · exact Rows.get?_put_ne _ (Ne.symm hk)
  | overwrite row =>
    refine ⟨?_, rfl⟩
    by_cases hk : row.key = key
    · exact hG row rfl hk
    · refine hot_of_same_row ?_ h
      simp only [ParkOp.rowsAfter]
      split
      · exact Rows.get?_put_ne _ (Ne.symm hk)
      · rfl
  | renew k last soft =>
    refine ⟨?_, rfl⟩
    obtain ⟨r, hr, hl⟩ := h
    simp only [ParkOp.rowsAfter, Rows.get?_update_key] at hr
    split at hr
    · obtain ⟨r₀, hr₀, rfl⟩ := Option.map_eq_some_iff.mp hr
      exact ⟨r₀, hr₀, hl⟩
    · exact ⟨r, hr, hl⟩
  | markReleased k m last =>
    obtain ⟨r, hr, hl⟩ := h
    simp only [ParkOp.rowsAfter, Rows.get?_update_key] at hr
    split at hr
    · obtain ⟨r₀, hr₀, rfl⟩ := Option.map_eq_some_iff.mp hr
      rw [show (r₀.released m last).manifest = m from rfl, show m.lifecycle = _ from hallow] at hl
      cases hl
    · next hk =>
      refine ⟨⟨r, hr, hl⟩, ?_⟩
      show (cold || decide (k = key)) = cold
      simp [Ne.symm hk]
  | delete k =>
    obtain ⟨r, hr, hl⟩ := h
    simp only [ParkOp.rowsAfter, Rows.get?_delete_key] at hr
    split at hr
    · cases hr
    · next hk =>
      refine ⟨⟨r, hr, hl⟩, ?_⟩
      show (cold || decide (k = key)) = cold
      simp [Ne.symm hk]
  | manifestOf k =>
    refine ⟨h, ?_⟩
    show (cold || (decide (k = key) && ((sh.rows.get? k).map (·.manifest)).isNone)) = cold
    obtain ⟨r, hr, -⟩ := h
    by_cases hk : k = key
    · subst hk
      rw [show sh.rows.get? k = some r from hr]
      simp
    · simp [hk]
  | evict _ _ _ => exact hallow.elim
  | purgeCold _ => exact hallow.elim
  | purgeReleased _ => exact hallow.elim
  | _ => exact ⟨h, rfl⟩

/-- When some process has seen the key cold, it is. -/
def SeenCold (key : String) (sh : Registry) (cold : ℕ → Bool) : Prop :=
  (∃ i, cold i = true) → ¬ HotLease key sh.rows

theorem op_keeps_seen : Pool.OpKeeps parkWorld (releaseRole key) (FindsHot key) (SeenCold key) := by
  intro sh cold i o c a sh' hJ hallow hG hw
  obtain ⟨-, rfl, rfl⟩ := perform_eq_some.mp hw
  refine ⟨trivial, fun ⟨j, hj⟩ hhot => ?_⟩
  obtain ⟨hbefore, hnext⟩ := hot_after hallow hG hhot
  refine hJ ⟨j, ?_⟩ hbefore
  by_cases hij : j = i
  · subst hij
    rwa [Function.update_self, hnext] at hj
  · rwa [Function.update_of_ne hij] at hj

theorem op_keeps_cold : Pool.OpKeeps parkWorld (releaseRole key) (FindsHot key)
    fun sh _ => ¬ HotLease key sh.rows := by
  intro sh cold i o c a sh' hJ hallow hG hw
  obtain ⟨-, rfl, rfl⟩ := perform_eq_some.mp hw
  exact ⟨trivial, fun hhot => hJ (hot_after hallow hG hhot).1⟩

theorem crash_keeps {J : Leases → (ℕ → Bool) → Prop} :
    Pool.CrashKeeps parkWorld (releaseRole key) fun sh cold => J sh.rows cold := by
  intro sh cold i hJ
  refine ⟨cold i, ?_⟩
  rw [Function.update_eq_self]
  exact hJ

/-- **A released lease stays released.**  Once a release has returned, in a run in which every
registration that writes finds the lease hot, `lookup` does not report it hot any more. -/
theorem released_stays (key : String) (ps : ℕ → Party) (t : Leases) (start : ℤ)
    (es es' : List (Event ParkChoice)) (i : ℕ) (mode : String) (hrelease : ps i = .release mode)
    (hdone : (Pool.run parkWorld (parties key ps t start) es).procs i = .ret ())
    (hadmits : (parties key ps t start).Admits parkWorld (FindsHot key) (es ++ es')) :
    ¬ HotLease key (Pool.run parkWorld (parties key ps t start) (es ++ es')).shared.rows := by
  obtain ⟨hfirst, hthen⟩ := Pool.admits_append.mp hadmits
  have hkept : (parties key ps t start).Kept (releaseRole key) (SeenCold key) fun i cold r =>
      (∃ mode, ps i = .release mode) → r = .ok () → cold = true :=
    ⟨fun _ => false, fun ⟨_, h⟩ => (by cases h), parties_keep ps⟩
  obtain ⟨cold, hJ, hprocs⟩ := Pool.run_keeps op_keeps_seen
    (crash_keeps (J := fun t cold => (∃ i, cold i = true) → ¬ HotLease key t)) es hkept hfirst
  have hcold : cold i = true := by
    have h := hprocs i
    rw [hdone] at h
    exact h ⟨mode, hrelease⟩ rfl
  rw [Pool.run_append]
  obtain ⟨-, hend, -⟩ := Pool.run_keeps op_keeps_cold (crash_keeps (J := fun t _ => ¬ HotLease key t))
    es' ⟨cold, hJ ⟨i, hcold⟩, hprocs⟩ hthen
  exact hend

/-! ## Runs that can be evaluated -/

/-- A hot lease. -/
def hotRow : LeaseRow := ⟨"k", { reviewKey := "k" }, "hot_parked", 0, 0, 0⟩

/-- Process `0` releases the lease, the others register for it. -/
def releaseAndRegister : ℕ → Party
  | 0 => .release "soft"
  | _ => .register "b"

def hotStart : Pool ParkOp ParkAns Registry ParkErr Unit :=
  parties "k" releaseAndRegister (Rows.empty.put hotRow) 0

/-- The release, from its first step to its last. -/
def releases : List (Event ParkChoice) := List.replicate 5 (.tick 0 {})

theorem ret_of_returned {p : ParkCall Unit} (h : p.returned? = some ()) : p = .ret () := by
  cases p with
  | ret a => rfl
  | _ => cases h

/-- A registration that begins after the release has returned. -/
theorem released_stays_later : releaseAndRegister 0 = .release "soft" ∧
    (Pool.run parkWorld hotStart releases).procs 0 = .ret () ∧
    hotStart.Admits parkWorld (FindsHot "k") (releases ++ List.replicate 5 (.tick 1 {})) ∧
    ¬ HotLease "k" (Pool.run parkWorld hotStart
      (releases ++ List.replicate 5 (.tick 1 {}))).shared.rows := by
  have hdone : (Pool.run parkWorld hotStart releases).procs 0 = .ret () :=
    ret_of_returned (by decide +kernel)
  have hadmits : hotStart.Admits parkWorld (FindsHot "k")
      (releases ++ List.replicate 5 (.tick 1 {})) := by decide +kernel
  exact ⟨rfl, hdone, hadmits, released_stays "k" releaseAndRegister _ 0 releases _ 0 "soft" rfl hdone
    hadmits⟩

/-- The registration looks the lease up, the release runs to its end, the registration writes. -/
theorem released_resurrected : ¬ ∀ (key : String) (ps : ℕ → Party) (t : Leases) (start : ℤ)
    (es es' : List (Event ParkChoice)) (i : ℕ) (mode : String), ps i = .release mode →
    (Pool.run parkWorld (parties key ps t start) es).procs i = .ret () →
    ¬ HotLease key (Pool.run parkWorld (parties key ps t start) (es ++ es')).shared.rows := by
  intro h
  have hdone : (Pool.run parkWorld hotStart (.tick 1 {} :: releases)).procs 0 = .ret () :=
    ret_of_returned (by decide +kernel)
  refine h "k" releaseAndRegister (Rows.empty.put hotRow) 0 (.tick 1 {} :: releases)
    (List.replicate 5 (.tick 1 {})) 0 "soft" rfl hdone ?_
  decide +kernel

end AiMeshChat.Park
