import Mathlib.Logic.Basic

/-!
# Runs of a machine

A machine makes one action after another, and each changes its state. `Admits` says that
every action of a run meets a condition in the state in which it is made; the rules below
lead from a single action to all of a run. Where an action may lead to several states the
run lists those it came through (`Trail`).
-/

namespace AiMeshChat.Lib.History

variable {S A : Type}

/-- The state after the actions. -/
def after (step : S → A → S) (s : S) (acts : List A) : S := acts.foldl step s

/-- Each action meets the condition in the state in which it is made. -/
def Admits (step : S → A → S) (Meets : S → A → Prop) : S → List A → Prop
  | _, [] => True
  | s, a :: acts => Meets s a ∧ Admits step Meets (step s a) acts

variable {step : S → A → S} {Meets : S → A → Prop} {s : S} {acts : List A}

theorem after_append (acts' : List A) :
    after step s (acts ++ acts') = after step (after step s acts) acts' := List.foldl_append

theorem admits_append {acts' : List A} : Admits step Meets s (acts ++ acts') ↔
    Admits step Meets s acts ∧ Admits step Meets (after step s acts) acts' := by
  induction acts generalizing s with
  | nil => exact ⟨fun h => ⟨trivial, h⟩, And.right⟩
  | cons a acts ih => exact (and_congr_right fun _ => ih).trans and_assoc.symm

theorem Admits.and_mem {P : A → Prop} (h : Admits step Meets s acts) (hP : ∀ a ∈ acts, P a) :
    Admits step (fun s a => Meets s a ∧ P a) s acts := by
  induction acts generalizing s with
  | nil => trivial
  | cons a acts ih =>
    exact ⟨⟨h.1, hP a List.mem_cons_self⟩, ih h.2 fun b hb => hP b (List.mem_cons_of_mem a hb)⟩

theorem Admits.invariant {Inv : S → Prop} (h : Admits step Meets s acts)
    (hstep : ∀ s a, Inv s → Meets s a → Inv (step s a)) (hs : Inv s) :
    Inv (after step s acts) := by
  induction acts generalizing s with
  | nil => exact hs
  | cons a acts ih => exact ih h.2 (hstep s a hs h.1)

theorem admits_congr {Inv : S → Prop} {Meets' : S → A → Prop}
    (hiff : ∀ s a, Inv s → (Meets s a ↔ Meets' s a))
    (hstep : ∀ s a, Inv s → Meets' s a → Inv (step s a)) (hs : Inv s) :
    Admits step Meets s acts ↔ Admits step Meets' s acts := by
  induction acts generalizing s with
  | nil => exact Iff.rfl
  | cons a acts ih =>
    constructor
    · rintro ⟨ha, h⟩
      have ha' : Meets' s a := (hiff s a hs).mp ha
      exact ⟨ha', (ih (hstep s a hs ha')).mp h⟩
    · rintro ⟨ha', h⟩
      exact ⟨(hiff s a hs).mpr ha', (ih (hstep s a hs ha')).mpr h⟩

theorem after_invariant {Inv : S → Prop} (hstep : ∀ s a, Inv s → Inv (step s a)) (hs : Inv s) :
    Inv (after step s acts) := by
  induction acts generalizing s with
  | nil => exact hs
  | cons a acts ih => exact ih (hstep s a hs)

/-- A run ends well exactly if it admits the condition, when an action that does not meet it
does damage that no later one repairs. -/
theorem good_iff_admits {Inv Bad Good : S → Prop} (hgood : ∀ s, Inv s → Good s)
    (hstep : ∀ s a, Inv s → Meets s a → Inv (step s a))
    (hdamage : ∀ s a, Inv s → ¬ Meets s a → Bad (step s a))
    (hstays : ∀ s a, Bad s → Bad (step s a)) (hbad : ∀ s, Bad s → ¬ Good s) (hs : Inv s) :
    Good (after step s acts) ↔ Admits step Meets s acts := by
  induction acts generalizing s with
  | nil => exact ⟨fun _ => trivial, fun _ => hgood s hs⟩
  | cons a acts ih =>
    by_cases ha : Meets s a
    · exact (ih (hstep s a hs ha)).trans ⟨fun h => ⟨ha, h⟩, And.right⟩
    · refine ⟨fun h => ?_, fun h => absurd h.1 ha⟩
      have hdone : Bad (after step (step s a) acts) := after_invariant hstays (hdamage s a hs ha)
      exact absurd h (hbad _ hdone)

/-! ## Runs of a relation -/

/-- A run from `s`: the actions, each with the state it leads to. -/
def Trail (step : S → A → S → Prop) : S → List (A × S) → Prop
  | _, [] => True
  | s, (a, t) :: run => step s a t ∧ Trail step t run

/-- Each action of the run meets the condition in the state in which it is made. -/
def Along (C : S → A → Prop) : S → List (A × S) → Prop
  | _, [] => True
  | s, (a, t) :: run => C s a ∧ Along C t run

/-- The states of the run. -/
def visited (s : S) (run : List (A × S)) : List S := s :: run.map Prod.snd

/-- **The condition is exact.**  Where an action that does not meet the condition leads to a
bad state, the runs that meet it are those that come through good states only. -/
theorem Trail.along_iff {step : S → A → S → Prop} {C : S → A → Prop} {I Good : S → Prop}
    (hgood : ∀ s, I s → Good s) (hkeep : ∀ s a t, I s → C s a → step s a t → I t)
    (hdamage : ∀ s a t, I s → ¬ C s a → step s a t → ¬ Good t) {run : List (A × S)} :
    ∀ {s : S}, I s → Trail step s run → (Along C s run ↔ ∀ t ∈ visited s run, Good t) := by
  induction run with
  | nil =>
    intro s hs _
    exact ⟨fun _ t ht => List.mem_singleton.mp ht ▸ hgood s hs, fun _ => trivial⟩
  | cons x run ih =>
    obtain ⟨a, t⟩ := x
    rintro s hs ⟨hstep, hrun⟩
    have hvisited : visited s ((a, t) :: run) = s :: visited t run := rfl
    rw [hvisited, List.forall_mem_cons]
    constructor
    · rintro ⟨ha, hrest⟩
      exact ⟨hgood s hs, (ih (hkeep s a t hs ha hstep) hrun).mp hrest⟩
    · rintro ⟨-, hall⟩
      have ha : C s a := Classical.byContradiction fun hno =>
        hdamage s a t hs hno hstep (hall t List.mem_cons_self)
      exact ⟨ha, (ih (hkeep s a t hs ha hstep) hrun).mpr hall⟩

theorem Trail.along_iff_trail {step G : S → A → S → Prop} {C : S → A → Prop}
    (hiff : ∀ s a t, step s a t → (C s a ↔ G s a t)) {run : List (A × S)} :
    ∀ {s : S}, Trail step s run → (Along C s run ↔ Trail G s run) := by
  induction run with
  | nil => exact fun _ => Iff.rfl
  | cons x run ih =>
    obtain ⟨a, t⟩ := x
    rintro s ⟨hstep, hrun⟩
    exact and_congr (hiff s a t hstep) (ih hrun)

end AiMeshChat.Lib.History
