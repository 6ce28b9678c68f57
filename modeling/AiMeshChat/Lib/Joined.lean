import Mathlib.Data.List.Basic

/-!
# Texts joined by a separator

The fields of a record joined with a separator that may occur in them. What the joined text
keeps is the list of the pieces that no separator divides; which field a piece was in is lost.
So two records of the same text are equal if and only if they have the same number of
separators in each field.
-/

namespace AiMeshChat.Lib

section Joined

variable {α : Type} [BEq α] [LawfulBEq α] {sep : α}

/-- The pieces of a list of fields. -/
def pieces (sep : α) (fields : List (List α)) : List (List α) := fields.flatMap (·.splitOn sep)

theorem splitOn_joined {f : List α} {fs : List (List α)} :
    ([sep].intercalate (f :: fs)).splitOn sep = pieces sep (f :: fs) := by
  induction fs generalizing f with
  | nil => simp [pieces]
  | cons g gs ih =>
    have hcons : [sep].intercalate (f :: g :: gs) = f ++ sep :: [sep].intercalate (g :: gs) := by
      simp [List.intercalate, List.intersperse]
    rw [hcons, List.splitOn_append_cons_of_beq _ _ (beq_self_eq_true sep), ih]
    rfl

theorem splitOn_injective : Function.Injective (List.splitOn sep) := by
  intro f g h
  have hf : [sep].intercalate (f.splitOn sep) = f := List.intercalate_splitOn sep
  rw [← hf, h, List.intercalate_splitOn]

/-- **What the text keeps** are the pieces. -/
theorem joined_eq_iff {f g : List α} {fs gs : List (List α)} :
    [sep].intercalate (f :: fs) = [sep].intercalate (g :: gs) ↔
      pieces sep (f :: fs) = pieces sep (g :: gs) := by
  rw [← splitOn_joined, ← splitOn_joined]
  exact splitOn_injective.eq_iff.symm

omit [LawfulBEq α] in
theorem length_splitOn (f : List α) : (f.splitOn sep).length = f.count sep + 1 := by
  induction f with
  | nil => rfl
  | cons x f ih =>
    rw [List.splitOn_cons_eq_if_modifyHead, List.count_cons]
    split
    · rw [List.length_cons, ih]
    · rw [List.length_modifyHead, ih]

theorem eq_of_pieces {fs gs : List (List α)} (hpieces : pieces sep fs = pieces sep gs)
    (hcount : fs.map (·.count sep) = gs.map (·.count sep)) : fs = gs := by
  induction fs generalizing gs with
  | nil => exact (List.map_eq_nil_iff.mp hcount.symm).symm
  | cons f fs ih =>
    cases gs with
    | nil => cases hcount
    | cons g gs =>
      rw [List.map_cons, List.map_cons, List.cons.injEq] at hcount
      have hlen : (f.splitOn sep).length = (g.splitOn sep).length := by
        rw [length_splitOn, length_splitOn, hcount.1]
      obtain ⟨hhead, htail⟩ := List.append_inj hpieces hlen
      rw [splitOn_injective hhead, ih htail hcount.2]

theorem joined_injective_iff {f g : List α} {fs gs : List (List α)} :
    ([sep].intercalate (f :: fs) = [sep].intercalate (g :: gs) → f :: fs = g :: gs) ↔
      ¬ (pieces sep (f :: fs) = pieces sep (g :: gs) ∧
        (f :: fs).map (·.count sep) ≠ (g :: gs).map (·.count sep)) := by
  rw [joined_eq_iff, not_and, not_not]
  constructor
  · intro h hpieces
    rw [h hpieces]
  · intro h hpieces
    exact eq_of_pieces hpieces (h hpieces)

end Joined

end AiMeshChat.Lib
