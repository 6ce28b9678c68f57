import Mathlib.Data.Multiset.Count

/-!
# Lists with the same elements

Two lists have the same elements, up to an equivalence and in any order, when their elements can be
paired off. `rel_iff_countP` says so with counting: every element stands in both equally often.
-/

namespace AiMeshChat.Lib

open Classical

variable {α : Type} (same : Setoid α)

/-- How many elements of the list are equivalent to `x`. -/
noncomputable def occurrences (x : α) (l : List α) : ℕ := l.countP fun y => same x y

/-- The elements can be paired off. -/
def SameElements (a b : List α) : Prop := Multiset.Rel (fun x y => same x y) a b

variable {same}

theorem occurrences_cons (x y : α) (l : List α) :
    occurrences same x (y :: l) = occurrences same x l + if same x y then 1 else 0 := by
  rw [occurrences, List.countP_cons]
  simp [occurrences]

theorem occurrences_middle (x y : α) (l l' : List α) :
    occurrences same x (l ++ y :: l') = occurrences same x (l ++ l') + if same x y then 1 else 0 := by
  simp only [occurrences, List.countP_append, List.countP_cons, decide_eq_true_eq]
  omega

theorem exists_of_occurrences_pos {x : α} {l : List α} (h : 0 < occurrences same x l) :
    ∃ y ∈ l, same x y := by
  obtain ⟨y, hy, hxy⟩ := List.countP_pos_iff.mp h
  exact ⟨y, hy, of_decide_eq_true hxy⟩

theorem occurrences_pos {x : α} {l : List α} (h : x ∈ l) : 0 < occurrences same x l :=
  List.countP_pos_iff.mpr ⟨x, h, decide_eq_true (same.refl x)⟩

theorem exists_of_forall_occurrences {a b : List α}
    (h : ∀ x, occurrences same x a = occurrences same x b) {x : α} (hx : x ∈ a) :
    ∃ y ∈ b, same x y :=
  exists_of_occurrences_pos (h x ▸ occurrences_pos hx)

theorem sameElements_iff {a b : List α} :
    SameElements same a b ↔ ∀ x, occurrences same x a = occurrences same x b := by
  induction a generalizing b with
  | nil =>
    rw [SameElements, Multiset.coe_nil, Multiset.rel_zero_left, Multiset.coe_eq_zero]
    constructor
    · intro hb x
      rw [hb]
    · intro h
      cases b with
      | nil => rfl
      | cons y b =>
        have hy := h y
        rw [occurrences_cons, if_pos (same.refl y)] at hy
        exact absurd hy (by simp [occurrences])
  | cons x a ih =>
    rw [SameElements, ← Multiset.cons_coe, Multiset.rel_cons_left]
    constructor
    · intro h z
      obtain ⟨y, rest, hxy, hrel, hb⟩ := h
      induction rest using Quotient.inductionOn with
      | h rest =>
        have hperm : b.Perm (y :: rest) := Quotient.exact hb
        have hcount : occurrences same z b = occurrences same z (y :: rest) := hperm.countP_eq _
        rw [hcount, occurrences_cons, occurrences_cons, ih.mp hrel z]
        congr 1
        refine if_congr ⟨fun h => same.trans h hxy, fun h => same.trans h (same.symm hxy)⟩ rfl rfl
    · intro h
      have hpos : 0 < occurrences same x b := by
        rw [← h x, occurrences_cons, if_pos (same.refl x)]
        omega
      obtain ⟨y, hy, hxy⟩ := exists_of_occurrences_pos hpos
      obtain ⟨l, l', rfl⟩ := List.append_of_mem hy
      refine ⟨y, ↑(l ++ l'), hxy, ih.mpr fun z => ?_, ?_⟩
      · have hz := h z
        have hiff : same z x ↔ same z y :=
          ⟨fun h => same.trans h hxy, fun h => same.trans h (same.symm hxy)⟩
        rw [occurrences_cons, occurrences_middle, if_congr hiff rfl rfl] at hz
        omega
      · exact Quotient.sound List.perm_middle

end AiMeshChat.Lib
