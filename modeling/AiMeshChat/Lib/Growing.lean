import Mathlib.Data.List.Sort
import Mathlib.Order.Basic

/-!
# Reading a growing list by its keys

A list stands in the order of its keys and grows at its end. A reader keeps a cursor:
it asks for the first `n` elements whose key is beyond the cursor, and its next cursor is
the key of the last one it got, or the old cursor if it got none.

The elements up to the cursor are what a reader has seen. A page adds to them exactly its
own elements, and an element that is added to the list with a key beyond the cursor does
not change them.
-/

namespace AiMeshChat.Lib.Growing

variable {α κ : Type} [LinearOrder κ] {key : α → κ}

/-- The list stands in the order of its keys, and no two are equal. -/
def Ascending (key : α → κ) (l : List α) : Prop := l.Pairwise fun x y => key x < key y

/-- What has a key up to `c`. -/
def upTo (key : α → κ) (c : κ) (l : List α) : List α := l.filter fun x => key x ≤ c

/-- The first `n` elements with a key beyond `c`. -/
def page (key : α → κ) (n : ℕ) (c : κ) (l : List α) : List α :=
  (l.filter fun x => c < key x).take n

/-- The cursor after a page. -/
def cursorAfter (key : α → κ) (c : κ) (p : List α) : κ := (p.getLast?.map key).getD c

theorem Ascending.sublist {l l' : List α} (h : Ascending key l) (hs : l'.Sublist l) :
    Ascending key l' := List.Pairwise.sublist hs h

theorem Ascending.filter {l : List α} (h : Ascending key l) (p : α → Bool) :
    Ascending key (l.filter p) := h.sublist List.filter_sublist

theorem Ascending.concat {l : List α} {x : α} (h : Ascending key l)
    (hx : ∀ y ∈ l, key y < key x) : Ascending key (l ++ [x]) := by
  refine List.pairwise_append.mpr ⟨h, List.pairwise_singleton _ _, fun y hy z hz => ?_⟩
  rw [List.mem_singleton.mp hz]
  exact hx y hy

theorem mem_upTo {c : κ} {l : List α} {x : α} : x ∈ upTo key c l ↔ x ∈ l ∧ key x ≤ c := by
  simp [upTo]

theorem mem_page {n : ℕ} {c : κ} {l : List α} {x : α} (h : x ∈ page key n c l) :
    x ∈ l ∧ c < key x := by
  have hin := List.mem_of_mem_take h
  simpa using hin

omit [LinearOrder κ] in
theorem cursorAfter_cases (c : κ) (p : List α) :
    p = [] ∧ cursorAfter key c p = c ∨
      ∃ x ∈ p, p.getLast? = some x ∧ cursorAfter key c p = key x := by
  unfold cursorAfter
  cases hp : p.getLast? with
  | none => exact .inl ⟨List.getLast?_eq_none_iff.mp hp, rfl⟩
  | some x => exact .inr ⟨x, List.mem_of_getLast? hp, rfl, rfl⟩

theorem Ascending.le_getLast {l : List α} (h : Ascending key l) {x y : α}
    (hlast : l.getLast? = some x) (hy : y ∈ l) : key y ≤ key x := by
  obtain ⟨front, rfl⟩ := List.getLast?_eq_some_iff.mp hlast
  rcases List.mem_append.mp hy with hy | hy
  · exact ((List.pairwise_append.mp h).2.2 y hy x (List.mem_singleton_self x)).le
  · rw [List.mem_singleton.mp hy]

theorem upTo_append_beyond {l : List α} (h : Ascending key l) (c : κ) :
    upTo key c l ++ l.filter (fun x => c < key x) = l := by
  induction l with
  | nil => rfl
  | cons x l ih =>
    obtain ⟨hx, hl⟩ := List.pairwise_cons.mp h
    unfold upTo at ih ⊢
    by_cases hc : key x ≤ c
    · rw [List.filter_cons_of_pos (by simpa using hc), List.filter_cons_of_neg (by simpa using hc),
        List.cons_append, ih hl]
    · -- what follows has a greater key, so nothing of it is up to `c` either
      have hlt : c < key x := not_le.mp hc
      have hnone : l.filter (fun y => key y ≤ c) = [] := by
        refine List.filter_eq_nil_iff.mpr fun y hy => ?_
        have hlater := hlt.trans (hx y hy)
        simpa using hlater
      have hall : l.filter (fun y => c < key y) = l := by
        refine List.filter_eq_self.mpr fun y hy => ?_
        simpa using hlt.trans (hx y hy)
      rw [List.filter_cons_of_neg (by simpa using hc), List.filter_cons_of_pos (by simpa using hlt),
        hnone, hall, List.nil_append]

/-- **A page adds its elements to what is up to the cursor, and nothing else.** -/
theorem upTo_append_page {l : List α} (h : Ascending key l) (n : ℕ) (c : κ) :
    upTo key c l ++ page key n c l = upTo key (cursorAfter key c (page key n c l)) l := by
  rcases cursorAfter_cases c (page key n c l) with ⟨hnil, hc⟩ | ⟨x, hx, hlast, hc⟩
  · rw [hc, hnil, List.append_nil]
  · rw [hc]
    have hsplit := upTo_append_beyond h c
    have htake := List.take_append_drop n (l.filter fun x => c < key x)
    have hl : l = (upTo key c l ++ page key n c l) ++ (l.filter fun x => c < key x).drop n := by
      rw [List.append_assoc, page, htake, hsplit]
    obtain ⟨hfront, -, hcross⟩ := List.pairwise_append.mp (hl ▸ h)
    -- up to the last element of the page: the front keeps all, the rest nothing
    have hkeep : upTo key (key x) (upTo key c l ++ page key n c l) =
        upTo key c l ++ page key n c l := by
      refine List.filter_eq_self.mpr fun y hy => ?_
      have hle : key y ≤ key x := Ascending.le_getLast hfront (by
        rw [List.getLast?_append, hlast]
        rfl) hy
      simpa using hle
    have hdrop : upTo key (key x) ((l.filter fun x => c < key x).drop n) = [] := by
      refine List.filter_eq_nil_iff.mpr fun y hy => ?_
      have hlt := hcross x (List.mem_append_right _ hx) y hy
      simpa using hlt
    calc upTo key c l ++ page key n c l
        = upTo key (key x) (upTo key c l ++ page key n c l) ++
            upTo key (key x) ((l.filter fun x => c < key x).drop n) := by
          rw [hkeep, hdrop, List.append_nil]
      _ = upTo key (key x) ((upTo key c l ++ page key n c l) ++
            (l.filter fun x => c < key x).drop n) := (List.filter_append _ _).symm
      _ = upTo key (key x) l := by rw [← hl]

/-- **A page that is not full leaves nothing behind.** -/
theorem le_cursorAfter_of_short {l : List α} (h : Ascending key l) {n : ℕ} {c : κ}
    (hshort : (page key n c l).length < n) {x : α} (hx : x ∈ l) :
    key x ≤ cursorAfter key c (page key n c l) := by
  have hall : page key n c l = l.filter fun x => c < key x := by
    refine List.take_of_length_le ?_
    rw [page, List.length_take] at hshort
    omega
  have hseen : x ∈ upTo key c l ++ page key n c l := by
    rw [hall, upTo_append_beyond h c]
    exact hx
  rw [upTo_append_page h n c] at hseen
  exact (mem_upTo.mp hseen).2

theorem mem_front {n : ℕ} {c : κ} {l front back : List α} {x y : α} (h : Ascending key l)
    (hpage : page key n c l = front ++ y :: back) (hx : x ∈ l) (hc : c < key x)
    (hle : key x ≤ key y) : x ∈ front ++ [y] := by
  have hsplit : (l.filter fun x => c < key x) =
      front ++ y :: (back ++ (l.filter fun x => c < key x).drop n) := by
    have htake := List.take_append_drop n (l.filter fun x => c < key x)
    rw [page] at hpage
    rw [hpage, List.append_assoc, List.cons_append] at htake
    exact htake.symm
  have hin : x ∈ l.filter fun x => c < key x := List.mem_filter.mpr ⟨hx, by simpa using hc⟩
  rw [hsplit] at hin
  rcases List.mem_append.mp hin with hfront | hrest
  · exact List.mem_append_left _ hfront
  · rcases List.mem_cons.mp hrest with rfl | hlater
    · exact List.mem_append_right _ List.mem_cons_self
    · have hasc := h.filter fun x => c < key x
      rw [hsplit] at hasc
      have hlt := (List.pairwise_cons.mp (List.pairwise_append.mp hasc).2.1).1 x hlater
      exact absurd hlt (not_lt.mpr hle)

theorem upTo_append_of_lt {c : κ} {l l' : List α} (h : ∀ x ∈ l', c < key x) :
    upTo key c (l ++ l') = upTo key c l := by
  have hnone : upTo key c l' = [] := by
    refine List.filter_eq_nil_iff.mpr fun x hx => ?_
    simpa using h x hx
  unfold upTo at hnone ⊢
  rw [List.filter_append, hnone, List.append_nil]

end AiMeshChat.Lib.Growing
