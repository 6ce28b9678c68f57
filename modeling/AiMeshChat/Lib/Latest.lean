import Mathlib.Data.List.Basic

/-!
# The latest value of a key

A list of assignments is read in order: a key holds the value of its last assignment, or what it
held before if there is none.
-/

namespace AiMeshChat.Lib

variable {K V : Type} [DecidableEq K]

/-- What the key holds after the assignments. -/
def latest (k : K) (old : Option V) (l : List (K × V)) : Option V :=
  l.foldl (fun old a => if a.1 = k then some a.2 else old) old

theorem latest_cons (k : K) (old : Option V) (a : K × V) (l : List (K × V)) :
    latest k old (a :: l) = latest k (if a.1 = k then some a.2 else old) l := rfl

theorem latest_append (k : K) (old : Option V) (l l' : List (K × V)) :
    latest k old (l ++ l') = latest k (latest k old l) l' := List.foldl_append

theorem latest_of_forall_ne {k : K} {l : List (K × V)} (h : ∀ a ∈ l, a.1 ≠ k) (old : Option V) :
    latest k old l = old := by
  induction l generalizing old with
  | nil => rfl
  | cons a l ih =>
    rw [latest_cons, if_neg (h a List.mem_cons_self)]
    exact ih (fun b hb => h b (List.mem_cons_of_mem _ hb)) old

theorem mem_of_latest {k : K} {v : V} {l : List (K × V)} {old : Option V}
    (h : latest k old l = some v) : (k, v) ∈ l ∨ old = some v := by
  induction l generalizing old with
  | nil => exact .inr h
  | cons a l ih =>
    rw [latest_cons] at h
    rcases ih h with hmem | hold
    · exact .inl (List.mem_cons_of_mem _ hmem)
    · split at hold
      · next hk =>
        cases hold
        exact .inl (hk ▸ List.mem_cons_self)
      · exact .inr hold

theorem latest_of_mem {k : K} {v : V} {l : List (K × V)} (hmem : (k, v) ∈ l)
    (huniq : ∀ w, (k, w) ∈ l → w = v) (old : Option V) : latest k old l = some v := by
  induction l generalizing old with
  | nil => cases hmem
  | cons a l ih =>
    have htail : ∀ w, (k, w) ∈ l → w = v := fun w hw => huniq w (List.mem_cons_of_mem _ hw)
    by_cases hl : (k, v) ∈ l
    · exact ih hl htail _
    · have ha : a = (k, v) := ((List.mem_cons.mp hmem).resolve_right hl).symm
      rw [latest_cons, ha, if_pos rfl, latest_of_forall_ne]
      intro b hb hk
      exact hl (by rw [← htail b.2 (hk ▸ hb), ← hk]; exact hb)

theorem latest_insert {m l' : List (K × V)} (h : ∀ a ∈ m, ∀ b ∈ l', a.1 ≠ b.1) (k : K)
    (old : Option V) (l : List (K × V)) :
    latest k old (l ++ m ++ l') = latest k (latest k old (l ++ l')) m := by
  rw [latest_append, latest_append, latest_append]
  by_cases hk : ∃ a ∈ m, a.1 = k
  · obtain ⟨a, ha, rfl⟩ := hk
    have hl' : ∀ b ∈ l', b.1 ≠ a.1 := fun b hb => (h a ha b hb).symm
    rw [latest_of_forall_ne hl', latest_of_forall_ne hl']
  · have hm : ∀ a ∈ m, a.1 ≠ k := fun a ha heq => hk ⟨a, ha, heq⟩
    rw [latest_of_forall_ne hm, latest_of_forall_ne hm]

end AiMeshChat.Lib
