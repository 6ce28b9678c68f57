import Mathlib.Data.List.Basic

/-!
# Searches through nested places

A place holds items in an order: something to look at, or the way to another place. A search goes
through them and into the other places, a number of levels down at most; it ends at the first thing
that it takes, and fails at the first one that it cannot judge.

`walk` is everything that such a search could look at, in its order, also where places lead back to
each other. `search_eq` reads the search off it.
-/

namespace AiMeshChat.Lib

variable {P B : Type}

inductive Item (P B : Type)
  | look (b : B)
  | enter (q : P)

def Item.elim {X : Type} (f : B → X) (g : P → X) : Item P B → X
  | .look b => f b
  | .enter q => g q

/-- What can be seen from `p`, `n` levels down at most. -/
def walk (items : P → List (Item P B)) : ℕ → P → List B
  | 0, p => (items p).flatMap (Item.elim (fun b => [b]) fun _ => [])
  | n + 1, p => (items p).flatMap (Item.elim (fun b => [b]) (walk items n))

/-- The search; it may be unable to judge a thing, and `none` is that it fails there. -/
def search (items : P → List (Item P B)) (judge : B → Option Bool) : ℕ → P → Option Bool
  | 0, p => (items p).anyM (Item.elim judge fun _ => some false)
  | n + 1, p => (items p).anyM (Item.elim judge (search items judge n))

/-- `q` is `n` steps of the relation behind `p`. -/
def Nested (R : P → P → Prop) : ℕ → P → P → Prop
  | 0, p, q => p = q
  | n + 1, p, q => ∃ r, R p r ∧ Nested R n r q

theorem anyM_append (f : B → Option Bool) (l l' : List B) :
    (l ++ l').anyM f = (l.anyM f).bind fun b => if b then some true else l'.anyM f := by
  induction l with
  | nil => rfl
  | cons a l ih =>
    simp only [List.cons_append, List.anyM_cons, ih, Option.bind_eq_bind, Option.bind_assoc]
    congr 1
    funext b
    cases b <;> rfl

theorem anyM_flatMap (f : B → Option Bool) (g : P → List B) (l : List P) :
    (l.flatMap g).anyM f = l.anyM fun a => (g a).anyM f := by
  induction l with
  | nil => rfl
  | cons a l ih =>
    rw [List.flatMap_cons, anyM_append, ih, List.anyM_cons]
    rfl

theorem anyM_map (f : B → Option Bool) (g : P → B) (l : List P) :
    (l.map g).anyM f = l.anyM fun a => f (g a) := by
  induction l with
  | nil => rfl
  | cons a l ih => rw [List.map_cons, List.anyM_cons, ih, List.anyM_cons]

theorem anyM_filter (f : B → Option Bool) (p : B → Bool) (l : List B) :
    (l.filter p).anyM f = l.anyM fun a => if p a then f a else some false := by
  induction l with
  | nil => rfl
  | cons a l ih =>
    rw [List.filter_cons, List.anyM_cons]
    by_cases hp : p a
    · rw [if_pos hp, if_pos hp, List.anyM_cons, ih]
    · rw [if_neg hp, if_neg hp, ih]
      rfl

theorem anyM_singleton (f : B → Option Bool) (b : B) : [b].anyM f = f b := by
  rw [List.anyM_cons, List.anyM_nil]
  cases f b with
  | none => rfl
  | some c => cases c <;> rfl

theorem anyM_congr {f g : B → Option Bool} {l : List B} (h : ∀ b ∈ l, f b = g b) :
    l.anyM f = l.anyM g := by
  induction l with
  | nil => rfl
  | cons a l ih =>
    rw [List.anyM_cons, List.anyM_cons, h a List.mem_cons_self,
      ih fun b hb => h b (List.mem_cons_of_mem _ hb)]

theorem search_eq (items : P → List (Item P B)) (judge : B → Option Bool) (n : ℕ) (p : P) :
    search items judge n p = (walk items n p).anyM judge := by
  induction n generalizing p with
  | zero =>
    rw [search, walk, anyM_flatMap]
    apply anyM_congr
    intro i _
    cases i with
    | look b => exact (anyM_singleton judge b).symm
    | enter q => rfl
  | succ n ih =>
    rw [search, walk, anyM_flatMap]
    apply anyM_congr
    intro i _
    cases i with
    | look b => exact (anyM_singleton judge b).symm
    | enter q => exact ih q

/-- The walk sees what lies in a place that is `n` levels down at most. -/
theorem mem_walk (items : P → List (Item P B)) {n : ℕ} {p : P} {b : B} :
    b ∈ walk items n p ↔
      ∃ k ≤ n, ∃ q, Nested (fun p q => .enter q ∈ items p) k p q ∧ .look b ∈ items q := by
  induction n generalizing p with
  | zero =>
    rw [walk, List.mem_flatMap]
    constructor
    · intro h
      obtain ⟨i, hi, hb⟩ := h
      cases i with
      | look c =>
        rw [List.mem_singleton.mp hb]
        exact ⟨0, Nat.le_refl 0, p, rfl, hi⟩
      | enter q => cases hb
    · intro h
      obtain ⟨k, hk, q, hq, hb⟩ := h
      obtain rfl : k = 0 := by omega
      cases hq
      exact ⟨.look b, hb, List.mem_singleton_self b⟩
  | succ n ih =>
    rw [walk, List.mem_flatMap]
    constructor
    · intro h
      obtain ⟨i, hi, hb⟩ := h
      cases i with
      | look c =>
        rw [List.mem_singleton.mp hb]
        exact ⟨0, Nat.zero_le _, p, rfl, hi⟩
      | enter r =>
        obtain ⟨k, hk, q, hq, hb'⟩ := ih.mp hb
        exact ⟨k + 1, by omega, q, ⟨r, hi, hq⟩, hb'⟩
    · intro h
      obtain ⟨k, hk, q, hq, hb⟩ := h
      cases k with
      | zero =>
        cases hq
        exact ⟨.look b, hb, List.mem_singleton_self b⟩
      | succ k =>
        obtain ⟨r, hr, hq'⟩ := hq
        exact ⟨.enter r, hr, ih.mpr ⟨k, by omega, q, hq', hb⟩⟩

/-! ## The outcome -/

theorem true_iff_of_anyM {f : B → Option Bool} {l : List B} {c : Bool} (h : l.anyM f = some c) :
    c = true ↔ ∃ b ∈ l, f b = some true := by
  induction l with
  | nil =>
    cases h
    refine ⟨fun h => (by cases h), fun h => ?_⟩
    obtain ⟨b, hb, _⟩ := h
    cases hb
  | cons a l ih =>
    rw [List.anyM_cons] at h
    cases hf : f a with
    | none => rw [hf] at h; cases h
    | some d =>
      rw [hf] at h
      cases d with
      | true =>
        cases h
        exact ⟨fun _ => ⟨a, List.mem_cons_self, hf⟩, fun _ => rfl⟩
      | false =>
        rw [ih h]
        constructor
        · intro h
          obtain ⟨b, hb, hfb⟩ := h
          exact ⟨b, List.mem_cons_of_mem _ hb, hfb⟩
        · intro h
          obtain ⟨b, hb, hfb⟩ := h
          rcases List.mem_cons.mp hb with rfl | hb
          · rw [hf] at hfb; cases hfb
          · exact ⟨b, hb, hfb⟩

theorem anyM_isSome_iff {f : B → Option Bool} {l : List B} :
    (l.anyM f).isSome ↔
      ∀ before b after, l = before ++ b :: after → f b = none → ∃ c ∈ before, f c = some true := by
  induction l with
  | nil =>
    refine ⟨fun _ before b after hl => ?_, fun _ => rfl⟩
    cases before <;> cases hl
  | cons a l ih =>
    rw [List.anyM_cons]
    cases hf : f a with
    | none =>
      refine ⟨fun h => (by cases h), fun h => ?_⟩
      obtain ⟨c, hc, _⟩ := h [] a l rfl hf
      cases hc
    | some d =>
      cases d with
      | true =>
        refine ⟨fun _ before b after hl hb => ?_, fun _ => rfl⟩
        cases before with
        | nil =>
          cases hl
          rw [hf] at hb
          cases hb
        | cons c before =>
          cases hl
          exact ⟨a, List.mem_cons_self, hf⟩
      | false =>
        show (l.anyM f).isSome ↔ _
        rw [ih]
        constructor
        · intro h before b after hl hb
          cases before with
          | nil =>
            cases hl
            rw [hf] at hb
            cases hb
          | cons c before =>
            cases hl
            obtain ⟨c, hc, htrue⟩ := h before b after rfl hb
            exact ⟨c, List.mem_cons_of_mem _ hc, htrue⟩
        · intro h before b after hl hb
          obtain ⟨c, hc, htrue⟩ := h (a :: before) b after (by rw [hl]; rfl) hb
          rcases List.mem_cons.mp hc with rfl | hc
          · rw [hf] at htrue
            cases htrue
          · exact ⟨c, hc, htrue⟩

end AiMeshChat.Lib
