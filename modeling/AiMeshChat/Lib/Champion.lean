import Mathlib.Data.List.Induction
import Mathlib.Data.List.Sort
import Mathlib.Order.Basic

/-!
# The best of the first few

A search looks at the first `n` elements of a list and keeps the best of them: the first one
with the highest rank, where some elements have no rank at all (`champion`).

Some of the elements are one's own, the others are somebody else's. `champion_take_iff` says
when the others make no difference to the result: none of them wins, and none of one's own
that would win is pushed out of the first `n`.
-/

namespace AiMeshChat.Lib

variable {α β : Type}

/-! ## The first of the best -/

section Champion

variable [LT β] [DecidableLT β] (rank : α → Option β)

/-- Take `x` instead if its rank is higher. -/
def better (best : Option α) (x : α) : Option α :=
  match rank x, best.bind rank with
  | none, _ => best
  | some _, none => some x
  | some r, some b => if b < r then some x else best

/-- The first of the elements with the highest rank. -/
def champion (l : List α) : Option α := l.foldl (better rank) none

end Champion

section Order

variable [LinearOrder β] {rank : α → Option β} {l : List α} {x : α} {r : β}

/-- `x` has the rank `r`, more than those before it and no less than those after it. -/
structure Wins (rank : α → Option β) (l₁ : List α) (x : α) (l₂ : List α) (r : β) : Prop where
  ranked : rank x = some r
  before : ∀ y ∈ l₁, ∀ q, rank y = some q → q < r
  after : ∀ y ∈ l₂, ∀ q, rank y = some q → q ≤ r

theorem Wins.le {l₁ l₂ : List α} (h : Wins rank l₁ x l₂ r) {y : α} (hy : y ∈ l₁ ++ x :: l₂) {q : β}
    (hq : rank y = some q) : q ≤ r := by
  rcases List.mem_append.mp hy with hy | hy
  · exact (h.before y hy q hq).le
  · rcases List.mem_cons.mp hy with rfl | hy
    · rw [h.ranked] at hq
      cases hq
      exact le_rfl
    · exact h.after y hy q hq

theorem champion_concat (l : List α) (x : α) :
    champion rank (l ++ [x]) = better rank (champion rank l) x := by
  rw [champion, champion, List.foldl_append]
  rfl

theorem champion_eq_none_iff : champion rank l = none ↔ ∀ y ∈ l, rank y = none := by
  induction l using List.reverseRecOn with
  | nil => exact ⟨fun _ y hy => absurd hy List.not_mem_nil, fun _ => rfl⟩
  | append_singleton l x ih =>
    rw [champion_concat]
    cases hx : rank x with
    | none =>
      simp only [better, hx, List.mem_append, List.mem_singleton, ih]
      constructor
      · rintro h y (hy | rfl)
        · exact h y hy
        · exact hx
      · exact fun h y hy => h y (.inl hy)
    | some r =>
      have hne : better rank (champion rank l) x ≠ none := by
        unfold better
        rw [hx]
        cases hb : (champion rank l).bind rank with
        | none => exact Option.some_ne_none x
        | some b =>
          dsimp only
          split_ifs
          · exact Option.some_ne_none x
          · intro hnone
            rw [hnone] at hb
            cases hb
      refine iff_of_false hne fun h => ?_
      rw [h x (List.mem_append_right _ List.mem_cons_self)] at hx
      cases hx

theorem champion_wins (h : champion rank l = some x) :
    ∃ l₁ l₂ r, l = l₁ ++ x :: l₂ ∧ Wins rank l₁ x l₂ r := by
  induction l using List.reverseRecOn generalizing x with
  | nil => cases h
  | append_singleton l z ih =>
    rw [champion_concat] at h
    cases hz : rank z with
    | none =>
      simp only [better, hz] at h
      obtain ⟨l₁, l₂, r, hl, hwins⟩ := ih h
      refine ⟨l₁, l₂ ++ [z], r, by rw [hl]; simp, hwins.ranked, hwins.before, fun y hy q hq => ?_⟩
      rcases List.mem_append.mp hy with hy | hy
      · exact hwins.after y hy q hq
      · rw [List.mem_singleton.mp hy, hz] at hq
        cases hq
    | some rz =>
      cases hc : champion rank l with
      | none =>
        simp only [better, hz, hc, Option.bind_none] at h
        cases h
        refine ⟨l, [], rz, rfl, hz, fun y hy q hq => ?_, fun y hy => absurd hy List.not_mem_nil⟩
        rw [champion_eq_none_iff.mp hc y hy] at hq
        cases hq
      | some c =>
        obtain ⟨l₁, l₂, r, hl, hwins⟩ := ih hc
        simp only [better, hz, hc, Option.bind_some, hwins.ranked] at h
        split_ifs at h with hless
        · cases h
          refine ⟨l, [], rz, rfl, hz, fun y hy q hq => ?_, fun y hy => absurd hy List.not_mem_nil⟩
          rw [hl, List.mem_append, List.mem_cons] at hy
          rcases hy with hy | rfl | hy
          · exact (hwins.before y hy q hq).trans hless
          · rw [hwins.ranked] at hq
            cases hq
            exact hless
          · exact (hwins.after y hy q hq).trans_lt hless
        · cases h
          refine ⟨l₁, l₂ ++ [z], r, by rw [hl]; simp, hwins.ranked, hwins.before, fun y hy q hq => ?_⟩
          rcases List.mem_append.mp hy with hy | hy
          · exact hwins.after y hy q hq
          · rw [List.mem_singleton.mp hy, hz] at hq
            cases hq
            exact not_lt.mp hless

theorem champion_of_wins {l₁ l₂ : List α} (h : Wins rank l₁ x l₂ r) :
    champion rank (l₁ ++ x :: l₂) = some x := by
  induction l₂ using List.reverseRecOn with
  | nil =>
    rw [champion_concat]
    cases hc : champion rank l₁ with
    | none => simp [better, h.ranked]
    | some c =>
      obtain ⟨m₁, m₂, q, hl, hwins⟩ := champion_wins hc
      have hless : q < r := h.before c (by rw [hl]; simp) q hwins.ranked
      simp [better, h.ranked, hwins.ranked, hless]
  | append_singleton l₂ z ih =>
    have hfirst := ih ⟨h.ranked, h.before, fun y hy => h.after y (List.mem_append_left _ hy)⟩
    rw [show l₁ ++ x :: (l₂ ++ [z]) = l₁ ++ x :: l₂ ++ [z] by simp, champion_concat, hfirst]
    cases hz : rank z with
    | none => simp [better, hz]
    | some q =>
      have hle : q ≤ r := h.after z (List.mem_append_right _ List.mem_cons_self) q hz
      simp [better, hz, h.ranked, not_lt.mpr hle]

/-! ## Others -/

variable (rank) (own : α → Bool)

/-- Whatever is somebody else's, one's own does better: a higher rank, or as high a one and
earlier. -/
def Outranked (l : List α) : Prop :=
  ∀ l₁ f l₂ r, l = l₁ ++ f :: l₂ → own f = false → rank f = some r →
    (∃ h ∈ l₁, own h = true ∧ ∃ q, rank h = some q ∧ r ≤ q) ∨
      ∃ h ∈ l₂, own h = true ∧ ∃ q, rank h = some q ∧ r < q

/-- One's own elements that the search would look at if there were no others. -/
def pushedOut (n : ℕ) (l : List α) : List α :=
  ((l.filter own).take n).drop ((l.take n).filter own).length

/-- What is pushed out is no better than what is left. -/
def NotMissed (n : ℕ) (l : List α) : Prop :=
  ∀ g ∈ pushedOut own n l, ∀ r, rank g = some r →
    ∃ h ∈ l.take n, own h = true ∧ ∃ q, rank h = some q ∧ r ≤ q

variable {rank own}

theorem take_filter_eq (n : ℕ) (l : List α) :
    (l.filter own).take n = (l.take n).filter own ++ pushedOut own n l := by
  have hsplit : l.filter own = (l.take n).filter own ++ (l.drop n).filter own := by
    rw [← List.filter_append, List.take_append_drop]
  have hlen : ((l.take n).filter own).length ≤ n :=
    (List.length_filter_le _ _).trans (List.length_take_le _ _)
  have hprefix : ((l.filter own).take n).take ((l.take n).filter own).length =
      (l.take n).filter own := by
    rw [List.take_take, Nat.min_eq_left hlen, hsplit, List.take_left]
  rw [← List.take_append_drop ((l.take n).filter own).length ((l.filter own).take n), hprefix]
  rfl

theorem Wins.filter {l₁ l₂ : List α} (h : Wins rank l₁ x l₂ r) :
    Wins rank (l₁.filter own) x (l₂.filter own) r :=
  ⟨h.ranked, fun y hy => h.before y (List.mem_of_mem_filter hy),
    fun y hy => h.after y (List.mem_of_mem_filter hy)⟩

/-- **The others make no difference** to the best of the first `n` exactly when none of them
is the best and none of one's own that would be the best is pushed out. -/
theorem champion_take_iff (n : ℕ) (l : List α) :
    champion rank (l.take n) = champion rank ((l.filter own).take n) ↔
      Outranked rank own (l.take n) ∧ NotMissed rank own n l := by
  rw [take_filter_eq]
  constructor
  · intro heq
    cases hc : champion rank (l.take n) with
    | none =>
      have hnone := champion_eq_none_iff.mp hc
      refine ⟨fun l₁ f l₂ r hl _ hf => ?_, fun g hg r hr => ?_⟩
      · rw [hnone f (by rw [hl]; simp)] at hf
        cases hf
      · rw [hc] at heq
        rw [champion_eq_none_iff.mp heq.symm g (List.mem_append_right _ hg)] at hr
        cases hr
    | some x =>
      rw [hc] at heq
      obtain ⟨m₁, m₂, r, hm, hwins⟩ := champion_wins hc
      obtain ⟨k₁, k₂, r', hk, hwins'⟩ := champion_wins heq.symm
      obtain rfl : r = r' := Option.some.inj (hwins.ranked.symm.trans hwins'.ranked)
      have hown : own x = true := by
        have hmem : x ∈ (l.take n).filter own ++ pushedOut own n l := by rw [hk]; simp
        rcases List.mem_append.mp hmem with h | h
        · exact (List.mem_filter.mp h).2
        · exact (List.mem_filter.mp (List.mem_of_mem_take (List.mem_of_mem_drop h))).2
      have hin : x ∈ l.take n := by rw [hm]; simp
      refine ⟨fun l₁ f l₂ q hl hf hq => ?_, fun g hg q hq => ⟨x, hin, hown, r, hwins.ranked, ?_⟩⟩
      · have hne : f ≠ x := by
          rintro rfl
          rw [hown] at hf
          cases hf
        rw [hm] at hl
        rcases List.append_eq_append_iff.mp hl with ⟨c, hl₁, hc⟩ | ⟨c, hm₁, hc⟩
        · -- `x` comes before `f`
          cases c with
          | nil => exact absurd (List.cons.inj hc).1.symm hne
          | cons y c =>
            obtain ⟨rfl, rfl⟩ := List.cons.inj hc
            exact .inl ⟨x, by rw [hl₁]; simp, hown, r, hwins.ranked,
              hwins.after f (by simp) q hq⟩
        · cases c with
          | nil => exact absurd (List.cons.inj hc).1 hne
          | cons y c =>
            obtain ⟨rfl, rfl⟩ := List.cons.inj hc
            exact .inr ⟨x, by simp, hown, r, hwins.ranked, hwins.before f (by rw [hm₁]; simp) q hq⟩
      · exact hwins'.le (hk ▸ List.mem_append_right _ hg) hq
  · rintro ⟨hout, hmissed⟩
    cases hc : champion rank (l.take n) with
    | none =>
      have hnone := champion_eq_none_iff.mp hc
      refine (champion_eq_none_iff.mpr fun y hy => ?_).symm
      rcases List.mem_append.mp hy with hy | hy
      · exact hnone y (List.mem_of_mem_filter hy)
      · by_contra hr
        obtain ⟨r, hr⟩ := Option.ne_none_iff_exists'.mp hr
        obtain ⟨h, hin, -, q, hq, -⟩ := hmissed y hy r hr
        rw [hnone h hin] at hq
        cases hq
    | some x =>
      obtain ⟨m₁, m₂, r, hm, hwins⟩ := champion_wins hc
      have hown : own x = true := by
        by_contra hx
        rcases hout m₁ x m₂ r hm (Bool.eq_false_iff.mpr hx) hwins.ranked with
          ⟨h, hin, -, q, hq, hle⟩ | ⟨h, hin, -, q, hq, hlt⟩
        · exact absurd (hwins.before h hin q hq) (not_lt.mpr hle)
        · exact absurd (hwins.after h hin q hq) (not_le.mpr hlt)
      have hsplit : (l.take n).filter own ++ pushedOut own n l =
          m₁.filter own ++ x :: (m₂.filter own ++ pushedOut own n l) := by
        rw [hm, List.filter_append, List.filter_cons_of_pos hown]
        simp
      rw [hsplit]
      refine (champion_of_wins (r := r) ⟨hwins.ranked, hwins.filter.before, fun y hy q hq => ?_⟩).symm
      rcases List.mem_append.mp hy with hy | hy
      · exact hwins.after y (List.mem_of_mem_filter hy) q hq
      · -- what is pushed out is no better than something left, which is no better than `x`
        obtain ⟨h, hin, -, p, hp, hle⟩ := hmissed y hy q hq
        exact hle.trans (hwins.le (hm ▸ hin) hp)

end Order

/-! ## Searches in other words -/

section Sorted

variable {own p : α → Bool} {l : List α}

theorem find?_filter_iff : l.find? p = (l.filter own).find? p ↔
    ∀ l₁ f l₂, l = l₁ ++ f :: l₂ → own f = false → p f = true →
      ∃ h ∈ l₁, own h = true ∧ p h = true := by
  constructor
  · intro heq l₁ f l₂ hl hf hp
    by_contra hno
    obtain ⟨x, hx⟩ : ∃ x, l.find? p = some x := by
      rw [← Option.isSome_iff_exists, List.find?_isSome]
      exact ⟨f, by rw [hl]; simp, hp⟩
    have hfilter := heq.symm.trans hx
    have hown : own x = true := (List.mem_filter.mp (List.mem_of_find?_eq_some hfilter)).2
    rw [hl, List.find?_append] at hx
    cases hfirst : l₁.find? p with
    | some y =>
      rw [hfirst] at hx
      cases hx
      exact hno ⟨x, List.mem_of_find?_eq_some hfirst, hown, List.find?_some hfirst⟩
    | none =>
      rw [hfirst, List.find?_cons_of_pos hp] at hx
      cases hx
      rw [hown] at hf
      cases hf
  · intro h
    induction l with
    | nil => rfl
    | cons x l ih =>
      by_cases hp : p x = true
      · have hown : own x = true := by
          by_contra hx
          obtain ⟨y, hy, -⟩ := h [] x l rfl (Bool.eq_false_iff.mpr hx) hp
          exact absurd hy List.not_mem_nil
        rw [List.filter_cons_of_pos hown, List.find?_cons_of_pos hp, List.find?_cons_of_pos hp]
      · have hrest := ih fun l₁ f l₂ hl hf hpf => by
          obtain ⟨y, hy, hown, hpy⟩ := h (x :: l₁) f l₂ (by rw [hl]; rfl) hf hpf
          rcases List.mem_cons.mp hy with rfl | hy
          · exact absurd hpy hp
          · exact ⟨y, hy, hown, hpy⟩
        rw [List.find?_cons_of_neg hp, hrest]
        by_cases hown : own x = true
        · rw [List.filter_cons_of_pos hown, List.find?_cons_of_neg hp]
        · rw [List.filter_cons_of_neg hown]

variable (r : α → α → Prop) [DecidableRel r]

theorem orderedInsert_of_forall {x : α} {l : List α} (h : ∀ b ∈ l, r x b) :
    l.orderedInsert r x = x :: l := by
  cases l with
  | nil => rfl
  | cons b l => exact List.orderedInsert_cons_of_le r l (h b List.mem_cons_self)

theorem filter_orderedInsert [IsTrans α r] (x : α) {l : List α} (hl : l.Pairwise r) :
    (l.orderedInsert r x).filter own =
      if own x = true then (l.filter own).orderedInsert r x else l.filter own := by
  induction l with
  | nil => cases h : own x <;> simp [h]
  | cons y l ih =>
    have ih := ih hl.of_cons
    by_cases hxy : r x y
    · rw [List.orderedInsert_cons_of_le r l hxy]
      split_ifs with hx
      · rw [List.filter_cons_of_pos hx]
        refine (orderedInsert_of_forall r fun b hb => ?_).symm
        rcases List.mem_cons.mp (List.mem_of_mem_filter hb) with rfl | hb
        · exact hxy
        · exact IsTrans.trans _ _ _ hxy (List.rel_of_pairwise_cons hl hb)
      · rw [List.filter_cons_of_neg hx]
    · rw [List.orderedInsert_of_not_le r l hxy]
      by_cases hy : own y = true
      · rw [List.filter_cons_of_pos hy, List.filter_cons_of_pos hy, ih]
        split_ifs with hx
        · exact (List.orderedInsert_of_not_le r _ hxy).symm
        · rfl
      · rw [List.filter_cons_of_neg hy, List.filter_cons_of_neg hy, ih]

theorem filter_insertionSort [IsTrans α r] [Std.Total r] (l : List α) :
    (l.insertionSort r).filter own = (l.filter own).insertionSort r := by
  induction l with
  | nil => rfl
  | cons x l ih =>
    rw [List.insertionSort_cons, filter_orderedInsert r x (List.pairwise_insertionSort r l), ih]
    split_ifs with h
    · rw [List.filter_cons_of_pos h, List.insertionSort_cons]
    · rw [List.filter_cons_of_neg h]

theorem filter_sort_up {γ : Type} [LinearOrder γ] (own : α → Bool) (key : α → γ) (l : List α) :
    (l.insertionSort fun a b => key a ≤ key b).filter own =
      (l.filter own).insertionSort fun a b => key a ≤ key b := by
  have : IsTrans α fun a b => key a ≤ key b := ⟨fun _ _ _ => le_trans⟩
  have : Std.Total fun a b : α => key a ≤ key b := ⟨fun a b => le_total (key a) (key b)⟩
  exact filter_insertionSort _ l

theorem filter_sort_down {γ : Type} [LinearOrder γ] (own : α → Bool) (key : α → γ) (l : List α) :
    (l.insertionSort fun a b => key b ≤ key a).filter own =
      (l.filter own).insertionSort fun a b => key b ≤ key a := by
  have : IsTrans α fun a b => key b ≤ key a := ⟨fun _ _ _ h h' => h'.trans h⟩
  have : Std.Total fun a b : α => key b ≤ key a := ⟨fun a b => le_total (key b) (key a)⟩
  exact filter_insertionSort _ l

end Sorted

section Ranked

variable [LinearOrder β] {rank : α → Option β}

/-- The ranked elements with their ranks, the highest first. -/
def rankedSort (rank : α → Option β) (l : List α) : List (β × α) :=
  (l.filterMap fun x => (rank x).map fun r => (r, x)).insertionSort fun a b => b.1 ≤ a.1

theorem rankedSort_head_wins {l : List α} {q : β} {x : α} {rest : List (β × α)}
    (h : rankedSort rank l = (q, x) :: rest) :
    ∃ l₁ l₂, l = l₁ ++ x :: l₂ ∧ Wins rank l₁ x l₂ q := by
  induction l generalizing q x rest with
  | nil => cases h
  | cons a l ih =>
    cases ha : rank a with
    | none =>
      rw [rankedSort, List.filterMap_cons, ha] at h
      obtain ⟨l₁, l₂, rfl, hwins⟩ := ih h
      refine ⟨a :: l₁, l₂, rfl, hwins.ranked, fun y hy p hp => ?_, hwins.after⟩
      rcases List.mem_cons.mp hy with rfl | hy
      · rw [ha] at hp
        cases hp
      · exact hwins.before y hy p hp
    | some p =>
      have hsort : rankedSort rank (a :: l) =
          (rankedSort rank l).orderedInsert (fun a b => b.1 ≤ a.1) (p, a) := by
        rw [rankedSort, List.filterMap_cons, ha]
        rfl
      rw [hsort] at h
      cases hl : rankedSort rank l with
      | nil =>
        rw [hl] at h
        cases h
        refine ⟨[], l, rfl, ha, fun y hy => absurd hy List.not_mem_nil, fun y hy p' hp => ?_⟩
        have hmem : (p', y) ∈ rankedSort rank l := by
          rw [rankedSort, List.mem_insertionSort, List.mem_filterMap]
          exact ⟨y, hy, by rw [hp]; rfl⟩
        rw [hl] at hmem
        exact absurd hmem List.not_mem_nil
      | cons z rest' =>
        obtain ⟨q', y⟩ := z
        obtain ⟨l₁, l₂, rfl, hwins⟩ := ih hl
        rw [hl, List.orderedInsert_cons] at h
        split_ifs at h with hle
        · cases h
          exact ⟨[], l₁ ++ y :: l₂, rfl, ha, fun z hz => absurd hz List.not_mem_nil,
            fun z hz p' hp => (hwins.le hz hp).trans hle⟩
        · cases h
          refine ⟨a :: l₁, l₂, rfl, hwins.ranked, fun z hz p' hp => ?_, hwins.after⟩
          rcases List.mem_cons.mp hz with rfl | hz
          · rw [ha] at hp
            cases hp
            exact not_le.mp hle
          · exact hwins.before z hz p' hp

theorem rankedSort_head (l : List α) :
    (rankedSort rank l).head?.map Prod.snd = champion rank l := by
  cases h : rankedSort rank l with
  | nil =>
    refine (champion_eq_none_iff.mpr fun y hy => ?_).symm
    cases hr : rank y with
    | none => rfl
    | some r =>
      have hmem : (r, y) ∈ rankedSort rank l := by
        rw [rankedSort, List.mem_insertionSort, List.mem_filterMap]
        exact ⟨y, hy, by rw [hr]; rfl⟩
      rw [h] at hmem
      exact absurd hmem List.not_mem_nil
  | cons z rest =>
    obtain ⟨l₁, l₂, rfl, hwins⟩ := rankedSort_head_wins h
    exact (champion_of_wins hwins).symm

end Ranked

end AiMeshChat.Lib
