import Mathlib.Data.Nat.Notation

/-!
# Lines

The stretches of a list between separators. A separator at the end ends the last
line and starts no other. A file read line by line is cut at the newlines only
(`linesOn (· = '\n')`); `str.splitlines` cuts at ten characters, three of which
(U+0085, U+2028, U+2029) may stand inside a JSON text.
-/

namespace AiMeshChat.Lib

variable {α : Type}

/-- The lines of a list, cut at the elements in `p`. -/
def linesOn (p : α → Bool) : List α → List (List α)
  | [] => []
  | c :: cs =>
    if p c then [] :: linesOn p cs
    else match linesOn p cs with
      | [] => [[c]]
      | l :: ls => (c :: l) :: ls

attribute [local simp] linesOn

variable {p : α → Bool} {l cs : List α} {b : α}

theorem linesOn_line (hl : ∀ c ∈ l, p c = false) (hb : p b = true)
    (cs : List α) : linesOn p (l ++ b :: cs) = l :: linesOn p cs := by
  induction l with
  | nil => simp [hb]
  | cons c l ih =>
    have hc : p c = false := hl c (List.mem_cons_self ..)
    rw [List.cons_append, linesOn, ih fun x hx => hl x (List.mem_cons_of_mem _ hx)]
    simp [hc]

theorem linesOn_last (hl : ∀ c ∈ l, p c = false) (hne : l ≠ []) : linesOn p l = [l] := by
  induction l with
  | nil => exact absurd rfl hne
  | cons c l ih =>
    have hc : p c = false := hl c (List.mem_cons_self ..)
    cases l with
    | nil => simp [hc]
    | cons d l =>
      rw [linesOn, ih (fun x hx => hl x (List.mem_cons_of_mem _ hx)) (List.cons_ne_nil _ _)]
      simp [hc]

theorem linesOn_append (hb : p b = true) (ds : List α) :
    linesOn p (cs ++ b :: ds) = linesOn p (cs ++ [b]) ++ linesOn p ds := by
  induction cs with
  | nil => simp [hb]
  | cons c cs ih =>
    rw [List.cons_append, List.cons_append, linesOn, linesOn, ih]
    split
    · rfl
    · cases hcs : linesOn p (cs ++ [b]) with
      | nil =>
        exfalso
        cases cs with
        | nil => simp [hb] at hcs
        | cons c' cs =>
          rw [List.cons_append, linesOn] at hcs
          split at hcs
          · cases hcs
          · split at hcs <;> cases hcs
      | cons l ls => rfl

theorem linesOn_eq_cons {ls : List (List α)} (h : linesOn p cs = l :: ls) : (∀ c ∈ l, p c = false) ∧
      ((cs = l ∧ ls = []) ∨ ∃ b rest, p b = true ∧ cs = l ++ b :: rest ∧ ls = linesOn p rest) := by
  induction cs generalizing l ls with
  | nil => cases h
  | cons c cs ih =>
    rw [linesOn] at h
    by_cases hc : p c = true
    · rw [if_pos hc] at h
      obtain ⟨rfl, rfl⟩ := List.cons.inj h
      exact ⟨fun _ hm => absurd hm List.not_mem_nil, .inr ⟨c, cs, hc, rfl, rfl⟩⟩
    · rw [if_neg hc] at h
      cases hcs : linesOn p cs with
      | nil =>
        rw [hcs] at h
        obtain ⟨rfl, rfl⟩ := List.cons.inj h
        refine ⟨fun x hx => ?_, .inl ⟨?_, rfl⟩⟩
        · rw [List.mem_singleton.mp hx]
          simpa using hc
        · cases cs with
          | nil => rfl
          | cons d ds =>
            rw [linesOn] at hcs
            split at hcs
            · cases hcs
            · split at hcs <;> cases hcs
      | cons l₀ ls₀ =>
        rw [hcs] at h
        obtain ⟨rfl, rfl⟩ := List.cons.inj h
        obtain ⟨hl, hrest⟩ := ih hcs
        refine ⟨fun x hx => ?_, ?_⟩
        · rcases List.mem_cons.mp hx with rfl | hx
          · simpa using hc
          · exact hl x hx
        · rcases hrest with ⟨hcs, hls⟩ | ⟨b, rest, hb, hcs, hls⟩
          · exact .inl ⟨by rw [hcs], hls⟩
          · exact .inr ⟨b, rest, hb, by rw [hcs]; rfl, hls⟩

theorem mem_linesOn (h : l ∈ linesOn p cs) :
    (linesOn p cs).head? = some l ∨ ∃ pre b rest, p b = true ∧ cs = pre ++ b :: rest ∧
      (linesOn p rest).head? = some l := by
  generalize hL : linesOn p cs = L at h
  induction L generalizing cs with
  | nil => cases h
  | cons l₀ ls ih =>
    rcases List.mem_cons.mp h with rfl | hl
    · exact .inl rfl
    · right
      rcases (linesOn_eq_cons hL).2 with ⟨-, hls⟩ | ⟨b, rest, hb, hcs, hls⟩
      · rw [hls] at hl
        cases hl
      · rcases ih hls.symm hl with hhead | ⟨pre, b', rest', hb', hrest, hhead⟩
        · exact ⟨l₀, b, rest, hb, hcs, by rw [← hls]; exact hhead⟩
        · exact ⟨l₀ ++ b :: pre, b', rest', hb', by rw [hcs, hrest]; simp, hhead⟩

theorem not_of_mem_linesOn (h : l ∈ linesOn p cs) : ∀ c ∈ l, p c = false := by
  have hhead {cs : List α} (h : (linesOn p cs).head? = some l) : ∀ c ∈ l, p c = false := by
    cases hcs : linesOn p cs with
    | nil => rw [hcs] at h; cases h
    | cons l' ls =>
      rw [hcs] at h
      cases h
      exact (linesOn_eq_cons hcs).1
  rcases mem_linesOn h with h | ⟨-, -, rest, -, -, h⟩
  · exact hhead h
  · exact hhead h

theorem joined_cons (b : α) (l l' : List α) (ls : List (List α)) :
    [b].intercalate (l :: l' :: ls) = l ++ b :: [b].intercalate (l' :: ls) := by
  simp [List.intercalate, List.intersperse]

theorem linesOn_joined (hb : p b = true) {ls : List (List α)}
    (h : ∀ l' ∈ l :: ls, ∀ c ∈ l', p c = false) :
    linesOn p ([b].intercalate (l :: ls) ++ [b]) = l :: ls := by
  induction ls generalizing l with
  | nil =>
    rw [show [b].intercalate [l] = l by simp [List.intercalate],
      linesOn_line (h l List.mem_cons_self) hb]
    rfl
  | cons l' ls ih =>
    rw [joined_cons, List.append_assoc, List.cons_append,
      linesOn_line (h l List.mem_cons_self) hb,
      ih fun l'' hl'' => h l'' (List.mem_cons_of_mem _ hl'')]

theorem infix_append_cons_iff {w : List α} (hw : b ∉ w) (l r : List α) :
    w <:+: l ++ b :: r ↔ w <:+: l ∨ w <:+: r := by
  constructor
  · intro h
    induction l with
    | nil =>
      rw [List.nil_append, List.infix_cons_iff] at h
      refine h.imp_left fun hpre => ?_
      cases w with
      | nil => exact List.nil_infix
      | cons a w =>
        obtain ⟨rfl, -⟩ := List.cons_prefix_cons.mp hpre
        exact absurd List.mem_cons_self hw
    | cons a l ih =>
      rw [List.cons_append, List.infix_cons_iff] at h
      rcases h with hpre | hin
      · left
        rw [← List.cons_append] at hpre
        have hle : w.length ≤ (a :: l).length := by
          refine Nat.le_of_not_lt fun hlt => ?_
          have hmem : (a :: l) ++ [b] <+: w := List.prefix_of_prefix_length_le
            ⟨r, by simp⟩ hpre (by rw [List.length_append]; exact hlt)
          exact hw (hmem.subset (by simp))
        exact (List.prefix_of_prefix_length_le hpre (List.prefix_append _ _) hle).isInfix
      · exact (ih hin).imp_left fun h => h.trans (List.suffix_cons a l).isInfix
  · intro h
    rcases h with h | h
    · exact h.trans (List.prefix_append _ _).isInfix
    · exact h.trans ⟨l ++ [b], [], by simp⟩

theorem infix_joined_iff {w : List α} (hw : b ∉ w) (hne : w ≠ []) (ls : List (List α)) :
    w <:+: [b].intercalate ls ↔ ∃ l ∈ ls, w <:+: l := by
  induction ls with
  | nil => simp [List.intercalate, hne]
  | cons l ls ih =>
    cases ls with
    | nil => simp [List.intercalate]
    | cons l' ls =>
      rw [joined_cons, infix_append_cons_iff hw, ih]
      simp

/-- The line boundaries of `str.splitlines`. -/
def isBreak (c : Char) : Bool := c.toNat ∈ [10, 11, 12, 13, 28, 29, 30, 133, 8232, 8233]

/-- A carriage return and a line feed are one boundary. -/
def joinCrLf : List Char → List Char
  | '\r' :: '\n' :: cs => '\n' :: joinCrLf cs
  | c :: cs => c :: joinCrLf cs
  | [] => []

attribute [local simp] joinCrLf

/-- `text.splitlines()`. -/
def splitLines (cs : List Char) : List (List Char) := linesOn isBreak (joinCrLf cs)

theorem joinCrLf_of_no_cr {cs : List Char} (h : '\r' ∉ cs) : joinCrLf cs = cs := by
  induction cs with
  | nil => rfl
  | cons c cs ih =>
    rw [joinCrLf]
    · rw [ih fun hm => h (List.mem_cons_of_mem _ hm)]
    · rintro cs' rfl -
      exact h (List.mem_cons_self ..)

theorem joinCrLf_append (cs : List Char) :
    ∃ es, ∀ ds, joinCrLf (cs ++ '\n' :: ds) = es ++ '\n' :: joinCrLf ds := by
  induction cs using joinCrLf.induct with
  | case1 cs ih =>
    obtain ⟨es, hes⟩ := ih
    exact ⟨'\n' :: es, fun ds => by simp [hes]⟩
  | case2 c cs hne ih =>
    by_cases hcr : c = '\r' ∧ cs = []
    · obtain ⟨rfl, rfl⟩ := hcr
      exact ⟨[], fun ds => rfl⟩
    · obtain ⟨es, hes⟩ := ih
      refine ⟨c :: es, fun ds => ?_⟩
      rw [List.cons_append, joinCrLf, hes, List.cons_append]
      intro ds' hc hds
      cases cs with
      | nil => exact hcr ⟨hc, rfl⟩
      | cons c' cs => exact hne cs hc (by rw [(List.cons.inj hds).1])
  | case3 => exact ⟨[], fun ds => rfl⟩

theorem splitLines_append (cs ds : List Char) :
    splitLines (cs ++ '\n' :: ds) = splitLines (cs ++ ['\n']) ++ splitLines ds := by
  obtain ⟨es, hes⟩ := joinCrLf_append cs
  rw [splitLines, splitLines, splitLines, hes, hes, linesOn_append rfl]
  rfl

example : splitLines ['a', '\r', '\n', 'b', '\x0b', 'c', '\n'] = [['a'], ['b'], ['c']] := by decide

end AiMeshChat.Lib
