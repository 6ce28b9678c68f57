import AiMeshChat.Lib.Fnmatch
import Mathlib.Tactic.Common

/-!
# Regular expressions without alternatives

A part of the language of `re`: `^`, `$` and character classes with a repetition. The engine
tries every length for a repetition, so `matchAt` is the search with its backtracking; the
continuation says what the rest of the text has to be.

Without flags, `$` holds at the end of the text and before a newline that ends it. `match_anchored`
says what that makes of `re.match` on a pattern from `^` to `$`: it takes what `re.fullmatch` takes
between them, and the same texts with a newline behind.
-/

namespace AiMeshChat.Lib.Regex

/-- A class as ranges of characters, and how often it is repeated. -/
structure Rep where
  ranges : List (Char × Char)
  least : ℕ
  most : Option ℕ
  deriving DecidableEq

inductive Atom
  | bol
  | eol
  | rep (r : Rep)
  deriving DecidableEq

def Rep.takes (r : Rep) (c : Char) : Bool := r.ranges.any fun p => p.1 ≤ c && c ≤ p.2

/-- The repetition takes all of the text. -/
def Rep.fits (r : Rep) (cs : List Char) : Bool :=
  cs.all r.takes && r.least ≤ cs.length && r.most.all (cs.length ≤ ·)

/-- The atoms match at a position of the text, and `k` accepts what is left. -/
def matchAt (k : List Char → Bool) : List Atom → ℕ → List Char → Bool
  | [], _, cs => k cs
  | .bol :: as, pos, cs => pos = 0 && matchAt k as pos cs
  | .eol :: as, pos, cs => (cs = [] || cs = ['\n']) && matchAt k as pos cs
  | .rep r :: as, pos, cs => (List.range (cs.length + 1)).any fun n =>
      r.fits (cs.take n) && matchAt k as (pos + n) (cs.drop n)

/-- `re.match`. -/
def reMatch (pattern : List Atom) (s : List Char) : Bool := matchAt (fun _ => true) pattern 0 s

/-- `re.fullmatch`. -/
def reFullmatch (pattern : List Atom) (s : List Char) : Bool :=
  matchAt (fun rest => rest.isEmpty) pattern 0 s

/-! ## Patterns from their text -/

def natOf (cs : List Char) : Option ℕ :=
  if cs ≠ [] ∧ cs.all Char.isDigit then some (cs.foldl (fun n c => 10 * n + (c.toNat - 48)) 0)
  else none

/-- A repetition, and what is behind it: `+`, `{n}`, `{m,n}`, or nothing for once. -/
def quantifier : List Char → Option ((ℕ × Option ℕ) × List Char)
  | '+' :: cs => some ((1, none), cs)
  | '{' :: cs =>
    let inner := cs.takeWhile (· ≠ '}')
    let most := if ',' ∈ inner then (inner.dropWhile (· ≠ ',')).drop 1 else inner
    match natOf (inner.takeWhile (· ≠ ',')), natOf most with
    | some least, some most => some ((least, some most), (cs.dropWhile (· ≠ '}')).drop 1)
    | _, _ => none
  | cs => some ((1, some 1), cs)

/-- The atoms of a pattern of `n` characters at most; there is nothing else in it. -/
def compileUpTo : ℕ → List Char → Option (List Atom)
  | _, [] => some []
  | n + 1, '^' :: cs => (compileUpTo n cs).map (.bol :: ·)
  | n + 1, '$' :: cs => (compileUpTo n cs).map (.eol :: ·)
  | n + 1, '[' :: cs =>
    match Fnmatch.closing cs with
    | none => none
    | some (seq, rest) => (quantifier rest).bind fun q =>
      (compileUpTo n q.2).map (.rep ⟨Fnmatch.ranges seq, q.1.1, q.1.2⟩ :: ·)
  | _, _ => none

/-- `re.compile`. -/
def compile (pattern : String) : Option (List Atom) :=
  compileUpTo pattern.toList.length pattern.toList

/-! ## Anchored patterns -/

def reps (rs : List Rep) : List Atom := rs.map .rep

/-- `^`, the repetitions and `$`. -/
def anchored (rs : List Rep) : List Atom := .bol :: (reps rs ++ [.eol])

/-- The text falls into pieces that fit the repetitions. -/
def Spells : List Rep → List Char → Prop
  | [], cs => cs = []
  | r :: rs, cs => ∃ piece rest, cs = piece ++ rest ∧ r.fits piece = true ∧ Spells rs rest

theorem Rep.takes_iff {r : Rep} {c : Char} : r.takes c = true ↔
    ∃ p ∈ r.ranges, p.1.toNat ≤ c.toNat ∧ c.toNat ≤ p.2.toNat := by
  simp only [Rep.takes, List.any_eq_true, Bool.and_eq_true, decide_eq_true_eq]
  rfl

theorem Rep.fits_iff {r : Rep} {cs : List Char} : r.fits cs = true ↔
    (∀ c ∈ cs, r.takes c = true) ∧ r.least ≤ cs.length ∧ ∀ n ∈ r.most, cs.length ≤ n := by
  rw [Rep.fits, Bool.and_eq_true, Bool.and_eq_true, List.all_eq_true, decide_eq_true_eq, and_assoc]
  cases r.most <;> simp

theorem rep_iff {k : List Char → Bool} {r : Rep} {as : List Atom} {pos : ℕ} {cs : List Char} :
    matchAt k (.rep r :: as) pos cs = true ↔ ∃ piece rest, cs = piece ++ rest ∧
      r.fits piece = true ∧ matchAt k as (pos + piece.length) rest = true := by
  rw [matchAt, List.any_eq_true]
  constructor
  · intro h
    obtain ⟨n, hn, hmatch⟩ := h
    have hle : n ≤ cs.length := by
      have := List.mem_range.mp hn
      omega
    obtain ⟨hfits, hrest⟩ := Bool.and_eq_true_iff.mp hmatch
    refine ⟨cs.take n, cs.drop n, (List.take_append_drop n cs).symm, hfits, ?_⟩
    rw [List.length_take_of_le hle]
    exact hrest
  · intro h
    obtain ⟨piece, rest, rfl, hfits, hrest⟩ := h
    refine ⟨piece.length, List.mem_range.mpr ?_, ?_⟩
    · rw [List.length_append]
      omega
    · rw [List.take_left, List.drop_left, hfits, hrest]
      rfl

theorem reps_append_iff {k : List Char → Bool} {as : List Atom} {rs : List Rep} {pos : ℕ}
    {cs : List Char} : matchAt k (reps rs ++ as) pos cs = true ↔ ∃ taken rest,
      cs = taken ++ rest ∧ Spells rs taken ∧ matchAt k as (pos + taken.length) rest = true := by
  induction rs generalizing pos cs with
  | nil =>
    constructor
    · intro h
      exact ⟨[], cs, rfl, rfl, h⟩
    · intro h
      obtain ⟨taken, rest, rfl, hnil, hmatch⟩ := h
      cases hnil
      exact hmatch
  | cons r rs ih =>
    show matchAt k (.rep r :: (reps rs ++ as)) pos cs = true ↔ _
    rw [rep_iff]
    constructor
    · intro h
      obtain ⟨piece, rest, rfl, hfits, hmatch⟩ := h
      obtain ⟨taken, rest', rfl, hspells, hmatch'⟩ := ih.mp hmatch
      refine ⟨piece ++ taken, rest', (List.append_assoc ..).symm, ?_, ?_⟩
      · exact ⟨piece, taken, rfl, hfits, hspells⟩
      · rw [List.length_append, ← Nat.add_assoc]
        exact hmatch'
    · intro h
      obtain ⟨taken, rest', rfl, ⟨piece, rest, rfl, hfits, hspells⟩, hmatch⟩ := h
      rw [List.length_append, ← Nat.add_assoc] at hmatch
      exact ⟨piece, rest ++ rest', List.append_assoc .., hfits,
        ih.mpr ⟨rest, rest', rfl, hspells, hmatch⟩⟩

/-- From `^` to `$`, `re.match` lets one newline stand at the end. -/
theorem match_anchored {rs : List Rep} {s : List Char} :
    reMatch (anchored rs) s = true ↔ Spells rs s ∨ ∃ t, s = t ++ ['\n'] ∧ Spells rs t := by
  show matchAt _ (reps rs ++ [.eol]) 0 s = true ↔ _
  rw [reps_append_iff]
  constructor
  · intro h
    obtain ⟨taken, rest, rfl, hspells, heol⟩ := h
    have hrest : rest = [] ∨ rest = ['\n'] := by simpa [matchAt] using heol
    rcases hrest with rfl | rfl
    · rw [List.append_nil]
      exact .inl hspells
    · exact .inr ⟨taken, rfl, hspells⟩
  · intro h
    rcases h with hspells | ⟨t, rfl, hspells⟩
    · exact ⟨s, [], (List.append_nil s).symm, hspells, rfl⟩
    · exact ⟨t, ['\n'], rfl, hspells, rfl⟩

theorem spells_singleton {r : Rep} {cs : List Char} : Spells [r] cs ↔ r.fits cs = true := by
  constructor
  · intro h
    obtain ⟨piece, rest, rfl, hfits, hnil⟩ := h
    cases hnil
    rw [List.append_nil]
    exact hfits
  · intro h
    exact ⟨cs, [], (List.append_nil cs).symm, h, rfl⟩

end AiMeshChat.Lib.Regex
