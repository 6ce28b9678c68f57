import Mathlib.Data.List.Infix

/-!
# Patterns for names

The patterns of `fnmatch`, which `pathlib` uses for the names in one directory: `*` stands for any
text, `?` for any character, `[seq]` for one of those that are listed and `[!seq]` for one that is
not. A bracket that is never closed stands for itself.
-/

namespace AiMeshChat.Lib.Fnmatch

/-- A part of a pattern. -/
inductive Part
  | star
  | any
  | lit (c : Char)
  | oneOf (neg : Bool) (ranges : List (Char × Char))

/-- The characters between two brackets, as ranges. -/
def ranges : List Char → List (Char × Char)
  | lo :: '-' :: hi :: cs => (lo, hi) :: ranges cs
  | c :: cs => (c, c) :: ranges cs
  | [] => []

/-- What stands before the closing bracket and behind it; a closing bracket that comes first is
one of the characters. -/
def closing : List Char → Option (List Char × List Char)
  | [] => none
  | c :: cs =>
    match cs.dropWhile (· ≠ ']') with
    | [] => none
    | _ :: rest => some (c :: cs.takeWhile (· ≠ ']'), rest)

/-- The parts of a pattern of `n` characters at most. -/
def parts : ℕ → List Char → List Part
  | 0, _ => []
  | _ + 1, [] => []
  | n + 1, '*' :: cs => .star :: parts n cs
  | n + 1, '?' :: cs => .any :: parts n cs
  | n + 1, '[' :: cs =>
    let neg := cs.head? = some '!'
    match closing (if neg then cs.tail else cs) with
    | none => .lit '[' :: parts n cs
    | some (seq, rest) => .oneOf neg (ranges seq) :: parts n rest
  | n + 1, c :: cs => .lit c :: parts n cs

def Part.takes : Part → Char → Bool
  | .star, _ | .any, _ => true
  | .lit c, c' => c = c'
  | .oneOf neg rs, c => neg != rs.any fun r => r.1 ≤ c && c ≤ r.2

def matchesParts : List Part → List Char → Bool
  | [], name => name.isEmpty
  | .star :: ps, name => name.tails.any (matchesParts ps)
  | _ :: _, [] => false
  | p :: ps, c :: name => p.takes c && matchesParts ps name

/-- `fnmatch.fnmatchcase(name, pattern)`. -/
def fnmatch (pattern name : List Char) : Bool := matchesParts (parts pattern.length pattern) name

example : fnmatch "*.r?ad.*".toList "1.read.txt".toList = true := by decide
example : fnmatch "[!a-c]*[x".toList "dir[x".toList = true := by decide

end AiMeshChat.Lib.Fnmatch
