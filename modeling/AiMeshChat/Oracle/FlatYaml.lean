import AiMeshChat.Lib.Latest
import AiMeshChat.Lib.Lines
import AiMeshChat.Lib.Rows
import AiMeshChat.Python

/-!
# The flat configuration format

`_parse_flat_yaml` of `oracle.py` reads the subset of YAML that the configuration is written in: a
line that is not indented opens a section, and an indented one sets a key of the section that is
open. Lines without a colon, and comments, are skipped.

What a text says is the list of its assignments in order (`assigned`), of which the last counts
(`lookup_parse`).
-/

namespace AiMeshChat.Oracle

open Lib

/-- The name of a section or of a key, and a value. -/
abbrev Word := List Char

abbrev FlatSection := Rows Word (Word × Word) Prod.fst

/-- The dict of sections. -/
abbrev Flat := Rows Word (Word × FlatSection) Prod.fst

/-- `out.setdefault(section, {})`. -/
def Flat.setDefault (out : Flat) (section_ : Word) : Flat :=
  if (out.get? section_).isSome then out else out.put (section_, Rows.empty)

/-- `out.setdefault(section, {})[key] = val`. -/
def Flat.set (out : Flat) (section_ key val : Word) : Flat :=
  out.put (section_, (((out.get? section_).map (·.2)).getD Rows.empty).put (key, val))

/-- `out.get(section, {}).get(key)`. -/
def Flat.lookup (out : Flat) (section_ key : Word) : Option Word :=
  ((out.get? section_).bind fun r => r.2.get? key).map (·.2)

/-- The key and the value of a line, unless it is skipped. -/
def keyLine (line : Word) : Option (Word × Word) :=
  let stripped := strip line
  if stripped = [] ∨ stripped.head? = some '#' then none
  else if ':' ∉ stripped then none
  else some (strip (stripped.takeWhile (· ≠ ':')), strip (stripped.dropWhile (· ≠ ':')).tail)

def indented (line : Word) : Bool := [' ', ' '].isPrefixOf line || ['\t'].isPrefixOf line

/-- One round of the loop of `_parse_flat_yaml`: the dict, and the section that is open. -/
def parseStep (st : Flat × Word) (line : Word) : Flat × Word :=
  match keyLine line with
  | none => st
  | some (key, val) =>
    if indented line then
      if st.2 ≠ [] then (st.1.set st.2 key val, st.2) else st
    else (st.1.setDefault key, key)

/-- `_parse_flat_yaml` on the text of the file. -/
def parseFlatYaml (text : List Char) : Flat :=
  ((splitLines text).foldl parseStep (Rows.empty, [])).1

/-! ## Assignments -/

/-- The section that is open after the lines. -/
def sectionAfter (cur : Word) : List Word → Word
  | [] => cur
  | line :: lines =>
    match keyLine line with
    | none => sectionAfter cur lines
    | some (key, _) => if indented line then sectionAfter cur lines else sectionAfter key lines

/-- What the lines assign, in order. -/
def assigned (cur : Word) : List Word → List ((Word × Word) × Word)
  | [] => []
  | line :: lines =>
    match keyLine line with
    | none => assigned cur lines
    | some (key, val) =>
      if indented line then
        if cur ≠ [] then ((cur, key), val) :: assigned cur lines else assigned cur lines
      else assigned key lines

theorem sectionAfter_append (cur : Word) (xs ys : List Word) :
    sectionAfter cur (xs ++ ys) = sectionAfter (sectionAfter cur xs) ys := by
  induction xs generalizing cur with
  | nil => rfl
  | cons line xs ih =>
    rw [List.cons_append, sectionAfter, sectionAfter]
    split
    · exact ih cur
    · split
      · exact ih cur
      · exact ih _

theorem assigned_append (cur : Word) (xs ys : List Word) :
    assigned cur (xs ++ ys) = assigned cur xs ++ assigned (sectionAfter cur xs) ys := by
  induction xs generalizing cur with
  | nil => rfl
  | cons line xs ih =>
    rw [List.cons_append, assigned, assigned, sectionAfter]
    split
    · exact ih cur
    · split
      · split
        · rw [ih, List.cons_append]
        · exact ih cur
      · exact ih _

theorem lookup_setDefault (out : Flat) (s s' k : Word) :
    (out.setDefault s).lookup s' k = out.lookup s' k := by
  unfold Flat.setDefault
  split
  · rfl
  · next hnone =>
    unfold Flat.lookup
    rw [Rows.get?_put]
    split
    · next heq =>
      rw [heq, Option.not_isSome_iff_eq_none.mp hnone]
      rfl
    · rfl

theorem lookup_set (out : Flat) (s k v s' k' : Word) :
    (out.set s k v).lookup s' k' = if (s, k) = (s', k') then some v else out.lookup s' k' := by
  unfold Flat.set Flat.lookup
  rw [Rows.get?_put]
  by_cases hs : s' = s
  · rw [if_pos hs, Option.bind_some, Rows.get?_put, hs]
    by_cases hk : k' = k
    · rw [if_pos hk, hk, if_pos rfl, Option.map_some]
    · rw [if_neg hk, if_neg fun heq => hk (Prod.mk.inj heq).2.symm]
      cases out.get? s with
      | none => rfl
      | some r => rfl
  · rw [if_neg hs, if_neg fun heq => hs (Prod.mk.inj heq).1.symm]

theorem lookup_foldl_parseStep (lines : List Word) (out : Flat) (cur s k : Word) :
    (lines.foldl parseStep (out, cur)).1.lookup s k =
      latest (s, k) (out.lookup s k) (assigned cur lines) := by
  induction lines generalizing out cur with
  | nil => rfl
  | cons line lines ih =>
    rw [List.foldl_cons, parseStep, assigned]
    split
    · exact ih out cur
    · split
      · split
        · rw [ih, lookup_set, latest_cons]
        · exact ih out cur
      · rw [ih, lookup_setDefault]

theorem lookup_parse (text : List Char) (s k : Word) :
    (parseFlatYaml text).lookup s k = latest (s, k) none (assigned [] (splitLines text)) :=
  lookup_foldl_parseStep _ _ _ _ _

end AiMeshChat.Oracle
