import AiMeshChat.Oracle.FlatYaml
import Mathlib.Data.List.Infix
import Mathlib.Data.List.Sort

/-!
# Merging into the configuration

`_merge_flat_yaml` adds the keys that a configuration lacks, each at the end of its section, and
the sections that it lacks at the end of the file. A key is taken to be there if the text holds
its name and a colon anywhere, and of the new sections the first alone gets its header line.

So a merge adds exactly what is missing if and only if this test is right for each key, and one
section is new at most (`merge_exact_iff`).

The text is written in UTF-8, and the file that is read is the one that was written.
-/

namespace AiMeshChat.Oracle

open Lib

/-! ## The merge -/

/-- `section_end`. -/
abbrev SectionEnds := Rows Word (Word × ℕ) Prod.fst

/-- The loop that finds the sections' ends, at line `i` with the section that is open. -/
def sectionEnds (i : ℕ) (cur : Word) (ends : SectionEnds) : List Word → SectionEnds
  | [] => if cur ≠ [] then ends.put (cur, i) else ends
  | line :: lines =>
    match keyLine line with
    | none => sectionEnds (i + 1) cur ends lines
    | some (keyPart, _) =>
      if indented line then sectionEnds (i + 1) cur ends lines
      else sectionEnds (i + 1) keyPart (if cur ≠ [] then ends.put (cur, i) else ends) lines

/-- The pairs whose key is not in the text. -/
def missing (body : List Char) (kv : FlatSection) : List (Word × Word) :=
  kv.list.filter fun kv => !decide (kv.1 ++ [':'] <:+: body)

/-- The line of a pair. -/
def pairLine (kv : Word × Word) : Word := ' ' :: ' ' :: (kv.1 ++ ':' :: ' ' :: kv.2)

/-- `section_inserts`, `new_section_lines` and `merged`. -/
structure Plan where
  inserts : List (Word × List Word) := []
  newLines : List Word := []
  merged : Bool := false

/-- One round of the loop that plans the insertions; the sections of a dict come once each. -/
def planStep (ends : SectionEnds) (body : List Char) (plan : Plan) (sec : Word × FlatSection) :
    Plan :=
  let absent := missing body sec.2
  if absent = [] then plan
  else if (ends.get? sec.1).isSome then
    { plan with merged := true, inserts := plan.inserts ++ [(sec.1, absent.map pairLine)] }
  else
    let header := if plan.newLines = [] then [sec.1 ++ [':']] else plan.newLines
    { plan with merged := true, newLines := header ++ absent.map pairLine }

/-- The loop that inserts the lines of a section one by one. -/
def insertAll (pos : ℕ) (texts lines : List Word) : List Word :=
  match texts with
  | [] => lines
  | text :: texts => insertAll (pos + 1) texts (lines.insertIdx pos text)

/-- `section_end[section]`. -/
def endOf (ends : SectionEnds) (section_ : Word) : ℕ := ((ends.get? section_).map (·.2)).getD 0

/-- The insertions, from the last position to the first. -/
def applyInserts (ends : SectionEnds) (inserts : List (Word × List Word)) (lines : List Word) :
    List Word :=
  (inserts.mergeSort fun a b => endOf ends b.1 ≤ endOf ends a.1).foldl
    (fun lines ins => insertAll (endOf ends ins.1) ins.2 lines) lines

/-- `_merge_flat_yaml`: the text that is written, or none for `False`. -/
def mergeFlatYaml (text : List Char) (ensure : Flat) : Option (List Char) :=
  let lines := splitLines text
  let body := ['\n'].intercalate lines
  let ends := sectionEnds 0 [] Rows.empty lines
  let plan := ensure.list.foldl (planStep ends body) {}
  if !plan.merged then none
  else some (['\n'].intercalate (applyInserts ends plan.inserts lines ++ plan.newLines) ++ ['\n'])

/-! ## What is promised -/

/-- A word that stands on one line and has no white space at its ends. -/
structure PlainWord (w : Word) : Prop where
  stripped : strip w = w
  oneLine : ∀ c ∈ w, isBreak c = false

/-- A word that can be a key. -/
structure PlainKey (w : Word) : Prop extends PlainWord w where
  noColon : ':' ∉ w
  noComment : w.head? ≠ some '#'

instance (w : Word) : Decidable (PlainWord w) :=
  letI : Decidable (∀ c ∈ w, isBreak c = false) := List.decidableBAll _ w
  decidable_of_iff (strip w = w ∧ ∀ c ∈ w, isBreak c = false)
    ⟨fun h => ⟨h.1, h.2⟩, fun h => ⟨h.1, h.2⟩⟩

instance (w : Word) : Decidable (PlainKey w) :=
  decidable_of_iff (PlainWord w ∧ ':' ∉ w ∧ w.head? ≠ some '#')
    ⟨fun h => ⟨h.1, h.2.1, h.2.2⟩, fun h => ⟨h.1, h.2, h.3⟩⟩

/-- Plain sections, keys and values. -/
def PlainMap (ensure : Flat) : Prop :=
  ∀ sec ∈ ensure.list, (PlainKey sec.1 ∧ sec.1 ≠ []) ∧
    ∀ kv ∈ sec.2.list, PlainKey kv.1 ∧ PlainWord kv.2

instance (ensure : Flat) : Decidable (PlainMap ensure) :=
  inferInstanceAs (Decidable (∀ sec ∈ ensure.list, (PlainKey sec.1 ∧ sec.1 ≠ []) ∧
    ∀ kv ∈ sec.2.list, PlainKey kv.1 ∧ PlainWord kv.2))

/-- The text after the merge. -/
def mergedText (text : List Char) (ensure : Flat) : List Char :=
  (mergeFlatYaml text ensure).getD text

/-- Each ensured key is there, with its old value if it had one; no other key is changed, or new;
and a second merge does nothing. -/
structure MergesWell (text : List Char) (ensure : Flat) : Prop where
  ensured : ∀ s k v, ensure.lookup s k = some v →
    (parseFlatYaml (mergedText text ensure)).lookup s k =
      some (((parseFlatYaml text).lookup s k).getD v)
  kept : ∀ s k, ensure.lookup s k = none →
    (parseFlatYaml (mergedText text ensure)).lookup s k = (parseFlatYaml text).lookup s k
  second : mergeFlatYaml (mergedText text ensure) ensure = none

/-- The text that is searched for a key. -/
def bodyOf (text : List Char) : List Char := ['\n'].intercalate (splitLines text)

/-- The section that the line opens. -/
def opens (line : Word) : Option Word :=
  if indented line then none else (keyLine line).map (·.1)

def headers (lines : List Word) : List Word := lines.filterMap opens

/-- The search finds the keys that are set and no others, but for keys that are set to the ensured
value, and lacks keys of one new section at most. -/
structure SearchFits (text : List Char) (ensure : Flat) : Prop where
  present : ∀ s k v old, ensure.lookup s k = some v → (parseFlatYaml text).lookup s k = some old →
    k ++ [':'] <:+: bodyOf text ∨ old = v
  absent : ∀ s k v, ensure.lookup s k = some v → (parseFlatYaml text).lookup s k = none →
    ¬ k ++ [':'] <:+: bodyOf text
  oneNew : ∀ sec ∈ ensure.list, ∀ sec' ∈ ensure.list,
    sec.1 ∉ headers (splitLines text) → sec'.1 ∉ headers (splitLines text) →
    missing (bodyOf text) sec.2 ≠ [] → missing (bodyOf text) sec'.2 ≠ [] → sec.1 = sec'.1

/-! ## Lines that are inserted -/

theorem dropWhile_of_head {l : List Char} (h : ∀ c, l.head? = some c → isSpace c = false) :
    l.dropWhile isSpace = l := by
  cases l with
  | nil => rfl
  | cons c l => rw [List.dropWhile_cons_of_neg (by simp [h c rfl])]

theorem length_dropWhile_lt {l : List Char} {c : Char} (hc : l.head? = some c)
    (h : isSpace c = true) : (l.dropWhile isSpace).length < l.length := by
  cases l with
  | nil => cases hc
  | cons d l =>
    cases hc
    rw [List.dropWhile_cons_of_pos h, List.length_cons]
    exact Nat.lt_succ_of_le (List.dropWhile_suffix _).length_le

theorem length_strip_le (w : List Char) : (strip w).length ≤ (w.dropWhile isSpace).length := by
  have hle := (List.dropWhile_suffix isSpace (l := (w.dropWhile isSpace).reverse)).length_le
  rw [List.length_reverse] at hle
  rwa [strip, List.length_reverse]

namespace PlainWord

variable {w : Word}

theorem head (h : PlainWord w) : ∀ c, w.head? = some c → isSpace c = false := by
  intro c hc
  by_contra hspace
  have hlt := length_dropWhile_lt hc (by simpa using hspace)
  have hle := length_strip_le w
  rw [h.stripped] at hle
  omega

theorem dropWhile_eq (h : PlainWord w) : w.dropWhile isSpace = w := dropWhile_of_head h.head

theorem last (h : PlainWord w) : ∀ c, w.reverse.head? = some c → isSpace c = false := by
  intro c hc
  by_contra hspace
  have hlt := length_dropWhile_lt hc (by simpa using hspace)
  have heq := congrArg List.length h.stripped
  rw [strip, h.dropWhile_eq, List.length_reverse] at heq
  rw [List.length_reverse] at hlt
  omega

end PlainWord

theorem strip_pairLine {kv : Word × Word} (hk : PlainWord kv.1) (hv : PlainWord kv.2) :
    strip (pairLine kv) = kv.1 ++ ':' :: (if kv.2 = [] then [] else ' ' :: kv.2) := by
  have hfront : (pairLine kv).dropWhile isSpace = kv.1 ++ ':' :: ' ' :: kv.2 := by
    rw [pairLine, List.dropWhile_cons_of_pos (by decide), List.dropWhile_cons_of_pos (by decide)]
    refine dropWhile_of_head ?_
    intro c hc
    cases hw : kv.1 with
    | nil =>
      rw [hw] at hc
      cases hc
      decide
    | cons d w =>
      rw [hw] at hc
      cases hc
      exact hk.head c (by rw [hw]; rfl)
  rw [strip, hfront]
  by_cases hnil : kv.2 = []
  · rw [hnil, if_pos rfl]
    have hrev : (kv.1 ++ [':', ' ']).reverse = ' ' :: ':' :: kv.1.reverse := by simp
    rw [hrev, List.dropWhile_cons_of_pos (by decide), List.dropWhile_cons_of_neg (by decide)]
    simp
  · rw [if_neg hnil, dropWhile_of_head, List.reverse_reverse]
    intro c hc
    refine hv.last c ?_
    rw [List.reverse_append, List.reverse_cons, List.reverse_cons, List.append_assoc,
      List.append_assoc, List.head?_append_of_ne_nil _ (by simpa using hnil)] at hc
    exact hc

theorem keyLine_of_strip {line k rest : Word} (hk : PlainKey k)
    (h : strip line = k ++ ':' :: rest) : keyLine line = some (k, strip rest) := by
  have hne : ∀ c ∈ k, decide (c ≠ ':') = true := by
    intro c hc
    exact decide_eq_true fun heq => hk.noColon (heq ▸ hc)
  have htake : (k ++ ':' :: rest).takeWhile (· ≠ ':') = k := by
    rw [List.takeWhile_append_of_pos hne]
    simp
  have hdrop : (k ++ ':' :: rest).dropWhile (· ≠ ':') = ':' :: rest := by
    rw [List.dropWhile_append_of_pos hne]
    simp
  have hcomment : ¬ (k ++ ':' :: rest = [] ∨ (k ++ ':' :: rest).head? = some '#') := by
    intro h
    have hnoComment := hk.noComment
    cases k with
    | nil =>
      revert h
      simp
    | cons d w => exact hnoComment (h.resolve_left (by simp))
  simp only [keyLine, h, if_neg hcomment, htake, hdrop, List.tail_cons, hk.stripped]
  rw [if_neg (by simp)]

theorem keyLine_pairLine {kv : Word × Word} (hk : PlainKey kv.1) (hv : PlainWord kv.2) :
    keyLine (pairLine kv) = some kv := by
  have hval : strip (if kv.2 = [] then [] else ' ' :: kv.2) = kv.2 := by
    by_cases hnil : kv.2 = []
    · rw [if_pos hnil, hnil]
      rfl
    · rw [if_neg hnil, strip, List.dropWhile_cons_of_pos (by decide)]
      exact hv.stripped
  rw [keyLine_of_strip hk (strip_pairLine hk.toPlainWord hv), hval]

theorem indented_pairLine (kv : Word × Word) : indented (pairLine kv) = true := rfl

theorem keyLine_header {s : Word} (hs : PlainKey s) (hne : s ≠ []) :
    keyLine (s ++ [':']) = some (s, []) := by
  refine keyLine_of_strip hs (?_ : strip (s ++ [':']) = s ++ ':' :: [])
  have hfront : (s ++ [':']).dropWhile isSpace = s ++ [':'] := by
    refine dropWhile_of_head fun c hc => hs.head c ?_
    rwa [List.head?_append_of_ne_nil _ hne] at hc
  have hback : (s ++ [':']).reverse.dropWhile isSpace = (s ++ [':']).reverse := by
    rw [List.reverse_append]
    exact List.dropWhile_cons_of_neg (by decide)
  rw [strip, hfront, hback, List.reverse_reverse]

theorem indented_header {s : Word} (hs : PlainKey s) (hne : s ≠ []) :
    indented (s ++ [':']) = false := by
  cases s with
  | nil => exact absurd rfl hne
  | cons c s =>
    have hc := hs.head c rfl
    have hspace : ' ' ≠ c := by
      rintro rfl
      revert hc
      decide
    have htab : '\t' ≠ c := by
      rintro rfl
      revert hc
      decide
    simp [indented, List.isPrefixOf, hspace, htab]

/-- The assignments of pairs in a section. -/
def pairsIn (s : Word) (kvs : List (Word × Word)) : List ((Word × Word) × Word) :=
  kvs.map fun kv => ((s, kv.1), kv.2)

def PlainPairs (kvs : List (Word × Word)) : Prop := ∀ kv ∈ kvs, PlainKey kv.1 ∧ PlainWord kv.2

theorem assigned_pairLines {kvs : List (Word × Word)} (h : PlainPairs kvs) {s : Word}
    (hs : s ≠ []) : assigned s (kvs.map pairLine) = pairsIn s kvs := by
  induction kvs with
  | nil => rfl
  | cons kv kvs ih =>
    have hkv := h kv List.mem_cons_self
    rw [List.map_cons, assigned, keyLine_pairLine hkv.1 hkv.2]
    simp only [indented_pairLine, if_true, if_pos hs]
    rw [ih fun kv' hkv' => h kv' (List.mem_cons_of_mem _ hkv')]
    rfl

theorem sectionAfter_pairLines {kvs : List (Word × Word)} (h : PlainPairs kvs) (s : Word) :
    sectionAfter s (kvs.map pairLine) = s := by
  induction kvs with
  | nil => rfl
  | cons kv kvs ih =>
    have hkv := h kv List.mem_cons_self
    rw [List.map_cons, sectionAfter, keyLine_pairLine hkv.1 hkv.2]
    simp only [indented_pairLine, if_true]
    exact ih fun kv' hkv' => h kv' (List.mem_cons_of_mem _ hkv')

theorem assigned_header {s : Word} (hs : PlainKey s) (hne : s ≠ []) (cur : Word)
    (lines : List Word) : assigned cur ((s ++ [':']) :: lines) = assigned s lines := by
  rw [assigned, keyLine_header hs hne]
  simp only [indented_header hs hne, Bool.false_eq_true, if_false]

/-! ## The end of a section -/

/-- At line `p` the section is open, and it is not set behind. -/
structure Slot (lines : List Word) (p : ℕ) (s : Word) : Prop where
  le : p ≤ lines.length
  isOpen : sectionAfter [] (lines.take p) = s
  last : ∀ a ∈ assigned s (lines.drop p), a.1.1 ≠ s

theorem insertIdx_length_append (a b : List Word) (x : Word) :
    (a ++ b).insertIdx a.length x = a ++ x :: b := by
  induction a with
  | nil => rfl
  | cons c a ih => rw [List.cons_append, List.length_cons, List.insertIdx_succ_cons, ih]; rfl

theorem insertAll_append (a texts b : List Word) :
    insertAll a.length texts (a ++ b) = a ++ texts ++ b := by
  induction texts generalizing a with
  | nil => rw [insertAll, List.append_nil]
  | cons text texts ih =>
    have hnext := ih (a ++ [text])
    rw [List.length_append, List.length_singleton] at hnext
    rw [insertAll, insertIdx_length_append, List.append_cons, hnext]
    simp

theorem insertAll_eq {lines : List Word} {pos : ℕ} (h : pos ≤ lines.length) (texts : List Word) :
    insertAll pos texts lines = lines.take pos ++ texts ++ lines.drop pos := by
  have heq := insertAll_append (lines.take pos) texts (lines.drop pos)
  rwa [List.length_take_of_le h, List.take_append_drop] at heq

namespace Slot

variable {lines : List Word} {p : ℕ} {s : Word}

theorem latest_insertAll (h : Slot lines p s) (hs : s ≠ []) {kvs : List (Word × Word)}
    (hkvs : PlainPairs kvs) (k : Word × Word) :
    latest k none (assigned [] (insertAll p (kvs.map pairLine) lines)) =
      latest k (latest k none (assigned [] lines)) (pairsIn s kvs) := by
  have hold : assigned [] lines =
      assigned [] (lines.take p) ++ assigned s (lines.drop p) := by
    rw [← h.isOpen, ← assigned_append, List.take_append_drop]
  rw [insertAll_eq h.le, assigned_append, assigned_append, sectionAfter_append, h.isOpen,
    sectionAfter_pairLines hkvs, assigned_pairLines hkvs hs, hold]
  refine latest_insert ?_ k none _
  intro a ha b hb heq
  obtain ⟨kv, -, rfl⟩ := List.mem_map.mp ha
  exact h.last b hb (congrArg Prod.fst heq).symm

theorem insertAll_lt {q : ℕ} {t : Word} (hq : Slot lines q t) (h : Slot lines p s) (hs : s ≠ [])
    {kvs : List (Word × Word)} (hkvs : PlainPairs kvs) (hlt : q < p) (hne : s ≠ t) :
    Slot (insertAll p (kvs.map pairLine) lines) q t := by
  have hp := h.le
  have hlen : (lines.take p).length = p := List.length_take_of_le hp
  have htake := List.take_append_drop q (lines.take p)
  rw [List.take_take, Nat.min_eq_left hlt.le] at htake
  have hmid : sectionAfter t ((lines.take p).drop q) = s := by
    rw [← hq.isOpen, ← sectionAfter_append, htake, h.isOpen]
  have hdrop : lines.drop q = (lines.take p).drop q ++ lines.drop p := by
    conv_lhs => rw [← List.take_append_drop p lines]
    exact List.drop_append_of_le_length (by omega)
  have hlast := hq.last
  rw [hdrop, assigned_append, hmid] at hlast
  rw [insertAll_eq hp]
  refine ⟨by simp; omega, ?_, ?_⟩
  · rw [List.append_assoc, List.take_append_of_le_length (by omega), List.take_take,
      Nat.min_eq_left hlt.le]
    exact hq.isOpen
  · rw [List.append_assoc, List.drop_append_of_le_length (by omega), assigned_append, hmid,
      assigned_append, sectionAfter_pairLines hkvs, assigned_pairLines hkvs hs]
    intro a ha
    rcases List.mem_append.mp ha with hfront | hrest
    · exact hlast a (List.mem_append_left _ hfront)
    · rcases List.mem_append.mp hrest with hpairs | hback
      · obtain ⟨kv, -, rfl⟩ := List.mem_map.mp hpairs
        exact hne
      · exact hlast a (List.mem_append_right _ hback)

theorem unique (h : Slot lines p s) {t : Word} (h' : Slot lines p t) : s = t :=
  h.isOpen.symm.trans h'.isOpen

theorem concat (h : Slot lines p s) {line : Word}
    (hline : ∀ a ∈ assigned (sectionAfter [] lines) [line], a.1.1 ≠ s) :
    Slot (lines ++ [line]) p s := by
  have hcur : sectionAfter s (lines.drop p) = sectionAfter [] lines := by
    rw [← h.isOpen, ← sectionAfter_append, List.take_append_drop]
  refine ⟨by have := h.le; simp; omega, ?_, ?_⟩
  · rw [List.take_append_of_le_length h.le]
    exact h.isOpen
  · rw [List.drop_append_of_le_length h.le, assigned_append, hcur]
    intro a ha
    rcases List.mem_append.mp ha with hold | hnew
    · exact h.last a hold
    · exact hline a hnew

end Slot

theorem slot_length (lines : List Word) : Slot lines lines.length (sectionAfter [] lines) :=
  ⟨le_rfl, by rw [List.take_length], by simp [assigned]⟩

theorem sectionAfter_singleton (cur line : Word) :
    sectionAfter cur [line] = (opens line).getD cur := by
  rw [sectionAfter, opens]
  cases keyLine line with
  | none => cases indented line <;> rfl
  | some kv => cases indented line <;> rfl

theorem sectionEnds_cons (i : ℕ) (cur : Word) (ends : SectionEnds) (line : Word)
    (lines : List Word) : sectionEnds i cur ends (line :: lines) =
      (opens line).elim (sectionEnds (i + 1) cur ends lines) fun keyPart =>
        sectionEnds (i + 1) keyPart (if cur ≠ [] then ends.put (cur, i) else ends) lines := by
  rw [sectionEnds, opens]
  cases keyLine line with
  | none => cases indented line <;> rfl
  | some kv => cases indented line <;> rfl

theorem section_of_opens_none {cur line : Word} (h : opens line = none)
    {a : (Word × Word) × Word} (ha : a ∈ assigned cur [line]) : a.1.1 = cur ∧ cur ≠ [] := by
  rw [assigned] at ha
  rw [opens] at h
  cases hkey : keyLine line with
  | none => simp [hkey, assigned] at ha
  | some kv =>
    cases hin : indented line with
    | false => simp [hkey, hin] at h
    | true =>
      simp only [hkey, hin, if_true] at ha
      split at ha
      · next hcur =>
        rw [List.mem_singleton.mp ha]
        exact ⟨rfl, hcur⟩
      · cases ha

theorem assigned_of_opens {cur line key : Word} (h : opens line = some key) :
    assigned cur [line] = [] := by
  rw [opens] at h
  rw [assigned]
  cases hkey : keyLine line with
  | none => rfl
  | some kv =>
    cases hin : indented line with
    | false => rfl
    | true => simp [hin] at h

/-- Each end but that of the open section is a slot. -/
def SlotsOf (lines : List Word) (ends : SectionEnds) : Prop :=
  ∀ s r, ends.get? s = some r → s ≠ [] ∧ (s ≠ sectionAfter [] lines → Slot lines r.2 s)

theorem slotsOf_put {lines : List Word} {ends : SectionEnds} (h : SlotsOf lines ends)
    (hcur : sectionAfter [] lines ≠ []) {s : Word} {r : Word × ℕ}
    (hr : (ends.put (sectionAfter [] lines, lines.length)).get? s = some r) :
    s ≠ [] ∧ Slot lines r.2 s := by
  rw [Rows.get?_put] at hr
  split at hr
  · next hs =>
    cases hr
    rw [hs]
    exact ⟨hcur, slot_length lines⟩
  · next hs =>
    obtain ⟨hne, hslot⟩ := h s r hr
    exact ⟨hne, hslot hs⟩

theorem sectionEnds_slots {xs rest : List Word} {ends : SectionEnds} (h : SlotsOf xs ends)
    {s : Word} {r : Word × ℕ}
    (hr : (sectionEnds xs.length (sectionAfter [] xs) ends rest).get? s = some r) :
    s ≠ [] ∧ Slot (xs ++ rest) r.2 s := by
  induction rest generalizing xs ends with
  | nil =>
    rw [List.append_nil]
    rw [sectionEnds] at hr
    split at hr
    · next hcur => exact slotsOf_put h hcur hr
    · next hcur =>
      obtain ⟨hne, hslot⟩ := h s r hr
      refine ⟨hne, hslot ?_⟩
      intro heq
      rw [heq] at hne
      exact hcur hne
  | cons line rest ih =>
    have hlen : xs.length + 1 = (xs ++ [line]).length := by simp
    have hafter : sectionAfter [] (xs ++ [line]) = (opens line).getD (sectionAfter [] xs) := by
      rw [sectionAfter_append, sectionAfter_singleton]
    rw [List.append_cons]
    rw [sectionEnds_cons, hlen] at hr
    cases hopens : opens line with
    | none =>
      rw [hopens, Option.getD_none] at hafter
      rw [hopens, Option.elim_none, ← hafter] at hr
      refine ih ?_ hr
      intro s r hr
      obtain ⟨hne, hslot⟩ := h s r hr
      rw [hafter]
      refine ⟨hne, fun hs => (hslot hs).concat ?_⟩
      intro a ha
      rw [(section_of_opens_none hopens ha).1]
      exact hs.symm
    | some key =>
      rw [hopens, Option.getD_some] at hafter
      rw [hopens, Option.elim_some, ← hafter] at hr
      refine ih ?_ hr
      intro s r hr
      have hslot : s ≠ [] ∧ Slot xs r.2 s := by
        split at hr
        · next hcur => exact slotsOf_put h hcur hr
        · next hcur =>
          obtain ⟨hne, hslot⟩ := h s r hr
          refine ⟨hne, hslot ?_⟩
          intro heq
          rw [heq] at hne
          exact hcur hne
      refine ⟨hslot.1, fun _ => hslot.2.concat ?_⟩
      rw [assigned_of_opens hopens]
      simp

theorem sectionEnds_isSome (i : ℕ) (cur : Word) (ends : SectionEnds) (lines : List Word)
    (s : Word) : ((sectionEnds i cur ends lines).get? s).isSome ↔
      (ends.get? s).isSome ∨ s ≠ [] ∧ (s = cur ∨ s ∈ headers lines) := by
  have hput (i : ℕ) (cur : Word) (ends : SectionEnds) :
      ((if cur ≠ [] then ends.put (cur, i) else ends).get? s).isSome ↔
        (ends.get? s).isSome ∨ s ≠ [] ∧ s = cur := by
    split
    · next hcur =>
      rw [Rows.get?_put]
      by_cases hs : s = cur
      · simp [hs, hcur]
      · simp [hs]
    · next hcur =>
      rw [not_not] at hcur
      constructor
      · exact .inl
      · rintro (h | ⟨hne, heq⟩)
        · exact h
        · exact absurd (heq.trans hcur) hne
  induction lines generalizing i cur ends with
  | nil => simpa [sectionEnds, headers] using hput i cur ends
  | cons line lines ih =>
    rw [sectionEnds_cons]
    cases hopens : opens line with
    | none =>
      rw [Option.elim_none, headers, List.filterMap_cons_none hopens]
      exact ih (i + 1) cur ends
    | some key =>
      rw [Option.elim_some, headers, List.filterMap_cons_some hopens, List.mem_cons]
      refine (ih (i + 1) key _).trans ?_
      rw [hput, or_assoc, ← and_or_left]
      rfl

theorem assigned_section {cur : Word} {lines : List Word} {a : (Word × Word) × Word}
    (ha : a ∈ assigned cur lines) : a.1.1 ≠ [] ∧ (a.1.1 = cur ∨ a.1.1 ∈ headers lines) := by
  induction lines generalizing cur with
  | nil => cases ha
  | cons line lines ih =>
    rw [← List.singleton_append, assigned_append, sectionAfter_singleton] at ha
    cases hopens : opens line with
    | none =>
      rw [headers, List.filterMap_cons_none hopens]
      rw [hopens, Option.getD_none] at ha
      rcases List.mem_append.mp ha with hline | hrest
      · obtain ⟨hsec, hne⟩ := section_of_opens_none hopens hline
        exact ⟨hsec ▸ hne, .inl hsec⟩
      · exact ih hrest
    | some key =>
      rw [headers, List.filterMap_cons_some hopens, List.mem_cons]
      rw [hopens, Option.getD_some, assigned_of_opens hopens, List.nil_append] at ha
      obtain ⟨hne, hsec⟩ := ih ha
      exact ⟨hne, .inr hsec⟩

/-! ## The plan -/

section

variable (ends : SectionEnds) (body : List Char)

/-- A section with missing keys that is in the text, and one that is not. -/
def isOld (sec : Word × FlatSection) : Bool :=
  decide (missing body sec.2 ≠ []) && (ends.get? sec.1).isSome

def isNew (sec : Word × FlatSection) : Bool :=
  decide (missing body sec.2 ≠ []) && !(ends.get? sec.1).isSome

def pairLines (sec : Word × FlatSection) : List Word := (missing body sec.2).map pairLine

/-- The lines of the new sections, with one header. -/
def newSectionLines : List (Word × FlatSection) → List Word
  | [] => []
  | sec :: secs => (sec.1 ++ [':']) :: (sec :: secs).flatMap (pairLines body)

theorem planStep_old {sec : Word × FlatSection} (h : isOld ends body sec = true) (plan : Plan) :
    planStep ends body plan sec =
      ⟨plan.inserts ++ [(sec.1, pairLines body sec)], plan.newLines, true⟩ := by
  rw [isOld, Bool.and_eq_true, decide_eq_true_eq] at h
  rw [planStep, if_neg h.1, if_pos h.2]
  rfl

theorem planStep_new {sec : Word × FlatSection} (h : isNew ends body sec = true) (plan : Plan) :
    planStep ends body plan sec = ⟨plan.inserts,
      (if plan.newLines = [] then [sec.1 ++ [':']] else plan.newLines) ++ pairLines body sec,
      true⟩ := by
  rw [isNew, Bool.and_eq_true, decide_eq_true_eq, Bool.not_eq_true'] at h
  rw [planStep, if_neg h.1, h.2, if_neg Bool.false_ne_true]
  rfl

theorem foldl_planStep (secs : List (Word × FlatSection)) (plan : Plan) :
    secs.foldl (planStep ends body) plan =
      ⟨plan.inserts ++ (secs.filter (isOld ends body)).map fun sec => (sec.1, pairLines body sec),
        if plan.newLines = [] then newSectionLines body (secs.filter (isNew ends body))
        else plan.newLines ++ (secs.filter (isNew ends body)).flatMap (pairLines body),
        plan.merged || secs.any fun sec => decide (missing body sec.2 ≠ [])⟩ := by
  induction secs generalizing plan with
  | nil =>
    cases plan
    simp [newSectionLines]
  | cons sec secs ih =>
    rw [List.foldl_cons, ih, List.any_cons]
    by_cases habsent : missing body sec.2 = []
    · have hold : ¬ isOld ends body sec = true := by simp [isOld, habsent]
      have hnew : ¬ isNew ends body sec = true := by simp [isNew, habsent]
      rw [planStep, if_pos habsent, List.filter_cons_of_neg hold, List.filter_cons_of_neg hnew]
      simp [habsent]
    · cases hget : (ends.get? sec.1).isSome with
      | true =>
        have hold : isOld ends body sec = true := by simp [isOld, habsent, hget]
        have hnew : ¬ isNew ends body sec = true := by simp [isNew, hget]
        rw [planStep_old ends body hold, List.filter_cons_of_pos hold, List.filter_cons_of_neg hnew]
        simp [habsent]
      | false =>
        have hold : ¬ isOld ends body sec = true := by simp [isOld, hget]
        have hnew : isNew ends body sec = true := by
          rw [isNew, hget]
          simp [habsent]
        rw [planStep_new ends body hnew, List.filter_cons_of_neg hold, List.filter_cons_of_pos hnew]
        by_cases hlines : plan.newLines = []
        · simp [habsent, hlines, newSectionLines]
        · simp [habsent, hlines]

end

/-! ## The insertions -/

section

variable {ends : SectionEnds} {body : List Char}

theorem insertAll_perm {lines : List Word} {pos : ℕ} (h : pos ≤ lines.length) (texts : List Word) :
    (insertAll pos texts lines).Perm (lines ++ texts) := by
  rw [insertAll_eq h, List.append_assoc]
  conv_rhs => rw [← List.take_append_drop pos lines, List.append_assoc]
  exact List.perm_append_comm.append_left _

/-- The place of a section, and pairs that can be read back there. -/
structure Placed (ends : SectionEnds) (body : List Char) (lines : List Word)
    (sec : Word × FlatSection) : Prop where
  ne : sec.1 ≠ []
  slot : Slot lines (endOf ends sec.1) sec.1
  plain : PlainPairs (missing body sec.2)

variable {secs : List (Word × FlatSection)}

theorem foldl_insertAll (hsorted : secs.Pairwise fun a b => endOf ends b.1 < endOf ends a.1)
    {lines : List Word} (hplaced : ∀ sec ∈ secs, Placed ends body lines sec) :
    (∀ k, latest k none (assigned [] (secs.foldl
        (fun lines sec => insertAll (endOf ends sec.1) (pairLines body sec) lines) lines)) =
      latest k (latest k none (assigned [] lines))
        (secs.flatMap fun sec => pairsIn sec.1 (missing body sec.2))) ∧
    (secs.foldl (fun lines sec => insertAll (endOf ends sec.1) (pairLines body sec) lines)
      lines).Perm (lines ++ secs.flatMap (pairLines body)) := by
  induction secs generalizing lines with
  | nil => exact ⟨fun k => rfl, by simp⟩
  | cons sec secs ih =>
    obtain ⟨hlt, hsorted⟩ := List.pairwise_cons.mp hsorted
    have hsec := hplaced sec List.mem_cons_self
    have hnext : ∀ sec' ∈ secs, Placed ends body
        (insertAll (endOf ends sec.1) (pairLines body sec) lines) sec' := by
      intro sec' hmem
      have hsec' := hplaced sec' (List.mem_cons_of_mem _ hmem)
      have hpos := hlt sec' hmem
      have hne : sec.1 ≠ sec'.1 := fun heq => by
        rw [heq] at hpos
        exact lt_irrefl _ hpos
      exact ⟨hsec'.ne, hsec'.slot.insertAll_lt hsec.slot hsec.ne hsec.plain hpos hne, hsec'.plain⟩
    obtain ⟨hlatest, hperm⟩ := ih hsorted hnext
    constructor
    · intro k
      rw [List.foldl_cons, hlatest k, pairLines, hsec.slot.latest_insertAll hsec.ne hsec.plain,
        List.flatMap_cons, latest_append]
    · rw [List.foldl_cons, List.flatMap_cons, ← List.append_assoc]
      exact hperm.trans ((insertAll_perm hsec.slot.le _).append_right _)

theorem applyInserts_spec (hnodup : (secs.map Prod.fst).Nodup) {lines : List Word}
    (hplaced : ∀ sec ∈ secs, Placed ends body lines sec) :
    ∃ sorted : List (Word × FlatSection), sorted.Perm secs ∧
      (∀ k, latest k none (assigned []
          (applyInserts ends (secs.map fun sec => (sec.1, pairLines body sec)) lines)) =
        latest k (latest k none (assigned [] lines))
          (sorted.flatMap fun sec => pairsIn sec.1 (missing body sec.2))) ∧
      (applyInserts ends (secs.map fun sec => (sec.1, pairLines body sec)) lines).Perm
        (lines ++ sorted.flatMap (pairLines body)) := by
  let sorted := secs.mergeSort fun a b => endOf ends b.1 ≤ endOf ends a.1
  have hperm : sorted.Perm secs := List.mergeSort_perm _ _
  have hmap : (secs.map fun sec => (sec.1, pairLines body sec)).mergeSort
      (fun a b => endOf ends b.1 ≤ endOf ends a.1) =
      sorted.map fun sec => (sec.1, pairLines body sec) :=
    (List.map_mergeSort (f := fun sec => (sec.1, pairLines body sec)) fun a _ b _ => rfl).symm
  have hmem : ∀ sec ∈ sorted, Placed ends body lines sec :=
    fun sec hsec => hplaced sec (hperm.mem_iff.mp hsec)
  have hle : sorted.Pairwise fun a b => decide (endOf ends b.1 ≤ endOf ends a.1) = true :=
    List.pairwise_mergeSort (fun a b c => by simp only [decide_eq_true_eq]; omega)
      (fun a b => by simp only [Bool.or_eq_true, decide_eq_true_eq]; omega) secs
  have hne : sorted.Pairwise fun a b => a.1 ≠ b.1 :=
    List.pairwise_map.mp ((hperm.map Prod.fst).nodup_iff.mpr hnodup)
  have hsorted : sorted.Pairwise fun a b => endOf ends b.1 < endOf ends a.1 := by
    refine (hle.and hne).imp_of_mem ?_
    rintro a b ha hb ⟨hab, hdiff⟩
    refine lt_of_le_of_ne (of_decide_eq_true hab) fun heq => hdiff ?_
    have hslot := (hmem b hb).slot
    rw [heq] at hslot
    exact (hmem a ha).slot.unique hslot
  refine ⟨sorted, hperm, ?_⟩
  rw [applyInserts, hmap, List.foldl_map]
  exact foldl_insertAll hsorted hmem

/-- The pairs of the new sections, which all come below the first header. -/
def newPairs (body : List Char) : List (Word × FlatSection) → List ((Word × Word) × Word)
  | [] => []
  | sec :: secs => (sec :: secs).flatMap fun sec' => pairsIn sec.1 (missing body sec'.2)

theorem assigned_newSectionLines
    (h : ∀ sec ∈ secs, (PlainKey sec.1 ∧ sec.1 ≠ []) ∧ PlainPairs (missing body sec.2))
    (cur : Word) : assigned cur (newSectionLines body secs) = newPairs body secs := by
  cases secs with
  | nil => rfl
  | cons sec secs =>
    have hsec := (h sec List.mem_cons_self).1
    have hplain : PlainPairs ((sec :: secs).flatMap fun sec => missing body sec.2) := by
      intro kv hkv
      obtain ⟨sec', hmem, hkv⟩ := List.mem_flatMap.mp hkv
      exact (h sec' hmem).2 kv hkv
    have hlines : (sec :: secs).flatMap (pairLines body) =
        ((sec :: secs).flatMap fun sec => missing body sec.2).map pairLine := by
      rw [List.map_flatMap]
      rfl
    rw [newSectionLines, assigned_header hsec.1 hsec.2, hlines, assigned_pairLines hplain hsec.2,
      pairsIn, List.map_flatMap]
    rfl

end

/-! ## The text after the merge -/

section

variable {text : List Char} {ensure : Flat}

def endsOf (text : List Char) : SectionEnds := sectionEnds 0 [] Rows.empty (splitLines text)

theorem endsOf_isSome (text : List Char) (s : Word) :
    ((endsOf text).get? s).isSome ↔ s ≠ [] ∧ s ∈ headers (splitLines text) := by
  rw [endsOf, sectionEnds_isSome]
  have hempty : ((Rows.empty : SectionEnds).get? s).isSome = false := rfl
  rw [hempty]
  constructor
  · rintro (h | ⟨hne, heq | hmem⟩)
    · cases h
    · exact absurd heq hne
    · exact ⟨hne, hmem⟩
  · rintro ⟨hne, hmem⟩
    exact .inr ⟨hne, .inr hmem⟩

theorem endsOf_slot {s : Word} (h : ((endsOf text).get? s).isSome) :
    Slot (splitLines text) (endOf (endsOf text) s) s := by
  obtain ⟨r, hr⟩ := Option.isSome_iff_exists.mp h
  have hslots : SlotsOf [] Rows.empty := by
    intro s r hr
    cases hr
  have hslot := (sectionEnds_slots hslots hr).2
  rw [endOf, hr]
  exact hslot

/-- The sections that get lines where they are, and those that come at the end. -/
def olds (text : List Char) (ensure : Flat) : List (Word × FlatSection) :=
  ensure.list.filter (isOld (endsOf text) (bodyOf text))

def news (text : List Char) (ensure : Flat) : List (Word × FlatSection) :=
  ensure.list.filter (isNew (endsOf text) (bodyOf text))

theorem mergeFlatYaml_eq (text : List Char) (ensure : Flat) : mergeFlatYaml text ensure =
    if ensure.list.any fun sec => decide (missing (bodyOf text) sec.2 ≠ []) then
      some (['\n'].intercalate (applyInserts (endsOf text)
        ((olds text ensure).map fun sec => (sec.1, pairLines (bodyOf text) sec)) (splitLines text) ++
          newSectionLines (bodyOf text) (news text ensure)) ++ ['\n'])
    else none := by
  have hplan := foldl_planStep (endsOf text) (bodyOf text) ensure.list {}
  rw [if_pos rfl, List.nil_append, Bool.false_or] at hplan
  have hdef : mergeFlatYaml text ensure =
      let plan := ensure.list.foldl (planStep (endsOf text) (bodyOf text)) {}
      if !plan.merged then none
      else some (['\n'].intercalate
        (applyInserts (endsOf text) plan.inserts (splitLines text) ++ plan.newLines) ++ ['\n']) := rfl
  rw [hdef, hplan]
  cases ensure.list.any fun sec => decide (missing (bodyOf text) sec.2 ≠ []) with
  | false => rfl
  | true => rfl

theorem plainPairs_missing (h : PlainMap ensure) (body : List Char) {sec : Word × FlatSection}
    (hsec : sec ∈ ensure.list) : PlainPairs (missing body sec.2) := by
  intro kv hkv
  exact (h sec hsec).2 kv (List.mem_of_mem_filter hkv)

theorem placed_olds (h : PlainMap ensure) {sec : Word × FlatSection}
    (hsec : sec ∈ olds text ensure) :
    Placed (endsOf text) (bodyOf text) (splitLines text) sec := by
  obtain ⟨hmem, hold⟩ := List.mem_filter.mp hsec
  rw [isOld, Bool.and_eq_true] at hold
  exact ⟨(h sec hmem).1.2, endsOf_slot hold.2, plainPairs_missing h _ hmem⟩

theorem oneLine_pairLine {kv : Word × Word} (hk : PlainWord kv.1) (hv : PlainWord kv.2) :
    ∀ c ∈ pairLine kv, isBreak c = false := by
  intro c hc
  simp only [pairLine, List.mem_cons, List.mem_append] at hc
  rcases hc with rfl | rfl | hc | rfl | rfl | hc
  · decide
  · decide
  · exact hk.oneLine c hc
  · decide
  · decide
  · exact hv.oneLine c hc

theorem oneLine_header {s : Word} (hs : PlainWord s) : ∀ c ∈ s ++ [':'], isBreak c = false := by
  intro c hc
  rcases List.mem_append.mp hc with hc | hc
  · exact hs.oneLine c hc
  · rw [List.mem_singleton.mp hc]
    decide

/-- The lines that a merge adds. -/
structure Merged (text : List Char) (ensure : Flat) (sorted : List (Word × FlatSection)) : Prop where
  perm : sorted.Perm (olds text ensure)
  lookup : ∀ s k, (parseFlatYaml (mergedText text ensure)).lookup s k =
    latest (s, k) (latest (s, k) ((parseFlatYaml text).lookup s k)
      (sorted.flatMap fun sec => pairsIn sec.1 (missing (bodyOf text) sec.2)))
      (newPairs (bodyOf text) (news text ensure))
  kept : ∀ line ∈ splitLines text, line ∈ splitLines (mergedText text ensure)
  added : ∀ sec ∈ ensure.list, ∀ line ∈ pairLines (bodyOf text) sec,
    line ∈ splitLines (mergedText text ensure)

/-- The lines of the text after a merge. -/
def mergedLines (text : List Char) (ensure : Flat) : List Word :=
  applyInserts (endsOf text)
    ((olds text ensure).map fun sec => (sec.1, pairLines (bodyOf text) sec)) (splitLines text) ++
    newSectionLines (bodyOf text) (news text ensure)

theorem missing_of_filtered {sec : Word × FlatSection} (hsec : sec ∈ ensure.list)
    (hold : sec ∉ olds text ensure) (hnew : sec ∉ news text ensure) :
    missing (bodyOf text) sec.2 = [] := by
  by_contra hne
  cases hget : ((endsOf text).get? sec.1).isSome with
  | true => exact hold (List.mem_filter.mpr ⟨hsec, by simp [isOld, hne, hget]⟩)
  | false =>
    refine hnew (List.mem_filter.mpr ⟨hsec, ?_⟩)
    rw [isNew, hget]
    simp [hne]

theorem mem_newSectionLines {body : List Char} {secs : List (Word × FlatSection)} {line : Word} :
    line ∈ newSectionLines body secs ↔
      (∃ sec ∈ secs.head?, line = sec.1 ++ [':']) ∨ ∃ sec ∈ secs, line ∈ pairLines body sec := by
  cases secs with
  | nil => simp [newSectionLines]
  | cons sec secs => simp [newSectionLines]

theorem mem_mergedLines (hplain : PlainMap ensure) {line : Word} :
    line ∈ mergedLines text ensure ↔ line ∈ splitLines text ∨
      (∃ sec ∈ ensure.list, line ∈ pairLines (bodyOf text) sec) ∨
      ∃ sec ∈ (news text ensure).head?, line = sec.1 ++ [':'] := by
  have hnodup : ((olds text ensure).map Prod.fst).Nodup :=
    ensure.nodup.sublist (List.filter_sublist.map Prod.fst)
  obtain ⟨sorted, hperm, -, hlines⟩ := applyInserts_spec hnodup fun _ => placed_olds hplain
  rw [mergedLines, List.mem_append, hlines.mem_iff, List.mem_append, mem_newSectionLines,
    List.mem_flatMap]
  constructor
  · rintro ((htext | ⟨sec, hsec, hline⟩) | (hheader | ⟨sec, hsec, hline⟩))
    · exact .inl htext
    · exact .inr (.inl ⟨sec, List.mem_of_mem_filter (hperm.mem_iff.mp hsec), hline⟩)
    · exact .inr (.inr hheader)
    · exact .inr (.inl ⟨sec, List.mem_of_mem_filter hsec, hline⟩)
  · rintro (htext | ⟨sec, hsec, hline⟩ | hheader)
    · exact .inl (.inl htext)
    · by_cases hold : sec ∈ olds text ensure
      · exact .inl (.inr ⟨sec, hperm.mem_iff.mpr hold, hline⟩)
      · by_cases hnew : sec ∈ news text ensure
        · exact .inr (.inr ⟨sec, hnew, hline⟩)
        · rw [pairLines, missing_of_filtered hsec hold hnew] at hline
          cases hline
    · exact .inr (.inl hheader)

theorem mem_news_head {sec : Word × FlatSection} (h : sec ∈ (news text ensure).head?) :
    sec ∈ ensure.list :=
  List.mem_of_mem_filter (List.mem_of_head? (Option.mem_def.mp h))

theorem oneLine_mergedLines (hplain : PlainMap ensure) :
    ∀ line ∈ mergedLines text ensure, ∀ c ∈ line, isBreak c = false := by
  intro line hline
  rcases (mem_mergedLines hplain).mp hline with htext | ⟨sec, hsec, hpair⟩ | ⟨sec, hsec, rfl⟩
  · exact not_of_mem_linesOn htext
  · obtain ⟨kv, hkv, rfl⟩ := List.mem_map.mp hpair
    have hpairs := plainPairs_missing hplain _ hsec kv hkv
    exact oneLine_pairLine hpairs.1.toPlainWord hpairs.2
  · exact oneLine_header (hplain sec (mem_news_head hsec)).1.1.toPlainWord

theorem splitLines_written {lines : List Word} (hne : lines ≠ [])
    (h : ∀ line ∈ lines, ∀ c ∈ line, isBreak c = false) :
    splitLines (['\n'].intercalate lines ++ ['\n']) = lines := by
  obtain ⟨l, ls, rfl⟩ := List.exists_cons_of_ne_nil hne
  rw [splitLines, joinCrLf_of_no_cr, linesOn_joined rfl h]
  intro hmem
  rcases List.mem_append.mp hmem with hmem | hmem
  · obtain ⟨pre, post, heq⟩ := List.append_of_mem hmem
    have hin : ['\r'] <:+: ['\n'].intercalate (l :: ls) := ⟨pre, post, by simp [heq]⟩
    rw [infix_joined_iff (by decide) (by decide)] at hin
    obtain ⟨line, hline, hcr⟩ := hin
    have hbreak := h line hline '\r' (hcr.subset List.mem_cons_self)
    revert hbreak
    decide
  · revert hmem
    decide

theorem merged_spec (hplain : PlainMap ensure) : ∃ sorted, Merged text ensure sorted := by
  by_cases hany : ensure.list.any fun sec => decide (missing (bodyOf text) sec.2 ≠ [])
  · have hnodup : ((olds text ensure).map Prod.fst).Nodup :=
      ensure.nodup.sublist (List.filter_sublist.map Prod.fst)
    obtain ⟨sorted, hperm, hlatest, -⟩ := applyInserts_spec hnodup fun _ => placed_olds hplain
    have hne : mergedLines text ensure ≠ [] := by
      obtain ⟨sec, hsec, hmissing⟩ := List.any_eq_true.mp hany
      obtain ⟨kv, hkv⟩ := List.exists_mem_of_ne_nil _ (of_decide_eq_true hmissing)
      exact List.ne_nil_of_mem ((mem_mergedLines hplain).mpr
        (.inr (.inl ⟨sec, hsec, List.mem_map_of_mem hkv⟩)))
    have hlines : splitLines (mergedText text ensure) = mergedLines text ensure := by
      rw [mergedText, mergeFlatYaml_eq, if_pos hany]
      exact splitLines_written hne (oneLine_mergedLines hplain)
    refine ⟨sorted, hperm, ?_, ?_, ?_⟩
    · intro s k
      rw [lookup_parse, lookup_parse, hlines, mergedLines, assigned_append, latest_append, hlatest,
        assigned_newSectionLines]
      intro sec hsec
      have hmem := List.mem_of_mem_filter hsec
      exact ⟨(hplain sec hmem).1, plainPairs_missing hplain _ hmem⟩
    · intro line hline
      rw [hlines, mem_mergedLines hplain]
      exact .inl hline
    · intro sec hsec line hline
      rw [hlines, mem_mergedLines hplain]
      exact .inr (.inl ⟨sec, hsec, hline⟩)
  · have hsame : mergedText text ensure = text := by
      rw [mergedText, mergeFlatYaml_eq, if_neg hany]
      rfl
    have hnone : ∀ sec ∈ ensure.list, missing (bodyOf text) sec.2 = [] := by
      intro sec hsec
      by_contra hne
      exact hany (List.any_eq_true.mpr ⟨sec, hsec, decide_eq_true hne⟩)
    have holds : olds text ensure = [] := by
      refine List.filter_eq_nil_iff.mpr fun sec hsec => ?_
      simp [isOld, hnone sec hsec]
    have hnews : news text ensure = [] := by
      refine List.filter_eq_nil_iff.mpr fun sec hsec => ?_
      simp [isNew, hnone sec hsec]
    refine ⟨[], holds ▸ List.Perm.refl _, ?_, ?_, ?_⟩
    · intro s k
      rw [hsame, hnews]
      rfl
    · intro line hline
      rwa [hsame]
    · intro sec hsec line hline
      rw [pairLines, hnone sec hsec] at hline
      cases hline

end

/-! ## What is missing, and what is found -/

theorem mem_missing {body : List Char} {kvs : FlatSection} {kv : Word × Word} :
    kv ∈ missing body kvs ↔ kv ∈ kvs.list ∧ ¬ kv.1 ++ [':'] <:+: body := by
  rw [missing, List.mem_filter, Bool.not_eq_true', decide_eq_false_iff_not]

theorem lookup_eq_some {out : Flat} {s k v : Word} :
    out.lookup s k = some v ↔ ∃ sec ∈ out.list, sec.1 = s ∧ (k, v) ∈ sec.2.list := by
  unfold Flat.lookup
  rw [Option.map_eq_some_iff]
  constructor
  · rintro ⟨kv, hkv, rfl⟩
    obtain ⟨sec, hsec, hget⟩ := Option.bind_eq_some_iff.mp hkv
    obtain ⟨hmem, hkey⟩ := Rows.get?_eq_some.mp hsec
    obtain ⟨hmem', hkey'⟩ := Rows.get?_eq_some.mp hget
    exact ⟨sec, hmem, hkey, hkey' ▸ hmem'⟩
  · rintro ⟨sec, hmem, rfl, hkv⟩
    refine ⟨(k, v), ?_, rfl⟩
    rw [Rows.get?_of_mem hmem]
    exact Rows.get?_of_mem hkv

theorem header_of_lookup {text : List Char} {s k v : Word}
    (h : (parseFlatYaml text).lookup s k = some v) : s ∈ headers (splitLines text) := by
  rw [lookup_parse] at h
  have hmem := (mem_of_latest h).resolve_right (by simp)
  obtain ⟨hne, heq | hheader⟩ := assigned_section hmem
  · exact absurd heq hne
  · exact hheader

section

variable {text : List Char} {ensure : Flat} {sec : Word × FlatSection} {k v : Word}

theorem mem_olds (hplain : PlainMap ensure) (hsec : sec ∈ ensure.list)
    (hheader : sec.1 ∈ headers (splitLines text)) (hmissing : missing (bodyOf text) sec.2 ≠ []) :
    sec ∈ olds text ensure := by
  refine List.mem_filter.mpr ⟨hsec, ?_⟩
  rw [isOld, decide_eq_true hmissing, (endsOf_isSome text sec.1).mpr ⟨(hplain sec hsec).1.2, hheader⟩]
  rfl

theorem mem_news : sec ∈ news text ensure ↔ sec ∈ ensure.list ∧
    missing (bodyOf text) sec.2 ≠ [] ∧ ¬ ((endsOf text).get? sec.1).isSome := by
  rw [news, List.mem_filter, isNew, Bool.and_eq_true, decide_eq_true_eq, Bool.not_eq_true',
    Bool.not_eq_true]

theorem header_of_olds (hsec : sec ∈ olds text ensure) : sec.1 ∈ headers (splitLines text) := by
  have hold := (List.mem_filter.mp hsec).2
  rw [isOld, Bool.and_eq_true] at hold
  exact ((endsOf_isSome text sec.1).mp hold.2).2

theorem not_header_of_news (hplain : PlainMap ensure) (hsec : sec ∈ news text ensure) :
    sec.1 ∉ headers (splitLines text) := by
  obtain ⟨hmem, -, hend⟩ := mem_news.mp hsec
  intro hheader
  exact hend ((endsOf_isSome text sec.1).mpr ⟨(hplain sec hmem).1.2, hheader⟩)

theorem mem_inserted {sorted : List (Word × FlatSection)} (h : sorted.Perm (olds text ensure))
    {s w : Word} :
    ((s, k), w) ∈ sorted.flatMap (fun sec => pairsIn sec.1 (missing (bodyOf text) sec.2)) ↔
      ∃ sec ∈ olds text ensure, sec.1 = s ∧ (k, w) ∈ missing (bodyOf text) sec.2 := by
  rw [List.mem_flatMap]
  constructor
  · rintro ⟨sec, hsec, hpair⟩
    obtain ⟨kv, hkv, heq⟩ := List.mem_map.mp hpair
    cases heq
    exact ⟨sec, h.mem_iff.mp hsec, rfl, hkv⟩
  · rintro ⟨sec, hsec, rfl, hkv⟩
    exact ⟨sec, h.mem_iff.mpr hsec, List.mem_map.mpr ⟨(k, w), hkv, rfl⟩⟩

theorem mem_newPairs {body : List Char} {secs : List (Word × FlatSection)} {s w : Word} :
    ((s, k), w) ∈ newPairs body secs ↔
      (∃ sec ∈ secs.head?, sec.1 = s) ∧ ∃ sec ∈ secs, (k, w) ∈ missing body sec.2 := by
  cases secs with
  | nil => simp [newPairs]
  | cons sec secs =>
    rw [newPairs, List.mem_flatMap]
    constructor
    · rintro ⟨sec', hsec', hpair⟩
      obtain ⟨kv, hkv, heq⟩ := List.mem_map.mp hpair
      cases heq
      exact ⟨⟨sec, rfl, rfl⟩, sec', hsec', hkv⟩
    · rintro ⟨⟨sec₁, hhead, rfl⟩, sec', hsec', hkv⟩
      cases hhead
      exact ⟨sec', hsec', List.mem_map.mpr ⟨(k, w), hkv, rfl⟩⟩

namespace Merged

variable {sorted : List (Word × FlatSection)}

theorem lookup_of_found (h : Merged text ensure sorted) (hin : k ++ [':'] <:+: bodyOf text)
    (s : Word) : (parseFlatYaml (mergedText text ensure)).lookup s k =
      (parseFlatYaml text).lookup s k := by
  rw [h.lookup, latest_of_forall_ne, latest_of_forall_ne]
  · rintro ⟨⟨s', k'⟩, w⟩ hmem heq
    cases heq
    obtain ⟨sec, -, -, hkv⟩ := (mem_inserted h.perm).mp hmem
    exact (mem_missing.mp hkv).2 hin
  · rintro ⟨⟨s', k'⟩, w⟩ hmem heq
    cases heq
    obtain ⟨-, sec, -, hkv⟩ := mem_newPairs.mp hmem
    exact (mem_missing.mp hkv).2 hin

theorem lookup_old (h : Merged text ensure sorted) (hplain : PlainMap ensure)
    (hsec : sec ∈ olds text ensure) (hkv : (k, v) ∈ missing (bodyOf text) sec.2) :
    (parseFlatYaml (mergedText text ensure)).lookup sec.1 k = some v := by
  rw [h.lookup, latest_of_forall_ne]
  · refine latest_of_mem ((mem_inserted h.perm).mpr ⟨sec, hsec, rfl, hkv⟩) ?_ _
    intro w hw
    obtain ⟨sec', hsec', hkey, hkv'⟩ := (mem_inserted h.perm).mp hw
    cases ensure.eq_of_key (List.mem_of_mem_filter hsec') (List.mem_of_mem_filter hsec) hkey
    exact congrArg Prod.snd
      (sec.2.eq_of_key (mem_missing.mp hkv').1 (mem_missing.mp hkv).1 rfl)
  · rintro ⟨⟨s', k'⟩, w⟩ hmem heq
    cases heq
    obtain ⟨⟨sec₁, hhead, hkey⟩, -⟩ := mem_newPairs.mp hmem
    refine not_header_of_news hplain (List.mem_of_head? (Option.mem_def.mp hhead)) ?_
    rw [hkey]
    exact header_of_olds hsec

theorem lookup_new_none (h : Merged text ensure sorted) (hplain : PlainMap ensure)
    (hsec : sec ∈ news text ensure) (hother : ∀ sec₁ ∈ (news text ensure).head?, sec₁.1 ≠ sec.1)
    (k : Word) : (parseFlatYaml (mergedText text ensure)).lookup sec.1 k = none := by
  have hnot := not_header_of_news hplain hsec
  rw [h.lookup, latest_of_forall_ne, latest_of_forall_ne]
  · rw [Option.eq_none_iff_forall_ne_some]
    intro w hw
    exact hnot (header_of_lookup hw)
  · rintro ⟨⟨s', k'⟩, w⟩ hmem heq
    cases heq
    obtain ⟨sec', hsec', hkey, -⟩ := (mem_inserted h.perm).mp hmem
    rw [← hkey] at hnot
    exact hnot (header_of_olds hsec')
  · rintro ⟨⟨s', k'⟩, w⟩ hmem heq
    cases heq
    obtain ⟨⟨sec₁, hhead, hkey⟩, -⟩ := mem_newPairs.mp hmem
    exact hother sec₁ hhead hkey

theorem lookup_new (h : Merged text ensure sorted) (hsec : sec ∈ news text ensure)
    (hone : ∀ sec' ∈ news text ensure, sec' = sec) (hkv : (k, v) ∈ missing (bodyOf text) sec.2) :
    (parseFlatYaml (mergedText text ensure)).lookup sec.1 k = some v := by
  have hhead : sec ∈ (news text ensure).head? := by
    cases hnews : news text ensure with
    | nil => rw [hnews] at hsec; cases hsec
    | cons sec₁ secs =>
      rw [← hone sec₁ (hnews ▸ List.mem_cons_self)]
      rfl
  rw [h.lookup]
  refine latest_of_mem (mem_newPairs.mpr ⟨⟨sec, hhead, rfl⟩, sec, hsec, hkv⟩) ?_ _
  intro w hw
  obtain ⟨-, sec', hsec', hkv'⟩ := mem_newPairs.mp hw
  rw [hone sec' hsec'] at hkv'
  exact congrArg Prod.snd (sec.2.eq_of_key (mem_missing.mp hkv').1 (mem_missing.mp hkv).1 rfl)

theorem second (h : Merged text ensure sorted) (hplain : PlainMap ensure) :
    mergeFlatYaml (mergedText text ensure) ensure = none := by
  rw [mergeFlatYaml_eq, if_neg]
  intro hany
  obtain ⟨sec, hsec, hmissing⟩ := List.any_eq_true.mp hany
  obtain ⟨kv, hkv⟩ := List.exists_mem_of_ne_nil _ (of_decide_eq_true hmissing)
  obtain ⟨hmem, hnot⟩ := mem_missing.mp hkv
  have hbreak : '\n' ∉ kv.1 ++ [':'] := by
    intro hin
    rcases List.mem_append.mp hin with hin | hin
    · have hline := ((hplain sec hsec).2 kv hmem).1.oneLine _ hin
      revert hline
      decide
    · revert hin
      decide
  have hfind (t : List Char) : kv.1 ++ [':'] <:+: bodyOf t ↔
      ∃ line ∈ splitLines t, kv.1 ++ [':'] <:+: line := infix_joined_iff hbreak (by simp) _
  refine hnot ((hfind _).mpr ?_)
  by_cases hin : kv.1 ++ [':'] <:+: bodyOf text
  · obtain ⟨line, hline, hfound⟩ := (hfind _).mp hin
    exact ⟨line, h.kept line hline, hfound⟩
  · refine ⟨pairLine kv, h.added sec hsec _ (List.mem_map_of_mem (mem_missing.mpr ⟨hmem, hin⟩)), ?_⟩
    exact ⟨[' ', ' '], ' ' :: kv.2, by simp [pairLine]⟩

end Merged

end

section

variable {text : List Char} {ensure : Flat} {sorted : List (Word × FlatSection)}

theorem SearchFits.of_mergesWell (h : Merged text ensure sorted) (hplain : PlainMap ensure)
    (hwell : MergesWell text ensure) : SearchFits text ensure := by
  constructor
  · intro s k v old hensure hold
    by_cases hin : k ++ [':'] <:+: bodyOf text
    · exact .inl hin
    · obtain ⟨sec, hsec, rfl, hkv⟩ := lookup_eq_some.mp hensure
      have hmissing : (k, v) ∈ missing (bodyOf text) sec.2 := mem_missing.mpr ⟨hkv, hin⟩
      have holds := mem_olds hplain hsec (header_of_lookup hold) (List.ne_nil_of_mem hmissing)
      have hnew := hwell.ensured sec.1 k v hensure
      rw [h.lookup_old hplain holds hmissing, hold, Option.getD_some] at hnew
      exact .inr (Option.some.inj hnew).symm
  · intro s k v hensure hnone hin
    have hnew := hwell.ensured s k v hensure
    rw [h.lookup_of_found hin, hnone] at hnew
    cases hnew
  · have hfirst : ∀ sec ∈ news text ensure, ∀ sec₁ ∈ (news text ensure).head?,
        sec₁.1 = sec.1 := by
      intro sec hsec sec₁ hhead
      by_contra hne
      have hother : ∀ sec₁' ∈ (news text ensure).head?, sec₁'.1 ≠ sec.1 := by
        intro sec₁' hhead'
        rw [Option.mem_unique hhead' hhead]
        exact hne
      obtain ⟨hmem, hmissing, -⟩ := mem_news.mp hsec
      obtain ⟨kv, hkv⟩ := List.exists_mem_of_ne_nil _ hmissing
      have hensure : ensure.lookup sec.1 kv.1 = some kv.2 :=
        lookup_eq_some.mpr ⟨sec, hmem, rfl, (mem_missing.mp hkv).1⟩
      have hnew := hwell.ensured sec.1 kv.1 kv.2 hensure
      rw [h.lookup_new_none hplain hsec hother] at hnew
      cases hnew
    intro sec hsec sec' hsec' hheader hheader' hmissing hmissing'
    have hnews : sec ∈ news text ensure :=
      mem_news.mpr ⟨hsec, hmissing, fun hend => hheader ((endsOf_isSome text sec.1).mp hend).2⟩
    have hnews' : sec' ∈ news text ensure :=
      mem_news.mpr ⟨hsec', hmissing', fun hend => hheader' ((endsOf_isSome text sec'.1).mp hend).2⟩
    obtain ⟨sec₁, secs, hlist⟩ := List.exists_cons_of_ne_nil (List.ne_nil_of_mem hnews)
    have hhead : sec₁ ∈ (news text ensure).head? := by
      rw [hlist]
      rfl
    exact (hfirst sec hnews sec₁ hhead).symm.trans (hfirst sec' hnews' sec₁ hhead)

theorem MergesWell.of_searchFits (h : Merged text ensure sorted) (hplain : PlainMap ensure)
    (hfits : SearchFits text ensure) : MergesWell text ensure := by
  have hone : ∀ sec ∈ news text ensure, ∀ sec' ∈ news text ensure, sec' = sec := by
    intro sec hsec sec' hsec'
    obtain ⟨hmem, hmissing, -⟩ := mem_news.mp hsec
    obtain ⟨hmem', hmissing', -⟩ := mem_news.mp hsec'
    exact ensure.eq_of_key hmem' hmem (hfits.oneNew sec' hmem' sec hmem
      (not_header_of_news hplain hsec') (not_header_of_news hplain hsec) hmissing' hmissing)
  constructor
  · intro s k v hensure
    by_cases hin : k ++ [':'] <:+: bodyOf text
    · rw [h.lookup_of_found hin]
      cases hold : (parseFlatYaml text).lookup s k with
      | none => exact absurd hin (hfits.absent s k v hensure hold)
      | some old => rfl
    · obtain ⟨sec, hsec, rfl, hkv⟩ := lookup_eq_some.mp hensure
      have hmissing : (k, v) ∈ missing (bodyOf text) sec.2 := mem_missing.mpr ⟨hkv, hin⟩
      by_cases hheader : sec.1 ∈ headers (splitLines text)
      · rw [h.lookup_old hplain (mem_olds hplain hsec hheader (List.ne_nil_of_mem hmissing))
          hmissing]
        cases hold : (parseFlatYaml text).lookup sec.1 k with
        | none => rfl
        | some old =>
          rw [Option.getD_some, (hfits.present sec.1 k v old hensure hold).resolve_left hin]
      · have hnews : sec ∈ news text ensure := mem_news.mpr ⟨hsec, List.ne_nil_of_mem hmissing,
          fun hend => hheader ((endsOf_isSome text sec.1).mp hend).2⟩
        rw [h.lookup_new hnews (hone sec hnews) hmissing]
        cases hold : (parseFlatYaml text).lookup sec.1 k with
        | none => rfl
        | some old => exact absurd (header_of_lookup hold) hheader
  · intro s k hnone
    rw [h.lookup, latest_of_forall_ne, latest_of_forall_ne]
    · rintro ⟨⟨s', k'⟩, w⟩ hmem heq
      cases heq
      obtain ⟨sec, hsec, rfl, hkv⟩ := (mem_inserted h.perm).mp hmem
      have hsome := lookup_eq_some.mpr
        ⟨sec, List.mem_of_mem_filter hsec, rfl, (mem_missing.mp hkv).1⟩
      rw [hnone] at hsome
      cases hsome
    · rintro ⟨⟨s', k'⟩, w⟩ hmem heq
      cases heq
      obtain ⟨⟨sec₁, hhead, rfl⟩, sec, hsec, hkv⟩ := mem_newPairs.mp hmem
      have hfirst := List.mem_of_head? (Option.mem_def.mp hhead)
      rw [hone sec₁ hfirst sec hsec] at hkv
      have hsome := lookup_eq_some.mpr
        ⟨sec₁, List.mem_of_mem_filter hfirst, rfl, (mem_missing.mp hkv).1⟩
      rw [hnone] at hsome
      cases hsome
  · exact h.second hplain

end

/-- A merge adds exactly what is missing if and only if the search for the keys is right and one
section is new at most. -/
theorem merge_exact_iff (text : List Char) (ensure : Flat) (hplain : PlainMap ensure) :
    MergesWell text ensure ↔ SearchFits text ensure := by
  obtain ⟨sorted, h⟩ : ∃ sorted, Merged text ensure sorted := merged_spec hplain
  exact ⟨.of_mergesWell h hplain, .of_searchFits h hplain⟩

/-! ## Two merges -/

/-- One section with one key. -/
def onePair (s k v : Word) : Flat := Flat.set Rows.empty s k v

theorem lookup_onePair {s k v s' k' v' : Word} (h : (onePair s k v).lookup s' k' = some v') :
    s' = s ∧ k' = k ∧ v' = v := by
  rw [onePair, lookup_set] at h
  split at h
  · next heq =>
    cases heq
    exact ⟨rfl, rfl, (Option.some.inj h).symm⟩
  · cases h

theorem searchFits_memory :
    SearchFits ['m', ':', '\n', ' ', ' ', 'b', ':', 'c'] (onePair ['m'] ['r'] ['1']) := by
  constructor
  · intro s k v old hensure hold
    obtain ⟨rfl, rfl, rfl⟩ := lookup_onePair hensure
    revert hold
    rw [show (parseFlatYaml ['m', ':', '\n', ' ', ' ', 'b', ':', 'c']).lookup ['m'] ['r'] = none by
      decide]
    intro hold
    cases hold
  · intro s k v hensure _
    obtain ⟨rfl, rfl, rfl⟩ := lookup_onePair hensure
    decide
  · intro sec hsec sec' hsec' _ _ _ _
    exact congrArg Prod.fst ((List.mem_singleton.mp hsec).trans (List.mem_singleton.mp hsec').symm)

theorem merge_exact_memory :
    MergesWell ['m', ':', '\n', ' ', ' ', 'b', ':', 'c'] (onePair ['m'] ['r'] ['1']) :=
  (merge_exact_iff _ _ (by decide)).mpr searchFits_memory

/-- Two sections that are both new: the key of the second one comes below the first header. -/
theorem two_new_sections :
    ¬ MergesWell [] (Flat.set (onePair ['c'] ['h'] ['1']) ['m'] ['r'] ['1']) := by
  intro hwell
  have hplain : PlainMap (Flat.set (onePair ['c'] ['h'] ['1']) ['m'] ['r'] ['1']) := by decide
  obtain ⟨sorted, h⟩ : ∃ sorted, Merged [] _ sorted := merged_spec hplain
  have hfits := SearchFits.of_mergesWell h hplain hwell
  obtain ⟨sec, hsec, hs, hkv⟩ := lookup_eq_some.mp
    (show (Flat.set (onePair ['c'] ['h'] ['1']) ['m'] ['r'] ['1']).lookup ['c'] ['h'] = some ['1'] by
      decide)
  obtain ⟨sec', hsec', hs', hkv'⟩ := lookup_eq_some.mp
    (show (Flat.set (onePair ['c'] ['h'] ['1']) ['m'] ['r'] ['1']).lookup ['m'] ['r'] = some ['1'] by
      decide)
  have hempty (s : Word) : s ∉ headers (splitLines []) := List.not_mem_nil
  have heq := hfits.oneNew sec hsec sec' hsec' (hempty _) (hempty _)
    (List.ne_nil_of_mem (mem_missing.mpr ⟨hkv, by decide⟩))
    (List.ne_nil_of_mem (mem_missing.mpr ⟨hkv', by decide⟩))
  rw [hs, hs'] at heq
  revert heq
  decide

end AiMeshChat.Oracle
