import AiMeshChat.Lib.Fnmatch
import AiMeshChat.Lib.Lines
import AiMeshChat.Lib.PosixPath
import AiMeshChat.Lib.Walk
import AiMeshChat.Python

/-!
# The hosts of an ssh configuration

`_scan_config_host_matches` of `control_master.py`: whether an alias has a `Host` line of its own in
the configuration of `ssh`, through the files that it includes. The recursion is cut off at eight
nested includes, which is all that ends it when files include each other.

`_host_line_defines` reads the patterns of a line from the left and leaves at the first one that
decides. A negated pattern that stands behind the positive one is never seen, though it excludes
the host wherever it stands. `follows_host_rule_iff` says when the scan still answers by the rule.
-/

namespace AiMeshChat.Transport

open Lib Lib.Posix Lib.Fnmatch

/-! ## Paths of `pathlib` -/

structure Path where
  root : List Char
  names : List Name
  deriving DecidableEq

namespace Path

/-- The slashes that a path begins with; two of them are kept, three are one. -/
def rootOf (text : List Char) : List Char :=
  if !Posix.isAbs text then []
  else if text.take 2 = ['/', '/'] ∧ text.take 3 ≠ ['/', '/', '/'] then ['/', '/']
  else ['/']

/-- `Path(text)`. -/
def ofText (text : List Char) : Path := ⟨rootOf text, Posix.names text⟩

def isAbsolute (p : Path) : Bool := p.root ≠ []

def parent (p : Path) : Path := ⟨p.root, p.names.dropLast⟩

def name (p : Path) : Name := p.names.getLast?.getD []

/-- `base / p`. -/
def div (base p : Path) : Path := if p.isAbsolute then p else ⟨base.root, base.names ++ p.names⟩

end Path

/-- What the scan asks of its machine. `isFile` is `none` where `stat` fails for another reason
than that nothing is there, and `glob` where `pathlib` refuses the pattern (`a**`); a text that
cannot be read is an `OSError`. -/
structure ConfigMachine where
  isFile : Path → Option Bool
  /-- `path.read_text(errors="replace")`. -/
  readText : Path → Option (List Char)
  /-- `sorted(directory.glob(pattern))`. -/
  glob : Path → List Char → Option (List Path)
  expanduser : List Char → List Char
  /-- `str.lower`. -/
  lower : List Char → List Char

section Scan

variable (m : ConfigMachine)

def hostPatternMatches (pattern hostAlias : List Char) : Bool :=
  fnmatch (m.lower pattern) (m.lower hostAlias)

def hostLineDefines (hostAlias : List Char) : List (List Char) → Bool
  | [] => false
  | pat :: patterns =>
    let p := strip pat
    if p = [] then hostLineDefines hostAlias patterns
    else if p.head? = some '!' then
      if hostPatternMatches m (p.tail.dropWhile isSpace) hostAlias then false
      else hostLineDefines hostAlias patterns
    else if p = ['*'] then hostLineDefines hostAlias patterns
    else if hostPatternMatches m p hostAlias then true
    else hostLineDefines hostAlias patterns

/-- `text.split()`. -/
def words (text : List Char) : List (List Char) := (linesOn isSpace text).filter (· ≠ [])

/-- The keyword of a line and its value, from `line.split(None, 1)`. -/
def keyValue (line : List Char) : List Char × List Char :=
  (line.takeWhile fun c => !isSpace c, strip (line.dropWhile fun c => !isSpace c))

/-- `value.replace(",", " ").split()`. -/
def hostPatterns (value : List Char) : List (List Char) :=
  words (value.map fun c => if c = ',' then ' ' else c)

/-- The paths that one pattern of an `Include` line stands for. -/
def includeMatches (base : Path) (pat : List Char) : Option (List Path) :=
  let p := Path.ofText (m.expanduser pat)
  if pat.any fun c => c ∈ ['*', '?', '['] then
    if pat.head? = some '/' ∨ pat.head? = some '~' then m.glob p.parent p.name
    else m.glob base pat
  else some [if p.isAbsolute then p else base.div p]

/-- A line that says something. -/
def isStatement (line : List Char) : Bool := line ≠ [] && line.head? ≠ some '#'

def scanConfigHostMatches (hostAlias : List Char) (path : Path) (depth : ℕ) : Option Bool :=
  if depth > 8 then some false
  else (m.isFile path).bind fun isFile =>
    if !isFile then some false
    else match m.readText path with
      | none => some false
      | some text => (splitLines text).anyM fun raw =>
        let line := strip raw
        let key := m.lower (keyValue line).1
        let value := (keyValue line).2
        if !isStatement line then some false
        else if key = "include".toList ∧ value ≠ [] then
          (words value).anyM fun pat => (includeMatches m path.parent pat).bind fun incs =>
            incs.anyM fun inc => scanConfigHostMatches hostAlias inc (depth + 1)
        else if key = "host".toList ∧ value ≠ [] then
          some (hostLineDefines m hostAlias (hostPatterns value))
        else some false
termination_by 9 - depth

/-! ## What there is to find -/

/-- The lines of a file that say something; one that is not there or cannot be read has none. -/
def statements (path : Path) : List (List Char) :=
  if m.isFile path = some true then
    ((((m.readText path).map splitLines).getD []).map strip).filter isStatement
  else []

/-- The file has an `Include` line that stands for `inc`, among others. -/
def Includes (path inc : Path) : Prop :=
  ∃ line ∈ statements m path, m.lower (keyValue line).1 = "include".toList ∧
    ∃ pat ∈ words (keyValue line).2, ∃ incs,
      includeMatches m path.parent pat = some incs ∧ inc ∈ incs

/-- The file has a `Host` line with these patterns. -/
def HasHostLine (path : Path) (patterns : List (List Char)) : Prop :=
  ∃ line ∈ statements m path, m.lower (keyValue line).1 = "host".toList ∧
    (keyValue line).2 ≠ [] ∧ patterns = hostPatterns (keyValue line).2

/-- The line is in a file that is reached through eight nested includes at most. -/
def Reachable (path : Path) (patterns : List (List Char)) : Prop :=
  ∃ n ≤ 8, ∃ file, Nested (Includes m) n path file ∧ HasHostLine m file patterns

/-- A positive pattern, other than a bare `*`, that matches the alias. -/
def Selects (hostAlias pat : List Char) : Prop :=
  strip pat ≠ [] ∧ (strip pat).head? ≠ some '!' ∧ strip pat ≠ ['*'] ∧
    hostPatternMatches m (strip pat) hostAlias = true

/-- A negated pattern that matches the alias. -/
def Negates (hostAlias pat : List Char) : Prop :=
  (strip pat).head? = some '!' ∧
    hostPatternMatches m ((strip pat).tail.dropWhile isSpace) hostAlias = true

/-- The line is an entry for the alias, in whatever order its patterns stand. -/
def Entry (hostAlias : List Char) (patterns : List (List Char)) : Prop :=
  (∃ pat ∈ patterns, Selects m hostAlias pat) ∧ ∀ pat ∈ patterns, ¬ Negates m hostAlias pat

/-- No positive pattern that matches stands before every negated one that does. -/
def NegatedFirst (hostAlias : List Char) (patterns : List (List Char)) : Prop :=
  ∀ before pat after, patterns = before ++ pat :: after → Selects m hostAlias pat →
    ∃ neg ∈ before, Negates m hostAlias neg

/-- The scan ends, and finds the alias exactly if some reachable line is an entry for it. -/
def FollowsHostRule (hostAlias : List Char) (path : Path) : Prop :=
  ∃ found, scanConfigHostMatches m hostAlias path 0 = some found ∧
    (found = true ↔ ∃ patterns, Reachable m path patterns ∧ Entry m hostAlias patterns)

/-! ## One line -/

variable {m} {hostAlias : List Char}

variable {pat : List Char} {patterns : List (List Char)} {path : Path}

theorem hostLineDefines_cons_of_negates (h : Negates m hostAlias pat)
    (patterns : List (List Char)) : hostLineDefines m hostAlias (pat :: patterns) = false := by
  obtain ⟨hneg, hmatch⟩ := h
  have hne : strip pat ≠ [] := fun hnil => by rw [hnil] at hneg; cases hneg
  rw [hostLineDefines, if_neg hne, if_pos hneg, if_pos hmatch]

theorem hostLineDefines_cons_of_selects (h : Selects m hostAlias pat)
    (patterns : List (List Char)) : hostLineDefines m hostAlias (pat :: patterns) = true := by
  obtain ⟨hne, hpos, hstar, hmatch⟩ := h
  rw [hostLineDefines, if_neg hne, if_neg hpos, if_neg hstar, if_pos hmatch]

theorem hostLineDefines_cons_of_neither (hs : ¬ Selects m hostAlias pat)
    (hn : ¬ Negates m hostAlias pat) (patterns : List (List Char)) :
    hostLineDefines m hostAlias (pat :: patterns) = hostLineDefines m hostAlias patterns := by
  rw [hostLineDefines]
  by_cases hne : strip pat = []
  · rw [if_pos hne]
  · rw [if_neg hne]
    by_cases hneg : (strip pat).head? = some '!'
    · rw [if_pos hneg, if_neg fun hmatch => hn ⟨hneg, hmatch⟩]
    · rw [if_neg hneg]
      by_cases hstar : strip pat = ['*']
      · rw [if_pos hstar]
      · rw [if_neg hstar, if_neg fun hmatch => hs ⟨hne, hneg, hstar, hmatch⟩]

theorem hostLineDefines_eq_false_iff :
    hostLineDefines m hostAlias patterns = false ↔ NegatedFirst m hostAlias patterns := by
  induction patterns with
  | nil =>
    refine ⟨fun _ before pat after hl => ?_, fun _ => rfl⟩
    cases before <;> cases hl
  | cons p patterns ih =>
    by_cases hs : Selects m hostAlias p
    · rw [hostLineDefines_cons_of_selects hs]
      refine ⟨fun h => (by cases h), fun h => ?_⟩
      obtain ⟨neg, hmem, -⟩ := h [] p patterns rfl hs
      cases hmem
    · by_cases hn : Negates m hostAlias p
      · rw [hostLineDefines_cons_of_negates hn]
        refine ⟨fun _ before pat after hl hpat => ?_, fun _ => rfl⟩
        cases before with
        | nil =>
          cases hl
          exact absurd hpat hs
        | cons q before =>
          cases hl
          exact ⟨p, List.mem_cons_self, hn⟩
      · rw [hostLineDefines_cons_of_neither hs hn, ih]
        constructor
        · intro h before pat after hl hpat
          cases before with
          | nil =>
            cases hl
            exact absurd hpat hs
          | cons q before =>
            cases hl
            obtain ⟨neg, hmem, hneg⟩ := h before pat after rfl hpat
            exact ⟨neg, List.mem_cons_of_mem _ hmem, hneg⟩
        · intro h before pat after hl hpat
          obtain ⟨neg, hmem, hneg⟩ := h (p :: before) pat after (by rw [hl]; rfl) hpat
          rcases List.mem_cons.mp hmem with rfl | hmem
          · exact absurd hneg hn
          · exact ⟨neg, hmem, hneg⟩

theorem hostLineDefines_of_entry
    (h : Entry m hostAlias patterns) : hostLineDefines m hostAlias patterns = true := by
  obtain ⟨⟨pat, hmem, hs⟩, hn⟩ := h
  rw [← Bool.not_eq_false, hostLineDefines_eq_false_iff]
  intro hfirst
  obtain ⟨before, after, hl⟩ := List.append_of_mem hmem
  obtain ⟨neg, hneg, hnegates⟩ := hfirst before pat after hl hs
  exact hn neg (by rw [hl]; exact List.mem_append_left _ hneg) hnegates

/-! ## The whole scan -/

variable (m) in
/-- What the scan comes by on one line; `none` stands for an include that is refused. -/
def lineItems (path : Path) (line : List Char) : List (Item Path (Option (List (List Char)))) :=
  if m.lower (keyValue line).1 = "include".toList ∧ (keyValue line).2 ≠ [] then
    (words (keyValue line).2).flatMap fun pat =>
      ((includeMatches m path.parent pat).map fun incs => incs.map Item.enter).getD [.look none]
  else if m.lower (keyValue line).1 = "host".toList ∧ (keyValue line).2 ≠ [] then
    [.look (some (hostPatterns (keyValue line).2))]
  else []

variable (m) in
def fileItems (path : Path) : List (Item Path (Option (List (List Char)))) :=
  if m.isFile path = none then [.look none]
  else (statements m path).flatMap (lineItems m path)

variable (m) in
/-- The `Host` lines in the order of the scan, and where the machine refuses to go on. -/
def scanned (path : Path) : List (Option (List (List Char))) := walk (fileItems m) 8 path

variable (m hostAlias) in
def judge (patterns : Option (List (List Char))) : Option Bool :=
  patterns.map (hostLineDefines m hostAlias)

theorem lineItems_anyM (path : Path) (line : List Char) (inner : Path → Option Bool) :
    (lineItems m path line).anyM (Item.elim (judge m hostAlias) inner) =
      if m.lower (keyValue line).1 = "include".toList ∧ (keyValue line).2 ≠ [] then
        (words (keyValue line).2).anyM fun pat =>
          (includeMatches m path.parent pat).bind fun incs => incs.anyM inner
      else if m.lower (keyValue line).1 = "host".toList ∧ (keyValue line).2 ≠ [] then
        some (hostLineDefines m hostAlias (hostPatterns (keyValue line).2))
      else some false := by
  rw [lineItems]
  split
  · rw [anyM_flatMap]
    apply anyM_congr
    intro pat _
    cases includeMatches m path.parent pat with
    | none => exact anyM_singleton _ _
    | some incs => exact anyM_map _ _ incs
  · split
    · exact anyM_singleton _ _
    · rfl

theorem scanConfigHostMatches_eq (path : Path) {depth : ℕ} (h : depth ≤ 8) :
    scanConfigHostMatches m hostAlias path depth = (fileItems m path).anyM
      (Item.elim (judge m hostAlias) fun inc =>
        scanConfigHostMatches m hostAlias inc (depth + 1)) := by
  rw [scanConfigHostMatches, if_neg (Nat.not_lt.mpr h), fileItems, statements]
  cases m.isFile path with
  | none => exact (anyM_singleton _ _).symm
  | some isFile =>
    rw [if_neg (by simp), anyM_flatMap]
    cases isFile with
    | false => rfl
    | true =>
      rw [if_pos rfl, anyM_filter, anyM_map]
      cases m.readText path with
      | none => rfl
      | some text =>
        apply anyM_congr
        intro raw _
        rw [lineItems_anyM]
        by_cases hline : isStatement (strip raw) = true
        · simp only [hline]
          rfl
        · rw [if_neg hline, if_pos (by simpa using hline)]

theorem scanConfigHostMatches_eq_search (n : ℕ) (path : Path) {depth : ℕ} (h : depth + n = 8) :
    scanConfigHostMatches m hostAlias path depth =
      search (fileItems m) (judge m hostAlias) n path := by
  induction n generalizing path depth with
  | zero =>
    rw [scanConfigHostMatches_eq path (by omega), search]
    congr 1
    funext item
    cases item with
    | look patterns => rfl
    | enter inc =>
      show scanConfigHostMatches m hostAlias inc (depth + 1) = some false
      rw [scanConfigHostMatches, if_pos (by omega)]
  | succ n ih =>
    rw [scanConfigHostMatches_eq path (by omega), search]
    congr 1
    funext item
    cases item with
    | look patterns => rfl
    | enter inc => exact ih inc (by omega)

theorem scan_eq (path : Path) :
    scanConfigHostMatches m hostAlias path 0 = (scanned m path).anyM (judge m hostAlias) := by
  rw [scanConfigHostMatches_eq_search 8 path rfl, search_eq]
  rfl

theorem enter_mem_lineItems {inc : Path} {line : List Char} :
    .enter inc ∈ lineItems m path line ↔ m.lower (keyValue line).1 = "include".toList ∧
      ∃ pat ∈ words (keyValue line).2, ∃ incs,
        includeMatches m path.parent pat = some incs ∧ inc ∈ incs := by
  rw [lineItems]
  split
  · next hkey =>
    rw [List.mem_flatMap]
    refine (exists_congr fun pat => and_congr_right fun _ => ?_).trans
      (and_iff_right hkey.1).symm
    cases includeMatches m path.parent pat <;> simp
  · next hkey =>
    refine iff_of_false (fun h => ?_) fun h => ?_
    · split at h <;> simp at h
    · obtain ⟨hinclude, pat, hpat, -⟩ := h
      refine hkey ⟨hinclude, fun hnil => ?_⟩
      rw [hnil] at hpat
      cases hpat

theorem look_mem_lineItems {line : List Char} :
    .look (some patterns) ∈ lineItems m path line ↔ m.lower (keyValue line).1 = "host".toList ∧
      (keyValue line).2 ≠ [] ∧ patterns = hostPatterns (keyValue line).2 := by
  rw [lineItems]
  split
  · next hkey =>
    refine iff_of_false (fun h => ?_) fun h => ?_
    · obtain ⟨pat, -, hmem⟩ := List.mem_flatMap.mp h
      cases hincs : includeMatches m path.parent pat <;> simp [hincs] at hmem
    · rw [hkey.1] at h
      exact absurd h.1 (by decide)
  · split
    · next hkey => simp [hkey]
    · next hkey =>
      refine iff_of_false (fun h => (by cases h)) fun h => hkey ⟨h.1, h.2.1⟩

theorem mem_fileItems {item : Item Path (Option (List (List Char)))} (h : item ≠ .look none) :
    item ∈ fileItems m path ↔ ∃ line ∈ statements m path, item ∈ lineItems m path line := by
  rw [fileItems]
  split
  · next hnone =>
    refine iff_of_false (fun hmem => h (List.mem_singleton.mp hmem)) fun hex => ?_
    obtain ⟨line, hline, -⟩ := hex
    rw [statements, hnone] at hline
    cases hline
  · exact List.mem_flatMap

theorem enter_mem_fileItems {inc : Path} : .enter inc ∈ fileItems m path ↔ Includes m path inc := by
  rw [mem_fileItems (by simp), Includes]
  simp only [enter_mem_lineItems]

theorem look_mem_fileItems :
    .look (some patterns) ∈ fileItems m path ↔ HasHostLine m path patterns := by
  rw [mem_fileItems (by simp), HasHostLine]
  simp only [look_mem_lineItems]

theorem mem_scanned : some patterns ∈ scanned m path ↔ Reachable m path patterns := by
  have hinc : (fun p q => .enter q ∈ fileItems m p) = Includes m := by
    funext p q
    exact propext enter_mem_fileItems
  rw [scanned, mem_walk, hinc]
  simp only [look_mem_fileItems]
  rfl

/-- No include is refused before a line at which the scan has already ended. -/
def RefusedLate (m : ConfigMachine) (hostAlias : List Char) (path : Path) : Prop :=
  ∀ before after, scanned m path = before ++ none :: after →
    ∃ patterns, some patterns ∈ before ∧ ¬ NegatedFirst m hostAlias patterns

theorem judge_eq_true_iff {patterns : Option (List (List Char))} :
    judge m hostAlias patterns = some true ↔
      ∃ ps, patterns = some ps ∧ ¬ NegatedFirst m hostAlias ps := by
  cases patterns with
  | none => exact ⟨fun h => (by cases h), fun h => (by obtain ⟨ps, h, -⟩ := h; cases h)⟩
  | some ps =>
    rw [judge, Option.map_some, Option.some.injEq, ← Bool.not_eq_false,
      hostLineDefines_eq_false_iff]
    simp

theorem scan_isSome_iff (path : Path) :
    (scanConfigHostMatches m hostAlias path 0).isSome ↔ RefusedLate m hostAlias path := by
  rw [scan_eq, anyM_isSome_iff]
  constructor
  · intro h before after hl
    obtain ⟨patterns, hmem, htrue⟩ := h before none after hl rfl
    obtain ⟨ps, rfl, hps⟩ := judge_eq_true_iff.mp htrue
    exact ⟨ps, hmem, hps⟩
  · intro h before patterns after hl hnone
    cases patterns with
    | some ps => cases hnone
    | none =>
      obtain ⟨ps, hmem, hps⟩ := h before after hl
      exact ⟨some ps, hmem, judge_eq_true_iff.mpr ⟨ps, rfl, hps⟩⟩

theorem found_iff {found : Bool} (h : scanConfigHostMatches m hostAlias path 0 = some found) :
    found = true ↔
      ∃ patterns, Reachable m path patterns ∧ ¬ NegatedFirst m hostAlias patterns := by
  rw [scan_eq] at h
  rw [true_iff_of_anyM h]
  constructor
  · intro hex
    obtain ⟨patterns, hmem, htrue⟩ := hex
    obtain ⟨ps, rfl, hps⟩ := judge_eq_true_iff.mp htrue
    exact ⟨ps, mem_scanned.mp hmem, hps⟩
  · intro hex
    obtain ⟨ps, hreach, hps⟩ := hex
    exact ⟨some ps, mem_scanned.mpr hreach, judge_eq_true_iff.mpr ⟨ps, rfl, hps⟩⟩

theorem not_negatedFirst_of_entry
    (h : Entry m hostAlias patterns) : ¬ NegatedFirst m hostAlias patterns := by
  rw [← hostLineDefines_eq_false_iff, hostLineDefines_of_entry h]
  exact Bool.noConfusion

variable (m hostAlias) in
/-- The scan answers by the rule when nothing stops it too early and, if no line is an entry for
the alias, the lines that exclude it have their negated pattern in front. -/
theorem follows_host_rule_iff (path : Path) :
    FollowsHostRule m hostAlias path ↔
      RefusedLate m hostAlias path ∧
        ((∃ patterns, Reachable m path patterns ∧ Entry m hostAlias patterns) ∨
          ∀ patterns, Reachable m path patterns → NegatedFirst m hostAlias patterns) := by
  rw [← scan_isSome_iff, Option.isSome_iff_exists, FollowsHostRule, ← exists_and_right]
  apply exists_congr
  intro found
  apply and_congr_right
  intro hfound
  rw [found_iff hfound]
  constructor
  · intro h
    by_cases hex : ∃ patterns, Reachable m path patterns ∧ ¬ NegatedFirst m hostAlias patterns
    · exact .inl (h.mp hex)
    · refine .inr fun patterns hreach => ?_
      by_contra hps
      exact hex ⟨patterns, hreach, hps⟩
  · intro h
    constructor
    · intro hex
      obtain ⟨patterns, hreach, hps⟩ := hex
      exact h.resolve_right fun hall => hps (hall patterns hreach)
    · intro hex
      obtain ⟨patterns, hreach, hentry⟩ := hex
      exact ⟨patterns, hreach, not_negatedFirst_of_entry hentry⟩

end Scan

/-- A machine with the one file `~/.ssh/config`. -/
def oneConfig (text : String) : ConfigMachine where
  isFile path := some (decide (path = Path.ofText "/home/u/.ssh/config".toList))
  readText _ := some text.toList
  glob _ _ := some []
  expanduser text := text
  lower text := text.map Char.toLower

def exclusion : ConfigMachine := oneConfig "Host *.internal !secret.internal\n"

theorem scanned_exclusion : scanned exclusion (Path.ofText "/home/u/.ssh/config".toList) =
    [some ["*.internal".toList, "!secret.internal".toList]] := by
  decide +kernel

theorem exclusion_negates :
    Negates exclusion "secret.internal".toList "!secret.internal".toList := by
  refine ⟨?_, ?_⟩ <;> decide +kernel

/-- The host that a line excludes is found, since the line begins with what selects it. -/
theorem excluded_host_found :
    scanConfigHostMatches exclusion "secret.internal".toList
        (Path.ofText "/home/u/.ssh/config".toList) 0 = some true ∧
      ¬ FollowsHostRule exclusion "secret.internal".toList
        (Path.ofText "/home/u/.ssh/config".toList) := by
  have hscan : scanConfigHostMatches exclusion "secret.internal".toList
      (Path.ofText "/home/u/.ssh/config".toList) 0 = some true := by
    rw [scan_eq, scanned_exclusion]
    decide +kernel
  refine ⟨hscan, fun h => ?_⟩
  obtain ⟨found, hfound, hiff⟩ := h
  rw [hscan] at hfound
  cases hfound
  obtain ⟨patterns, hreach, -, hnone⟩ := hiff.mp rfl
  have hmem := mem_scanned.mpr hreach
  rw [scanned_exclusion, List.mem_singleton] at hmem
  cases hmem
  exact hnone _ (by simp) exclusion_negates

end AiMeshChat.Transport
