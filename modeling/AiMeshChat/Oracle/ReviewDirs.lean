import AiMeshChat.Lib.PosixPath
import AiMeshChat.Python
import Mathlib.Data.List.Forall2

/-!
# The directories of a review

`oracle.py` keeps two directories for each review: one below `~/.omp/oracle` for its `meta.json`
(the bound session and the anchor of the latest ask), and one below
`~/.omp/agent/sessions/_oracle` for its transcripts, which `_purge_omp_session` deletes. Both are
named by the review key, in which `:`, `/` and `\` are replaced by `-`.

So two keys that differ in these four characters only share their directories, and the keys `.`
and `..` have a root or its parent for theirs. All other reviews are apart
(`reviews_apart_iff`).

The mailbox directories that the purge deletes as well are named by a hash of the key, and are not
in the model. A session id has no slash and nothing that `glob` would read as a pattern.
-/

namespace AiMeshChat.Oracle

open Lib.Posix

/-! ## The paths -/

/-- `text.replace(old, "-")` for one character. -/
def replaceDash (old : Char) (text : List Char) : List Char :=
  text.map fun c => if c = old then '-' else c

/-- `safe`. -/
def safeName (reviewKey : String) : Name :=
  replaceDash '\\' (replaceDash '/' (replaceDash ':' reviewKey.toList))

/-- `Path.home() / ".omp" / "oracle"`. -/
def oracleRoot (home : List Name) : List Name := join (join home ".omp".toList) "oracle".toList

/-- `_oracle_meta_path`. -/
def oracleMetaPath (home : List Name) (reviewKey : String) : List Name :=
  join (join (oracleRoot home) (safeName reviewKey)) "meta.json".toList

/-- `Path.home() / ".omp" / "agent" / "sessions" / "_oracle"`. -/
def sessionsRoot (home : List Name) : List Name :=
  join (join (join (join home ".omp".toList) "agent".toList) "sessions".toList) "_oracle".toList

/-- `_oracle_session_dir`. -/
def oracleSessionDir (home : List Name) (reviewKey : String) : List Name :=
  join (sessionsRoot home) (safeName reviewKey)

/-- `path.parent` of the `meta.json`. -/
def metaDir (home : List Name) (reviewKey : String) : List Name :=
  (oracleMetaPath home reviewKey).dropLast

/-! ## What the commands touch -/

/-- The files as the purge finds them. -/
structure Listing where
  entries : List Name → List EntryName
  isDir : List Name → Bool
  /-- `stat().st_mtime`, if `stat` does not fail. -/
  mtime : List Name → Option ℕ

/-- `directory.glob("*" + suffix)`. -/
def Listing.glob (l : Listing) (directory : List Name) (suffix : String) : List (List Name) :=
  ((l.entries directory).filter fun c => suffix.toList.isSuffixOf c.1).map
    fun c => directory ++ [c.1]

/-- One round of the loop of `_find_session_file` over the candidates; the first is not asked for
its time. -/
def newest (l : Listing) (best : Option (List Name)) (p : List Name) : Option (List Name) :=
  match best with
  | none => some p
  | some b =>
    match l.mtime p, l.mtime b with
    | some t, some u => if t > u then some p else some b
    | _, _ => some b

/-- `_find_session_file` with an explicit session directory. -/
def findSessionFile (l : Listing) (sid : String) (sessionDir : List Name) : Option (List Name) :=
  if !l.isDir sessionDir then none
  else
    let pattern := "_" ++ sid ++ ".jsonl"
    let files := l.glob sessionDir pattern
    let files := if files = [] then
      ((l.entries sessionDir).filter fun c => l.isDir (sessionDir ++ [c.1])).flatMap fun c =>
        l.glob (sessionDir ++ [c.1]) pattern
      else files
    files.foldl (newest l) none

/-- The targets of `_purge_omp_session` for a review with this session directory; the file that its
manifest names is one of them if it is there. -/
def ompTargets (l : Listing) (sid : String) (sessionDir : List Name)
    (ompSessionPath : Option (List Name)) : List (List Name) :=
  ompSessionPath.toList ++
    if sid = "" then []
    else match findSessionFile l sid sessionDir with
      | none => []
      | some found =>
        found :: (l.glob found.dropLast ("_" ++ sid)).filter fun child => l.isDir child

/-- The path is touched for the review: `_write_oracle_meta` writes the `meta.json` by way of a
temporary file, to bind a session or to set an anchor, and the purge deletes a target with all
that is below it. -/
inductive Touches (home : List Name) (reviewKey : String) : List Name → Prop
  | bound : Touches home reviewKey (oracleMetaPath home reviewKey)
  | tmp (hex : EntryName) :
      Touches home reviewKey (metaDir home reviewKey ++ [".tmp-".toList ++ hex.1 ++ ".json".toList])
  | purged {l : Listing} {sid : String} {ompSessionPath : Option (List Name)}
      (hpath : ∀ p ∈ ompSessionPath, ∃ c : EntryName, p = oracleSessionDir home reviewKey ++ [c.1])
      {target p : List Name}
      (htarget : target ∈ ompTargets l sid (oracleSessionDir home reviewKey) ompSessionPath)
      (hunder : Under target p) : Touches home reviewKey p

/-- The path is one of the review's directories or lies below. -/
def Owns (home : List Name) (reviewKey : String) (p : List Name) : Prop :=
  Under (metaDir home reviewKey) p ∨ Under (oracleSessionDir home reviewKey) p

/-- The directory stands directly in the root. -/
def DirectChild (root dir : List Name) : Prop := ∃ c, resolve dir = resolve root ++ [c]

/-- Each review has paths of its own in the roots, and does not touch what the other owns. -/
structure ReviewsApart (home : List Name) (k k' : String) : Prop where
  metaPaths : oracleMetaPath home k ≠ oracleMetaPath home k'
  sessionDirs : oracleSessionDir home k ≠ oracleSessionDir home k'
  metaChild : DirectChild (oracleRoot home) (metaDir home k) ∧
    DirectChild (oracleRoot home) (metaDir home k')
  sessionChild : DirectChild (sessionsRoot home) (oracleSessionDir home k) ∧
    DirectChild (sessionsRoot home) (oracleSessionDir home k')
  untouched : ∀ p, (Touches home k p → ¬ Owns home k' p) ∧ (Touches home k' p → ¬ Owns home k p)

/-! ## Names -/

/-- The characters have the same replacement. -/
def Alike (c c' : Char) : Prop :=
  c = c' ∨ c ∈ [':', '/', '\\', '-'] ∧ c' ∈ [':', '/', '\\', '-']

instance : DecidableRel Alike := fun c c' =>
  inferInstanceAs (Decidable (c = c' ∨ c ∈ [':', '/', '\\', '-'] ∧ c' ∈ [':', '/', '\\', '-']))

theorem safeName_eq (k : String) :
    safeName k = k.toList.map fun c => if c ∈ [':', '/', '\\'] then '-' else c := by
  unfold safeName replaceDash
  rw [List.map_map, List.map_map]
  refine List.map_congr_left fun c _ => ?_
  by_cases h1 : c = ':'
  · simp [h1]
  · by_cases h2 : c = '/'
    · simp [h2]
    · simp [h1, h2]

theorem replaced_eq_iff (c c' : Char) :
    (if c ∈ [':', '/', '\\'] then '-' else c) = (if c' ∈ [':', '/', '\\'] then '-' else c') ↔
      Alike c c' := by
  have hdash : Alike c c' ↔ c = c' ∨ (c ∈ [':', '/', '\\'] ∨ c = '-') ∧
      (c' ∈ [':', '/', '\\'] ∨ c' = '-') := by
    simp [Alike, or_assoc]
  rw [hdash]
  by_cases h : c ∈ [':', '/', '\\']
  · by_cases h' : c' ∈ [':', '/', '\\']
    · simp [h, h']
    · rw [if_pos h, if_neg h']
      have hne : c ≠ c' := fun heq => h' (heq ▸ h)
      simp [h, h', hne, eq_comm]
  · by_cases h' : c' ∈ [':', '/', '\\']
    · rw [if_neg h, if_pos h']
      have hne : c ≠ c' := fun heq => h (heq ▸ h')
      simp [h, h', hne]
    · rw [if_neg h, if_neg h']
      constructor
      · exact .inl
      · rintro (heq | ⟨h1, h2⟩)
        · exact heq
        · exact (h1.resolve_left h).trans (h2.resolve_left h').symm

theorem safeName_eq_iff (k k' : String) :
    safeName k = safeName k' ↔ List.Forall₂ Alike k.toList k'.toList := by
  rw [safeName_eq, safeName_eq, ← List.forall₂_eq_eq_eq, List.forall₂_map_left_iff,
    List.forall₂_map_right_iff]
  simp only [replaced_eq_iff]

theorem no_slash_safeName (k : String) : '/' ∉ safeName k := by
  rw [safeName_eq]
  intro h
  obtain ⟨c, -, hc⟩ := List.mem_map.mp h
  split at hc
  · cases hc
  · next hnot =>
    rw [hc] at hnot
    exact hnot (by decide)

variable {k : String} {dir p home : List Name} {l : Listing}

theorem safeName_dots {dots : List Char} (hdots : ∀ c ∈ dots, c = '.') :
    safeName k = dots ↔ k.toList = dots := by
  rw [safeName_eq]
  constructor
  · intro h
    rw [← h] at hdots ⊢
    refine (List.map_id' k.toList).symm.trans (List.map_congr_left fun c hc => ?_)
    have hdot := hdots _ (List.mem_map_of_mem hc)
    split at hdot
    · cases hdot
    · next hnot => rw [if_neg hnot]
  · intro h
    rw [h]
    refine (List.map_congr_left fun c hc => ?_).trans (List.map_id' dots)
    rw [hdots c hc]
    rfl

theorem safeName_ne_nil (hk : k ≠ "") : safeName k ≠ [] := by
  intro h
  have hdots : ∀ c ∈ ([] : List Char), c = '.' := by simp
  have hnil := (safeName_dots hdots).mp h
  exact hk (String.toList_eq_nil_iff.mp hnil)

/-! ## The directories -/

theorem oracleRoot_eq (home : List Name) :
    oracleRoot home = home ++ [['.', 'o', 'm', 'p'], ['o', 'r', 'a', 'c', 'l', 'e']] := by
  rw [oracleRoot, join_name home (by decide) (by decide), join_name _ (by decide) (by decide),
    List.append_assoc]
  rfl

theorem sessionsRoot_eq (home : List Name) :
    sessionsRoot home = home ++ [['.', 'o', 'm', 'p'], ['a', 'g', 'e', 'n', 't'],
      ['s', 'e', 's', 's', 'i', 'o', 'n', 's'], ['_', 'o', 'r', 'a', 'c', 'l', 'e']] := by
  rw [sessionsRoot, join_name home (by decide) (by decide), join_name _ (by decide) (by decide),
    join_name _ (by decide) (by decide), join_name _ (by decide) (by decide)]
  simp only [List.append_assoc]
  rfl

theorem join_safeName (base : List Name) (k : String) :
    join base (safeName k) = base ++ names (safeName k) := by
  have habs : isAbs (safeName k) = false := by
    rw [isAbs, decide_eq_false_iff_not]
    intro hhead
    exact no_slash_safeName k (List.mem_of_head? hhead)
  rw [join, habs]
  rfl

theorem oracleMetaPath_eq (home : List Name) (k : String) :
    oracleMetaPath home k = metaDir home k ++ [['m', 'e', 't', 'a', '.', 'j', 's', 'o', 'n']] := by
  rw [metaDir, oracleMetaPath, join_name _ (by decide) (by decide), List.dropLast_concat]
  rfl

theorem metaDir_eq (home : List Name) (k : String) :
    metaDir home k = oracleRoot home ++ names (safeName k) := by
  rw [metaDir, oracleMetaPath, join_name _ (by decide) (by decide), List.dropLast_concat,
    join_safeName]

theorem oracleSessionDir_eq (home : List Name) (k : String) :
    oracleSessionDir home k = sessionsRoot home ++ names (safeName k) := join_safeName _ k

/-- A key with a name of its own is neither `.` nor `..`. -/
def Proper (k : String) : Prop := k ∉ [".", ".."]

instance (k : String) : Decidable (Proper k) := inferInstanceAs (Decidable (k ∉ [".", ".."]))

theorem proper_iff (k : String) : Proper k ↔ safeName k ≠ ['.'] ∧ safeName k ≠ dotdot := by
  rw [Proper, Ne, Ne, safeName_dots (by simp), safeName_dots (by simp [dotdot]), List.mem_pair,
    not_or, ← String.toList_inj, ← String.toList_inj]
  rfl

theorem names_safeName (hk : k ≠ "") (h : Proper k) : names (safeName k) = [safeName k] :=
  names_of_no_slash (no_slash_safeName k) ⟨safeName_ne_nil hk, ((proper_iff k).mp h).1⟩

theorem resolve_under {root : List Name} (hk : k ≠ "") (h : Proper k) :
    resolve (root ++ names (safeName k)) = resolve root ++ [safeName k] := by
  rw [names_safeName hk h]
  exact resolve_concat root ((proper_iff k).mp h).2

/-- `.` has the root for its directory, and `..` the directory above. -/
theorem directChild_iff (root : List Name) (hk : k ≠ "") :
    DirectChild root (root ++ names (safeName k)) ↔ Proper k := by
  constructor
  · rintro ⟨c, hc⟩
    rw [proper_iff]
    constructor
    · intro hdot
      rw [hdot, show names ['.'] = [] by decide, List.append_nil] at hc
      have hlen := congrArg List.length hc
      simp only [List.length_append, List.length_singleton] at hlen
      omega
    · intro hdots
      rw [hdots, show names dotdot = [dotdot] by decide, resolve_parent] at hc
      have hlen := congrArg List.length hc
      simp only [List.length_dropLast, List.length_append, List.length_singleton] at hlen
      omega
  · intro h
    exact ⟨safeName k, resolve_under hk h⟩

/-! ## What is touched is owned -/

/-- The path has proper names only below the directory. -/
def Within (dir p : List Name) : Prop := ∃ cs : List EntryName, p = dir ++ cs.map (·.1)

theorem within_under (h : Within dir p) : Under dir p := by
  obtain ⟨cs, rfl⟩ := h
  have hcs : dotdot ∉ cs.map (·.1) := by
    intro hmem
    obtain ⟨c, -, hc⟩ := List.mem_map.mp hmem
    exact c.2.2.1 hc
  exact under_append dir hcs

theorem mem_glob {suffix : String} (h : p ∈ l.glob dir suffix) :
    ∃ c : EntryName, p = dir ++ [c.1] := by
  obtain ⟨c, -, rfl⟩ := List.mem_map.mp h
  exact ⟨c, rfl⟩

theorem foldl_newest_mem {ps : List (List Name)} {best : Option (List Name)}
    (h : ps.foldl (newest l) best = some p) : p ∈ ps ∨ best = some p := by
  induction ps generalizing best with
  | nil => exact .inr h
  | cons q ps ih =>
    have hstep : newest l best q = some q ∨ newest l best q = best := by
      unfold newest
      split
      · exact .inl rfl
      · split
        · split
          · exact .inl rfl
          · exact .inr rfl
        · exact .inr rfl
    rcases ih h with hmem | hbest
    · exact .inl (List.mem_cons_of_mem _ hmem)
    · rcases hstep with hq | hq
      · rw [hq] at hbest
        cases hbest
        exact .inl List.mem_cons_self
      · exact .inr (hq.symm.trans hbest)

theorem findSessionFile_parent {sid : String} (h : findSessionFile l sid dir = some p) :
    ∃ (cs : List EntryName) (c : EntryName), p = (dir ++ cs.map (·.1)) ++ [c.1] := by
  unfold findSessionFile at h
  split at h
  · cases h
  · rcases foldl_newest_mem h with hmem | hnone
    · split at hmem
      · obtain ⟨d, -, hd⟩ := List.mem_flatMap.mp hmem
        obtain ⟨c, rfl⟩ := mem_glob hd
        exact ⟨[d], c, rfl⟩
      · obtain ⟨c, rfl⟩ := mem_glob hmem
        exact ⟨[], c, by simp⟩
    · cases hnone

theorem ompTargets_within {sid : String} {omp : Option (List Name)}
    (homp : ∀ p ∈ omp, ∃ c : EntryName, p = dir ++ [c.1])
    (h : p ∈ ompTargets l sid dir omp) : Within dir p := by
  rcases List.mem_append.mp h with hraw | hfound
  · obtain ⟨c, rfl⟩ := homp p (Option.mem_toList.mp hraw)
    exact ⟨[c], rfl⟩
  · split at hfound
    · cases hfound
    · split at hfound
      · cases hfound
      · next found hsome =>
        obtain ⟨cs, c, rfl⟩ := findSessionFile_parent hsome
        rcases List.mem_cons.mp hfound with rfl | hchild
        · exact ⟨cs ++ [c], by simp⟩
        · obtain ⟨d, hd⟩ := mem_glob (List.mem_filter.mp hchild).1
          rw [List.dropLast_concat] at hd
          exact ⟨cs ++ [d], by simp [hd]⟩

theorem touches_owns (h : Touches home k p) : Owns home k p := by
  cases h with
  | bound =>
    refine .inl ?_
    rw [oracleMetaPath_eq]
    exact under_append _ (by decide)
  | tmp hex =>
    refine .inl (under_append _ ?_)
    rw [List.mem_singleton]
    intro heq
    cases heq
  | purged hpath htarget hunder =>
    exact .inr ((within_under (ompTargets_within hpath htarget)).trans hunder)

/-! ## Apart -/

theorem not_under_both {root : List Name} {k' : String} (hk : k ≠ "") (hk' : k' ≠ "") (h : Proper k)
    (h' : Proper k') (hne : safeName k ≠ safeName k')
    (hp : Under (root ++ names (safeName k)) p) : ¬ Under (root ++ names (safeName k')) p := by
  intro hp'
  rw [Under, resolve_under hk h] at hp
  rw [Under, resolve_under hk' h'] at hp'
  have heq := (List.prefix_of_prefix_length_le hp hp' (by simp)).eq_of_length (by simp)
  exact hne (by simpa using heq)

theorem not_under_roots {cs cs' : List Name} (hcs : dotdot ∉ cs) (hcs' : dotdot ∉ cs')
    (hp : Under (oracleRoot home ++ cs) p) : ¬ Under (sessionsRoot home ++ cs') p := by
  intro hp'
  rw [oracleRoot_eq, Under, List.append_assoc, resolve_append_of_not_mem home (by
    rw [List.mem_append]
    exact not_or.mpr ⟨by decide, hcs⟩)] at hp
  rw [sessionsRoot_eq, Under, List.append_assoc, resolve_append_of_not_mem home (by
    rw [List.mem_append]
    exact not_or.mpr ⟨by decide, hcs'⟩)] at hp'
  obtain ⟨t, ht⟩ := hp
  obtain ⟨t', ht'⟩ := hp'
  have heq := ht.trans ht'.symm
  simp only [List.append_assoc] at heq
  have htail := List.append_cancel_left heq
  simp at htail

theorem touches_not_owns {k' : String} (hk : k ≠ "") (hk' : k' ≠ "") (h : Proper k) (h' : Proper k')
    (hne : safeName k ≠ safeName k') (ht : Touches home k p) : ¬ Owns home k' p := by
  have hdots : ∀ {k : String}, k ≠ "" → Proper k → dotdot ∉ names (safeName k) := by
    intro k hk h
    rw [names_safeName hk h, List.mem_singleton]
    exact fun heq => ((proper_iff k).mp h).2 heq.symm
  have hown := touches_owns ht
  rw [Owns, metaDir_eq, oracleSessionDir_eq] at hown ⊢
  rintro (hm | hs)
  · rcases hown with hm' | hs'
    · exact not_under_both hk hk' h h' hne hm' hm
    · exact not_under_roots (hdots hk' h') (hdots hk h) hm hs'
  · rcases hown with hm' | hs'
    · exact not_under_roots (hdots hk h) (hdots hk' h') hm' hs
    · exact not_under_both hk hk' h h' hne hs' hs

/-- Two reviews are apart if and only if their keys differ in more than `:`, `/`, `\` and `-`, and
neither is `.` or `..`. -/
theorem reviews_apart_iff (home : List Name) (k k' : String) (hk : k ≠ "") (hk' : k' ≠ "") :
    ReviewsApart home k k' ↔
      ¬ List.Forall₂ Alike k.toList k'.toList ∧ k ∉ [".", ".."] ∧ k' ∉ [".", ".."] := by
  rw [← safeName_eq_iff]
  constructor
  · intro hapart
    refine ⟨?_, ?_, ?_⟩
    · intro heq
      exact hapart.metaPaths (by rw [oracleMetaPath, oracleMetaPath, heq])
    · have hchild := hapart.metaChild.1
      rw [metaDir_eq] at hchild
      exact (directChild_iff _ hk).mp hchild
    · have hchild := hapart.metaChild.2
      rw [metaDir_eq] at hchild
      exact (directChild_iff _ hk').mp hchild
  · rintro ⟨hne, h, h'⟩
    constructor
    · rw [oracleMetaPath_eq, oracleMetaPath_eq, metaDir_eq, metaDir_eq, names_safeName hk h,
        names_safeName hk' h']
      simpa using hne
    · rw [oracleSessionDir_eq, oracleSessionDir_eq, names_safeName hk h, names_safeName hk' h']
      simpa using hne
    · rw [metaDir_eq, metaDir_eq]
      exact ⟨(directChild_iff _ hk).mpr h, (directChild_iff _ hk').mpr h'⟩
    · rw [oracleSessionDir_eq, oracleSessionDir_eq]
      exact ⟨(directChild_iff _ hk).mpr h, (directChild_iff _ hk').mpr h'⟩
    · intro p
      exact ⟨touches_not_owns hk hk' h h' hne, touches_not_owns hk' hk h' h (Ne.symm hne)⟩

theorem reviews_apart_two : ReviewsApart [['h']] "review:1" "review:2" :=
  (reviews_apart_iff [['h']] "review:1" "review:2" (by decide) (by decide)).mpr (by decide)

/-- `a:b` and `a-b` are one review on disk. -/
theorem colon_dash_not_apart : ¬ ReviewsApart [['h']] "a:b" "a-b" := by
  intro h
  exact h.metaPaths (by decide)

end AiMeshChat.Oracle
