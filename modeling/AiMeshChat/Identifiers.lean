import AiMeshChat.Lib.Regex
import AiMeshChat.Stream.Parties

/-!
# The identifiers that become names of files

Agents, sessions, requests, messages and reviews have files and directories under their own names.
Each of the five checks is a pattern from `^` to `$` for `re.match`, and the two for path
components refuse `.` and `..` beforehand, by comparison.

The documented grammars have no newline. `accepts_iff_grammar_iff` says that the checks are off by
exactly one thing: a newline at the end. With it, `.` and `..` are let through as well.
-/

namespace AiMeshChat.Identifiers

open Lib.Regex

/-! ## The patterns -/

def AGENT_ID_RE : String := "^[a-zA-Z0-9][a-zA-Z0-9_.-]{0,31}$"
def SHA256_RE : String := "^[0-9a-fA-F]{64}$"
def PATH_SAFE_RE : String := "^[A-Za-z0-9_.-]{1,64}$"
/-- `SwarmReceiver._RE_MSG_ID`. -/
def RE_MSG_ID : String := "^[A-Za-z0-9_-]+$"
/-- `_REVIEW_KEY_RE`. -/
def REVIEW_KEY_RE : String := "^[A-Za-z0-9_.:-]{1,128}$"

/-- `re.compile(pattern).match(s)`. -/
def matchRe (pattern s : String) : Bool := (compile pattern).any fun atoms => reMatch atoms s.toList

/-! ## The checks -/

def validateAgentId (aid : String) : Except String Unit :=
  if !matchRe AGENT_ID_RE aid then .error ("invalid agent id: " ++ reprStr aid) else .ok ()

def validatePathComponent (value : Json) (fieldName : String) : Except String Unit :=
  match value with
  | .str v =>
    if v = "." ∨ v = ".." ∨ !matchRe PATH_SAFE_RE v then
      .error ("invalid " ++ fieldName ++ ": " ++ reprOf value)
    else .ok ()
  | _ => .error ("invalid " ++ fieldName ++ ": " ++ reprOf value)

/-- `SwarmReceiver._validate_msg_id`. -/
def validateMsgId (msgId : String) : Except String Unit :=
  if !matchRe RE_MSG_ID msgId then
    .error ("invalid msg_id (P1-3 path traversal guard): " ++ reprStr msgId)
  else .ok ()

/-- `_snapshot_dir`: the directory of a review under the data directory. -/
def snapshotDir (parkDataDir : String) (reviewKey : Json) : Except String String :=
  match reviewKey with
  | .str key =>
    if key = "." ∨ key = ".." ∨ !matchRe REVIEW_KEY_RE key then
      .error ("invalid review_key: " ++ reprOf reviewKey)
    else .ok (parkDataDir ++ "/snapshots/" ++ key)
  | _ => .error ("invalid review_key: " ++ reprOf reviewKey)

/-- The check of `sha256` in `attachment_error`. -/
def sha256Error (sha : Option Json) : Option String :=
  match sha with
  | some (.str s) =>
    if !matchRe SHA256_RE s then some "attachment sha256 must be a 64-char hex digest" else none
  | _ => some "attachment sha256 must be a 64-char hex digest"

inductive Check
  | agentId
  | pathComponent (fieldName : String)
  | receiverMsgId
  | reviewKey (parkDataDir : String)
  | sha256

namespace Check

/-- The check lets the text through. -/
def Accepts : Check → String → Prop
  | agentId, s => validateAgentId s = .ok ()
  | pathComponent fieldName, s => validatePathComponent (.str s) fieldName = .ok ()
  | receiverMsgId, s => validateMsgId s = .ok ()
  | reviewKey parkDataDir, s => (snapshotDir parkDataDir (.str s)).isOk
  | sha256, s => sha256Error (some (.str s)) = none

def isHex (c : Char) : Bool := c.isDigit || ('a' ≤ c && c ≤ 'f') || ('A' ≤ c && c ≤ 'F')

/-- The characters and the length that are documented. -/
def Spelled : Check → List Char → Prop
  | agentId, cs => (∀ c ∈ cs, isIdChar c) ∧ (∀ c ∈ cs.head?, isAlnum c) ∧
      1 ≤ cs.length ∧ cs.length ≤ 32
  | pathComponent _, cs => (∀ c ∈ cs, isIdChar c) ∧ 1 ≤ cs.length ∧ cs.length ≤ 64
  | receiverMsgId, cs => (∀ c ∈ cs, isAlnum c ∨ c = '_' ∨ c = '-') ∧ 1 ≤ cs.length
  | reviewKey _, cs => (∀ c ∈ cs, isIdChar c ∨ c = ':') ∧ 1 ≤ cs.length ∧ cs.length ≤ 128
  | sha256, cs => (∀ c ∈ cs, isHex c) ∧ cs.length = 64

/-- The text becomes a single component of a path. -/
def isComponent : Check → Bool
  | pathComponent _ | reviewKey _ => true
  | _ => false

def Grammar (v : Check) (s : String) : Prop :=
  v.Spelled s.toList ∧ (v.isComponent → s ≠ "." ∧ s ≠ "..")

def pattern : Check → String
  | agentId => AGENT_ID_RE
  | pathComponent _ => PATH_SAFE_RE
  | receiverMsgId => RE_MSG_ID
  | reviewKey _ => REVIEW_KEY_RE
  | sha256 => SHA256_RE

def alnum : List (Char × Char) := [('a', 'z'), ('A', 'Z'), ('0', '9')]

/-- What stands between `^` and `$`. -/
def repetitions : Check → List Rep
  | agentId => [⟨alnum, 1, some 1⟩, ⟨alnum ++ [('_', '_'), ('.', '.'), ('-', '-')], 0, some 31⟩]
  | pathComponent _ =>
    [⟨[('A', 'Z'), ('a', 'z'), ('0', '9'), ('_', '_'), ('.', '.'), ('-', '-')], 1, some 64⟩]
  | receiverMsgId => [⟨[('A', 'Z'), ('a', 'z'), ('0', '9'), ('_', '_'), ('-', '-')], 1, none⟩]
  | reviewKey _ =>
    [⟨[('A', 'Z'), ('a', 'z'), ('0', '9'), ('_', '_'), ('.', '.'), (':', ':'), ('-', '-')], 1,
      some 128⟩]
  | sha256 => [⟨[('0', '9'), ('a', 'f'), ('A', 'F')], 64, some 64⟩]

theorem compile_pattern (v : Check) : compile v.pattern = some (anchored v.repetitions) := by
  cases v with
  | agentId => decide +kernel
  | pathComponent _ =>
    have h : compile PATH_SAFE_RE = some (anchored (pathComponent "").repetitions) := by
      decide +kernel
    exact h
  | receiverMsgId => decide +kernel
  | reviewKey _ =>
    have h : compile REVIEW_KEY_RE = some (anchored (reviewKey "").repetitions) := by
      decide +kernel
    exact h
  | sha256 => decide +kernel

/-! ## The classes -/

theorem isAlnum_iff {c : Char} : isAlnum c = true ↔ (48 ≤ c.toNat ∧ c.toNat ≤ 57) ∨
    (65 ≤ c.toNat ∧ c.toNat ≤ 90) ∨ (97 ≤ c.toNat ∧ c.toNat ≤ 122) := by
  delta isAlnum Char.isAlphanum Char.isAlpha Char.isUpper Char.isLower Char.isDigit
  simp only [Bool.or_eq_true, Bool.and_eq_true, decide_eq_true_eq, UInt32.le_iff_toNat_le, ge_iff_le]
  show ((65 ≤ c.toNat ∧ c.toNat ≤ 90) ∨ (97 ≤ c.toNat ∧ c.toNat ≤ 122)) ∨
    (48 ≤ c.toNat ∧ c.toNat ≤ 57) ↔ _
  omega

theorem isIdChar_iff {c : Char} : isIdChar c = true ↔
    isAlnum c = true ∨ c.toNat = 95 ∨ c.toNat = 46 ∨ c.toNat = 45 := by
  simp only [isIdChar, Bool.or_eq_true, decide_eq_true_eq, ← Char.toNat_inj, Char.reduceToNat,
    or_assoc]

theorem isHex_iff {c : Char} : isHex c = true ↔ (48 ≤ c.toNat ∧ c.toNat ≤ 57) ∨
    (97 ≤ c.toNat ∧ c.toNat ≤ 102) ∨ (65 ≤ c.toNat ∧ c.toNat ≤ 70) := by
  simp only [isHex, Char.isDigit, Bool.or_eq_true, Bool.and_eq_true, decide_eq_true_eq,
    UInt32.le_iff_toNat_le, ge_iff_le]
  show ((48 ≤ c.toNat ∧ c.toNat ≤ 57) ∨ (97 ≤ c.toNat ∧ c.toNat ≤ 102)) ∨
    (65 ≤ c.toNat ∧ c.toNat ≤ 70) ↔ _
  omega

theorem takes_alnum {c : Char} {least : ℕ} {most : Option ℕ} :
    Rep.takes ⟨alnum, least, most⟩ c = true ↔ isAlnum c = true := by
  simp [Rep.takes_iff, alnum, isAlnum_iff]
  omega

theorem takes_idChar {c : Char} {least : ℕ} {most : Option ℕ} :
    Rep.takes ⟨alnum ++ [('_', '_'), ('.', '.'), ('-', '-')], least, most⟩ c = true ↔
      isIdChar c = true := by
  simp [Rep.takes_iff, alnum, isIdChar_iff, isAlnum_iff]
  omega

theorem spells_agentId {cs : List Char} : Spells agentId.repetitions cs ↔ agentId.Spelled cs := by
  have hiff : Spells agentId.repetitions cs ↔ ∃ first rest, cs = first ++ rest ∧
      Rep.fits ⟨alnum, 1, some 1⟩ first = true ∧
        Rep.fits ⟨alnum ++ [('_', '_'), ('.', '.'), ('-', '-')], 0, some 31⟩ rest = true :=
    exists₂_congr fun _ _ => and_congr_right fun _ => and_congr_right fun _ => spells_singleton
  rw [hiff, Spelled]
  simp only [Rep.fits_iff, takes_alnum, takes_idChar, Option.mem_def, Option.some.injEq,
    forall_eq']
  cases cs with
  | nil =>
    refine iff_of_false (fun h => ?_) fun h => absurd h.2.2.1 (by decide)
    obtain ⟨first, rest, hcs, hfirst, -⟩ := h
    obtain ⟨rfl, -⟩ := List.append_eq_nil_iff.mp hcs.symm
    exact absurd hfirst.2.1 (by decide)
  | cons c cs =>
    constructor
    · intro h
      obtain ⟨first, rest, hcs, hfirst, hrest⟩ := h
      obtain ⟨d, rfl⟩ := List.length_eq_one_iff.mp (Nat.le_antisymm hfirst.2.2 hfirst.2.1)
      rw [List.singleton_append] at hcs
      obtain ⟨rfl, rfl⟩ := List.cons_eq_cons.mp hcs
      have hc := hfirst.1 c (List.mem_singleton_self c)
      refine ⟨List.forall_mem_cons.mpr ⟨isIdChar_iff.mpr (.inl hc), hrest.1⟩, ?_, ?_⟩
      · intro d hd
        cases hd
        exact hc
      · have hlen := hrest.2.2
        rw [List.length_cons]
        omega
    · intro h
      obtain ⟨hall, hhead, -, hlen⟩ := h
      rw [List.length_cons] at hlen
      refine ⟨[c], cs, rfl, ⟨?_, Nat.le_refl 1, Nat.le_refl 1⟩, ?_, Nat.zero_le _, by omega⟩
      · intro d hd
        rw [List.mem_singleton.mp hd]
        exact hhead c rfl
      · exact (List.forall_mem_cons.mp hall).2

theorem spells_iff (v : Check) {cs : List Char} : Spells v.repetitions cs ↔ v.Spelled cs := by
  cases v with
  | agentId => exact spells_agentId
  | pathComponent _ =>
    rw [repetitions, spells_singleton, Rep.fits_iff, Spelled]
    refine and_congr (forall₂_congr fun c _ => ?_) (by simp)
    simp [Rep.takes_iff, isIdChar_iff, isAlnum_iff]
    omega
  | receiverMsgId =>
    rw [repetitions, spells_singleton, Rep.fits_iff, Spelled]
    refine and_congr (forall₂_congr fun c _ => ?_) (by simp)
    simp [Rep.takes_iff, isAlnum_iff, ← Char.toNat_inj]
    omega
  | reviewKey _ =>
    rw [repetitions, spells_singleton, Rep.fits_iff, Spelled]
    refine and_congr (forall₂_congr fun c _ => ?_) (by simp)
    simp [Rep.takes_iff, isIdChar_iff, isAlnum_iff, ← Char.toNat_inj]
    omega
  | sha256 =>
    rw [repetitions, spells_singleton, Rep.fits_iff, Spelled]
    refine and_congr (forall₂_congr fun c _ => ?_) ?_
    · simp [Rep.takes_iff, isHex_iff]
    · simp only [Option.mem_def, Option.some.injEq, forall_eq']
      omega

theorem accepts_iff (v : Check) (s : String) :
    v.Accepts s ↔ (v.isComponent → s ≠ "." ∧ s ≠ "..") ∧ matchRe v.pattern s = true := by
  cases v with
  | agentId =>
    rw [Accepts, validateAgentId]
    cases h : matchRe AGENT_ID_RE s <;> simp [pattern, isComponent, h]
  | pathComponent fieldName =>
    rw [Accepts, validatePathComponent]
    by_cases hdot : s = "." ∨ s = ".."
    · rcases hdot with rfl | rfl <;> simp [isComponent]
    · obtain ⟨h1, h2⟩ := not_or.mp hdot
      cases h : matchRe PATH_SAFE_RE s <;> simp [pattern, isComponent, h, h1, h2]
  | receiverMsgId =>
    rw [Accepts, validateMsgId]
    cases h : matchRe RE_MSG_ID s <;> simp [pattern, isComponent, h]
  | reviewKey parkDataDir =>
    rw [Accepts, snapshotDir]
    by_cases hdot : s = "." ∨ s = ".."
    · rcases hdot with rfl | rfl <;> simp [isComponent, Except.isOk, Except.toBool]
    · obtain ⟨h1, h2⟩ := not_or.mp hdot
      cases h : matchRe REVIEW_KEY_RE s <;>
        simp [pattern, isComponent, h, h1, h2, Except.isOk, Except.toBool]
  | sha256 =>
    rw [Accepts, sha256Error]
    cases h : matchRe SHA256_RE s <;> simp [pattern, isComponent, h]

theorem matchRe_iff (v : Check) (s : String) : matchRe v.pattern s = true ↔
    v.Spelled s.toList ∨ ∃ t, s.toList = t ++ ['\n'] ∧ v.Spelled t := by
  rw [matchRe, compile_pattern, Option.any_some, match_anchored]
  simp only [spells_iff]

theorem not_spelled_newline (v : Check) (t : List Char) : ¬ v.Spelled (t ++ ['\n']) := by
  have hmem : '\n' ∈ t ++ ['\n'] := List.mem_append_right _ (List.mem_singleton_self _)
  intro h
  cases v with
  | agentId => exact absurd (h.1 _ hmem) (by decide)
  | pathComponent _ => exact absurd (h.1 _ hmem) (by decide)
  | receiverMsgId => exact absurd (h.1 _ hmem) (by decide)
  | reviewKey _ => exact absurd (h.1 _ hmem) (by decide)
  | sha256 => exact absurd (h.1 _ hmem) (by decide)

theorem ne_dots {s : String} {t : List Char} (h : s.toList = t ++ ['\n']) : s ≠ "." ∧ s ≠ ".." := by
  have hlast : s.toList.getLast? = some '\n' := by rw [h, List.getLast?_concat]
  constructor
  · intro hs
    rw [hs] at hlast
    exact absurd hlast (by decide)
  · intro hs
    rw [hs] at hlast
    exact absurd hlast (by decide)

/-- A check is off its grammar for a documented text with a newline behind it, and for nothing
else. -/
theorem accepts_iff_grammar_iff (v : Check) (s : String) :
    (v.Accepts s ↔ v.Grammar s) ↔ ¬ ∃ t, s.toList = t ++ ['\n'] ∧ v.Spelled t := by
  rw [accepts_iff, matchRe_iff, Grammar]
  constructor
  · intro hiff hex
    obtain ⟨t, hs, hspelled⟩ := hex
    have hgrammar := hiff.mp ⟨fun _ => ne_dots hs, .inr ⟨t, hs, hspelled⟩⟩
    rw [hs] at hgrammar
    exact not_spelled_newline v t hgrammar.1
  · intro hno
    rw [or_iff_left hno, and_comm]

/-- The agent `a`, and a newline. -/
theorem newline_accepted : agentId.Accepts "a\n" ∧ ¬ agentId.Grammar "a\n" := by
  constructor
  · rw [accepts_iff, matchRe_iff]
    refine ⟨fun h => (by cases h), .inr ⟨['a'], rfl, ?_, ?_, by decide, by decide⟩⟩
    · exact List.forall_mem_singleton.mpr (by decide)
    · intro c hc
      cases hc
      decide
  · intro h
    exact not_spelled_newline agentId ['a'] h.1

end Check

/-! ## The checks as they are used -/

theorem dollar_iff {p : List Char → Bool} {s : String} :
    dollar p s = true ↔ p s.toList = true ∨ ∃ t, s.toList = t ++ ['\n'] ∧ p t = true := by
  rw [dollar, Bool.or_eq_true, Bool.and_eq_true, decide_eq_true_eq]
  refine or_congr_right ⟨fun h => ?_, fun h => ?_⟩
  · refine ⟨s.toList.dropLast, ?_, h.2⟩
    exact (List.dropLast_append_getLast? _ h.1).symm
  · obtain ⟨t, hs, ht⟩ := h
    rw [hs, List.getLast?_concat, List.dropLast_concat]
    exact ⟨rfl, ht⟩

/-- A check that ends in `$` is the match of its pattern. -/
theorem dollar_eq_matchRe (v : Check) {p : List Char → Bool}
    (h : ∀ cs, p cs = true ↔ v.Spelled cs) (s : String) : dollar p s = matchRe v.pattern s := by
  rw [Bool.eq_iff_iff, dollar_iff, v.matchRe_iff]
  simp only [h]

theorem agentIdOk_eq (aid : String) : Mailbox.agentIdOk aid = matchRe AGENT_ID_RE aid := by
  refine dollar_eq_matchRe .agentId (fun cs => ?_) aid
  cases cs with
  | nil => simp [idText, Check.Spelled]
  | cons c cs =>
    have hclass : isAlnum c = true → isIdChar c = true := fun h => Check.isIdChar_iff.mpr (.inl h)
    simp only [idText, Check.Spelled, Bool.and_eq_true, List.all_eq_true, decide_eq_true_eq,
      List.forall_mem_cons, List.head?_cons, Option.mem_some_iff, forall_eq', List.length_cons]
    constructor
    · intro h
      exact ⟨⟨hclass h.1.1, h.1.2⟩, h.1.1, by omega, by omega⟩
    · intro h
      exact ⟨⟨h.2.1, h.1.2⟩, by omega⟩

theorem pathSafe_eq (s : String) : Mailbox.pathSafe s = matchRe PATH_SAFE_RE s := by
  refine dollar_eq_matchRe (.pathComponent "") (fun cs => ?_) s
  cases cs with
  | nil => simp [Check.Spelled]
  | cons c cs => simp [Check.Spelled]

theorem sha256Ok_eq (s : String) : Mailbox.sha256Ok s = matchRe SHA256_RE s := by
  refine dollar_eq_matchRe .sha256 (fun cs => ?_) s
  simp [Check.Spelled, Check.isHex, and_comm]

theorem wireMsgIdOk_eq (s : String) : Stream.wireMsgIdOk s = matchRe RE_MSG_ID s := by
  refine dollar_eq_matchRe .receiverMsgId (fun cs => ?_) s
  cases cs with
  | nil => simp [Check.Spelled]
  | cons c cs => simp [Check.Spelled, or_assoc]

theorem attachmentError_sha256 {a : Mailbox.AttachmentRef}
    (h : Mailbox.attachmentError a.toDict = none) (sha : String) :
    Mailbox.attachmentError { a with sha256 := sha }.toDict = sha256Error (some (.str sha)) := by
  rw [sha256Error, ← sha256Ok_eq]
  simp [Mailbox.attachmentError, Mailbox.AttachmentRef.toDict, Json.get?, Json.isDict,
    Mailbox.attachmentTextError, List.lookup_cons] at h ⊢
  have hsize : ¬ a.size < 0 := by omega
  simp [h, hsize, Mailbox.attachmentTextError, Json.get?, List.lookup_cons]
  cases Mailbox.sha256Ok sha <;> rfl

end AiMeshChat.Identifiers
