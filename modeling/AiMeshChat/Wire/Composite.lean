import AiMeshChat.JsonText
import AiMeshChat.Lib.Base64
import AiMeshChat.Lib.Utf8

/-!
# Composite cursors

`make_composite_cursor` and `split_composite_cursor` of `wire/protocol.py`. A cursor of a
stream that follows the runtime events has two parts, the cursor of the mailbox and the
number of the last runtime event, and is written as JSON in base64 for URLs. What cannot be
read as such a cursor is a plain cursor of the mailbox.

A composite cursor is split into its parts again (`split_make`). A plain one consists of
digits and slashes, and no JSON begins with the byte that two of these stand for; so it is
never taken for a composite one (`split_plain`).
-/

namespace AiMeshChat.Wire.Composite

open Lib

def COMPOSITE_CURSOR_VERSION : ℤ := 2

/-! ## Numbers of a cursor -/

/-- `n / d` rounded to a whole number, and to the even one in the middle. -/
def roundHalfEven (n d : ℕ) : ℕ :=
  if 2 * (n % d) < d then n / d
  else if d < 2 * (n % d) then n / d + 1
  else n / d + n / d % 2

/-- The whole part of the float nearest to `n / d`, which has 53 bits. -/
def truncFloat (n d : ℕ) : ℕ :=
  let top := Nat.log2 (n / d)
  if n < d then roundHalfEven (n * 2 ^ 53) d / 2 ^ 53
  else if top ≤ 52 then roundHalfEven (n * 2 ^ (52 - top)) d / 2 ^ (52 - top)
  else roundHalfEven n (d * 2 ^ (top - 52)) * 2 ^ (top - 52)

/-- The text of a float as a fraction, its sign apart. -/
def floatFraction (text : String) : Option (ℕ × ℕ) :=
  (Json.floatParts text).map fun x => (x.1 * 10 ^ x.2.toNat, 10 ^ (-x.2).toNat)

/-- `int(v)`; `none` where that raises: an infinity, a text that is no number, a value that
is neither a number nor a text. -/
def toInt? : Json → Option ℤ
  | .int n => some n
  | .bool b => some (if b then 1 else 0)
  | .float t => do
    let (n, d) ← floatFraction t
    let k := truncFloat n d
    if 2 ^ 1024 ≤ k then none else return if t.toList.head? = some '-' then -k else k
  | .str s => if INT_MAX_STR_DIGITS < (s.toList.filter Char.isDigit).length then none else parseInt s
  | _ => none

example : toInt? (.float "1e3") = some 1000 ∧ toInt? (.float "-2.75") = some (-2) ∧
    toInt? (.float "9007199254740993.0") = some 9007199254740992 := by decide +kernel

/-- `v == COMPOSITE_CURSOR_VERSION`; the floats that are read as 2 are those at most half a
unit of the last place away. -/
def isVersion : Json → Bool
  | .int n => n = COMPOSITE_CURSOR_VERSION
  | .float t =>
    match floatFraction t with
    | some (n, d) => t.toList.head? ≠ some '-' && (2 ^ 54 - 1) * d ≤ n * 2 ^ 53 &&
        n * 2 ^ 52 ≤ (2 ^ 53 + 1) * d
    | none => false
  | _ => false

/-! ## The cursor -/

def compositeObj (mailboxCursor : String) (runtimeEventId : ℤ) : Json :=
  .obj [("v", .int COMPOSITE_CURSOR_VERSION),
    ("mailbox", .str (if mailboxCursor = "" then "0" else mailboxCursor)),
    ("runtime", .int runtimeEventId)]

/-- `make_composite_cursor`; `none` where a number of too many digits cannot be written. -/
def makeCompositeCursor (mailboxCursor : String) (runtimeEventId : ℤ) : Option String :=
  if shortInt runtimeEventId.natAbs then
    some (String.ofList (Base64.encode (encode (compact (compositeObj mailboxCursor
      runtimeEventId)))))
  else none

/-- What completes the last group of a text of `n` digits. -/
def padding (n : ℕ) : List Char := List.replicate ((4 - n % 4) % 4) '='

/-- The parts of the object that a cursor holds. -/
def cursorParts (obj : Json) : Option (String × ℤ) :=
  if isVersion ((obj.get? "v").getD .null) then
    (toInt? ((obj.get? "runtime").getD (.int 0))).map fun rt =>
      (strOf ((obj.get? "mailbox").getD (.str "0")), rt)
  else none

/-- The parts of a composite cursor; `none` for any other text. -/
def readComposite (d : ℕ) (cursor : List Char) : Option (String × ℤ) :=
  if cursor.any fun c => 128 ≤ c.toNat then none
  else do
    let raw ← Base64.decode (cursor ++ padding cursor.length)
    let text ← utf8 raw
    let obj ← (loads d text).toOption
    cursorParts obj

/-- `split_composite_cursor`, with `d` levels of nesting left to `json.loads`. -/
def splitCompositeCursor (d : ℕ) (cursor : String) : String × ℤ :=
  if cursor = "" then ("0", 0) else (readComposite d cursor.toList).getD (cursor, 0)

/-! ## The round trip -/

theorem proper_compositeObj (d : ℕ) (m : String) {rt : ℤ} (h : shortInt rt.natAbs) :
    Proper (d + 1) (compositeObj m rt) := by
  have hv : shortInt 2 := by decide
  simp [compositeObj, Proper, ProperFields, COMPOSITE_CURSOR_VERSION, h, hv]

/-- **A composite cursor is split into its parts.** -/
theorem split_make (d : ℕ) {m c : String} {rt : ℤ} (h : makeCompositeCursor m rt = some c) :
    splitCompositeCursor (d + 1) c = (if m = "" then "0" else m, rt) := by
  unfold makeCompositeCursor at h
  split at h
  · next hshort =>
    obtain rfl := Option.some.inj h
    set bs := encode (compact (compositeObj m rt)) with hbs
    have hloads : loads (d + 1) (compact (compositeObj m rt)) = .ok (compositeObj m rt) :=
      loads_compact (proper_compositeObj d m hshort)
    have hne : String.ofList (Base64.encode bs) ≠ "" := by
      intro he
      have hnil : bs = [] := by
        rw [← Base64.encode_eq_nil, ← String.toList_ofList (l := Base64.encode bs), he]
        rfl
      have hutf := utf8_encode (compact (compositeObj m rt))
      rw [← hbs, hnil] at hutf
      obtain ⟨cs, hcs⟩ := jsonText_obj [','] [':'] [("v", .int COMPOSITE_CURSOR_VERSION),
        ("mailbox", .str (if m = "" then "0" else m)), ("runtime", .int rt)]
      have hempty : compact (compositeObj m rt) = [] := by simpa [utf8, tokens] using hutf.symm
      rw [compositeObj, compact, hcs] at hempty
      cases hempty
    have hascii : ¬ (Base64.encode bs).any (fun c => 128 ≤ c.toNat) = true := by
      rw [List.any_eq_true]
      rintro ⟨x, hx, hbig⟩
      have := Base64.encode_ascii bs x hx
      simp only [decide_eq_true_eq] at hbig
      omega
    have hread : readComposite (d + 1) (Base64.encode bs) = some (if m = "" then "0" else m, rt) := by
      have hpad : padding (Base64.encode bs).length = [] := by
        rw [padding, Base64.length_encode]
        rfl
      rw [readComposite, if_neg hascii, hpad, List.append_nil, Base64.decode_encode,
        Option.bind_eq_bind, Option.bind_some, hbs, utf8_encode, Option.bind_eq_bind,
        Option.bind_some, hloads]
      rfl
    rw [splitCompositeCursor, if_neg hne, String.toList_ofList, hread]
    rfl
  · cases h

theorem make_of_short (m : String) {rt : ℤ} (h : shortInt rt.natAbs) :
    ∃ c, makeCompositeCursor m rt = some c := by
  rw [makeCompositeCursor, if_pos h]
  exact ⟨_, rfl⟩

theorem shortInt_iff (n : ℕ) : shortInt n ↔ n < 10 ^ INT_MAX_STR_DIGITS :=
  Nat.length_toDigits_le_iff (by omega) (by decide)

theorem shortInt_of_row {n : ℕ} (h : n < 2 ^ 63) : shortInt n := by
  have hlen : (Nat.toDigits 10 n).length ≤ 19 :=
    (Nat.length_toDigits_le_iff (by omega) (by omega)).mpr (h.trans (by norm_num))
  unfold shortInt INT_MAX_STR_DIGITS
  omega

example : (makeCompositeCursor "7/000001" 42).map (splitCompositeCursor 1) =
    some ("7/000001", 42) := by decide +kernel

/-! ## Plain cursors -/

theorem loads_wide {c : Char} {cs : List Char} (h : 0x80 ≤ c.toNat) (d : ℕ) :
    loads d (c :: cs) = .error .invalid := by
  have hne (x : Char) (hx : x.toNat < 0x80 := by decide) : c ≠ x := by
    rintro rfl
    omega
  have hws : skipWs (c :: cs) = c :: cs := by
    have hc : isWs c = false := by simp [isWs, hne ' ', hne '\t', hne '\n', hne '\r']
    rw [skipWs, List.dropWhile_cons_of_neg (by simp [hc])]
  have hdigit : c.isDigit = false := by
    by_contra hyes
    have hle := (Char.isDigit_iff_toNat.mp (by simpa using hyes)).2
    have hnine : '9'.toNat = 57 := rfl
    omega
  have hatom : scanAtom (c :: cs) = .error .invalid := by
    unfold scanAtom
    split
    all_goals try (next he => exact absurd (List.cons.inj he).1 (hne _))
    rw [scanUnsigned, scanDigits]
    · simp [hdigit]
    · exact fun _ he => absurd (List.cons.inj he).1 (hne '0')
  have hvalue : scanValue d (c :: cs) = .error .invalid :=
    (scanValue_eq_scanAtom (hne '[') (hne '\x7b')).trans hatom
  rw [loads, hws, hvalue]
  split <;> rfl

/-- A character of a plain cursor. -/
def isPlain (c : Char) : Bool := c.isDigit || c = '/'

theorem value_plain {c : Char} (h : isPlain c = true) :
    ∃ v, Base64.value? c = some v ∧ 52 ≤ v ∧ v < 64 := by
  rw [isPlain, Bool.or_eq_true, decide_eq_true_eq] at h
  rcases h with hdigit | rfl
  · obtain ⟨hlo, hhi⟩ := Char.isDigit_iff_toNat.mp hdigit
    have hzero : '0'.toNat = 48 := rfl
    have hnine : '9'.toNat = 57 := rfl
    exact ⟨c.toNat + 4, Base64.value?_isDigit hdigit, by omega, by omega⟩
  · exact ⟨63, by decide, by decide, by decide⟩

theorem loads_plain (d : ℕ) {v₁ v₂ : ℕ} (h₁ : 52 ≤ v₁ ∧ v₁ < 64) (h₂ : 52 ≤ v₂ ∧ v₂ < 64)
    {bs : List UInt8} {text : List Char}
    (h : utf8 (UInt8.ofNat (v₁ * 4 + v₂ / 16) :: bs) = some text) :
    (loads d text).toOption = none := by
  have hbyte : 0x80 ≤ (UInt8.ofNat (v₁ * 4 + v₂ / 16)).toNat := by
    rw [toNat_byte (by omega)]
    omega
  cases text with
  | nil => cases d <;> rfl
  | cons c cs =>
    rw [loads_wide (utf8_wide hbyte h)]
    rfl

/-- **What consists of digits and slashes is no composite cursor.** -/
theorem readComposite_plain (d : ℕ) {cursor : List Char} (h : ∀ c ∈ cursor, isPlain c = true) :
    readComposite d cursor = none := by
  unfold readComposite
  split
  · rfl
  match cursor, h with
  | [], _ => cases d <;> rfl
  | [c], h =>
    obtain ⟨v, hv, -⟩ := value_plain (h c List.mem_cons_self)
    have hpad : c ≠ '=' := by
      rintro rfl
      cases hv
    have hdecode : Base64.decode ([c] ++ padding [c].length) = none := by
      change Base64.scan 0 0 0 [c, '=', '=', '='] = none
      rw [Base64.scan, if_neg hpad, hv]
      rfl
    rw [hdecode]
    rfl
  | c₁ :: c₂ :: cs, h =>
    obtain ⟨v₁, hv₁, h₁⟩ := value_plain (h c₁ List.mem_cons_self)
    obtain ⟨v₂, hv₂, h₂⟩ := value_plain (h c₂ (List.mem_cons_of_mem _ List.mem_cons_self))
    rw [List.cons_append, List.cons_append, Base64.decode_cons_cons hv₁ hv₂]
    cases Base64.scan 2 (v₂ % 16) 0 (cs ++ padding (c₁ :: c₂ :: cs).length) with
    | none => rfl
    | some bs =>
      rw [Option.map_some, Option.bind_eq_bind, Option.bind_some]
      cases hutf : utf8 (UInt8.ofNat (v₁ * 4 + v₂ / 16) :: bs) with
      | none => rfl
      | some text =>
        rw [Option.bind_eq_bind, Option.bind_some, loads_plain d h₁ h₂ hutf]
        rfl

theorem split_plain (d : ℕ) {cursor : String} (hne : cursor ≠ "")
    (h : ∀ c ∈ cursor.toList, isPlain c = true) : splitCompositeCursor d cursor = (cursor, 0) := by
  rw [splitCompositeCursor, if_neg hne, readComposite_plain d h]
  rfl

/-- A cursor that `advance_cursor` writes: digits, a slash and digits. -/
def PlainCursor (cursor : String) : Prop :=
  ∃ a b : List Char, cursor.toList = a ++ '/' :: b ∧ ∀ c ∈ a ++ b, c.isDigit = true

theorem PlainCursor.isPlain {cursor : String} (h : PlainCursor cursor) :
    ∀ c ∈ cursor.toList, isPlain c = true := by
  obtain ⟨a, b, htext, hdigits⟩ := h
  intro c hc
  rw [htext, List.mem_append, List.mem_cons] at hc
  rw [Composite.isPlain, Bool.or_eq_true, decide_eq_true_eq]
  rcases hc with hc | rfl | hc
  · exact .inl (hdigits c (List.mem_append_left _ hc))
  · exact .inr rfl
  · exact .inl (hdigits c (List.mem_append_right _ hc))

theorem PlainCursor.ne_empty {cursor : String} (h : PlainCursor cursor) : cursor ≠ "" := by
  rintro rfl
  obtain ⟨a, b, htext, -⟩ := h
  cases a <;> cases htext

/-- **Cursors are told apart.**  A composite cursor of any mailbox cursor and any number that
Python writes is split into the two again, and a plain cursor is itself. -/
theorem cursors_apart (d : ℕ) :
    (∀ (m : String) (r : ℕ), r < 10 ^ INT_MAX_STR_DIGITS → ∃ c, makeCompositeCursor m r = some c ∧
      splitCompositeCursor (d + 1) c = (if m = "" then "0" else m, (r : ℤ))) ∧
    (∀ cursor, PlainCursor cursor ∨ cursor = "0" → splitCompositeCursor (d + 1) cursor = (cursor, 0)) := by
  constructor
  · intro m r hr
    have hshort : shortInt (r : ℤ).natAbs := (shortInt_iff r).mpr hr
    obtain ⟨c, hc⟩ := make_of_short m hshort
    exact ⟨c, hc, split_make d hc⟩
  · rintro cursor (h | rfl)
    · exact split_plain (d + 1) h.ne_empty h.isPlain
    · exact split_plain (d + 1) (by decide) (List.all_eq_true.mp rfl)

/-- A longer number is not written. -/
theorem long_number_fails : ¬ ∀ (d : ℕ) (m : String) (r : ℕ), ∃ c, makeCompositeCursor m r = some c ∧
    splitCompositeCursor (d + 1) c = (if m = "" then "0" else m, (r : ℤ)) := by
  intro h
  obtain ⟨c, hc, -⟩ := h 0 "7/000001" (10 ^ INT_MAX_STR_DIGITS)
  have hlong : ¬ shortInt ((10 ^ INT_MAX_STR_DIGITS : ℕ) : ℤ).natAbs := by
    rw [Int.natAbs_natCast, shortInt_iff]
    exact lt_irrefl _
  rw [makeCompositeCursor, if_neg hlong] at hc
  cases hc

end AiMeshChat.Wire.Composite
