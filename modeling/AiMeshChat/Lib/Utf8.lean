import Mathlib.Data.Nat.Digits.Defs
import Mathlib.Tactic.Common

/-!
# UTF-8

A decoder that takes one byte at a time. Between two bytes it is either between
two characters or inside one, where it knows the bits so far, how many bytes are
to come and which values the next one may have. A byte that does not fit ends
the character as malformed and is looked at again as a first byte; this is the
maximal-subpart practice, one mark for each malformed stretch.

`utf8` is the strict reading, `utf8Replace` puts U+FFFD for each mark. Two facts
carry the framing of texts by lines: a text comes back from its bytes
(`tokens_encode`), and an ASCII byte is always its character, whatever
stands before it (`tokens_ascii`).
-/

namespace AiMeshChat.Lib

/-- The bytes of a character. -/
def encodeChar (c : Char) : List UInt8 :=
  let n := c.toNat
  if n < 0x80 then [UInt8.ofNat n]
  else if n < 0x800 then [UInt8.ofNat (0xC0 + n / 64), UInt8.ofNat (0x80 + n % 64)]
  else if n < 0x10000 then
    [UInt8.ofNat (0xE0 + n / 4096), UInt8.ofNat (0x80 + n / 64 % 64), UInt8.ofNat (0x80 + n % 64)]
  else
    [UInt8.ofNat (0xF0 + n / 262144), UInt8.ofNat (0x80 + n / 4096 % 64),
      UInt8.ofNat (0x80 + n / 64 % 64), UInt8.ofNat (0x80 + n % 64)]

/-- `text.encode("utf-8")`. -/
def encode (cs : List Char) : List UInt8 := cs.flatMap encodeChar

@[simp] theorem encode_nil : encode [] = [] := rfl
@[simp] theorem encode_cons (c : Char) (cs : List Char) :
    encode (c :: cs) = encodeChar c ++ encode cs := rfl
theorem encode_append (cs ds : List Char) : encode (cs ++ ds) = encode cs ++ encode ds :=
  List.flatMap_append

/-! ## Decoding -/

/-- A character of which some bytes are there: the bits so far, the number of
bytes to come after the next one, and the values the next one may have. -/
structure Pending where
  bits : ℕ
  more : ℕ
  lo : ℕ := 0x80
  hi : ℕ := 0xBF

/-- What a first byte begins. -/
inductive First
  | char (c : Char)
  | lead (p : Pending)
  | bad

def first (b : ℕ) : First :=
  if b < 0x80 then .char (Char.ofNat b)
  else if b < 0xC2 then .bad
  else if b < 0xE0 then .lead { bits := b - 0xC0, more := 0 }
  else if b = 0xE0 then .lead { bits := 0, more := 1, lo := 0xA0 }
  else if b = 0xED then .lead { bits := 0xD, more := 1, hi := 0x9F }
  else if b < 0xF0 then .lead { bits := b - 0xE0, more := 1 }
  else if b = 0xF0 then .lead { bits := 0, more := 2, lo := 0x90 }
  else if b < 0xF4 then .lead { bits := b - 0xF0, more := 2 }
  else if b = 0xF4 then .lead { bits := 4, more := 2, hi := 0x8F }
  else .bad

/-- The characters of the bytes in order; `none` marks a malformed stretch. -/
def tokens : Option Pending → List UInt8 → List (Option Char)
  | none, [] => []
  | some _, [] => [none]
  | none, b :: bs =>
    match first b.toNat with
    | .char c => some c :: tokens none bs
    | .lead p => tokens (some p) bs
    | .bad => none :: tokens none bs
  | some p, b :: bs =>
    if 0x80 ≤ b.toNat ∧ p.lo ≤ b.toNat ∧ b.toNat ≤ p.hi then
      match p.more with
      | 0 => some (Char.ofNat (64 * p.bits + (b.toNat - 0x80))) :: tokens none bs
      | more + 1 => tokens (some { bits := 64 * p.bits + (b.toNat - 0x80), more := more }) bs
    else
      match first b.toNat with
      | .char c => none :: some c :: tokens none bs
      | .lead p' => none :: tokens (some p') bs
      | .bad => none :: none :: tokens none bs

/-- `data.decode("utf-8")`; `none` where that raises. -/
def utf8 (bs : List UInt8) : Option (List Char) := (tokens none bs).mapM id

/-- `data.decode("utf-8", errors="replace")`. -/
def utf8Replace (bs : List UInt8) : List Char := (tokens none bs).map (·.getD '\ufffd')

/-! ### A text comes back -/

theorem toNat_byte {n : ℕ} (h : n < 256) : (UInt8.ofNat n).toNat = n :=
  UInt8.toNat_ofNat_of_lt h

theorem toNat_cases (c : Char) :
    c.toNat < 0xD800 ∨ (0xDFFF < c.toNat ∧ c.toNat < 0x110000) := c.valid

/-- The first byte of a character of three bytes; a surrogate or an overlong form
would not be let through by the bounds on the second. -/
theorem first_three {n : ℕ} (h : 0x800 ≤ n) (h' : n < 0x10000)
    (hs : n < 0xD800 ∨ 0xDFFF < n) :
    ∃ lo hi, first (0xE0 + n / 4096) = .lead ⟨n / 4096, 1, lo, hi⟩ ∧
      lo ≤ 0x80 + n / 64 % 64 ∧ 0x80 + n / 64 % 64 ≤ hi := by
  unfold first
  rw [if_neg (by omega), if_neg (by omega), if_neg (by omega)]
  split_ifs with h1 h2 h3
  · exact ⟨_, _, by rw [show n / 4096 = 0 by omega], by omega, by omega⟩
  · exact ⟨_, _, by rw [show n / 4096 = 0xD by omega], by omega, by omega⟩
  · exact ⟨_, _, by rw [show 0xE0 + n / 4096 - 0xE0 = n / 4096 by omega], by omega, by omega⟩
  all_goals omega

theorem first_four {n : ℕ} (h : 0x10000 ≤ n) (h' : n < 0x110000) :
    ∃ lo hi, first (0xF0 + n / 262144) = .lead ⟨n / 262144, 2, lo, hi⟩ ∧
      lo ≤ 0x80 + n / 4096 % 64 ∧ 0x80 + n / 4096 % 64 ≤ hi := by
  unfold first
  rw [if_neg (by omega), if_neg (by omega), if_neg (by omega), if_neg (by omega),
    if_neg (by omega), if_neg (by omega)]
  split_ifs with h1 h2 h3
  · exact ⟨_, _, by rw [show n / 262144 = 0 by omega], by omega, by omega⟩
  · exact ⟨_, _, by rw [show 0xF0 + n / 262144 - 0xF0 = n / 262144 by omega], by omega, by omega⟩
  · exact ⟨_, _, by rw [show n / 262144 = 4 by omega], by omega, by omega⟩
  all_goals omega

theorem tokens_last {p : Pending} {b : ℕ} (bs : List UInt8) (hb : b < 64)
    (hlo : p.lo ≤ 0x80 + b) (hhi : 0x80 + b ≤ p.hi) (hmore : p.more = 0) :
    tokens (some p) (UInt8.ofNat (0x80 + b) :: bs) =
      some (Char.ofNat (64 * p.bits + b)) :: tokens none bs := by
  rw [tokens, toNat_byte (by omega), if_pos (by omega), hmore]
  simp

theorem tokens_more {p : Pending} {b m : ℕ} (bs : List UInt8) (hb : b < 64)
    (hlo : p.lo ≤ 0x80 + b) (hhi : 0x80 + b ≤ p.hi) (hmore : p.more = m + 1) :
    tokens (some p) (UInt8.ofNat (0x80 + b) :: bs) =
      tokens (some { bits := 64 * p.bits + b, more := m }) bs := by
  rw [tokens, toNat_byte (by omega), if_pos (by omega), hmore]
  simp

theorem tokens_encodeChar (c : Char) (bs : List UInt8) :
    tokens none (encodeChar c ++ bs) = some c :: tokens none bs := by
  have hc := toNat_cases c
  have hback : Char.ofNat c.toNat = c := Char.ofNat_toNat c
  have hlead {n : ℕ} {p : Pending} {rest : List UInt8} (hn : n < 256) (hp : first n = .lead p) :
      tokens none (UInt8.ofNat n :: rest) = tokens (some p) rest := by
    rw [tokens, toNat_byte hn, hp]
  unfold encodeChar
  simp only
  split_ifs with h1 h2 h3
  · have hb := toNat_byte (n := c.toNat) (by omega)
    simp only [List.cons_append, List.nil_append, tokens, hb, first, h1, if_true, hback]
  · have hfirst : first (0xC0 + c.toNat / 64) = .lead { bits := c.toNat / 64, more := 0 } := by
      unfold first
      rw [if_neg (by omega), if_neg (by omega), if_pos (by omega)]
      rw [show 0xC0 + c.toNat / 64 - 0xC0 = c.toNat / 64 by omega]
    simp only [List.cons_append, List.nil_append]
    rw [hlead (by omega) hfirst, tokens_last _ (by omega) (by simp) (by simp; omega) rfl]
    rw [show 64 * (c.toNat / 64) + c.toNat % 64 = c.toNat by omega, hback]
  · obtain ⟨lo, hi, hfirst, hlo, hhi⟩ := first_three (n := c.toNat) (by omega) h3 (by omega)
    simp only [List.cons_append, List.nil_append]
    rw [hlead (by omega) hfirst, tokens_more (m := 0) _ (by omega) hlo hhi rfl,
      tokens_last _ (by omega) (by simp) (by simp; omega) rfl]
    rw [show 64 * (64 * (c.toNat / 4096) + c.toNat / 64 % 64) + c.toNat % 64 = c.toNat by omega,
      hback]
  · obtain ⟨lo, hi, hfirst, hlo, hhi⟩ := first_four (n := c.toNat) (by omega) (by omega)
    simp only [List.cons_append, List.nil_append]
    rw [hlead (by omega) hfirst, tokens_more (m := 1) _ (by omega) hlo hhi rfl,
      tokens_more (m := 0) _ (by omega) (by simp) (by simp; omega) rfl,
      tokens_last _ (by omega) (by simp) (by simp; omega) rfl]
    rw [show 64 * (64 * (64 * (c.toNat / 262144) + c.toNat / 4096 % 64) + c.toNat / 64 % 64) +
      c.toNat % 64 = c.toNat by omega, hback]

/-- **A text comes back from its bytes.** -/
theorem tokens_encode (cs : List Char) (bs : List UInt8) :
    tokens none (encode cs ++ bs) = cs.map some ++ tokens none bs := by
  induction cs with
  | nil => rfl
  | cons c cs ih =>
    rw [encode_cons, List.append_assoc, tokens_encodeChar, ih]
    rfl

theorem mapM_map_some (cs : List Char) : (cs.map some).mapM id = some cs := by
  induction cs with
  | nil => rfl
  | cons c cs ih => simp [List.mapM_cons, ih]

theorem utf8_encode (cs : List Char) : utf8 (encode cs) = some cs := by
  have h := tokens_encode cs []
  simp only [List.append_nil, tokens] at h
  rw [utf8, h, mapM_map_some]

theorem utf8Replace_encode (cs : List Char) : utf8Replace (encode cs) = cs := by
  have h := tokens_encode cs []
  simp only [List.append_nil, tokens] at h
  rw [utf8Replace, h, List.map_map]
  exact List.map_id cs

/-! ### ASCII bytes -/

/-- **An ASCII byte is its character**, whatever stands before it: a character
that it cuts off is malformed. -/
theorem tokens_ascii {b : UInt8} (hb : b.toNat < 0x80) (bs' : List UInt8) :
    ∀ (bs : List UInt8) (st : Option Pending), tokens st (bs ++ b :: bs') =
      tokens st bs ++ some (Char.ofNat b.toNat) :: tokens none bs' := by
  have hfirst : first b.toNat = .char (Char.ofNat b.toNat) := if_pos hb
  intro bs
  induction bs with
  | nil =>
    intro st
    cases st with
    | none => simp [tokens, hfirst]
    | some p =>
      have hout : ¬ (0x80 ≤ b.toNat ∧ p.lo ≤ b.toNat ∧ b.toNat ≤ p.hi) := by omega
      simp [tokens, hfirst, hout]
  | cons a bs ih =>
    intro st
    cases st with
    | none =>
      rw [List.cons_append, tokens, tokens]
      cases first a.toNat with
      | char c => simp [ih]
      | lead p => simp [ih]
      | bad => simp [ih]
    | some p =>
      rw [List.cons_append, tokens, tokens]
      split_ifs
      · cases p.more with
        | zero => simp [ih]
        | succ more => simp [ih]
      · cases first a.toNat with
        | char c => simp [ih]
        | lead p => simp [ih]
        | bad => simp [ih]

/-! ### Bytes in two parts -/

/-- Whether the pending character takes the byte. -/
def Pending.takes (p : Pending) (b : UInt8) : Bool :=
  0x80 ≤ b.toNat && p.lo ≤ b.toNat && b.toNat ≤ p.hi

theorem takes_iff {p : Pending} {b : UInt8} :
    p.takes b = true ↔ 0x80 ≤ b.toNat ∧ p.lo ≤ b.toNat ∧ b.toNat ≤ p.hi := by
  simp [Pending.takes, and_assoc]

/-- Where the decoder stands after some bytes. -/
def pendingAfter : Option Pending → List UInt8 → Option Pending
  | st, [] => st
  | none, b :: bs =>
    match first b.toNat with
    | .lead p => pendingAfter (some p) bs
    | _ => pendingAfter none bs
  | some p, b :: bs =>
    if p.takes b then
      match p.more with
      | 0 => pendingAfter none bs
      | more + 1 => pendingAfter (some { bits := 64 * p.bits + (b.toNat - 0x80), more := more }) bs
    else
      match first b.toNat with
      | .lead p' => pendingAfter (some p') bs
      | _ => pendingAfter none bs

/-- The place between two parts is inside of a character. -/
def splitsChar (bs bs' : List UInt8) : Bool :=
  match pendingAfter none bs, bs'.head? with
  | some p, some b => p.takes b
  | _, _ => false

theorem tokens_of_not_takes {p : Pending} {bs : List UInt8}
    (h : ∀ b, bs.head? = some b → p.takes b = false) :
    tokens (some p) bs = none :: tokens none bs := by
  cases bs with
  | nil => rfl
  | cons b bs =>
    have hb := h b rfl
    have hout : ¬ (0x80 ≤ b.toNat ∧ p.lo ≤ b.toNat ∧ b.toNat ≤ p.hi) := by
      intro h
      rw [takes_iff.mpr h] at hb
      cases hb
    cases hf : first b.toNat <;> simp [tokens, hf, hout]

/-- The characters that are complete after some bytes. -/
def tokensBefore : Option Pending → List UInt8 → List (Option Char)
  | _, [] => []
  | none, b :: bs =>
    match first b.toNat with
    | .char c => some c :: tokensBefore none bs
    | .lead p => tokensBefore (some p) bs
    | .bad => none :: tokensBefore none bs
  | some p, b :: bs =>
    if p.takes b then
      match p.more with
      | 0 => some (Char.ofNat (64 * p.bits + (b.toNat - 0x80))) :: tokensBefore none bs
      | more + 1 => tokensBefore (some { bits := 64 * p.bits + (b.toNat - 0x80), more := more }) bs
    else
      match first b.toNat with
      | .char c => none :: some c :: tokensBefore none bs
      | .lead p' => none :: tokensBefore (some p') bs
      | .bad => none :: none :: tokensBefore none bs

theorem tokens_split (bs' : List UInt8) : ∀ (bs : List UInt8) (st : Option Pending),
    tokens st (bs ++ bs') = tokensBefore st bs ++ tokens (pendingAfter st bs) bs' := by
  intro bs
  induction bs with
  | nil =>
    intro st
    cases st <;> rfl
  | cons a bs ih =>
    intro st
    cases st with
    | none =>
      rw [List.cons_append, tokens, tokensBefore, pendingAfter]
      cases first a.toNat <;> simp [ih]
    | some p =>
      rw [List.cons_append, tokens, tokensBefore, pendingAfter]
      by_cases ha : p.takes a = true
      · rw [if_pos (takes_iff.mp ha), if_pos ha, if_pos ha]
        cases p.more <;> simp [ih]
      · rw [if_neg fun h => ha (takes_iff.mpr h), if_neg ha, if_neg ha]
        cases first a.toNat <;> simp [ih]

/-- **The parts can be decoded one by one** if no character is split. -/
theorem utf8Replace_append {bs bs' : List UInt8} (h : splitsChar bs bs' = false) :
    utf8Replace (bs ++ bs') = utf8Replace bs ++ utf8Replace bs' := by
  have hend := tokens_split [] bs none
  rw [List.append_nil] at hend
  rw [utf8Replace, utf8Replace, utf8Replace, tokens_split, hend, ← List.map_append]
  unfold splitsChar at h
  cases hp : pendingAfter none bs with
  | none => simp [tokens]
  | some p =>
    rw [hp] at h
    rw [tokens_of_not_takes fun b hb => by rw [hb] at h; exact h]
    simp [tokens]

theorem first_hi {n : ℕ} {q : Pending} : first n = .lead q → q.hi ≤ 0xBF := by
  have htest {p : Prop} [Decidable p] {x y : First} (hx : x = .lead q → q.hi ≤ 0xBF)
      (hy : y = .lead q → q.hi ≤ 0xBF) : (if p then x else y) = .lead q → q.hi ≤ 0xBF := by
    split
    · exact hx
    · exact hy
  have hlead {bits more lo hi : ℕ} (hhi : hi ≤ 0xBF) :
      First.lead ⟨bits, more, lo, hi⟩ = .lead q → q.hi ≤ 0xBF := by
    rintro ⟨⟩
    exact hhi
  have hfull : 0xBF ≤ 0xBF := Nat.le_refl _
  -- the tests in their order: three for what is one byte, no first byte and two bytes
  refine htest nofun (htest nofun (htest (hlead hfull) ?_))
  -- three bytes
  refine htest (hlead hfull) (htest (hlead (by decide)) (htest (hlead hfull) ?_))
  -- four bytes, and no first byte
  exact htest (hlead hfull) (htest (hlead hfull) (htest (hlead (by decide)) nofun))

theorem pendingAfter_hi : ∀ (bs : List UInt8) (st : Option Pending) {p : Pending},
    (∀ q, st = some q → q.hi ≤ 0xBF) → pendingAfter st bs = some p → p.hi ≤ 0xBF := by
  have hsome {q p : Pending} (h : q.hi ≤ 0xBF) : some q = some p → p.hi ≤ 0xBF := by
    rintro ⟨⟩
    exact h
  intro bs
  induction bs with
  | nil => exact fun st p hst h => hst p h
  | cons b bs ih =>
    intro st p hst h
    have hnone : ∀ q : Pending, none = some q → q.hi ≤ 0xBF := fun q hq => by cases hq
    cases st with
    | none =>
      rw [pendingAfter] at h
      cases hf : first b.toNat with
      | lead q => exact ih (some q) (fun _ => hsome (first_hi hf)) (by rwa [hf] at h)
      | char c => exact ih none hnone (by rwa [hf] at h)
      | bad => exact ih none hnone (by rwa [hf] at h)
    | some q =>
      rw [pendingAfter] at h
      split_ifs at h
      · cases hm : q.more with
        | zero => exact ih none hnone (by rwa [hm] at h)
        | succ more => exact ih (some _) (fun _ => hsome (Nat.le_refl _)) (by rwa [hm] at h)
      · cases hf : first b.toNat with
        | lead q => exact ih (some q) (fun _ => hsome (first_hi hf)) (by rwa [hf] at h)
        | char c => exact ih none hnone (by rwa [hf] at h)
        | bad => exact ih none hnone (by rwa [hf] at h)

theorem tokens_of_takes {p : Pending} {b : UInt8} (hp : p.hi ≤ 0xBF) (hb : p.takes b = true)
    (bs : List UInt8) : tokens none (b :: bs) = none :: tokens none bs := by
  obtain ⟨hlo, -, hhi⟩ := takes_iff.mp hb
  have hbad : first b.toNat = .bad := by
    unfold first
    rw [if_neg (by omega), if_pos (by omega)]
  rw [tokens, hbad]

theorem length_tokens_le (bs : List UInt8) : ∀ {p : Pending}, p.hi ≤ 0xBF →
    (tokens (some p) bs).length ≤ 1 + (tokens none bs).length := by
  induction bs with
  | nil =>
    intro p _
    exact Nat.le_refl 1
  | cons b bs ih =>
    intro p hp
    by_cases hb : p.takes b = true
    · rw [tokens_of_takes hp hb, tokens, if_pos (takes_iff.mp hb)]
      cases p.more with
      | zero => simp
      | succ more =>
        have hmore := ih (p := ⟨64 * p.bits + (b.toNat - 0x80), more, 0x80, 0xBF⟩) (Nat.le_refl _)
        simp only [List.length_cons]
        omega
    · rw [tokens_of_not_takes fun x hx => by cases hx; simpa using hb, List.length_cons]
      omega

theorem length_tokens_lt {p : Pending} {b : UInt8} (hp : p.hi ≤ 0xBF) (hb : p.takes b = true)
    (bs : List UInt8) : (tokens (some p) (b :: bs)).length < 1 + (tokens none (b :: bs)).length := by
  rw [tokens_of_takes hp hb, tokens, if_pos (takes_iff.mp hb), List.length_cons]
  cases p.more with
  | zero => simp
  | succ more =>
    have hmore := length_tokens_le bs (p := ⟨64 * p.bits + (b.toNat - 0x80), more, 0x80, 0xBF⟩)
      (Nat.le_refl _)
    show (tokens (some ⟨64 * p.bits + (b.toNat - 0x80), more, 0x80, 0xBF⟩) bs).length < _
    omega

theorem length_utf8Replace_lt {bs bs' : List UInt8} (h : splitsChar bs bs' = true) :
    (utf8Replace (bs ++ bs')).length < (utf8Replace bs ++ utf8Replace bs').length := by
  have hend := tokens_split [] bs none
  rw [List.append_nil] at hend
  rw [utf8Replace, utf8Replace, utf8Replace, tokens_split, hend, ← List.map_append]
  unfold splitsChar at h
  cases hp : pendingAfter none bs with
  | none =>
    rw [hp] at h
    cases h
  | some p =>
    rw [hp] at h
    have hhi := pendingAfter_hi bs none (fun q hq => by cases hq) hp
    cases bs' with
    | nil => cases h
    | cons b bs' =>
      have hb : p.takes b = true := h
      have hlt := length_tokens_lt hhi hb bs'
      have hnil : tokens (some p) [] = [none] := rfl
      rw [hnil, List.length_map, List.length_map, List.length_append, List.length_append,
        List.length_append, List.length_singleton]
      omega

/-! ### Characters that are not ASCII -/

namespace Pending

/-- The least character that can still come. -/
def least (p : Pending) : ℕ := 64 ^ p.more * (64 * p.bits + (p.lo - 0x80))

/-- The greatest one. -/
def greatest (p : Pending) : ℕ := 64 ^ p.more * (64 * p.bits + (p.hi - 0x80)) + (64 ^ p.more - 1)

/-- Whatever comes is a character, and not one of ASCII. -/
structure Wide (p : Pending) : Prop where
  more : p.more ≤ 2
  lo : 0x80 ≤ p.lo
  hi : p.hi ≤ 0xBF
  range : 0x80 ≤ p.least ∧ p.greatest < 0xD800 ∨ 0xDFFF < p.least ∧ p.greatest < 0x110000

theorem Wide.next {p : Pending} (h : p.Wide) {m b : ℕ} (hm : p.more = m + 1) (hlo : p.lo ≤ b)
    (hhi : b ≤ p.hi) : Wide { bits := 64 * p.bits + (b - 0x80), more := m } := by
  obtain ⟨hmore, h₀, h₁, hrange⟩ := h
  refine ⟨by dsimp only; omega, Nat.le_refl _, Nat.le_refl _, ?_⟩
  unfold least greatest at hrange ⊢
  rw [hm] at hrange
  have hcases : m = 0 ∨ m = 1 := by omega
  rcases hcases with rfl | rfl
  · dsimp only
    omega
  · dsimp only
    omega

end Pending

theorem wide_of_range {bits more lo hi : ℕ} (hmore : more ≤ 2) (hlo : 0x80 ≤ lo) (hhi : hi ≤ 0xBF)
    (h : 0x80 ≤ 64 ^ more * (64 * bits + (lo - 0x80)) ∧
        64 ^ more * (64 * bits + (hi - 0x80)) + (64 ^ more - 1) < 0xD800 ∨
      0xDFFF < 64 ^ more * (64 * bits + (lo - 0x80)) ∧
        64 ^ more * (64 * bits + (hi - 0x80)) + (64 ^ more - 1) < 0x110000) :
    Pending.Wide ⟨bits, more, lo, hi⟩ := ⟨hmore, hlo, hhi, h⟩

theorem wide_of_lead {n : ℕ} {p : Pending} (h : first n = .lead p) : p.Wide := by
  unfold first at h
  split_ifs at h <;> simp only [First.lead.injEq] at h <;> subst h <;>
    exact wide_of_range (by omega) (by omega) (by omega) (by omega)

theorem toNat_char {n : ℕ} (h : n.isValidChar) : (Char.ofNat n).toNat = n := by
  rw [Char.ofNat, dif_pos h]
  rfl

theorem le_of_pending {bs : List UInt8} {p : Pending} (hp : p.Wide) {c : Char}
    {ts : List (Option Char)} (h : tokens (some p) bs = some c :: ts) : 0x80 ≤ c.toNat := by
  induction bs generalizing p with
  | nil => cases h
  | cons b bs ih =>
    rw [tokens] at h
    split at h
    · next hb =>
      obtain ⟨-, hlo, hhi⟩ := hb
      split at h
      · next hm =>
        obtain ⟨-, h₀, h₁, hrange⟩ := hp
        unfold Pending.least Pending.greatest at hrange
        rw [hm] at hrange
        simp only [List.cons.injEq, Option.some.injEq] at h
        obtain ⟨rfl, -⟩ := h
        rw [toNat_char (by unfold Nat.isValidChar; omega)]
        omega
      · next m hm => exact ih (hp.next hm hlo hhi) h
    · split at h <;> cases h

theorem utf8_wide {b : UInt8} {bs : List UInt8} {c : Char} {cs : List Char} (hb : 0x80 ≤ b.toNat)
    (h : utf8 (b :: bs) = some (c :: cs)) : 0x80 ≤ c.toNat := by
  have hhead {ts : List (Option Char)} {x : Option Char} (h : (x :: ts).mapM id = some (c :: cs)) :
      x = some c := by
    rw [List.mapM_cons] at h
    cases x with
    | none => cases h
    | some x =>
      obtain ⟨y, hy, h⟩ := Option.bind_eq_some_iff.mp h
      obtain ⟨ys, -, h⟩ := Option.bind_eq_some_iff.mp h
      cases h
      exact hy
  rw [utf8, tokens] at h
  split at h
  · next hfirst =>
    unfold first at hfirst
    split_ifs at hfirst
    omega
  · next p hfirst =>
    cases htokens : tokens (some p) bs with
    | nil =>
      rw [htokens] at h
      cases h
    | cons x ts =>
      rw [htokens] at h
      obtain rfl := hhead h
      exact le_of_pending (wide_of_lead hfirst) htokens
  · cases hhead h

/-! ### What is read has no more bytes -/

/-- The number of bytes of a character. -/
def width (n : ℕ) : ℕ := if n < 0x80 then 1 else if n < 0x800 then 2 else if n < 0x10000 then 3 else 4

theorem length_encodeChar (c : Char) : (encodeChar c).length = width c.toNat := by
  unfold encodeChar width
  simp only
  split_ifs <;> rfl

theorem width_mono {m n : ℕ} (h : m ≤ n) : width m ≤ width n := by
  unfold width
  split_ifs <;> omega

theorem mapM_id_cons {x : Option Char} {ts : List (Option Char)} {cs : List Char}
    (h : (x :: ts).mapM id = some cs) :
    ∃ c cs', x = some c ∧ cs = c :: cs' ∧ ts.mapM id = some cs' := by
  rw [List.mapM_cons] at h
  obtain ⟨c, hc, h⟩ := Option.bind_eq_some_iff.mp h
  obtain ⟨cs', hcs', h⟩ := Option.bind_eq_some_iff.mp h
  cases h
  exact ⟨c, cs', hc, rfl, hcs'⟩

namespace Pending

/-- No character that can still come is wider than what is there and what is to come. -/
def Narrow (p : Pending) (n : ℕ) : Prop := width p.greatest ≤ n

theorem Narrow.next {p : Pending} {n m b : ℕ} (h : p.Narrow n) (hwide : p.Wide)
    (hm : p.more = m + 1) (hhi : b ≤ p.hi) :
    Narrow { bits := 64 * p.bits + (b - 0x80), more := m } n := by
  refine le_trans (width_mono ?_) h
  have hmore := hwide.more
  have hcases : m = 0 ∨ m = 1 := by omega
  unfold greatest
  rw [hm]
  rcases hcases with rfl | rfl
  · dsimp only
    omega
  · dsimp only
    omega

end Pending

theorem narrow_of_lead {n : ℕ} {p : Pending} (h : first n = .lead p) : p.Narrow (p.more + 2) := by
  unfold first at h
  unfold Pending.Narrow Pending.greatest width
  split_ifs at h <;> simp only [First.lead.injEq] at h <;> subst h <;> dsimp only <;>
    split_ifs <;> omega

/-- By induction on the bytes, between two characters and inside one of `n` bytes. -/
theorem length_tokens (bs : List UInt8) :
    (∀ cs, (tokens none bs).mapM id = some cs → (encode cs).length ≤ bs.length) ∧
    ∀ (p : Pending) (n : ℕ) (cs : List Char), p.Wide → p.Narrow n →
      (tokens (some p) bs).mapM id = some cs →
        (encode cs).length + p.more + 1 ≤ n + bs.length := by
  induction bs with
  | nil =>
    constructor
    · intro cs h
      cases h
      exact Nat.le_refl _
    · intro p n cs _ _ h
      cases h
  | cons b bs ih =>
    obtain ⟨ihNone, ihSome⟩ := ih
    constructor
    · intro cs h
      rw [tokens] at h
      split at h
      · next c hfirst =>
        obtain ⟨c', cs', hc, rfl, htail⟩ := mapM_id_cons h
        cases hc
        have hc : c.toNat < 0x80 := by
          unfold first at hfirst
          split_ifs at hfirst with hb
          cases hfirst
          rw [toNat_char (by unfold Nat.isValidChar; omega)]
          exact hb
        have hlen := ihNone cs' htail
        rw [encode_cons, List.length_append, length_encodeChar, width, if_pos hc, List.length_cons]
        omega
      · next p hfirst =>
        have hlen := ihSome p _ cs (wide_of_lead hfirst) (narrow_of_lead hfirst) h
        rw [List.length_cons]
        omega
      · obtain ⟨c, cs', hc, -⟩ := mapM_id_cons h
        cases hc
    · intro p n cs hwide hnarrow h
      rw [tokens] at h
      split at h
      · next hb =>
        obtain ⟨-, hlo, hhi⟩ := hb
        split at h
        · next hm =>
          obtain ⟨c', cs', hc, rfl, htail⟩ := mapM_id_cons h
          obtain rfl := Option.some.inj hc
          have hlen := ihNone cs' htail
          have hchar : width (Char.ofNat (64 * p.bits + (b.toNat - 0x80))).toNat ≤ n := by
            obtain ⟨-, h₀, h₁, hrange⟩ := hwide
            unfold Pending.least Pending.greatest at hrange
            rw [hm] at hrange
            rw [toNat_char (by unfold Nat.isValidChar; omega)]
            refine le_trans (width_mono ?_) hnarrow
            unfold Pending.greatest
            rw [hm]
            omega
          rw [encode_cons, List.length_append, length_encodeChar, hm, List.length_cons]
          omega
        · next m hm =>
          have hlen := ihSome _ n cs (hwide.next hm hlo hhi) (hnarrow.next hwide hm hhi) h
          rw [hm, List.length_cons]
          dsimp only at hlen
          omega
      · split at h
        · obtain ⟨c, cs', hc, -⟩ := mapM_id_cons h
          cases hc
        · obtain ⟨c, cs', hc, -⟩ := mapM_id_cons h
          cases hc
        · obtain ⟨c, cs', hc, -⟩ := mapM_id_cons h
          cases hc

theorem length_encode_le {bs : List UInt8} {cs : List Char} (h : utf8 bs = some cs) :
    (encode cs).length ≤ bs.length := (length_tokens bs).1 cs h

end AiMeshChat.Lib
