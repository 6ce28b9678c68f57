import Mathlib.Data.Nat.Notation
import Mathlib.Data.Fintype.Basic
import Mathlib.Tactic.IntervalCases

/-!
# Base64

Three bytes are four digits of six bits. `encode` writes the digits of the alphabet for
URLs and pads the last group; `decode` is the reader of `binascii` that is not strict: it
reads both alphabets, skips characters of neither, and stops at the padding that completes
a group.

What is encoded is decoded again (`decode_encode`).
-/

namespace AiMeshChat.Lib.Base64

/-- The digit of six bits. -/
def digit (n : ℕ) : Char :=
  if n < 26 then Char.ofNat (n + 65)
  else if n < 52 then Char.ofNat (n + 71)
  else if n < 62 then Char.ofNat (n - 4)
  else if n = 62 then '-'
  else '_'

/-- The six bits of a digit, in either alphabet. -/
def value? (c : Char) : Option ℕ :=
  if 'A' ≤ c && c ≤ 'Z' then some (c.toNat - 65)
  else if 'a' ≤ c && c ≤ 'z' then some (c.toNat - 71)
  else if c.isDigit then some (c.toNat + 4)
  else if c = '+' || c = '-' then some 62
  else if c = '/' || c = '_' then some 63
  else none

/-- Three bytes are four digits; a group of one or two bytes is padded. -/
def encode : List UInt8 → List Char
  | [] => []
  | [a] => [digit (a.toNat / 4), digit (a.toNat % 4 * 16), '=', '=']
  | [a, b] => [digit (a.toNat / 4), digit (a.toNat % 4 * 16 + b.toNat / 16),
      digit (b.toNat % 16 * 4), '=']
  | a :: b :: c :: rest => digit (a.toNat / 4) :: digit (a.toNat % 4 * 16 + b.toNat / 16) ::
      digit (b.toNat % 16 * 4 + c.toNat / 64) :: digit (c.toNat % 64) :: encode rest

/-- Read on at the digit `pos` of a group, with the bits `left` of the digit before it that
are in no byte yet and after `pads` signs of padding. -/
def scan (pos left pads : ℕ) : List Char → Option (List UInt8)
  | [] => if pos = 0 then some [] else none
  | c :: cs =>
    if c = '=' then
      if pos < 2 then scan pos left pads cs
      else if 4 ≤ pos + (pads + 1) then some []
      else scan pos left (pads + 1) cs
    else match value? c with
      | none => scan pos left pads cs
      | some v =>
        match pos with
        | 0 => scan 1 v 0 cs
        | 1 => (scan 2 (v % 16) 0 cs).map (UInt8.ofNat (left * 4 + v / 16) :: ·)
        | 2 => (scan 3 (v % 4) 0 cs).map (UInt8.ofNat (left * 16 + v / 4) :: ·)
        | _ => (scan 0 0 0 cs).map (UInt8.ofNat (left * 64 + v) :: ·)

/-- The bytes of a text; `none` where the last group is not complete. -/
def decode (cs : List Char) : Option (List UInt8) := scan 0 0 0 cs

attribute [local simp] encode scan

/-! ## The round trip -/

theorem value?_digit_fin :
    ∀ n : Fin 64, value? (digit n) = some n.val ∧ digit n ≠ '=' ∧ (digit n).toNat < 128 := by
  decide +kernel

theorem value?_digit {n : ℕ} (h : n < 64) : value? (digit n) = some n := (value?_digit_fin ⟨n, h⟩).1

theorem digit_ne_pad {n : ℕ} (h : n < 64) : digit n ≠ '=' := (value?_digit_fin ⟨n, h⟩).2.1

theorem digit_ascii {n : ℕ} (h : n < 64) : (digit n).toNat < 128 := (value?_digit_fin ⟨n, h⟩).2.2

theorem value?_decimal_fin : ∀ n : Fin 10, value? (Char.ofNat (48 + n.val)) = some (52 + n.val) := by
  decide +kernel

theorem value?_isDigit {c : Char} (h : c.isDigit = true) : value? c = some (c.toNat + 4) := by
  obtain ⟨hlo, hhi⟩ := Char.isDigit_iff_toNat.mp h
  have hzero : '0'.toNat = 48 := rfl
  have hnine : '9'.toNat = 57 := rfl
  have hval := value?_decimal_fin ⟨c.toNat - 48, by omega⟩
  dsimp only at hval
  rw [show 48 + (c.toNat - 48) = c.toNat by omega, Char.ofNat_toNat] at hval
  rw [hval, show 52 + (c.toNat - 48) = c.toNat + 4 by omega]

theorem scan_value {c : Char} {v left pads : ℕ} (hpad : c ≠ '=') (hval : value? c = some v)
    (cs : List Char) :
    scan 0 left pads (c :: cs) = scan 1 v 0 cs ∧
      scan 1 left pads (c :: cs) =
        (scan 2 (v % 16) 0 cs).map (UInt8.ofNat (left * 4 + v / 16) :: ·) ∧
      scan 2 left pads (c :: cs) =
        (scan 3 (v % 4) 0 cs).map (UInt8.ofNat (left * 16 + v / 4) :: ·) ∧
      scan 3 left pads (c :: cs) =
        (scan 0 0 0 cs).map (UInt8.ofNat (left * 64 + v) :: ·) := by
  refine ⟨?_, ?_, ?_, ?_⟩
  all_goals
    rw [scan, if_neg hpad, hval]
    rfl

section Digits

variable {n left pads : ℕ} (cs : List Char) (h : n < 64)

include h

theorem scan_first : scan 0 left pads (digit n :: cs) = scan 1 n 0 cs :=
  (scan_value (digit_ne_pad h) (value?_digit h) cs).1

theorem scan_second : scan 1 left pads (digit n :: cs) =
    (scan 2 (n % 16) 0 cs).map (UInt8.ofNat (left * 4 + n / 16) :: ·) :=
  (scan_value (digit_ne_pad h) (value?_digit h) cs).2.1

theorem scan_third : scan 2 left pads (digit n :: cs) =
    (scan 3 (n % 4) 0 cs).map (UInt8.ofNat (left * 16 + n / 4) :: ·) :=
  (scan_value (digit_ne_pad h) (value?_digit h) cs).2.2.1

theorem scan_fourth : scan 3 left pads (digit n :: cs) =
    (scan 0 0 0 cs).map (UInt8.ofNat (left * 64 + n) :: ·) :=
  (scan_value (digit_ne_pad h) (value?_digit h) cs).2.2.2

end Digits

theorem byte_eq {n : ℕ} {b : UInt8} (h : n = b.toNat) : UInt8.ofNat n = b := by
  rw [h, UInt8.ofNat_toNat]

theorem byte_lt (b : UInt8) : b.toNat < 256 := b.toNat_lt

/-- **The round trip**, group by group. -/
theorem decode_encode (bs : List UInt8) : decode (encode bs) = some bs := by
  unfold decode
  induction bs using encode.induct with
  | case1 => rfl
  | case2 a =>
    have ha := byte_lt a
    rw [encode, scan_first _ (by omega), scan_second _ (by omega),
      byte_eq (b := a) (by omega)]
    rfl
  | case3 a b =>
    have ha := byte_lt a
    have hb := byte_lt b
    rw [encode, scan_first _ (by omega), scan_second _ (by omega), scan_third _ (by omega),
      byte_eq (b := a) (by omega), byte_eq (b := b) (by omega)]
    rfl
  | case4 a b c rest ih =>
    have ha := byte_lt a
    have hb := byte_lt b
    have hc := byte_lt c
    rw [encode, scan_first _ (by omega), scan_second _ (by omega), scan_third _ (by omega),
      scan_fourth _ (by omega), ih, byte_eq (b := a) (by omega), byte_eq (b := b) (by omega),
      byte_eq (b := c) (by omega)]
    rfl

theorem decode_cons_cons {c₁ c₂ : Char} {v₁ v₂ : ℕ} (h₁ : value? c₁ = some v₁)
    (h₂ : value? c₂ = some v₂) (cs : List Char) : decode (c₁ :: c₂ :: cs) =
      (scan 2 (v₂ % 16) 0 cs).map (UInt8.ofNat (v₁ * 4 + v₂ / 16) :: ·) := by
  have hpad {c : Char} {v : ℕ} (h : value? c = some v) : c ≠ '=' := by
    rintro rfl
    cases h
  rw [decode, (scan_value (hpad h₁) h₁ _).1, (scan_value (hpad h₂) h₂ cs).2.1]

theorem length_encode (bs : List UInt8) : (encode bs).length % 4 = 0 := by
  induction bs using encode.induct with
  | case1 => rfl
  | case2 a => simp
  | case3 a b => simp
  | case4 a b c rest ih =>
    rw [encode]
    simp only [List.length_cons]
    omega

theorem encode_ascii (bs : List UInt8) : ∀ x ∈ encode bs, x.toNat < 128 := by
  induction bs using encode.induct with
  | case1 => exact fun x hx => absurd hx List.not_mem_nil
  | case2 a =>
    have ha := byte_lt a
    intro x hx
    rw [encode] at hx
    simp only [List.mem_cons, List.not_mem_nil, or_false] at hx
    rcases hx with rfl | rfl | rfl | rfl
    · exact digit_ascii (by omega)
    · exact digit_ascii (by omega)
    · decide
    · decide
  | case3 a b =>
    have ha := byte_lt a
    have hb := byte_lt b
    intro x hx
    rw [encode] at hx
    simp only [List.mem_cons, List.not_mem_nil, or_false] at hx
    rcases hx with rfl | rfl | rfl | rfl
    · exact digit_ascii (by omega)
    · exact digit_ascii (by omega)
    · exact digit_ascii (by omega)
    · decide
  | case4 a b c rest ih =>
    have ha := byte_lt a
    have hb := byte_lt b
    have hc := byte_lt c
    intro x hx
    rw [encode] at hx
    simp only [List.mem_cons] at hx
    rcases hx with rfl | rfl | rfl | rfl | hx
    · exact digit_ascii (by omega)
    · exact digit_ascii (by omega)
    · exact digit_ascii (by omega)
    · exact digit_ascii (by omega)
    · exact ih x hx

theorem encode_eq_nil {bs : List UInt8} : encode bs = [] ↔ bs = [] := by
  cases bs with
  | nil => simp
  | cons a rest =>
    refine ⟨fun h => ?_, nofun⟩
    have hdec := decode_encode (a :: rest)
    rw [h] at hdec
    cases hdec

end AiMeshChat.Lib.Base64
