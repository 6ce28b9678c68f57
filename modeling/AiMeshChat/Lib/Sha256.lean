import AiMeshChat.Lib.Utf8
import Mathlib.Data.List.Nodup
import Mathlib.Data.Nat.Digits.Defs

/-!
# SHA-256 and hexadecimal texts

The hash of a list of bytes, its words as natural numbers below `2 ^ 32`. A hexadecimal text is a number, and of the texts of one
length in lower case only one is that number (`eq_of_hexNumber`); a digest is written in lower
case (`hexDigest_lower`).
-/

namespace AiMeshChat.Lib.Sha256

/-! ## The hash -/

/-- The bytes of `n`, the highest first. -/
def bigEndian : ℕ → ℕ → List ℕ
  | 0, _ => []
  | k + 1, n => n / 256 ^ k % 256 :: bigEndian k n

/-- The message with its padding and its length in bits. -/
def pad (bytes : List ℕ) : List ℕ :=
  bytes ++ 0x80 :: List.replicate ((119 - bytes.length % 64) % 64) 0 ++
    bigEndian 8 (8 * bytes.length)

/-- The word that the bytes make, the highest first. -/
def word (bytes : List ℕ) : ℕ := bytes.foldl (fun n b => 256 * n + b) 0

/-- The first `n` pieces of length `k`. -/
def pieces (k : ℕ) : ℕ → List ℕ → List (List ℕ)
  | 0, _ => []
  | n + 1, l => l.take k :: pieces k n (l.drop k)

/-- Rotation of a word to the right. -/
def rotr (k w : ℕ) : ℕ := (w >>> k ||| w <<< (32 - k)) % 2 ^ 32

/-- The constants of the rounds. -/
def constants : List ℕ :=
  [0x428a2f98, 0x71374491, 0xb5c0fbcf, 0xe9b5dba5, 0x3956c25b, 0x59f111f1, 0x923f82a4, 0xab1c5ed5,
   0xd807aa98, 0x12835b01, 0x243185be, 0x550c7dc3, 0x72be5d74, 0x80deb1fe, 0x9bdc06a7, 0xc19bf174,
   0xe49b69c1, 0xefbe4786, 0x0fc19dc6, 0x240ca1cc, 0x2de92c6f, 0x4a7484aa, 0x5cb0a9dc, 0x76f988da,
   0x983e5152, 0xa831c66d, 0xb00327c8, 0xbf597fc7, 0xc6e00bf3, 0xd5a79147, 0x06ca6351, 0x14292967,
   0x27b70a85, 0x2e1b2138, 0x4d2c6dfc, 0x53380d13, 0x650a7354, 0x766a0abb, 0x81c2c92e, 0x92722c85,
   0xa2bfe8a1, 0xa81a664b, 0xc24b8b70, 0xc76c51a3, 0xd192e819, 0xd6990624, 0xf40e3585, 0x106aa070,
   0x19a4c116, 0x1e376c08, 0x2748774c, 0x34b0bcb5, 0x391c0cb3, 0x4ed8aa4a, 0x5b9cca4f, 0x682e6ff3,
   0x748f82ee, 0x78a5636f, 0x84c87814, 0x8cc70208, 0x90befffa, 0xa4506ceb, 0xbef9a3f7, 0xc67178f2]

/-- The words of a block after `n` extensions, the last one first. -/
def schedule : ℕ → List ℕ → List ℕ
  | 0, ws => ws
  | n + 1, ws =>
    let near := ws.getD 1 0
    let far := ws.getD 14 0
    schedule n (((rotr 17 near ^^^ rotr 19 near ^^^ near >>> 10) + ws.getD 6 0 +
      (rotr 7 far ^^^ rotr 18 far ^^^ far >>> 3) + ws.getD 15 0) % 2 ^ 32 :: ws)

structure State where
  a : ℕ
  b : ℕ
  c : ℕ
  d : ℕ
  e : ℕ
  f : ℕ
  g : ℕ
  h : ℕ

def initial : State := ⟨0x6a09e667, 0xbb67ae85, 0x3c6ef372, 0xa54ff53a, 0x510e527f, 0x9b05688c,
  0x1f83d9ab, 0x5be0cd19⟩

/-- A round with the constant `k` and the word `w`. -/
def round (k w : ℕ) (s : State) : State :=
  let mixed := s.h + (rotr 6 s.e ^^^ rotr 11 s.e ^^^ rotr 25 s.e) +
    ((s.e &&& s.f) ^^^ ((s.e ^^^ 0xFFFFFFFF) &&& s.g)) + k + w
  let major := (rotr 2 s.a ^^^ rotr 13 s.a ^^^ rotr 22 s.a) +
    ((s.a &&& s.b) ^^^ (s.a &&& s.c) ^^^ (s.b &&& s.c))
  ⟨(mixed + major) % 2 ^ 32, s.a, s.b, s.c, (s.d + mixed) % 2 ^ 32, s.e, s.f, s.g⟩

/-- A round for each constant and word. -/
def rounds : List ℕ → List ℕ → State → State
  | k :: ks, w :: ws, s => rounds ks ws (round k w s)
  | _, _, s => s

def State.add (s t : State) : State :=
  ⟨(s.a + t.a) % 2 ^ 32, (s.b + t.b) % 2 ^ 32, (s.c + t.c) % 2 ^ 32, (s.d + t.d) % 2 ^ 32,
    (s.e + t.e) % 2 ^ 32, (s.f + t.f) % 2 ^ 32, (s.g + t.g) % 2 ^ 32, (s.h + t.h) % 2 ^ 32⟩

/-- What a block of 64 bytes does to the state. -/
def compress (s : State) (block : List ℕ) : State :=
  s.add (rounds constants (schedule 48 ((pieces 4 16 block).map word).reverse).reverse s)

def State.bytes (s : State) : List ℕ :=
  [s.a, s.b, s.c, s.d, s.e, s.f, s.g, s.h].flatMap (bigEndian 4)

/-- `hashlib.sha256(bytes).digest()`. -/
def sha256 (bytes : List ℕ) : List ℕ :=
  let padded := pad bytes
  ((pieces 64 (padded.length / 64) padded).foldl compress initial).bytes

def hexDigit (n : ℕ) : Char := Nat.digitChar (n % 16)

/-- Two digits for the byte `n`. -/
def hexByte (n : ℕ) : List Char := [hexDigit (n / 16), hexDigit n]

/-- `hashlib.sha256(bytes).hexdigest()`. -/
def hexDigest (bytes : List ℕ) : List Char := (sha256 bytes).flatMap hexByte

/-! ## Hexadecimal texts -/

/-- The value of a hexadecimal digit. -/
def hexValue (c : Char) : ℕ :=
  if c.isDigit then c.toNat - 48
  else if 'a' ≤ c && c ≤ 'f' then c.toNat - 87
  else if 'A' ≤ c && c ≤ 'F' then c.toNat - 55
  else 0

/-- `int(text, 16)`, of hexadecimal digits. -/
def hexNumber (cs : List Char) : ℕ := Nat.ofDigits 16 (cs.reverse.map hexValue)

/-- A hexadecimal digit in lower case. -/
def isLowerHex (c : Char) : Bool := c.isDigit || ('a' ≤ c && c ≤ 'f')

theorem length_bigEndian (k n : ℕ) : (bigEndian k n).length = k := by
  induction k with
  | zero => rfl
  | succ k ih => rw [bigEndian, List.length_cons, ih]

theorem length_hexDigest (bytes : List ℕ) : (hexDigest bytes).length = 64 := by
  have hbyte (l : List ℕ) : (l.flatMap hexByte).length = 2 * l.length := by
    induction l with
    | nil => rfl
    | cons n l ih =>
      rw [List.flatMap_cons, List.length_append, ih, List.length_cons]
      simp only [hexByte, List.length_cons, List.length_nil]
      omega
  rw [hexDigest, hbyte, sha256, State.bytes]
  simp [length_bigEndian]

theorem isLowerHex_hexDigit (n : ℕ) : isLowerHex (hexDigit n) = true := by
  have hall : ∀ m < 16, isLowerHex (Nat.digitChar m) = true := by decide
  exact hall (n % 16) (Nat.mod_lt n (by decide))

/-- **A digest is in lower case.** -/
theorem hexDigest_lower (bytes : List ℕ) : ∀ c ∈ hexDigest bytes, isLowerHex c = true := by
  intro c hc
  obtain ⟨n, -, hc⟩ := List.mem_flatMap.mp hc
  simp only [hexByte, List.mem_cons, List.not_mem_nil, or_false] at hc
  rcases hc with rfl | rfl
  · exact isLowerHex_hexDigit _
  · exact isLowerHex_hexDigit _

/-- The digits in lower case. -/
def lowerHex : List Char :=
  ['0', '1', '2', '3', '4', '5', '6', '7', '8', '9', 'a', 'b', 'c', 'd', 'e', 'f']

theorem mem_of_isLowerHex {c : Char} (h : isLowerHex c = true) : c ∈ lowerHex := by
  have hrange : 48 ≤ c.toNat ∧ c.toNat ≤ 57 ∨ 97 ≤ c.toNat ∧ c.toNat ≤ 102 := by
    simp only [isLowerHex, Char.isDigit, Bool.or_eq_true, Bool.and_eq_true, decide_eq_true_eq,
      UInt32.le_iff_toNat_le, ge_iff_le, Char.le_def] at h
    exact h
  have hall : ∀ n < 103, 48 ≤ n ∧ n ≤ 57 ∨ 97 ≤ n → Char.ofNat n ∈ lowerHex := by decide
  have hmem := hall c.toNat (by omega) (by omega)
  rwa [Char.ofNat_toNat] at hmem

/-- **Two texts in lower case** of one length and one number are the same. -/
theorem eq_of_hexNumber {cs ds : List Char} (hcs : ∀ c ∈ cs, isLowerHex c = true)
    (hds : ∀ c ∈ ds, isLowerHex c = true) (hlen : cs.length = ds.length)
    (h : hexNumber cs = hexNumber ds) : cs = ds := by
  have hlt (l : List Char) (hl : ∀ c ∈ l, isLowerHex c = true) :
      ∀ n ∈ l.reverse.map hexValue, n < 16 := by
    intro n hn
    obtain ⟨c, hc, rfl⟩ := List.mem_map.mp hn
    have hmem := mem_of_isLowerHex (hl c (List.mem_reverse.mp hc))
    have hall : lowerHex.all (fun c => decide (hexValue c < 16)) = true := by decide
    exact of_decide_eq_true (List.all_eq_true.mp hall c hmem)
  have hdigits := Nat.ofDigits_inj_of_len_eq (by decide : 1 < 16) (by simpa using hlen)
    (hlt cs hcs) (hlt ds hds) h
  have hinj := List.inj_on_of_nodup_map (by decide : (lowerHex.map hexValue).Nodup)
  rw [List.map_reverse, List.map_reverse, List.reverse_inj] at hdigits
  clear h
  induction cs generalizing ds with
  | nil => exact (List.length_eq_zero_iff.mp hlen.symm).symm
  | cons c cs ih =>
    cases ds with
    | nil => cases hlen
    | cons c' ds =>
      rw [List.map_cons, List.map_cons, List.cons.injEq] at hdigits
      rw [List.forall_mem_cons] at hcs hds
      rw [hinj (mem_of_isLowerHex hcs.1) (mem_of_isLowerHex hds.1) hdigits.1,
        ih hcs.2 hds.2 (Nat.succ.inj hlen) hdigits.2]

example : String.ofList (hexDigest []) =
    "e3b0c44298fc1c149afbf4c8996fb92427ae41e4649b934ca495991b7852b855" := by decide +kernel

end AiMeshChat.Lib.Sha256
