import AiMeshChat.Python
import Mathlib.Data.Fintype.Basic
import Mathlib.Tactic.FinCases
import Mathlib.Tactic.IntervalCases
import Mathlib.Tactic.Tauto

/-!
# JSON texts

`json.loads`, as CPython's scanner reads a text, and `json.dumps` with
`ensure_ascii=False` on one line. What the program writes on the wire and into
its logs is read back by the same library, and whether an entry comes back is a
matter of this text.

Nesting is limited by the recursion limit of the interpreter: a text that is
nested deeper raises `RecursionError`, which is no `ValueError`. `loads d` reads
with `d` levels left. An escaped lone surrogate, which is no character of a
text, is read as U+FFFD.

`loads_jsonText` is the round trip: a value whose dicts have distinct keys comes
back from its text, whatever its strings hold.
-/

namespace AiMeshChat

/-- `JSONDecodeError`, or another `ValueError` of the library; `RecursionError`. -/
inductive JsonErr
  | invalid
  | recursion
  deriving DecidableEq

/-! ## Reading -/

/-- The white space of JSON. -/
def isWs (c : Char) : Bool := c = ' ' || c = '\t' || c = '\n' || c = '\r'

def skipWs (cs : List Char) : List Char := cs.dropWhile isWs

def hexVal? (c : Char) : Option ℕ :=
  if c.isDigit then some (c.toNat - 48)
  else if 'a' ≤ c && c ≤ 'f' then some (c.toNat - 87)
  else if 'A' ≤ c && c ≤ 'F' then some (c.toNat - 55)
  else none

/-- Four hexadecimal digits. -/
def scanHex : List Char → Option (ℕ × List Char)
  | a :: b :: c :: d :: rest => do
    let a ← hexVal? a
    let b ← hexVal? b
    let c ← hexVal? c
    let d ← hexVal? d
    some (4096 * a + 256 * b + 16 * c + d, rest)
  | _ => none

/-- What follows `\u`: a code unit, or two that make a pair. -/
def scanUnicode (cs : List Char) : Option (Char × List Char) := do
  let (n, rest) ← scanHex cs
  if 0xd800 ≤ n ∧ n < 0xdc00 then
    match rest with
    | '\\' :: 'u' :: rest' =>
      match scanHex rest' with
      | some (m, rest'') =>
        if 0xdc00 ≤ m ∧ m < 0xe000 then
          some (Char.ofNat (0x10000 + (n - 0xd800) * 0x400 + (m - 0xdc00)), rest'')
        else some ('\ufffd', rest)
      | none => none
    | _ => some ('\ufffd', rest)
  else if 0xdc00 ≤ n ∧ n < 0xe000 then some ('\ufffd', rest)
  else some (Char.ofNat n, rest)

/-- What follows a backslash. -/
def scanEscape : List Char → Option (Char × List Char)
  | '"' :: rest => some ('"', rest)
  | '\\' :: rest => some ('\\', rest)
  | '/' :: rest => some ('/', rest)
  | 'b' :: rest => some ('\x08', rest)
  | 'f' :: rest => some ('\x0c', rest)
  | 'n' :: rest => some ('\n', rest)
  | 'r' :: rest => some ('\r', rest)
  | 't' :: rest => some ('\t', rest)
  | 'u' :: rest => scanUnicode rest
  | _ => none

/-- One character of a string literal; a control character is an error. -/
def scanChar : List Char → Option (Char × List Char)
  | [] => none
  | c :: rest =>
    if c = '\\' then scanEscape rest else if c.toNat < 32 then none else some (c, rest)

/-- A string literal after its opening quote, of at most `n` characters. -/
def scanString : ℕ → List Char → Option (List Char × List Char)
  | _, '"' :: rest => some ([], rest)
  | 0, _ => none
  | n + 1, cs => do
    let (c, rest) ← scanChar cs
    let (s, rest) ← scanString n rest
    some (c :: s, rest)

/-- The longest text `int` converts. -/
def INT_MAX_STR_DIGITS : ℕ := 4300

/-- The integer part of a number: `0`, or digits that start with another one. -/
def scanDigits : List Char → Option (List Char × List Char)
  | '0' :: rest => some (['0'], rest)
  | cs => if (cs.takeWhile Char.isDigit) = [] then none
    else some (cs.takeWhile Char.isDigit, cs.dropWhile Char.isDigit)

/-- A fraction, if there is one. -/
def scanFrac : List Char → List Char × List Char
  | '.' :: rest => if rest.takeWhile Char.isDigit = [] then ([], '.' :: rest)
    else ('.' :: rest.takeWhile Char.isDigit, rest.dropWhile Char.isDigit)
  | cs => ([], cs)

/-- The sign of an exponent. -/
def scanSign : List Char → List Char × List Char
  | '+' :: rest => (['+'], rest)
  | '-' :: rest => (['-'], rest)
  | cs => ([], cs)

/-- An exponent, if there is one. -/
def scanExp : List Char → List Char × List Char
  | [] => ([], [])
  | c :: rest =>
    let (sign, ds) := scanSign rest
    if (c = 'e' || c = 'E') && ds.takeWhile Char.isDigit ≠ [] then
      (c :: sign ++ ds.takeWhile Char.isDigit, ds.dropWhile Char.isDigit)
    else ([], c :: rest)

/-- A number without its sign. -/
def scanUnsigned (neg : Bool) (cs : List Char) : Option (Json × List Char) := do
  let (ds, rest) ← scanDigits cs
  let (frac, rest) := scanFrac rest
  let (exp, rest) := scanExp rest
  if frac = [] ∧ exp = [] then
    if INT_MAX_STR_DIGITS < ds.length then none
    else
      let n : ℤ := Nat.ofDigitChars 10 ds 0
      some (.int (if neg then -n else n), rest)
  else some (.float (String.ofList ((if neg then ['-'] else []) ++ ds ++ frac ++ exp)), rest)

/-- A value that is neither a list nor a dict. -/
def scanAtom : List Char → Except JsonErr (Json × List Char)
  | '"' :: cs =>
    match scanString cs.length cs with
    | some (s, rest) => .ok (.str (String.ofList s), rest)
    | none => .error .invalid
  | 'n' :: 'u' :: 'l' :: 'l' :: rest => .ok (.null, rest)
  | 't' :: 'r' :: 'u' :: 'e' :: rest => .ok (.bool true, rest)
  | 'f' :: 'a' :: 'l' :: 's' :: 'e' :: rest => .ok (.bool false, rest)
  | 'N' :: 'a' :: 'N' :: rest => .ok (.float "NaN", rest)
  | 'I' :: 'n' :: 'f' :: 'i' :: 'n' :: 'i' :: 't' :: 'y' :: rest => .ok (.float "Infinity", rest)
  | '-' :: 'I' :: 'n' :: 'f' :: 'i' :: 'n' :: 'i' :: 't' :: 'y' :: rest =>
    .ok (.float "-Infinity", rest)
  | '-' :: cs => (scanUnsigned true cs).elim (.error .invalid) .ok
  | cs => (scanUnsigned false cs).elim (.error .invalid) .ok

/-- How the values inside a list or a dict are read. -/
abbrev Scanner := List Char → Except JsonErr (Json × List Char)

/-- The items of a list, at most `n` of them, and its end. -/
def scanItems (scan : Scanner) : ℕ → List Char → Except JsonErr (List Json × List Char)
  | 0, _ => .error .invalid
  | n + 1, cs => do
    let (v, rest) ← scan cs
    match skipWs rest with
    | ',' :: rest =>
      let (vs, rest) ← scanItems scan n (skipWs rest)
      return (v :: vs, rest)
    | ']' :: rest => return ([v], rest)
    | _ => .error .invalid

/-- The members of a dict, at most `n` of them, and its end. -/
def scanMembers (scan : Scanner) :
    ℕ → List Char → Except JsonErr (List (String × Json) × List Char)
  | n + 1, '"' :: cs =>
    match scanString cs.length cs with
    | none => .error .invalid
    | some (k, rest) =>
      match skipWs rest with
      | ':' :: rest => do
        let (v, rest) ← scan (skipWs rest)
        match skipWs rest with
        | ',' :: rest =>
          let (kvs, rest) ← scanMembers scan n (skipWs rest)
          return ((String.ofList k, v) :: kvs, rest)
        | '\x7d' :: rest => return ([(String.ofList k, v)], rest)
        | _ => .error .invalid
      | _ => .error .invalid
  | _, _ => .error .invalid

/-- A dict from its members in order: a key that comes again keeps its place. -/
def dictOf (kvs : List (String × Json)) : Json :=
  kvs.foldl (fun d kv => d.set kv.1 kv.2) (.obj [])

/-- A list after its opening bracket. -/
def scanArray (scan : Scanner) (cs : List Char) : Except JsonErr (Json × List Char) :=
  match skipWs cs with
  | ']' :: rest => .ok (.arr [], rest)
  | rest => do
    let (vs, rest) ← scanItems scan rest.length rest
    return (.arr vs, rest)

/-- A dict after its opening brace. -/
def scanObject (scan : Scanner) (cs : List Char) : Except JsonErr (Json × List Char) :=
  match skipWs cs with
  | '\x7d' :: rest => .ok (.obj [], rest)
  | rest => do
    let (kvs, rest) ← scanMembers scan rest.length rest
    return (dictOf kvs, rest)

/-- `scan_once` with `d` levels of nesting left. -/
def scanValue : ℕ → List Char → Except JsonErr (Json × List Char)
  | d + 1, '[' :: rest => scanArray (scanValue d) rest
  | d + 1, '\x7b' :: rest => scanObject (scanValue d) rest
  | 0, '[' :: _ => .error .recursion
  | 0, '\x7b' :: _ => .error .recursion
  | _, cs => scanAtom cs

/-- `json.loads(text)` with `d` levels of nesting left. -/
def loads (d : ℕ) (cs : List Char) : Except JsonErr Json := do
  if cs.head? = some '\ufeff' then .error .invalid
  else
    let (v, rest) ← scanValue d (skipWs cs)
    if skipWs rest = [] then return v else .error .invalid

example : loads 2 "\x7b\"a\": [1, -2.5e3, \"x\\u00e9\\n\"], \"a\": null\x7d  ".toList =
    .ok (.obj [("a", .null)]) := by decide +kernel

attribute [local simp] scanItems scanMembers scanValue

/-! ## Writing -/

mutual
/-- `json.dumps(v, ensure_ascii=False, separators=(comma, colon))`. -/
def jsonText (comma colon : List Char) : Json → List Char
  | .null => ['n', 'u', 'l', 'l']
  | .bool true => ['t', 'r', 'u', 'e']
  | .bool false => ['f', 'a', 'l', 's', 'e']
  | .int k => (toString k).toList
  | .float t => t.toList
  | .str s => jsonChars s
  | .arr [] => ['[', ']']
  | .arr (v :: vs) => '[' :: jsonText comma colon v ++ itemsText comma colon vs
  | .obj [] => ['\x7b', '\x7d']
  | .obj ((k, v) :: kvs) =>
    '\x7b' :: jsonChars k ++ colon ++ jsonText comma colon v ++ membersText comma colon kvs

/-- The items of a list after the first, and its end. -/
def itemsText (comma colon : List Char) : List Json → List Char
  | [] => [']']
  | v :: vs => comma ++ jsonText comma colon v ++ itemsText comma colon vs

/-- The members of a dict after the first, and its end. -/
def membersText (comma colon : List Char) : List (String × Json) → List Char
  | [] => ['\x7d']
  | (k, v) :: kvs =>
    comma ++ jsonChars k ++ colon ++ jsonText comma colon v ++ membersText comma colon kvs
end

/-- `json.dumps(v, ensure_ascii=False)` and a compact one. -/
abbrev spaced : Json → List Char := jsonText [',', ' '] [':', ' ']
abbrev compact : Json → List Char := jsonText [','] [':']

/-! ### Strings -/

/-- One character as the text of a string literal has it. -/
def escapeChar (c : Char) : List Char :=
  if c = '"' || c = '\\' then ['\\', c]
  else if c = '\n' then ['\\', 'n']
  else if c = '\r' then ['\\', 'r']
  else if c = '\t' then ['\\', 't']
  else if c.toNat = 8 then ['\\', 'b']
  else if c.toNat = 12 then ['\\', 'f']
  else if c.toNat < 16 then ['\\', 'u', '0', '0', '0'] ++ Nat.toDigits 16 c.toNat
  else if c.toNat < 32 then ['\\', 'u', '0', '0'] ++ Nat.toDigits 16 c.toNat
  else [c]

theorem jsonChars_eq (s : String) : jsonChars s = '"' :: s.toList.flatMap escapeChar ++ ['"'] := rfl

theorem scanChar_escape_control :
    ∀ n : Fin 32, ∀ rest, scanChar (escapeChar (Char.ofNat n) ++ rest) =
      some (Char.ofNat n, rest) := by
  intro n rest
  fin_cases n <;> rfl

variable {c : Char} {rest : List Char}

theorem escapeChar_plain (hctl : ¬ c.toNat < 32) (hquote : c ≠ '"')
    (hslash : c ≠ '\\') : escapeChar c = [c] := by
  have h8 : c.toNat ≠ 8 := by omega
  have h12 : c.toNat ≠ 12 := by omega
  have hn : c ≠ '\n' := by rintro rfl; exact hctl (by decide)
  have hr : c ≠ '\r' := by rintro rfl; exact hctl (by decide)
  have ht : c ≠ '\t' := by rintro rfl; exact hctl (by decide)
  have h16 : ¬ c.toNat < 16 := by omega
  simp [escapeChar, hquote, hslash, hn, hr, ht, h8, h12, h16, hctl]

theorem scanChar_escapeChar (c : Char) (rest : List Char) :
    scanChar (escapeChar c ++ rest) = some (c, rest) := by
  by_cases hctl : c.toNat < 32
  · have h := scanChar_escape_control ⟨c.toNat, hctl⟩ rest
    rwa [Char.ofNat_toNat] at h
  · by_cases hq : c = '"' ∨ c = '\\'
    · rcases hq with rfl | rfl <;> rfl
    · obtain ⟨hquote, hslash⟩ := not_or.mp hq
      rw [escapeChar_plain hctl hquote hslash]
      simp [scanChar, hslash, hctl]

theorem escapeChar_slash (c : Char) :
    escapeChar c = [c] ∨ ∃ xs, escapeChar c = '\\' :: xs := by
  -- whichever test holds, its branch is an escape
  have htest {p : Prop} [Decidable p] {xs ys : List Char} (hys : ys = [c] ∨ ∃ zs, ys = '\\' :: zs) :
      (if p then '\\' :: xs else ys) = [c] ∨ ∃ zs, (if p then '\\' :: xs else ys) = '\\' :: zs := by
    split
    · exact .inr ⟨xs, rfl⟩
    · exact hys
  exact htest (htest (htest (htest (htest (htest (htest (htest (.inl rfl))))))))

theorem escapeChar_head (c : Char) : ∃ x xs, escapeChar c = x :: xs ∧ x ≠ '"' := by
  rcases escapeChar_slash c with h | ⟨xs, h⟩
  · refine ⟨c, [], h, ?_⟩
    rintro rfl
    exact absurd h (by decide)
  · exact ⟨'\\', xs, h, by decide⟩

theorem scanString_escape (s rest : List Char) :
    ∀ n, s.length ≤ n →
      scanString n (s.flatMap escapeChar ++ '"' :: rest) = some (s, rest) := by
  induction s with
  | nil =>
    intro n _
    cases n <;> rfl
  | cons c s ih =>
    intro n hn
    cases n with
    | zero => simp at hn
    | succ n =>
      rw [List.flatMap_cons, List.append_assoc]
      obtain ⟨x, xs, hx, hne⟩ := escapeChar_head c
      have hscan := scanChar_escapeChar c (s.flatMap escapeChar ++ '"' :: rest)
      rw [hx] at hscan ⊢
      rw [List.cons_append, scanString]
      · rw [List.cons_append] at hscan
        simp only [hscan, Option.bind_eq_bind, Option.bind_some]
        rw [ih n (by simpa using hn)]
        rfl
      · intro r hr
        exact hne (List.cons.inj hr).1

theorem length_le_flatMap_escape (s : List Char) : s.length ≤ (s.flatMap escapeChar).length := by
  induction s with
  | nil => rfl
  | cons c s ih =>
    obtain ⟨x, xs, hx, -⟩ := escapeChar_head c
    rw [List.flatMap_cons, List.length_append, hx, List.length_cons, List.length_cons]
    omega

theorem scanString_jsonChars (s : String) (rest : List Char) :
    ∃ cs, jsonChars s ++ rest = '"' :: cs ∧ scanString cs.length cs = some (s.toList, rest) := by
  refine ⟨s.toList.flatMap escapeChar ++ '"' :: rest, by simp [jsonChars_eq], ?_⟩
  refine scanString_escape _ _ _ ?_
  have := length_le_flatMap_escape s.toList
  rw [List.length_append]
  omega

/-! ### Numbers -/

/-- A rest of the input at which a number ends. -/
def numEnd : List Char → Bool
  | [] => true
  | c :: _ => !(c.isDigit || c = '.' || c = 'e' || c = 'E')

theorem toDigits_all_isDigit (n : ℕ) : (Nat.toDigits 10 n).all Char.isDigit := by
  induction n using Nat.strong_induction_on with
  | _ n ih =>
    have hdigit (d : ℕ) (hd : d < 10) : d.digitChar.isDigit = true := by
      interval_cases d <;> rfl
    by_cases hn : n < 10
    · rw [Nat.toDigits_of_lt_base hn]
      simp [hdigit n hn]
    · rw [Nat.toDigits_of_base_le (by decide) (by omega)]
      simp only [List.all_append, List.all_cons, List.all_nil, Bool.and_true, Bool.and_eq_true]
      exact ⟨ih (n / 10) (by omega), hdigit _ (by omega)⟩

theorem toDigits_head {n : ℕ} (hn : 0 < n) : (Nat.toDigits 10 n).head? ≠ some '0' := by
  induction n using Nat.strong_induction_on with
  | _ n ih =>
    by_cases hlt : n < 10
    · rw [Nat.toDigits_of_lt_base hlt]
      interval_cases n <;> decide
    · rw [Nat.toDigits_of_base_le (by decide) (by omega), List.head?_append_of_ne_nil]
      · exact ih (n / 10) (by omega) (by omega)
      · exact Nat.toDigits_ne_nil

/-- A rest of the input at which digits end. -/
def digitsEnd : List Char → Bool
  | [] => true
  | c :: _ => !c.isDigit

theorem digitsEnd_of_numEnd (h : numEnd rest = true) : digitsEnd rest = true := by
  cases rest with
  | nil => rfl
  | cons c rest =>
    simp only [numEnd, Bool.not_eq_true', Bool.or_eq_false_iff] at h
    simp [digitsEnd, h.1.1.1]

theorem takeWhile_digits {ds : List Char} (hds : ds.all Char.isDigit) (hrest : digitsEnd rest) :
    (ds ++ rest).takeWhile Char.isDigit = ds ∧ (ds ++ rest).dropWhile Char.isDigit = rest := by
  induction ds with
  | nil =>
    cases rest with
    | nil => exact ⟨rfl, rfl⟩
    | cons c rest =>
      have hc : c.isDigit = false := by simpa [digitsEnd] using hrest
      simp [hc]
  | cons d ds ih =>
    simp only [List.all_cons, Bool.and_eq_true] at hds
    obtain ⟨h1, h2⟩ := ih hds.2
    simp [hds.1, h1, h2]

theorem scanDigits_toDigits (n : ℕ) (hrest : digitsEnd rest) :
    scanDigits (Nat.toDigits 10 n ++ rest) = some (Nat.toDigits 10 n, rest) := by
  rcases Nat.eq_zero_or_pos n with rfl | hn
  · rfl
  · obtain ⟨h1, h2⟩ := takeWhile_digits (toDigits_all_isDigit n) hrest
    have hne : Nat.toDigits 10 n ≠ [] := Nat.toDigits_ne_nil
    have hhead := toDigits_head hn
    obtain ⟨d, ds, hd⟩ := List.exists_cons_of_ne_nil hne
    rw [hd] at h1 h2 hhead ⊢
    rw [List.cons_append] at h1 h2 ⊢
    rw [scanDigits]
    · rw [h1, h2, if_neg (by simp)]
    · rintro r hr
      exact hhead (by rw [(List.cons.inj hr).1]; rfl)

theorem scanFrac_of_numEnd (h : numEnd rest) : scanFrac rest = ([], rest) := by
  unfold scanFrac
  split
  · simp [numEnd] at h
  · rfl

theorem scanExp_of_numEnd (h : numEnd rest) : scanExp rest = ([], rest) := by
  unfold scanExp
  split
  · rfl
  · next c cs =>
    simp only [numEnd, Bool.not_eq_true', Bool.or_eq_false_iff] at h
    simp [h.1.2, h.2]

/-- A text that `int` converts. -/
def shortInt (n : ℕ) : Prop := (Nat.toDigits 10 n).length ≤ INT_MAX_STR_DIGITS

instance (n : ℕ) : Decidable (shortInt n) := inferInstanceAs (Decidable (_ ≤ _))

theorem shortInt_of_lt {n : ℕ} (h : n < 10 ^ 6) : shortInt n := by
  have hlen : (Nat.toDigits 10 n).length ≤ 6 :=
    (Nat.length_toDigits_le_iff (by decide) (by decide)).mpr h
  unfold shortInt INT_MAX_STR_DIGITS
  omega

theorem scanUnsigned_toDigits (neg : Bool) (n : ℕ) (hn : shortInt n)
    (hrest : numEnd rest) : scanUnsigned neg (Nat.toDigits 10 n ++ rest) =
      some (.int (if neg then -(n : ℤ) else n), rest) := by
  unfold scanUnsigned
  simp only [scanDigits_toDigits n (digitsEnd_of_numEnd hrest), Option.bind_eq_bind, Option.bind_some,
    scanFrac_of_numEnd hrest, scanExp_of_numEnd hrest, and_self, if_true]
  rw [if_neg (Nat.not_lt.mpr hn), Nat.ofDigitChars_ten_toDigits]

theorem toDigits_cons (n : ℕ) : ∃ c cs, Nat.toDigits 10 n = c :: cs ∧ c.isDigit = true := by
  obtain ⟨c, cs, hc⟩ := List.exists_cons_of_ne_nil (Nat.toDigits_ne_nil (n := n) (b := 10))
  have hall := toDigits_all_isDigit n
  rw [hc, List.all_cons, Bool.and_eq_true] at hall
  exact ⟨c, cs, hc, hall.1⟩

theorem scanAtom_digit {cs : List Char} (hc : c.isDigit = true) :
    scanAtom (c :: cs) = (scanUnsigned false (c :: cs)).elim (.error .invalid) .ok := by
  unfold scanAtom
  split
  all_goals first
    | rfl
    | rename_i heq
      obtain ⟨rfl, -⟩ := List.cons.inj heq
      exact absurd hc (by decide)

theorem scanAtom_minus {cs : List Char} (hc : c.isDigit = true) :
    scanAtom ('-' :: c :: cs) = (scanUnsigned true (c :: cs)).elim (.error .invalid) .ok := by
  rw [scanAtom]
  intro rest h
  obtain ⟨rfl, -⟩ := List.cons.inj h
  exact absurd hc (by decide)

theorem toString_cons (k : ℤ) :
    ∃ c cs, (toString k).toList = c :: cs ∧ (c.isDigit = true ∨ c = '-') := by
  rw [Int.toString_eq_repr, Int.repr_eq_if]
  split
  · obtain ⟨c, cs, hcs, hc⟩ := toDigits_cons k.toNat
    refine ⟨c, cs, ?_, .inl hc⟩
    rw [Nat.toList_repr, hcs]
  · refine ⟨'-', (-k).toNat.repr.toList, ?_, .inr rfl⟩
    rw [String.toList_append]
    rfl

theorem scanAtom_toString (k : ℤ) (rest : List Char) :
    scanAtom ((toString k).toList ++ rest) =
      (scanUnsigned (decide (k < 0)) (Nat.toDigits 10 k.natAbs ++ rest)).elim (.error .invalid) .ok := by
  obtain ⟨c, cs, hcs, hc⟩ := toDigits_cons k.natAbs
  rw [Int.toString_eq_repr, Int.repr_eq_if]
  by_cases h0 : 0 ≤ k
  · have hnat : k.toNat = k.natAbs := by omega
    rw [if_pos h0, hnat, Nat.toList_repr, hcs, List.cons_append, scanAtom_digit hc,
      decide_eq_false (by omega)]
  · have hnat : (-k).toNat = k.natAbs := by omega
    rw [if_neg h0, hnat, String.toList_append, Nat.toList_repr, hcs, show "-".toList = ['-'] from rfl,
      decide_eq_true (by omega)]
    simp only [List.cons_append, List.nil_append]
    rw [scanAtom_minus hc]

theorem scanAtom_int (k : ℤ) {rest : List Char} (hk : shortInt k.natAbs) (hrest : numEnd rest) :
    scanAtom ((toString k).toList ++ rest) = .ok (.int k, rest) := by
  rw [scanAtom_toString, scanUnsigned_toDigits _ _ hk hrest, Option.elim_some]
  by_cases h0 : k < 0
  · have habs : -((k.natAbs : ℕ) : ℤ) = k := by omega
    simp only [h0, decide_true, if_true, habs]
  · have habs : ((k.natAbs : ℕ) : ℤ) = k := by omega
    simp only [h0, decide_false, Bool.false_eq_true, if_false, habs]

theorem scanAtom_long (k : ℤ) (hk : ¬ shortInt k.natAbs) (hrest : numEnd rest) :
    scanAtom ((toString k).toList ++ rest) = .error .invalid := by
  have hlong : INT_MAX_STR_DIGITS < (Nat.toDigits 10 k.natAbs).length := Nat.not_le.mp hk
  rw [scanAtom_toString]
  unfold scanUnsigned
  simp only [scanDigits_toDigits k.natAbs (digitsEnd_of_numEnd hrest), Option.bind_eq_bind,
    Option.bind_some, scanFrac_of_numEnd hrest, scanExp_of_numEnd hrest, and_self, if_true]
  rw [if_pos hlong]
  rfl

/-! ### Values -/

/-- A text that is read back as the float it was written for. -/
def IsFloatText (t : String) : Prop :=
  ∀ rest, numEnd rest = true → scanAtom (t.toList ++ rest) = .ok (.float t, rest)

theorem isFloatText_decimal (n : ℕ) {ds : List Char} (hds : ds.all Char.isDigit = true)
    (hne : ds ≠ []) : IsFloatText (String.ofList (Nat.toDigits 10 n ++ '.' :: ds)) := by
  intro rest hrest
  obtain ⟨c, cs, hcs, hc⟩ := toDigits_cons n
  have hdigits : scanDigits (Nat.toDigits 10 n ++ '.' :: (ds ++ rest)) =
      some (Nat.toDigits 10 n, '.' :: (ds ++ rest)) := scanDigits_toDigits n rfl
  obtain ⟨htake, hdrop⟩ := takeWhile_digits hds (digitsEnd_of_numEnd hrest)
  have hfrac : scanFrac ('.' :: (ds ++ rest)) = ('.' :: ds, rest) := by
    rw [scanFrac, htake, hdrop, if_neg hne]
  have hscan : scanUnsigned false (Nat.toDigits 10 n ++ '.' :: (ds ++ rest)) =
      some (.float (String.ofList (Nat.toDigits 10 n ++ '.' :: ds)), rest) := by
    unfold scanUnsigned
    simp [hdigits, hfrac, scanExp_of_numEnd hrest]
  rw [String.toList_ofList, List.append_assoc, List.cons_append, hcs, List.cons_append,
    scanAtom_digit hc, ← List.cons_append, ← hcs, hscan]
  rfl

mutual
/-- A value that `json.dumps` writes and `json.loads` reads with `d` levels: dicts
with distinct keys, integers that `int` converts. -/
def Proper : ℕ → Json → Prop
  | _, .null | _, .bool _ | _, .str _ => True
  | _, .int k => shortInt k.natAbs
  | _, .float t => IsFloatText t
  | 0, .arr _ | 0, .obj _ => False
  | d + 1, .arr items => ProperItems d items
  | d + 1, .obj fields => (fields.map (·.1)).Nodup ∧ ProperFields d fields

def ProperItems : ℕ → List Json → Prop
  | _, [] => True
  | d, v :: vs => Proper d v ∧ ProperItems d vs

def ProperFields : ℕ → List (String × Json) → Prop
  | _, [] => True
  | d, (_, v) :: kvs => Proper d v ∧ ProperFields d kvs
end

variable {d : ℕ} {cs : List Char}

theorem properItems_iff {vs : List Json} : ProperItems d vs ↔ ∀ v ∈ vs, Proper d v := by
  induction vs with
  | nil => simp [ProperItems]
  | cons v vs ih => simp [ProperItems, ih]

theorem properFields_iff {kvs : List (String × Json)} :
    ProperFields d kvs ↔ ∀ kv ∈ kvs, Proper d kv.2 := by
  induction kvs with
  | nil => simp [ProperFields]
  | cons kv kvs ih => simp [ProperFields, ih]

/-- A value starts with something else than white space, a closing bracket or a
byte order mark. -/
def startsValue : List Char → Bool
  | [] => false
  | c :: _ => !isWs c && c ≠ ']' && c ≠ '\x7d' && c ≠ '\ufeff'

theorem scanAtom_starts {v : Json} {rest : List Char}
    (h : scanAtom cs = .ok (v, rest)) : startsValue cs = true := by
  cases cs with
  | nil => cases h
  | cons c cs =>
    by_contra hs
    have hc : c = ' ' ∨ c = '\t' ∨ c = '\n' ∨ c = '\r' ∨ c = ']' ∨ c = '\x7d' ∨
        c = '\ufeff' := by
      simp only [startsValue, isWs, Bool.and_eq_true, Bool.not_eq_true', Bool.or_eq_false_iff,
        decide_eq_false_iff_not, decide_eq_true_eq, not_and_or, not_not] at hs
      tauto
    rcases hc with rfl | rfl | rfl | rfl | rfl | rfl | rfl <;> cases h

theorem skipWs_of_starts (h : startsValue cs = true) : skipWs cs = cs := by
  cases cs with
  | nil => rfl
  | cons c cs =>
    simp only [startsValue, Bool.and_eq_true, Bool.not_eq_true'] at h
    simp [skipWs, h.1.1.1]

theorem skipWs_append_ws {w : List Char} (hw : w.all isWs) (h : startsValue cs = true) :
    skipWs (w ++ cs) = cs := by
  induction w with
  | nil => exact skipWs_of_starts h
  | cons c w ih =>
    simp only [List.all_cons, Bool.and_eq_true] at hw
    rw [List.cons_append, skipWs, List.dropWhile_cons_of_pos hw.1]
    exact ih hw.2

theorem startsValue_append (rest : List Char) (h : startsValue cs = true) :
    startsValue (cs ++ rest) = true := by
  cases cs with
  | nil => cases h
  | cons c cs => exact h

theorem startsValue_jsonText (comma colon : List Char) {v : Json} (hv : Proper d v) :
    startsValue (jsonText comma colon v) = true := by
  cases v with
  | null => rfl
  | bool b => cases b <;> rfl
  | str s => rfl
  | int k =>
    have h := @scanAtom_int k [] (by cases d <;> exact hv) rfl
    rw [List.append_nil] at h
    exact scanAtom_starts h
  | float t =>
    have h := (show IsFloatText t by cases d <;> exact hv) [] rfl
    rw [List.append_nil] at h
    exact scanAtom_starts h
  | arr items => cases items <;> rfl
  | obj fields => rcases fields with _ | ⟨⟨k, v⟩, kvs⟩ <;> rfl

theorem scanValue_of_scanAtom {x : Json × List Char}
    (h : scanAtom cs = .ok x) : scanValue d cs = .ok x := by
  cases cs with
  | nil => cases h
  | cons c cs =>
    have hopen : c ≠ '[' ∧ c ≠ '\x7b' := by
      constructor <;> rintro rfl <;> cases h
    cases d <;>
    · rw [scanValue]
      · exact h
      all_goals
        intros
        simp_all

theorem scanValue_eq_scanAtom {d : ℕ} {c : Char} {cs : List Char} (hc : c ≠ '[')
    (hc' : c ≠ '\x7b') : scanValue d (c :: cs) = scanAtom (c :: cs) := by
  cases d <;>
  · rw [scanValue]
    all_goals
      intros
      simp_all

theorem dictOf_of_nodup {kvs : List (String × Json)} (h : (kvs.map (·.1)).Nodup) :
    dictOf kvs = .obj kvs := by
  have hfold : ∀ (acc kvs : List (String × Json)), ((acc ++ kvs).map (·.1)).Nodup →
      kvs.foldl (fun (d : Json) kv => d.set kv.1 kv.2) (.obj acc) = .obj (acc ++ kvs) := by
    intro acc kvs
    induction kvs generalizing acc with
    | nil => intro _; simp
    | cons kv kvs ih =>
      intro hnd
      have hnot : kv.1 ∉ acc.map (·.1) := by
        rw [List.map_append, List.map_cons] at hnd
        intro hmem
        exact (List.nodup_append.mp hnd).2.2 _ hmem _ (List.mem_cons_self ..) rfl
      have hlook : (acc.lookup kv.1).isSome = false := by
        rw [Option.isSome_eq_false_iff, Option.isNone_iff_eq_none, List.lookup_eq_none_iff]
        intro x hx
        simp only [bne_iff_ne, ne_eq]
        intro hkx
        rw [hkx] at hnot
        exact hnot (List.mem_map_of_mem hx)
      rw [List.foldl_cons, Json.set, hlook]
      simp only [Bool.false_eq_true, if_false]
      rw [ih (acc ++ [kv]) (by simpa using hnd)]
      simp
  exact hfold [] kvs h

section

variable {comma colon w₁ w₂ : List Char}

/-- The separators of the texts here: the sign and then white space. -/
structure Separators (comma colon w₁ w₂ : List Char) : Prop where
  comma : comma = ',' :: w₁
  colon : colon = ':' :: w₂
  ws₁ : w₁.all isWs = true
  ws₂ : w₂.all isWs = true

/-- The separators of `json.dumps`. -/
theorem separators : Separators [',', ' '] [':', ' '] [' '] [' '] := ⟨rfl, rfl, rfl, rfl⟩

theorem numEnd_itemsText (h : Separators comma colon w₁ w₂) (vs : List Json) (rest : List Char) :
    numEnd (itemsText comma colon vs ++ rest) = true := by
  cases vs with
  | nil => rfl
  | cons v vs =>
    rw [itemsText, h.comma]
    rfl

theorem numEnd_membersText (h : Separators comma colon w₁ w₂) (kvs : List (String × Json))
    (rest : List Char) : numEnd (membersText comma colon kvs ++ rest) = true := by
  rcases kvs with _ | ⟨⟨k, v⟩, kvs⟩
  · rfl
  · rw [membersText, h.comma]
    rfl

variable {scan : Scanner} {n d : ℕ} {v : Json} {cs rest : List Char} {k : String}
  {kvs : List (String × Json)}

theorem scanItems_cons {scan : Scanner} {n : ℕ} {v : Json} {cs rest : List Char}
    {vs : List Json} (h : Separators comma colon w₁ w₂)
    (hv : scan cs = .ok (v, itemsText comma colon vs ++ rest))
    (hvs : ∀ v' vs', vs = v' :: vs' →
      startsValue (jsonText comma colon v') = true ∧
      scanItems scan n (jsonText comma colon v' ++ itemsText comma colon vs' ++ rest) =
        .ok (vs, rest)) :
    scanItems scan (n + 1) cs = .ok (v :: vs, rest) := by
  rw [scanItems, hv]
  cases vs with
  | nil => rfl
  | cons v' vs' =>
    obtain ⟨hstart, hscan⟩ := hvs v' vs' rfl
    have hskip : skipWs (w₁ ++ (jsonText comma colon v' ++ itemsText comma colon vs' ++ rest)) =
        jsonText comma colon v' ++ itemsText comma colon vs' ++ rest := by
      refine skipWs_append_ws h.ws₁ ?_
      rw [List.append_assoc]
      exact startsValue_append _ hstart
    have hcomma : skipWs (itemsText comma colon (v' :: vs') ++ rest) =
        ',' :: (w₁ ++ (jsonText comma colon v' ++ itemsText comma colon vs' ++ rest)) := by
      rw [itemsText, h.comma]
      simp [skipWs, isWs]
    simp only [bind, Except.bind, hcomma, hskip, hscan]
    rfl

theorem member_text (h : Separators comma colon w₁ w₂) (k : String)
    (hstart : startsValue (jsonText comma colon v) = true) (kvs : List (String × Json))
    (rest : List Char) : ∃ cs r r', jsonChars k ++ colon ++ jsonText comma colon v ++
        membersText comma colon kvs ++ rest = '"' :: cs ∧
      scanString cs.length cs = some (k.toList, r) ∧ skipWs r = ':' :: r' ∧
      skipWs r' = jsonText comma colon v ++ (membersText comma colon kvs ++ rest) := by
  obtain ⟨cs, hcs, hk⟩ := scanString_jsonChars k
    (colon ++ jsonText comma colon v ++ membersText comma colon kvs ++ rest)
  refine ⟨cs, _, w₂ ++ (jsonText comma colon v ++ (membersText comma colon kvs ++ rest)), ?_, hk,
    ?_, skipWs_append_ws h.ws₂ (startsValue_append _ hstart)⟩
  · rw [← hcs]
    simp only [List.append_assoc]
  · rw [h.colon]
    simp [skipWs, isWs]

theorem scanMembers_error {e : JsonErr} (h : Separators comma colon w₁ w₂)
    (hstart : startsValue (jsonText comma colon v) = true)
    (hv : scan (jsonText comma colon v ++ (membersText comma colon kvs ++ rest)) = .error e) :
    scanMembers scan (n + 1) (jsonChars k ++ colon ++ jsonText comma colon v ++
      membersText comma colon kvs ++ rest) = .error e := by
  obtain ⟨cs, r, r', hassoc, hk, hcolon, hskip⟩ := member_text h k hstart kvs rest
  rw [hassoc, scanMembers]
  simp only [hk, hcolon, hskip, hv, bind, Except.bind]

theorem scanMembers_more {scan : Scanner} {n : ℕ} {k k' : String} {v v' : Json} {rest : List Char}
    {kvs : List (String × Json)} (h : Separators comma colon w₁ w₂)
    (hstart : startsValue (jsonText comma colon v) = true)
    (hv : scan (jsonText comma colon v ++ (membersText comma colon ((k', v') :: kvs) ++ rest)) =
      .ok (v, membersText comma colon ((k', v') :: kvs) ++ rest)) :
    scanMembers scan (n + 1) (jsonChars k ++ colon ++ jsonText comma colon v ++
      membersText comma colon ((k', v') :: kvs) ++ rest) =
      (scanMembers scan n (jsonChars k' ++ colon ++ jsonText comma colon v' ++
        membersText comma colon kvs ++ rest)).map fun x => ((k, v) :: x.1, x.2) := by
  obtain ⟨cs, r, r', hassoc, hk, hcolon, hskip⟩ := member_text h k hstart ((k', v') :: kvs) rest
  have hcomma : skipWs (membersText comma colon ((k', v') :: kvs) ++ rest) =
      ',' :: (w₁ ++ (jsonChars k' ++ colon ++ jsonText comma colon v' ++
        membersText comma colon kvs ++ rest)) := by
    rw [membersText, h.comma]
    simp [skipWs, isWs]
  have hskip' : skipWs (w₁ ++ (jsonChars k' ++ colon ++ jsonText comma colon v' ++
      membersText comma colon kvs ++ rest)) = jsonChars k' ++ colon ++
        jsonText comma colon v' ++ membersText comma colon kvs ++ rest :=
    skipWs_append_ws h.ws₁ rfl
  rw [hassoc, scanMembers]
  simp only [hk, hcolon, hskip, hv, bind, Except.bind, hcomma, hskip']
  cases scanMembers scan n (jsonChars k' ++ colon ++ jsonText comma colon v' ++
      membersText comma colon kvs ++ rest) with
  | error e => rfl
  | ok x => simp [Except.map, pure, Except.pure]

theorem scanMembers_cons {scan : Scanner} {n : ℕ} {k : String} {v : Json} {rest : List Char}
    {kvs : List (String × Json)} (h : Separators comma colon w₁ w₂)
    (hstart : startsValue (jsonText comma colon v) = true)
    (hv : scan (jsonText comma colon v ++ (membersText comma colon kvs ++ rest)) =
      .ok (v, membersText comma colon kvs ++ rest))
    (hkvs : ∀ k' v' kvs', kvs = (k', v') :: kvs' →
      scanMembers scan n (jsonChars k' ++ colon ++ jsonText comma colon v' ++
        membersText comma colon kvs' ++ rest) = .ok (kvs, rest)) :
    scanMembers scan (n + 1) (jsonChars k ++ colon ++ jsonText comma colon v ++
      membersText comma colon kvs ++ rest) = .ok ((k, v) :: kvs, rest) := by
  rcases kvs with _ | ⟨⟨k', v'⟩, kvs'⟩
  · obtain ⟨cs, r, r', hassoc, hk, hcolon, hskip⟩ := member_text h k hstart [] rest
    rw [hassoc, scanMembers]
    simp only [hk, hcolon, hskip, hv, bind, Except.bind]
    simp [membersText, skipWs, isWs, pure, Except.pure]
  · rw [scanMembers_more h hstart hv, hkvs k' v' kvs' rfl]
    rfl

theorem length_itemsText (h : Separators comma colon w₁ w₂) (vs : List Json) :
    vs.length < (itemsText comma colon vs).length := by
  induction vs with
  | nil => exact Nat.zero_lt_one
  | cons v vs ih =>
    rw [itemsText, h.comma]
    rw [h.comma] at ih
    simp only [List.length_append, List.length_cons]
    omega

theorem length_membersText (h : Separators comma colon w₁ w₂) (kvs : List (String × Json)) :
    kvs.length < (membersText comma colon kvs).length := by
  induction kvs with
  | nil => exact Nat.zero_lt_one
  | cons kv kvs ih =>
    obtain ⟨k, v⟩ := kv
    rw [membersText, h.comma]
    rw [h.comma] at ih
    simp only [List.length_append, List.length_cons]
    omega

theorem scanArray_of_items {vs : List Json} (hs : startsValue cs = true)
    (h : scanItems scan cs.length cs = .ok (vs, rest)) :
    scanArray scan cs = .ok (.arr vs, rest) := by
  rw [scanArray, skipWs_of_starts hs]
  cases cs with
  | nil => cases hs
  | cons c cs =>
    split
    · next heq =>
      rw [(List.cons.inj heq).1] at hs
      cases hs
    · rw [h]
      rfl

theorem scanObject_of_members (hs : startsValue cs = true)
    (h : scanMembers scan cs.length cs = .ok (kvs, rest))
    (hnd : (kvs.map (·.1)).Nodup) : scanObject scan cs = .ok (.obj kvs, rest) := by
  rw [scanObject, skipWs_of_starts hs]
  cases cs with
  | nil => cases hs
  | cons c cs =>
    split
    · next heq =>
      rw [(List.cons.inj heq).1] at hs
      cases hs
    · rw [h, ← dictOf_of_nodup hnd]
      rfl

/-- Values that come back from their texts at the depth `d`. -/
def ReadsBack (comma colon : List Char) (d : ℕ) : Prop :=
  ∀ v rest, Proper d v → numEnd rest = true →
    scanValue d (jsonText comma colon v ++ rest) = .ok (v, rest)

theorem scanItems_jsonText (h : Separators comma colon w₁ w₂) (hd : ReadsBack comma colon d)
    (rest : List Char) (vs : List Json) :
    ∀ (v : Json) (n : ℕ), vs.length < n → ProperItems d (v :: vs) →
      scanItems (scanValue d) n (jsonText comma colon v ++ itemsText comma colon vs ++ rest) =
        .ok (v :: vs, rest) := by
  induction vs with
  | nil =>
    intro v n hn hv
    obtain ⟨n, rfl⟩ := Nat.exists_eq_succ_of_ne_zero (Nat.ne_of_gt hn)
    refine scanItems_cons h ?_ nofun
    rw [List.append_assoc]
    exact hd v _ hv.1 (numEnd_itemsText h _ _)
  | cons v' vs ih =>
    intro v n hn hv
    obtain ⟨n, rfl⟩ := Nat.exists_eq_succ_of_ne_zero (Nat.ne_of_gt (Nat.zero_lt_of_lt hn))
    refine scanItems_cons h ?_ ?_
    · rw [List.append_assoc]
      exact hd v _ hv.1 (numEnd_itemsText h _ _)
    · rintro _ _ ⟨⟩
      exact ⟨startsValue_jsonText comma colon hv.2.1,
        ih v' n (Nat.lt_of_succ_lt_succ hn) hv.2⟩

theorem scanMembers_jsonText (h : Separators comma colon w₁ w₂) (hd : ReadsBack comma colon d)
    (rest : List Char) (kvs : List (String × Json)) :
    ∀ (k : String) (v : Json) (n : ℕ), kvs.length < n → ProperFields d ((k, v) :: kvs) →
      scanMembers (scanValue d) n (jsonChars k ++ colon ++ jsonText comma colon v ++
        membersText comma colon kvs ++ rest) = .ok ((k, v) :: kvs, rest) := by
  induction kvs with
  | nil =>
    intro k v n hn hv
    obtain ⟨n, rfl⟩ := Nat.exists_eq_succ_of_ne_zero (Nat.ne_of_gt hn)
    exact scanMembers_cons h (startsValue_jsonText comma colon hv.1)
      (hd v _ hv.1 (numEnd_membersText h _ _)) nofun
  | cons kv kvs ih =>
    intro k v n hn hv
    obtain ⟨k', v'⟩ := kv
    obtain ⟨n, rfl⟩ := Nat.exists_eq_succ_of_ne_zero (Nat.ne_of_gt (Nat.zero_lt_of_lt hn))
    refine scanMembers_cons h (startsValue_jsonText comma colon hv.1)
      (hd v _ hv.1 (numEnd_membersText h _ _)) ?_
    rintro _ _ _ ⟨⟩
    exact ih k' v' n (Nat.lt_of_succ_lt_succ hn) hv.2

theorem scanValue_atom (hv : Proper d v) (hrest : numEnd rest = true)
    (harr : ∀ items, v ≠ .arr items) (hobj : ∀ fields, v ≠ .obj fields) :
    scanValue d (jsonText comma colon v ++ rest) = .ok (v, rest) := by
  refine scanValue_of_scanAtom ?_
  cases v with
  | null => rfl
  | bool b => cases b <;> rfl
  | int k => exact scanAtom_int k (by cases d <;> exact hv) hrest
  | float t => exact (show IsFloatText t by cases d <;> exact hv) rest hrest
  | str s =>
    obtain ⟨cs, hcs, hs⟩ := scanString_jsonChars s rest
    rw [jsonText, hcs, scanAtom, hs]
    simp
  | arr items => exact absurd rfl (harr items)
  | obj fields => exact absurd rfl (hobj fields)

/-- **A value comes back from its text**, and the rest of the input with it. By
induction on the depth: the items of a list are one level deeper. -/
theorem readsBack (h : Separators comma colon w₁ w₂) (d : ℕ) : ReadsBack comma colon d := by
  induction d with
  | zero =>
    intro v rest hv hrest
    refine scanValue_atom hv hrest ?_ ?_
    · rintro items rfl
      exact hv
    · rintro fields rfl
      exact hv
  | succ d ih =>
    intro v rest hv hrest
    cases v with
    | arr items =>
      cases items with
      | nil => rfl
      | cons v vs =>
        have hstart := startsValue_append (itemsText comma colon vs ++ rest)
          (startsValue_jsonText comma colon hv.1)
        rw [← List.append_assoc] at hstart
        have hlen : vs.length <
            (jsonText comma colon v ++ itemsText comma colon vs ++ rest).length := by
          have := length_itemsText h vs
          simp only [List.length_append]
          omega
        exact scanArray_of_items hstart (scanItems_jsonText h ih rest vs v _ hlen hv)
    | obj fields =>
      rcases fields with _ | ⟨⟨k, v⟩, kvs⟩
      · rfl
      · have hlen : kvs.length < (jsonChars k ++ colon ++ jsonText comma colon v ++
            membersText comma colon kvs ++ rest).length := by
          have := length_membersText h kvs
          simp only [List.length_append]
          omega
        exact scanObject_of_members rfl (scanMembers_jsonText h ih rest kvs k v _ hlen hv.2) hv.1
    | _ => exact scanValue_atom hv hrest nofun nofun

/-- **The round trip.**  A proper value comes back from its text, with white space
after it or without. -/
theorem loads_jsonText (h : Separators comma colon w₁ w₂) {v : Json} {d : ℕ} (hv : Proper d v)
    {w : List Char} (hw : w.all isWs = true) :
    loads d (jsonText comma colon v ++ w) = .ok v := by
  have hstart := startsValue_append w (startsValue_jsonText comma colon hv)
  have hend : numEnd w = true := by
    cases w with
    | nil => rfl
    | cons c w =>
      simp only [List.all_cons, Bool.and_eq_true, isWs, Bool.or_eq_true, decide_eq_true_eq] at hw
      rcases hw.1 with ((rfl | rfl) | rfl) | rfl <;> rfl
  have hblank : skipWs w = [] := by
    clear * - hw
    induction w with
    | nil => rfl
    | cons c w ih =>
      simp only [List.all_cons, Bool.and_eq_true] at hw
      rw [skipWs, List.dropWhile_cons_of_pos hw.1]
      exact ih hw.2
  have hbom : (jsonText comma colon v ++ w).head? ≠ some '\ufeff' := by
    intro hhead
    obtain ⟨cs, hcs⟩ := List.head?_eq_some_iff.mp hhead
    rw [hcs] at hstart
    cases hstart
  rw [loads, if_neg hbom, skipWs_of_starts hstart]
  have hscan := readsBack h d v w hv hend
  simp only [hscan, bind, Except.bind, hblank, if_true]
  rfl

theorem loads_spaced (hv : Proper d v) : loads d (spaced v) = .ok v := by
  have hloads := loads_jsonText separators hv (w := []) rfl
  rwa [List.append_nil] at hloads

theorem loads_compact (hv : Proper d v) : loads d (compact v) = .ok v := by
  have hloads := @loads_jsonText [','] [':'] [] [] ⟨rfl, rfl, rfl, rfl⟩ v d hv [] rfl
  rwa [List.append_nil] at hloads

end

/-! ## A value on its line -/

theorem strip_braces_append (cs : List Char) {w : List Char} (hw : w.all isSpace = true) :
    strip ('\x7b' :: cs ++ ['\x7d'] ++ w) = '\x7b' :: cs ++ ['\x7d'] := by
  have hspace (c : Char) (hc : isSpace c = false) (l : List Char) :
      (c :: l).dropWhile isSpace = c :: l := by
    rw [List.dropWhile_cons_of_neg (by rw [hc]; decide)]
  have hdrop (l : List Char) : (w.reverse ++ l).dropWhile isSpace = l.dropWhile isSpace := by
    refine List.dropWhile_append_of_pos fun c hc => ?_
    exact List.all_eq_true.mp hw c (List.mem_reverse.mp hc)
  have hfront : ('\x7b' :: cs ++ ['\x7d'] ++ w).dropWhile isSpace =
      '\x7b' :: cs ++ ['\x7d'] ++ w := hspace _ (by decide) _
  rw [strip, hfront, List.reverse_append, hdrop, List.reverse_append]
  show (List.dropWhile isSpace ('\x7d' :: ('\x7b' :: cs).reverse)).reverse = _
  rw [hspace _ (by decide), List.reverse_cons, List.reverse_reverse]

theorem strip_braces (cs : List Char) :
    strip ('\x7b' :: cs ++ ['\x7d']) = '\x7b' :: cs ++ ['\x7d'] := by
  simpa using strip_braces_append cs (w := []) rfl

theorem jsonText_obj (comma colon : List Char) (fields : List (String × Json)) :
    ∃ cs, jsonText comma colon (.obj fields) = '\x7b' :: cs ++ ['\x7d'] := by
  have hend : ∀ kvs, ∃ cs, membersText comma colon kvs = cs ++ ['\x7d'] := by
    intro kvs
    induction kvs with
    | nil => exact ⟨[], rfl⟩
    | cons kv kvs ih =>
      obtain ⟨k, v⟩ := kv
      obtain ⟨cs, hcs⟩ := ih
      exact ⟨comma ++ jsonChars k ++ colon ++ jsonText comma colon v ++ cs, by
        simp [membersText, hcs]⟩
  rcases fields with _ | ⟨⟨k, v⟩, kvs⟩
  · exact ⟨[], rfl⟩
  · obtain ⟨cs, hcs⟩ := hend kvs
    exact ⟨jsonChars k ++ colon ++ jsonText comma colon v ++ cs, by
      rw [jsonText, hcs]
      simp⟩

/-- No control character. -/
def Printable (cs : List Char) : Prop := ∀ c ∈ cs, 32 ≤ c.toNat

instance (cs : List Char) : Decidable (Printable cs) := List.decidableBAll _ cs

theorem Printable.append {cs ds : List Char} (hc : Printable cs) (hd : Printable ds) :
    Printable (cs ++ ds) := by
  intro c h
  rcases List.mem_append.mp h with h | h
  · exact hc c h
  · exact hd c h

theorem Printable.cons {c : Char} {cs : List Char} (hc : 32 ≤ c.toNat) (hcs : Printable cs) :
    Printable (c :: cs) := by
  intro x h
  rcases List.mem_cons.mp h with rfl | h
  · exact hc
  · exact hcs x h

theorem printable_nil : Printable [] := by
  intro c h
  cases h

theorem escape_control_printable : ∀ n : Fin 32, Printable (escapeChar (Char.ofNat n)) := by
  decide

theorem escapeChar_printable (c : Char) : Printable (escapeChar c) := by
  by_cases hctl : c.toNat < 32
  · have h := escape_control_printable ⟨c.toNat, hctl⟩
    rwa [Char.ofNat_toNat] at h
  · have hc := Nat.le_of_not_lt hctl
    by_cases hq : c = '"' ∨ c = '\\'
    · rcases hq with rfl | rfl <;> decide
    · obtain ⟨hquote, hslash⟩ := not_or.mp hq
      rw [escapeChar_plain hctl hquote hslash]
      exact Printable.cons hc printable_nil

theorem jsonChars_printable (s : String) : Printable (jsonChars s) := by
  have hquote : 32 ≤ '"'.toNat := by decide
  rw [jsonChars_eq]
  refine (Printable.cons hquote fun x hx => ?_).append (Printable.cons hquote printable_nil)
  obtain ⟨c, -, hxc⟩ := List.mem_flatMap.mp hx
  exact escapeChar_printable c x hxc

theorem toString_chars (k : ℤ) : ∀ c ∈ (toString k).toList, c.isDigit = true ∨ c = '-' := by
  have hdigits (n : ℕ) : ∀ c ∈ Nat.toDigits 10 n, c.isDigit = true := fun c hc =>
    List.all_eq_true.mp (toDigits_all_isDigit n) c hc
  intro c hc
  cases k with
  | ofNat n =>
    have htext : (toString (Int.ofNat n)).toList = Nat.toDigits 10 n := by
      simp [toString, Int.repr, Nat.repr]
    rw [htext] at hc
    exact .inl (hdigits n c hc)
  | negSucc n =>
    have htext : (toString (Int.negSucc n)).toList = '-' :: Nat.toDigits 10 (n + 1) := by
      simp [toString, Int.repr, Nat.repr]
    rw [htext] at hc
    rcases List.mem_cons.mp hc with hc | hc
    · exact .inr hc
    · exact .inl (hdigits _ c hc)

theorem toString_printable (k : ℤ) : Printable (toString k).toList := by
  intro c hc
  rcases toString_chars k c hc with hdigit | rfl
  · have hrange := Char.isDigit_iff_toNat.mp hdigit
    have hzero : '0'.toNat = 48 := rfl
    omega
  · decide

mutual
/-- A value without floats. -/
def NoFloat : Json → Prop
  | .float _ => False
  | .arr items => NoFloatItems items
  | .obj fields => NoFloatFields fields
  | _ => True

def NoFloatItems : List Json → Prop
  | [] => True
  | v :: vs => NoFloat v ∧ NoFloatItems vs

def NoFloatFields : List (String × Json) → Prop
  | [] => True
  | (_, v) :: kvs => NoFloat v ∧ NoFloatFields kvs
end

attribute [local simp] NoFloatItems NoFloatFields

theorem noFloatItems_iff {vs : List Json} : NoFloatItems vs ↔ ∀ v ∈ vs, NoFloat v := by
  induction vs with
  | nil => simp
  | cons v vs ih => simp [ih]

theorem noFloatFields_iff {kvs : List (String × Json)} :
    NoFloatFields kvs ↔ ∀ kv ∈ kvs, NoFloat kv.2 := by
  induction kvs with
  | nil => simp
  | cons kv kvs ih => simp [ih]

mutual
theorem jsonText_printable {comma colon : List Char} (hcomma : Printable comma)
    (hcolon : Printable colon) : ∀ {v : Json}, NoFloat v → Printable (jsonText comma colon v)
  | .null, _ => (by decide : Printable ['n', 'u', 'l', 'l'])
  | .bool true, _ => (by decide : Printable ['t', 'r', 'u', 'e'])
  | .bool false, _ => (by decide : Printable ['f', 'a', 'l', 's', 'e'])
  | .int k, _ => toString_printable k
  | .str s, _ => jsonChars_printable s
  | .arr [], _ => (by decide : Printable ['[', ']'])
  | .obj [], _ => (by decide : Printable ['\x7b', '\x7d'])
  | .arr (_ :: _), h =>
    (Printable.cons (by decide) (jsonText_printable hcomma hcolon h.1)).append
      (itemsText_printable hcomma hcolon h.2)
  | .obj ((k, _) :: _), h =>
    (((Printable.cons (by decide) (jsonChars_printable k)).append hcolon).append
      (jsonText_printable hcomma hcolon h.1)).append (membersText_printable hcomma hcolon h.2)

theorem itemsText_printable {comma colon : List Char} (hcomma : Printable comma)
    (hcolon : Printable colon) :
    ∀ {vs : List Json}, NoFloatItems vs → Printable (itemsText comma colon vs)
  | [], _ => Printable.cons (by decide) printable_nil
  | _ :: _, h => (hcomma.append (jsonText_printable hcomma hcolon h.1)).append
      (itemsText_printable hcomma hcolon h.2)

theorem membersText_printable {comma colon : List Char} (hcomma : Printable comma)
    (hcolon : Printable colon) :
    ∀ {kvs : List (String × Json)}, NoFloatFields kvs → Printable (membersText comma colon kvs)
  | [], _ => Printable.cons (by decide) printable_nil
  | (k, _) :: _, h =>
    (((hcomma.append (jsonChars_printable k)).append hcolon).append
      (jsonText_printable hcomma hcolon h.1)).append (membersText_printable hcomma hcolon h.2)
end

/-! ## The two writers -/

theorem intercalate_cons (sep x : List Char) (xs : List (List Char)) :
    sep.intercalate (x :: xs) = x ++ xs.flatMap (sep ++ ·) := by
  induction xs generalizing x with
  | nil => simp [List.intercalate]
  | cons y ys ih =>
    have h := ih y
    simp only [List.intercalate, List.intersperse_cons_cons, List.flatten_cons] at h ⊢
    rw [h, List.flatMap_cons, List.append_assoc]

mutual
theorem lineChars_eq : ∀ v : Json, lineChars v = spaced v
  | .null | .bool true | .bool false | .int _ | .float _ | .str _ | .arr [] | .obj [] => rfl
  | .arr (v :: vs) => by
    rw [lineChars, lineCharsItems, intercalate_cons, lineChars_eq v, List.cons_append,
      List.append_assoc, lineCharsItems_eq vs]
    rfl
  | .obj ((k, v) :: kvs) => by
    rw [lineChars, lineCharsFields, intercalate_cons, lineChars_eq v, List.cons_append,
      List.append_assoc, lineCharsFields_eq kvs]
    rfl

theorem lineCharsItems_eq : ∀ vs : List Json,
    (lineCharsItems vs).flatMap ([',', ' '] ++ ·) ++ [']'] = itemsText [',', ' '] [':', ' '] vs
  | [] => rfl
  | v :: vs => by
    rw [lineCharsItems, List.flatMap_cons, List.append_assoc, lineCharsItems_eq vs, lineChars_eq v,
      itemsText]

theorem lineCharsFields_eq : ∀ kvs : List (String × Json),
    (lineCharsFields kvs).flatMap ([',', ' '] ++ ·) ++ ['\x7d'] =
      membersText [',', ' '] [':', ' '] kvs
  | [] => rfl
  | (k, v) :: kvs => by
    rw [lineCharsFields, List.flatMap_cons, List.append_assoc, lineCharsFields_eq kvs,
      lineChars_eq v, membersText]
    simp only [List.append_assoc]
end
end AiMeshChat
