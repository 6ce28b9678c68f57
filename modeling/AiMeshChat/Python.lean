import Mathlib.Algebra.Group.Nat.Defs
import Mathlib.Data.List.Sort
import Mathlib.Data.Nat.Notation
import Mathlib.Data.Int.Notation

/-!
# The Python values and texts the program handles

Messages, claims and frames travel as JSON objects that the program reads with
`dict.get`, so they are kept as `Json` values here and not as records: a missing
key, a value of the wrong type and an unknown extra key stay visible. A JSON
number with a fraction or an exponent becomes a Python `float`; only its text is
kept (`Json.float`), since nothing in the program computes with one.

The second half holds the few string functions the source uses: `str.strip`,
`Path.stem`, `repr`, the character classes of its regular expressions and the
timestamps of `ISO_TIMESTAMP_FORMAT`. All of them work on the list of
characters, so that they evaluate.
-/

namespace AiMeshChat

/-- A value read by `json.loads`. -/
inductive Json
  | null
  | bool (b : Bool)
  | int (n : ℤ)
  | float (text : String)
  | str (s : String)
  | arr (items : List Json)
  | obj (fields : List (String × Json))
  deriving Inhabited

namespace Json

mutual
/-- Decidable equality; written out because the type is nested. -/
def decEq : (a b : Json) → Decidable (a = b)
  | null, null => isTrue rfl
  | bool a, bool b => decidable_of_iff (a = b) (by simp)
  | int a, int b => decidable_of_iff (a = b) (by simp)
  | float a, float b => decidable_of_iff (a = b) (by simp)
  | str a, str b => decidable_of_iff (a = b) (by simp)
  | arr a, arr b => @decidable_of_iff _ (a = b) (by simp) (decEqList a b)
  | obj a, obj b => @decidable_of_iff _ (a = b) (by simp) (decEqFields a b)
  | null, bool _ | null, int _ | null, float _ | null, str _ | null, arr _ | null, obj _
  | bool _, null | bool _, int _ | bool _, float _ | bool _, str _ | bool _, arr _ | bool _, obj _
  | int _, null | int _, bool _ | int _, float _ | int _, str _ | int _, arr _ | int _, obj _
  | float _, null | float _, bool _ | float _, int _ | float _, str _ | float _, arr _
  | float _, obj _
  | str _, null | str _, bool _ | str _, int _ | str _, float _ | str _, arr _ | str _, obj _
  | arr _, null | arr _, bool _ | arr _, int _ | arr _, float _ | arr _, str _ | arr _, obj _
  | obj _, null | obj _, bool _ | obj _, int _ | obj _, float _ | obj _, str _ | obj _, arr _ =>
    isFalse nofun

def decEqList : (a b : List Json) → Decidable (a = b)
  | [], [] => isTrue rfl
  | [], _ :: _ | _ :: _, [] => isFalse nofun
  | a :: as, b :: bs =>
    match decEq a b, decEqList as bs with
    | isTrue h, isTrue hs => isTrue (by rw [h, hs])
    | isFalse h, _ => isFalse (fun e => h (List.cons.inj e).1)
    | _, isFalse hs => isFalse (fun e => hs (List.cons.inj e).2)

def decEqFields : (a b : List (String × Json)) → Decidable (a = b)
  | [], [] => isTrue rfl
  | [], _ :: _ | _ :: _, [] => isFalse nofun
  | (k, a) :: as, (l, b) :: bs =>
    match instDecidableEqString k l, decEq a b, decEqFields as bs with
    | isTrue hk, isTrue h, isTrue hs => isTrue (by rw [hk, h, hs])
    | isFalse hk, _, _ => isFalse (fun e => hk (Prod.mk.inj (List.cons.inj e).1).1)
    | _, isFalse h, _ => isFalse (fun e => h (Prod.mk.inj (List.cons.inj e).1).2)
    | _, _, isFalse hs => isFalse (fun e => hs (List.cons.inj e).2)
end

instance : DecidableEq Json := decEq

/-- `d.get(key)`; `none` also for a value that is not a dict, which the callers
check first. -/
def get? (d : Json) (key : String) : Option Json :=
  match d with
  | obj fields => fields.lookup key
  | _ => none

/-- `d[key] = v`: the place of an existing key is kept. -/
def set (d : Json) (key : String) (v : Json) : Json :=
  match d with
  | obj fields =>
    if (fields.lookup key).isSome then
      obj (fields.map (fun kv => if kv.1 = key then (key, v) else kv))
    else obj (fields ++ [(key, v)])
  | _ => d

def isDict : Json → Bool
  | obj _ => true
  | _ => false

/-- The value, if it is a `str`. -/
def str? : Json → Option String
  | str s => some s
  | _ => none

/-- The value, if it is an `int` and not a `bool`. -/
def int? : Json → Option ℤ
  | int n => some n
  | _ => none

/-- `d.get(key, "")` when that is a `str`. -/
def getStr (d : Json) (key : String) : Option String :=
  match d.get? key with
  | none => some ""
  | some v => v.str?

/-- The mantissa and the decimal exponent in the text of a float; `none` for the
names of the infinities and of the value that is no number. -/
def floatParts (text : String) : Option (ℕ × ℤ) :=
  let mantissa := text.toList.takeWhile (· ∉ ['e', 'E'])
  let exponent := (text.toList.dropWhile (· ∉ ['e', 'E'])).drop 1
  let fraction := ((mantissa.dropWhile (· ≠ '.')).drop 1).length
  let value (ds : List Char) : ℕ :=
    (ds.filter Char.isDigit).foldl (fun n c => 10 * n + (c.toNat - 48)) 0
  let sign : ℤ := if '-' ∈ exponent then -1 else 1
  if mantissa.any Char.isDigit then some (value mantissa, sign * value exponent - fraction)
  else none

/-- Whether a text is read as the float `0.0`: at most half of the least positive
float. -/
def floatIsZero (text : String) : Bool :=
  match floatParts text with
  | some (m, k) => m = 0 || (k < 0 && m * 2 ^ 1075 ≤ 10 ^ k.natAbs)
  | none => false

/-- The truth value of an object in a Boolean context. -/
def truthy : Json → Bool
  | null => false
  | bool b => b
  | int n => n ≠ 0
  | float t => !floatIsZero t
  | str s => s ≠ ""
  | arr items => items ≠ []
  | obj fields => fields ≠ []

@[simp] theorem get?_obj (fields : List (String × Json)) (key : String) :
    (obj fields).get? key = fields.lookup key := rfl

theorem get?_set_ne (d v : Json) {key k : String} (h : k ≠ key) :
    (d.set key v).get? k = d.get? k := by
  cases d with
  | obj fields =>
    simp only [set]
    split
    · simp only [get?_obj]
      clear * - h
      induction fields with
      | nil => rfl
      | cons kv rest ih =>
        obtain ⟨k', v'⟩ := kv
        by_cases hk : k' = key
        · subst hk
          simp only [List.map_cons, if_true, List.lookup_cons, beq_false_of_ne h, ih]
        · simp only [List.map_cons, if_neg hk, List.lookup_cons, ih]
    · simp [get?_obj, List.lookup_append, List.lookup_cons, beq_false_of_ne h]
  | _ => rfl

theorem get?_set_self {d : Json} (v : Json) (key : String) (h : d.isDict = true) :
    (d.set key v).get? key = some v := by
  cases d with
  | obj fields =>
    simp only [set]
    split
    · next hk =>
      simp only [get?_obj]
      clear h
      induction fields with
      | nil => cases hk
      | cons kv rest ih =>
        obtain ⟨k', v'⟩ := kv
        by_cases hk' : k' = key
        · simp [hk']
        · have hne : (key == k') = false := beq_false_of_ne (Ne.symm hk')
          rw [List.lookup_cons, hne] at hk
          simp only [List.map_cons, if_neg hk', List.lookup_cons, hne]
          exact ih hk
    · next hk =>
      rw [Bool.not_eq_true, Option.isSome_eq_false_iff, Option.isNone_iff_eq_none] at hk
      simp [get?_obj, List.lookup_append, hk]
  | _ => cases h

theorem isDict_set (d v : Json) (key : String) : (d.set key v).isDict = d.isDict := by
  cases d with
  | obj fields =>
    simp only [set]
    split <;> rfl
  | _ => rfl

end Json

/-! ## Texts -/

/-- `s.startswith(p)`. -/
def startsWith (p s : String) : Bool := p.toList.isPrefixOf s.toList

/-- `s.endswith(p)`. -/
def endsWith (p s : String) : Bool := p.toList.isSuffixOf s.toList

/-- The characters `str.strip` removes (`str.isspace`). -/
def isSpace (c : Char) : Bool :=
  c.toNat ∈ [9, 10, 11, 12, 13, 28, 29, 30, 31, 32, 133, 160, 5760, 8232, 8233, 8239, 8287, 12288] ||
    (8192 ≤ c.toNat && c.toNat ≤ 8202)

/-- `text.strip()`. -/
def strip (cs : List Char) : List Char :=
  ((cs.dropWhile isSpace).reverse.dropWhile isSpace).reverse

/-- `not s.strip()`. -/
def isBlank (s : String) : Bool := s.toList.all isSpace

/-- `Path(name).stem` of a name that ends in `.json`: the last suffix is dropped,
a leading dot starts no suffix. -/
def stem (name : String) : String :=
  match name.toList.reverse.dropWhile (· ≠ '.') with
  | _ :: c :: r => String.ofList (c :: r).reverse
  | _ => name

/-- `repr(s)`. Non-ASCII characters are taken as printable. -/
def reprStr (s : String) : String :=
  let q := if s.toList.contains '\'' && !s.toList.contains '"' then '"' else '\''
  let hex (n : ℕ) : List Char := (Nat.toDigits 16 n)
  let esc (c : Char) : List Char :=
    if c = q || c = '\\' then ['\\', c]
    else if c = '\n' then ['\\', 'n']
    else if c = '\r' then ['\\', 'r']
    else if c = '\t' then ['\\', 't']
    else if c.toNat < 16 then '\\' :: 'x' :: '0' :: hex c.toNat
    else if c.toNat < 32 || c.toNat = 127 then '\\' :: 'x' :: hex c.toNat
    else [c]
  String.ofList (q :: s.toList.flatMap esc ++ [q])

mutual
/-- `repr(v)`. -/
def reprOf : Json → String
  | .null => "None"
  | .bool b => if b then "True" else "False"
  | .int n => toString n
  | .float t => t
  | .str s => reprStr s
  | .arr items => "[" ++ ", ".intercalate (reprItems items) ++ "]"
  | .obj fields => "\x7b" ++ ", ".intercalate (reprFields fields) ++ "\x7d"

def reprItems : List Json → List String
  | [] => []
  | v :: vs => reprOf v :: reprItems vs

def reprFields : List (String × Json) → List String
  | [] => []
  | (k, v) :: kvs => (reprStr k ++ ": " ++ reprOf v) :: reprFields kvs
end

/-- `str(v)`. -/
def strOf : Json → String
  | .str s => s
  | v => reprOf v

/-- A line break and the indentation of depth `n`. -/
def newline (n : ℕ) : String := String.ofList ('\n' :: List.replicate (2 * n) ' ')

/-- A JSON string literal, `ensure_ascii=False`. -/
def jsonChars (s : String) : List Char :=
  let esc (c : Char) : List Char :=
    if c = '"' || c = '\\' then ['\\', c]
    else if c = '\n' then ['\\', 'n']
    else if c = '\r' then ['\\', 'r']
    else if c = '\t' then ['\\', 't']
    else if c.toNat = 8 then ['\\', 'b']
    else if c.toNat = 12 then ['\\', 'f']
    else if c.toNat < 16 then ['\\', 'u', '0', '0', '0'] ++ Nat.toDigits 16 c.toNat
    else if c.toNat < 32 then ['\\', 'u', '0', '0'] ++ Nat.toDigits 16 c.toNat
    else [c]
  '"' :: s.toList.flatMap esc ++ ['"']

def jsonStr (s : String) : String := String.ofList (jsonChars s)

mutual
/-- `json.dumps(v, indent=2, ensure_ascii=False)` at the nesting depth `n`. -/
def dumps (n : ℕ) : Json → String
  | .null => "null"
  | .bool b => if b then "true" else "false"
  | .int k => toString k
  | .float t => t
  | .str s => jsonStr s
  | .arr [] => "[]"
  | .arr (v :: vs) => "[" ++ ",".intercalate (dumpsItems (n + 1) (v :: vs)) ++ newline n ++ "]"
  | .obj [] => "\x7b\x7d"
  | .obj (f :: fs) =>
    "\x7b" ++ ",".intercalate (dumpsFields (n + 1) (f :: fs)) ++ newline n ++ "\x7d"

def dumpsItems (n : ℕ) : List Json → List String
  | [] => []
  | v :: vs => (newline n ++ dumps n v) :: dumpsItems n vs

def dumpsFields (n : ℕ) : List (String × Json) → List String
  | [] => []
  | (k, v) :: kvs => (newline n ++ jsonStr k ++ ": " ++ dumps n v) :: dumpsFields n kvs
end

mutual
/-- The characters of `json.dumps(v, ensure_ascii=False)`: one line, `", "` and
`": "` between. -/
def lineChars : Json → List Char
  | .null => "null".toList
  | .bool b => (if b then "true" else "false").toList
  | .int k => (toString k).toList
  | .float t => t.toList
  | .str s => jsonChars s
  | .arr items => '[' :: [',', ' '].intercalate (lineCharsItems items) ++ [']']
  | .obj fields => '\x7b' :: [',', ' '].intercalate (lineCharsFields fields) ++ ['\x7d']

def lineCharsItems : List Json → List (List Char)
  | [] => []
  | v :: vs => lineChars v :: lineCharsItems vs

def lineCharsFields : List (String × Json) → List (List Char)
  | [] => []
  | (k, v) :: kvs => (jsonChars k ++ [':', ' '] ++ lineChars v) :: lineCharsFields kvs
end

/-! ### Character classes -/

/-- `[a-zA-Z0-9]`. -/
def isAlnum (c : Char) : Bool := c.isAlphanum

/-- `[a-zA-Z0-9_.-]`. -/
def isIdChar (c : Char) : Bool := isAlnum c || c = '_' || c = '.' || c = '-'

/-- `[a-zA-Z0-9][a-zA-Z0-9_.-]{0,n}` on the whole text. -/
def idText (n : ℕ) : List Char → Bool
  | [] => false
  | c :: cs => isAlnum c && cs.all isIdChar && cs.length ≤ n

/-- `re.match` of a pattern that ends in `$`: a final newline may remain. -/
def dollar (p : List Char → Bool) (s : String) : Bool :=
  p s.toList || (s.toList.getLast? = some '\n' && p s.toList.dropLast)

/-! ### Timestamps -/

/-- Days from 1970-01-01 to the date, in the proleptic Gregorian calendar. -/
def daysFromCivil (y m d : ℤ) : ℤ :=
  let y' := if m ≤ 2 then y - 1 else y
  let era := y' / 400
  let yoe := y' - era * 400
  let doy := (153 * (if m > 2 then m - 3 else m + 9) + 2) / 5 + d - 1
  era * 146097 + (yoe * 365 + yoe / 4 - yoe / 100 + doy) - 719468

/-- The date of a day number, the inverse of `daysFromCivil`. -/
def civilFromDays (z : ℤ) : ℤ × ℤ × ℤ :=
  let z' := z + 719468
  let era := z' / 146097
  let doe := z' - era * 146097
  let yoe := (doe - doe / 1460 + doe / 36524 - doe / 146096) / 365
  let doy := doe - (365 * yoe + yoe / 4 - yoe / 100)
  let mp := (5 * doy + 2) / 153
  let m := if mp < 10 then mp + 3 else mp - 9
  (yoe + era * 400 + (if m ≤ 2 then 1 else 0), m, doy - (153 * mp + 2) / 5 + 1)

/-- `n` in decimal, padded with zeros to the width `w`. -/
def zeroPad (w n : ℕ) : String :=
  let ds := Nat.toDigits 10 n
  String.ofList (List.replicate (w - ds.length) '0' ++ ds)

/-- Microseconds in a second: clocks are read in microseconds. -/
def second : ℤ := 1000000

/-- `strftime(ISO_TIMESTAMP_FORMAT)` of a clock reading: the fraction is cut. -/
def isoFormat (now : ℕ) : String :=
  let s := now / 1000000
  let (y, m, d) := civilFromDays (s / 86400 : ℕ)
  let t := s % 86400
  zeroPad 4 y.toNat ++ "-" ++ zeroPad 2 m.toNat ++ "-" ++ zeroPad 2 d.toNat ++ "T" ++
    zeroPad 2 (t / 3600) ++ ":" ++ zeroPad 2 (t / 60 % 60) ++ ":" ++ zeroPad 2 (t % 60) ++ "Z"

/-- The value of a text of decimal digits. -/
def digits? (cs : List Char) : Option ℤ :=
  if cs ≠ [] ∧ cs.all Char.isDigit then
    some (cs.foldl (fun n c => 10 * n + (c.toNat - 48 : ℕ)) 0)
  else none

/-- Decimal digits with single underscores between them, as `int` reads them. -/
def underscored? : List Char → Option (List Char)
  | [] => none
  | [c] => if c.isDigit then some [c] else none
  | c :: '_' :: cs => if c.isDigit then (underscored? cs).map (c :: ·) else none
  | c :: cs => if c.isDigit then (underscored? cs).map (c :: ·) else none

/-- `int(s)` of a text in ASCII digits; `none` where that raises `ValueError`. -/
def parseInt (s : String) : Option ℤ :=
  let cs := ((s.toList.dropWhile isSpace).reverse.dropWhile isSpace).reverse
  match cs with
  | '-' :: ds => ((underscored? ds).bind digits?).map (- ·)
  | '+' :: ds => (underscored? ds).bind digits?
  | ds => (underscored? ds).bind digits?

/-- `datetime.fromisoformat(s).timestamp()` in microseconds, for the format the
program writes (Python 3.11 and later read the final `Z` as UTC). -/
def fromIsoFormat (s : String) : Option ℤ :=
  match s.toList with
  | [y1, y2, y3, y4, '-', m1, m2, '-', d1, d2, 'T', h1, h2, ':', n1, n2, ':', s1, s2, 'Z'] => do
    let y ← digits? [y1, y2, y3, y4]
    let m ← digits? [m1, m2]
    let d ← digits? [d1, d2]
    let h ← digits? [h1, h2]
    let n ← digits? [n1, n2]
    let s ← digits? [s1, s2]
    if 1 ≤ y ∧ 1 ≤ m ∧ m ≤ 12 ∧ 1 ≤ d ∧ d ≤ 31 ∧ h < 24 ∧ n < 60 ∧ s < 60 ∧
        civilFromDays (daysFromCivil y m d) = (y, m, d) then
      some ((daysFromCivil y m d * 86400 + h * 3600 + n * 60 + s) * second)
    else none
  | _ => none

example : fromIsoFormat (isoFormat 1767225599999999) = some 1767225599000000 := by decide +kernel

end AiMeshChat
