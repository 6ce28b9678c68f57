import Mathlib.Data.List.Basic
import Mathlib.Order.Basic

/-!
# Command lines of options

How `argparse` reads a command line that has options and no positional arguments. Every
token is first classified on its own: an option, an argument, or neither. A token that
starts with a dash is an argument only if it is a negative number or has a blank in it, and
even then not if it is an option or the beginning of one.

An option that takes an argument takes the next token, which has to be classified as an
argument. So a text that is passed as a token of its own comes through exactly if
`isArgument` holds of it: `scan_render`.

Where `argparse` prints a message and exits, the result is `none`.
-/

namespace AiMeshChat.Lib.Argparse

/-- An option: its names, where its values go, and which values it accepts. -/
structure Opt where
  flags : List String
  dest : String
  takesValue : Bool := true
  accepts : String → Bool := fun _ => true
  required : Bool := false
  help : Bool := false

/-- `-h` and `--help`, which every parser has. -/
def helpOpt : Opt := { flags := ["-h", "--help"], dest := "help", takesValue := false, help := true }

/-! ## Tokens -/

/-- The zeros of the scripts that have decimal digits; the other nine follow each. -/
def decimalZeros : List ℕ :=
  [48, 1632, 1776, 1984, 2406, 2534, 2662, 2790, 2918, 3046, 3174, 3302, 3430, 3558, 3664, 3792,
    3872, 4160, 4240, 6112, 6160, 6470, 6608, 6784, 6800, 6992, 7088, 7232, 7248, 42528, 43216,
    43264, 43472, 43504, 43600, 44016, 65296, 66720, 68912, 69734, 69872, 69942, 70096, 70384,
    70736, 70864, 71248, 71360, 71472, 71904, 72016, 72784, 73040, 73120, 92768, 92864, 93008,
    120782, 120792, 120802, 120812, 120822, 123200, 123632, 125264, 130032]

/-- `\d` of a regular expression. -/
def isDecimal (c : Char) : Bool := decimalZeros.any fun z => z ≤ c.toNat && c.toNat < z + 10

/-- One or more digits at the end of a text, or before its final line break. -/
def digitsToEnd (cs : List Char) : Bool :=
  cs.takeWhile isDecimal ≠ [] && (cs.dropWhile isDecimal = [] || cs.dropWhile isDecimal = ['\n'])

/-- `^-\d+$|^-\d*\.\d+$`, after the dash. -/
def isNumber (cs : List Char) : Bool :=
  digitsToEnd cs || match cs.dropWhile isDecimal with
    | '.' :: rest => digitsToEnd rest
    | _ => false

/-- `text.partition("=")`; `none` where there is no equality sign. -/
def splitEq (cs : List Char) : List Char × Option (List Char) :=
  (cs.takeWhile (· ≠ '='),
    if '=' ∈ cs then some ((cs.dropWhile (· ≠ '=')).drop 1) else none)

/-- The options that a token may abbreviate, each with the argument in the token. -/
def optionTuples (flags : List String) (tok : List Char) : List (String × Option (List Char)) :=
  match tok with
  | '-' :: '-' :: _ =>
    let (pre, explicit) := splitEq tok
    (flags.filter (pre.isPrefixOf ·.toList)).map fun f => (f, explicit)
  | '-' :: c :: rest =>
    flags.filterMap fun f =>
      if f.toList = ['-', c] then some (f, some rest)
      else if tok.isPrefixOf f.toList then some (f, none)
      else none
  | _ => []

/-- What a token is. One that is neither an option nor an argument ends in an error. -/
inductive Token
  | argument
  | option (flag : String) (explicit : Option (List Char))
  | stray
  deriving DecidableEq

/-- What a token is that starts with a dash and is no option. -/
def classifyRest (flags : List String) (tok : List Char) : Token :=
  match splitEq tok with
  | (pre, some explicit) =>
    if String.ofList pre ∈ flags then .option (String.ofList pre) (some explicit)
    else other
  | (_, none) => other
where
  /-- After the exact names: abbreviations, numbers, texts with a blank. -/
  other : Token :=
    match optionTuples flags tok with
    | [(flag, explicit)] => .option flag explicit
    | _ :: _ :: _ => .stray
    | [] => if isNumber (tok.drop 1) || ' ' ∈ tok then .argument else .stray

/-- `_parse_optional`. After `--` there are only arguments, and nobody takes them. -/
def classify (flags : List String) (tok : String) : Token :=
  match tok.toList with
  | '-' :: c :: cs =>
    if tok ∈ flags then .option tok none
    else if tok = "--" then .stray
    else classifyRest flags ('-' :: c :: cs)
  | _ => .argument

/-- Whether a text comes through as the argument of an option. -/
def isArgument (flags : List String) (tok : String) : Bool := classify flags tok = .argument

/-! ## The command line -/

/-- All names of the options. -/
def flagsOf (opts : List Opt) : List String := opts.flatMap (·.flags)

/-- The option with a name. -/
def find (opts : List Opt) (flag : String) : Option Opt := opts.find? (flag ∈ ·.flags)

/-- A destination and a value for it; that of a switch is empty. -/
abbrev Hit := String × String

/-- An option with an argument, if it accepts it. -/
def Opt.hit (o : Opt) (v : String) : Option Hit := if o.accepts v then some (o.dest, v) else none

/-- The options on a command line. -/
def scan (opts : List Opt) : List String → Option (List Hit)
  | [] => some []
  | tok :: rest =>
    match classify (flagsOf opts) tok with
    | .option flag explicit =>
      match find opts flag, explicit, rest with
      | none, _, _ => none
      | some o, none, [] => if o.takesValue || o.help then none else some [(o.dest, "")]
      | some o, none, v :: rest' =>
        if o.takesValue then
          if isArgument (flagsOf opts) v then
            (o.hit v).bind fun hit => (scan opts rest').map (hit :: ·)
          else none
        else if o.help then none
        else (scan opts (v :: rest')).map ((o.dest, "") :: ·)
      | some o, some v, rest =>
        if o.takesValue then
          (o.hit (String.ofList v)).bind fun hit => (scan opts rest).map (hit :: ·)
        else none
    | _ => none

/-- `parse_args`: the options on a command line, if all required ones are there. -/
def parseArgs (opts : List Opt) (args : List String) : Option (List Hit) :=
  (scan opts args).filter fun hits =>
    opts.all fun o => !o.required || hits.any (·.1 = o.dest)

/-- All values of a destination. -/
def values (hits : List Hit) (dest : String) : List String :=
  hits.filterMap fun h => if h.1 = dest then some h.2 else none

/-- The value of a destination: the last one. -/
def value? (hits : List Hit) (dest : String) : Option String := (values hits dest).getLast?

/-! ## Reading back -/

/-- An option on a command line, with the argument that is passed as the next token. -/
abbrev Piece := String × Option String

/-- The tokens of a command line. -/
def render : List Piece → List String
  | [] => []
  | (flag, some v) :: rest => flag :: v :: render rest
  | (flag, none) :: rest => flag :: render rest

/-- The piece is an option of the parser, with an argument if the option takes one. -/
def Piece.Known (opts : List Opt) (p : Piece) : Prop :=
  ∃ o, find opts p.1 = some o ∧ classify (flagsOf opts) p.1 = .option p.1 none ∧
    o.takesValue = p.2.isSome ∧ o.help = false

/-- The argument of the piece comes through. -/
def Piece.passes (opts : List Opt) (p : Piece) : Bool :=
  match p.2 with
  | some v => isArgument (flagsOf opts) v && ((find opts p.1).map (·.accepts v)).getD false
  | none => true

/-- What a piece is read as. -/
def Piece.hit (opts : List Opt) (p : Piece) : Hit :=
  (((find opts p.1).map (·.dest)).getD "", p.2.getD "")

theorem scan_piece {opts : List Opt} {p : Piece} (hp : p.Known opts) (ps : List Piece) :
    scan opts (render (p :: ps)) =
      if p.passes opts then (scan opts (render ps)).map (p.hit opts :: ·) else none := by
  obtain ⟨o, hfind, hflag, htakes, hhelp⟩ := hp
  obtain ⟨flag, v⟩ := p
  dsimp only at hfind hflag htakes
  cases v with
  | some v =>
    have hv : o.takesValue = true := htakes
    rw [render, scan, hflag]
    simp only [hfind, hv, if_true, Piece.passes, Piece.hit, Option.map_some, Option.getD_some,
      Bool.and_eq_true, Opt.hit]
    by_cases harg : isArgument (flagsOf opts) v = true
    · by_cases hacc : o.accepts v = true
      · simp [harg, hacc]
      · simp [harg, hacc]
    · simp [harg]
  | none =>
    have hv : o.takesValue = false := htakes
    rw [render, scan, hflag]
    simp only [Piece.passes, Piece.hit, hfind, Option.map_some, Option.getD_some, if_true,
      Option.getD_none]
    cases hrest : render ps with
    | nil => simp [hv, hhelp, scan]
    | cons t ts => simp [hv, hhelp]

/-- **A command line of known options is read back exactly if every argument passes.** -/
theorem scan_render {opts : List Opt} {ps : List Piece} (hps : ∀ p ∈ ps, p.Known opts) :
    scan opts (render ps) =
      if ps.all (Piece.passes opts) then some (ps.map (Piece.hit opts)) else none := by
  induction ps with
  | nil => rfl
  | cons p ps ih =>
    obtain ⟨hp, hps⟩ := List.forall_mem_cons.mp hps
    rw [scan_piece hp, ih hps, List.all_cons]
    by_cases hpass : p.passes opts = true
    · by_cases hall : ps.all (Piece.passes opts) = true
      · simp [hpass, hall]
      · simp [hpass, hall]
    · simp [hpass]

theorem values_append (hits hits' : List Hit) (dest : String) :
    values (hits ++ hits') dest = values hits dest ++ values hits' dest :=
  List.filterMap_append ..

theorem values_nil (dest : String) : values [] dest = [] := rfl

theorem values_cons (h : Hit) (hits : List Hit) (dest : String) :
    values (h :: hits) dest = if h.1 = dest then h.2 :: values hits dest else values hits dest := by
  unfold values
  by_cases hd : h.1 = dest
  · rw [List.filterMap_cons_some (by rw [if_pos hd]), if_pos hd]
  · rw [List.filterMap_cons_none (by rw [if_neg hd]), if_neg hd]

theorem isArgument_of_head {flags : List String} {tok : String}
    (h : tok.toList.head? ≠ some '-') : isArgument flags tok = true := by
  unfold isArgument classify
  split
  · next c cs htok =>
    rw [htok] at h
    exact absurd rfl h
  · rfl

end AiMeshChat.Lib.Argparse
