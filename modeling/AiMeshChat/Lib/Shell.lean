import Mathlib.Data.List.Forall2
import Mathlib.Data.Int.Notation
import Mathlib.Data.Nat.Notation

/-!
# Shell commands

A part of the language of `sh`: lists of simple commands joined by `;`, whose words may be
quoted. `quote` is `shlex.quote` of the standard library, and a list whose words were quoted
is read back as these words (`lex_joined`). What a command does is a parameter: it is given
its words, each character with the quotes around it, and the world that it finds.
-/

namespace AiMeshChat.Lib.Shell

/-- The quotes around a character. -/
inductive Style
  | bare
  | single
  | double
  deriving DecidableEq

abbrev Word := List (Char × Style)

abbrev Command := List Word

/-! ## Reading -/

/-- A reader in the text: the quotes that are open, the word that has begun, the words of the
command before it and the commands before these. -/
structure Lexer where
  style : Style
  word : Option Word
  words : Command
  done : List Command
  deriving DecidableEq

namespace Lexer

def push (s : Lexer) (c : Char) : Lexer := { s with word := some (s.word.getD [] ++ [(c, s.style)]) }

/-- A quote begins a word, if none has begun. -/
def turn (s : Lexer) (style : Style) : Lexer := { s with style := style, word := some (s.word.getD []) }

def endWord (s : Lexer) : Lexer := { s with word := none, words := s.words ++ s.word.toList }

/-- There is no empty command. -/
def endCommand (s : Lexer) : Option Lexer :=
  let words := s.words ++ s.word.toList
  if words = [] then none else some ⟨s.style, none, [], s.done ++ [words]⟩

/-- The next character; `none` for what is not in this part of the language. -/
def step (s : Lexer) (c : Char) : Option Lexer :=
  match s.style with
  | .single => some (if c = '\'' then s.turn .bare else s.push c)
  | .double =>
    if c = '"' then some (s.turn .bare)
    else if c ∈ ['\\', '`'] then none
    else some (s.push c)
  | .bare =>
    if c = '\'' then some (s.turn .single)
    else if c = '"' then some (s.turn .double)
    else if c = ' ' then some s.endWord
    else if c = ';' then s.endCommand
    else if c ∈ ['\\', '`', '\n', '\t', '&', '|', '<', '>', '(', ')', '#'] then none
    else some (s.push c)

end Lexer

open Lexer

/-- The commands of a text. -/
def lex (text : String) : Option (List Command) := do
  let s ← text.toList.foldlM step ⟨.bare, none, [], []⟩
  if s.style = .bare then (← s.endCommand).done else none

/-! ## Running -/

section Run

variable {σ : Type} (exec : σ → Command → ℤ × σ)

/-- The exit statuses of commands that run one after the other. -/
def statuses : σ → List Command → List ℤ
  | _, [] => []
  | w, c :: cs => (exec w c).1 :: statuses (exec w c).2 cs

/-- The exit status of a list is that of its last command. -/
def status (w : σ) (text : String) : Option ℤ :=
  (lex text).map fun cmds => (statuses exec w cmds).getLast?.getD 0

@[simp] theorem length_statuses (w : σ) (cmds : List Command) :
    (statuses exec w cmds).length = cmds.length := by
  induction cmds generalizing w with
  | nil => rfl
  | cons c cs ih => rw [statuses, List.length_cons, List.length_cons, ih]

end Run

/-! ## Quoting -/

/-- The characters that `shlex.quote` leaves alone. -/
def isSafe (c : Char) : Bool := c.isAlphanum || c ∈ ['_', '@', '%', '+', '=', ':', ',', '.', '/', '-']

/-- The characters that do not just belong to a word. -/
def special : List Char :=
  ['\'', '"', ' ', ';', '\\', '`', '\n', '\t', '&', '|', '<', '>', '(', ')', '#']

theorem not_special_of_isSafe {c : Char} (hc : isSafe c = true) : c ∉ special := by
  intro h
  have hall : special.all (fun c => !isSafe c) = true := by decide
  have hno := List.all_eq_true.mp hall c h
  rw [hc] at hno
  cases hno

/-- A character inside single quotes: a single quote is put into double ones. -/
def quoteChar (c : Char) : List Char := if c = '\'' then ['\'', '"', '\'', '"', '\''] else [c]

/-- `shlex.quote`. -/
def quote (s : String) : String :=
  if s = "" then "''"
  else if s.toList.all isSafe then s
  else String.ofList ('\'' :: s.toList.flatMap quoteChar ++ ['\''])

/-- The word of a quoted text. -/
def quoted (s : String) : Word :=
  if s.toList.all isSafe then s.toList.map (·, .bare)
  else s.toList.map fun c => (c, if c = '\'' then .double else .single)

section Quoting

variable (words : Command) (done : List Command)

theorem step_plain {c : Char} (hc : c ∉ special) (word : Option Word) :
    step ⟨.bare, word, words, done⟩ c =
      some ⟨.bare, some (word.getD [] ++ [(c, .bare)]), words, done⟩ := by
  simp only [special, List.mem_cons, List.not_mem_nil, or_false, not_or] at hc
  simp [step, push, hc]

theorem lex_plain {cs : List Char} (hcs : ∀ c ∈ cs, c ∉ special) (word : Word) :
    cs.foldlM step ⟨.bare, some word, words, done⟩ =
      some ⟨.bare, some (word ++ cs.map (·, .bare)), words, done⟩ := by
  induction cs generalizing word with
  | nil => simp [pure]
  | cons c cs ih =>
    rw [List.foldlM_cons, step_plain words done (hcs c List.mem_cons_self), Option.bind_eq_bind,
      Option.bind_some, Option.getD_some, ih fun c' hc' => hcs c' (List.mem_cons_of_mem _ hc')]
    simp

theorem lex_plain_cons {c : Char} {cs : List Char} (hcs : ∀ c' ∈ c :: cs, c' ∉ special)
    (word : Option Word) : (c :: cs).foldlM step ⟨.bare, word, words, done⟩ =
      some ⟨.bare, some (word.getD [] ++ (c :: cs).map (·, .bare)), words, done⟩ := by
  rw [List.foldlM_cons, step_plain words done (hcs c List.mem_cons_self), Option.bind_eq_bind,
    Option.bind_some, lex_plain words done fun c' hc' => hcs c' (List.mem_cons_of_mem _ hc')]
  simp

theorem lex_quoteChars (cs : List Char) (word : Word) :
    (cs.flatMap quoteChar).foldlM step ⟨.single, some word, words, done⟩ =
      some ⟨.single, some (word ++ cs.map fun c => (c, if c = '\'' then .double else .single)),
        words, done⟩ := by
  induction cs generalizing word with
  | nil => simp [pure]
  | cons c cs ih =>
    have hc : (quoteChar c).foldlM step ⟨.single, some word, words, done⟩ =
        some ⟨.single, some (word ++ [(c, if c = '\'' then .double else .single)]), words, done⟩ := by
      by_cases hq : c = '\''
      · subst hq
        rfl
      · rw [quoteChar, if_neg hq, if_neg hq]
        simp [step, push, hq]
    rw [List.flatMap_cons, List.foldlM_append, hc, Option.bind_eq_bind, Option.bind_some, ih]
    simp

/-- **A quoted text** is read as its word, or as the end of the word that has begun. -/
theorem lex_quote (s : String) (word : Option Word) :
    (quote s).toList.foldlM step ⟨.bare, word, words, done⟩ =
      some ⟨.bare, some (word.getD [] ++ quoted s), words, done⟩ := by
  unfold quote
  split
  · next hs =>
    subst hs
    cases word <;> simp [step, turn, quoted]
  · next hne =>
    split
    · next hsafe =>
      obtain ⟨c, cs, hcs⟩ := List.exists_cons_of_ne_nil (mt String.toList_eq_nil_iff.mp hne)
      rw [quoted, if_pos hsafe, hcs]
      rw [hcs, List.all_eq_true] at hsafe
      exact lex_plain_cons words done (fun c' hc' => not_special_of_isSafe (hsafe c' hc')) word
    · next hsafe =>
      have hopen : step ⟨.bare, word, words, done⟩ '\'' =
          some ⟨.single, some (word.getD []), words, done⟩ := rfl
      have hclose (w : Word) : step ⟨.single, some w, words, done⟩ '\'' =
          some ⟨.bare, some w, words, done⟩ := rfl
      rw [quoted, if_neg hsafe, String.toList_ofList, List.cons_append, List.foldlM_cons, hopen,
        Option.bind_eq_bind, Option.bind_some, List.foldlM_append, lex_quoteChars,
        Option.bind_eq_bind, Option.bind_some]
      simp [hclose]

end Quoting

/-! ## Lists of commands -/

/-- A text that is read as a command, wherever it begins. -/
def Reads (text : List Char) (cmd : Command) : Prop :=
  ∀ done, ∃ words word, words ++ [word] = cmd ∧
    text.foldlM step ⟨.bare, none, [], done⟩ = some ⟨.bare, some word, words, done⟩

/-- A text that is read as a word. -/
def IsWord (text : List Char) (word : Word) : Prop :=
  ∀ words done, text.foldlM step ⟨.bare, none, words, done⟩ = some ⟨.bare, some word, words, done⟩

theorem isWord_quote (s : String) : IsWord (quote s).toList (quoted s) :=
  fun words done => lex_quote words done s none

theorem isWord_plain {cs : List Char} (hne : cs ≠ []) (h : ∀ c ∈ cs, c ∉ special) :
    IsWord cs (cs.map (·, .bare)) := by
  intro words done
  cases cs with
  | nil => exact absurd rfl hne
  | cons c cs => exact lex_plain_cons words done h none

theorem isWord_literal {cs : List Char} (hne : cs ≠ [])
    (h : cs.all (fun c => decide (c ∉ special)) = true) : IsWord cs (cs.map (·, .bare)) :=
  isWord_plain hne fun c hc => of_decide_eq_true (List.all_eq_true.mp h c hc)

theorem IsWord.append_quote {text : List Char} {word : Word} (h : IsWord text word) (s : String) :
    IsWord (text ++ (quote s).toList) (word ++ quoted s) := by
  intro words done
  rw [List.foldlM_append, h, Option.bind_eq_bind, Option.bind_some, lex_quote]
  rfl

theorem lex_words {text : List Char} {word : Word} {texts : List (List Char)} {ws : Command}
    (h : List.Forall₂ IsWord (text :: texts) (word :: ws)) (words : Command) (done : List Command) :
    ∃ words' last, words' ++ [last] = words ++ word :: ws ∧
      ([' '].intercalate (text :: texts)).foldlM step ⟨.bare, none, words, done⟩ =
        some ⟨.bare, some last, words', done⟩ := by
  induction texts generalizing text word ws words with
  | nil =>
    cases h with
    | cons hword hrest =>
      cases hrest
      exact ⟨words, word, rfl, by simpa using hword words done⟩
  | cons text' texts ih =>
    cases h with
    | cons hword hrest =>
      cases hrest with
      | @cons _ word' _ ws hword' hrest =>
        obtain ⟨words', last, hwords, hlex⟩ := ih (.cons hword' hrest) (words ++ [word])
        refine ⟨words', last, by simpa using hwords, ?_⟩
        have hcons : [' '].intercalate (text :: text' :: texts) =
            text ++ ' ' :: [' '].intercalate (text' :: texts) := by
          simp [List.intercalate, List.intersperse]
        have hblank : step ⟨.bare, some word, words, done⟩ ' ' =
            some ⟨.bare, none, words ++ [word], done⟩ := rfl
        rw [hcons, List.foldlM_append, hword, Option.bind_eq_bind, Option.bind_some,
          List.foldlM_cons, hblank, Option.bind_eq_bind, Option.bind_some, hlex]

theorem reads_words {text : List Char} {word : Word} {texts : List (List Char)} {ws : Command}
    (h : List.Forall₂ IsWord (text :: texts) (word :: ws)) :
    Reads ([' '].intercalate (text :: texts)) (word :: ws) := fun done => lex_words h [] done

theorem reads_quoted (arg : String) (args : List String) :
    Reads ([' '].intercalate ((arg :: args).map fun a => (quote a).toList))
      ((arg :: args).map quoted) := by
  have hwords (args : List String) : List.Forall₂ IsWord (args.map fun a => (quote a).toList)
      (args.map quoted) := by
    rw [List.forall₂_map_left_iff, List.forall₂_map_right_iff]
    exact List.forall₂_same.mpr fun a _ => isWord_quote a
  exact reads_words (hwords (arg :: args))

/-- **A list joined by `;`** is read as its commands. -/
theorem lex_joined {text : List Char} {cmd : Command} {texts : List (List Char)}
    {cmds : List Command} (h : List.Forall₂ Reads (text :: texts) (cmd :: cmds)) :
    lex (String.ofList ([';', ' '].intercalate (text :: texts))) = some (cmd :: cmds) := by
  suffices hlex : ∀ done, ∃ words word done',
      ([';', ' '].intercalate (text :: texts)).foldlM step ⟨.bare, none, [], done⟩ =
        some ⟨.bare, some word, words, done'⟩ ∧ done' ++ [words ++ [word]] = done ++ cmd :: cmds by
    obtain ⟨words, word, done', hfold, hdone⟩ := hlex []
    rw [lex, String.toList_ofList, hfold]
    simpa [endCommand] using hdone
  induction texts generalizing text cmd cmds with
  | nil =>
    intro done
    cases h with
    | cons hread hrest =>
      cases hrest
      obtain ⟨words, word, hcmd, hfold⟩ := hread done
      exact ⟨words, word, done, by simpa using hfold, by rw [hcmd]⟩
  | cons text' texts ih =>
    intro done
    cases h with
    | cons hread hrest =>
      cases hrest with
      | @cons _ cmd' _ cmds hread' hrest =>
        obtain ⟨words, word, hcmd, hfold⟩ := hread done
        obtain ⟨words', word', done', hfold', hdone⟩ :=
          ih (.cons hread' hrest) (done ++ [words ++ [word]])
        refine ⟨words', word', done', ?_, by rw [hdone, hcmd]; simp⟩
        have hcons : [';', ' '].intercalate (text :: text' :: texts) =
            text ++ ';' :: ' ' :: [';', ' '].intercalate (text' :: texts) := by
          simp [List.intercalate, List.intersperse]
        have hend : step ⟨.bare, some word, words, done⟩ ';' =
            some ⟨.bare, none, [], done ++ [words ++ [word]]⟩ := by
          simp [step, endCommand]
        have hblank (done : List Command) : step ⟨.bare, none, [], done⟩ ' ' =
            some ⟨.bare, none, [], done⟩ := rfl
        rw [hcons, List.foldlM_append, hfold, Option.bind_eq_bind, Option.bind_some,
          List.foldlM_cons, hend, Option.bind_eq_bind, Option.bind_some, List.foldlM_cons, hblank,
          Option.bind_eq_bind, Option.bind_some, hfold']

end AiMeshChat.Lib.Shell
