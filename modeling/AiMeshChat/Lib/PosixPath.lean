import Mathlib.Data.List.Basic

/-!
# Paths

A path is a text whose parts are divided by `/`. The empty part and `.` lead nowhere, `..` leads
to the directory above; what is left of the parts without the first two are the names
(`os.path.normpath` and `pathlib` drop them alike). `pathlib` keeps a `..`, and `normpath` lets
it cancel the name before it.

Where a path leads to is meant without symbolic links: `resolve` follows the names from the root.
-/

namespace AiMeshChat.Lib.Posix

abbrev Name := List Char

def dotdot : Name := ['.', '.']

def parts (path : List Char) : List Name := path.splitOn '/'

/-- The part leads somewhere. -/
def Leads (c : Name) : Prop := c ≠ [] ∧ c ≠ ['.']

instance (c : Name) : Decidable (Leads c) := inferInstanceAs (Decidable (c ≠ [] ∧ c ≠ ['.']))

def names (path : List Char) : List Name := (parts path).filter fun c => Leads c

/-- `os.path.isabs`. -/
def isAbs (path : List Char) : Bool := path.head? = some '/'

/-! ## `normpath` -/

/-- One round of the loop of `os.path.normpath`. -/
def normStep (abs : Bool) (new : List Name) (comp : Name) : List Name :=
  if comp = [] ∨ comp = ['.'] then new
  else if comp ≠ dotdot ∨ (abs = false ∧ new = []) ∨ new.getLast? = some dotdot then new ++ [comp]
  else new.dropLast

def normNames (path : List Char) : List Name := (parts path).foldl (normStep (isAbs path)) []

/-- `os.path.normpath`. -/
def normpath (path : List Char) : List Char :=
  let slashes :=
    if !isAbs path then [] else if path.take 2 = ['/', '/'] ∧ path.take 3 ≠ ['/', '/', '/'] then
      ['/', '/'] else ['/']
  let text := slashes ++ ['/'].intercalate (normNames path)
  if text = [] then ['.'] else text

theorem parts_append (path more : List Char) : parts (path ++ '/' :: more) = parts path ++ parts more :=
  List.splitOn_append_cons_of_beq _ _ (beq_self_eq_true '/')

theorem names_append (path more : List Char) : names (path ++ '/' :: more) = names path ++ names more := by
  rw [names, parts_append, List.filter_append]
  rfl

theorem mem_names {path : List Char} {c : Name} : c ∈ names path ↔ c ∈ parts path ∧ Leads c := by
  rw [names, List.mem_filter, decide_eq_true_eq]

theorem dotdot_mem_names {path : List Char} : dotdot ∈ names path ↔ dotdot ∈ parts path := by
  rw [mem_names]
  exact and_iff_left (by decide)

theorem parts_of_no_slash {c : Name} (h : '/' ∉ c) : parts c = [c] := by
  induction c with
  | nil => rfl
  | cons a c ih =>
    have ha : a ≠ '/' := fun heq => h (heq ▸ List.mem_cons_self)
    have hc := ih fun hc => h (List.mem_cons_of_mem _ hc)
    rw [parts] at hc ⊢
    rw [List.splitOn_cons_eq_if_modifyHead, if_neg (by simpa using ha), hc]
    rfl

theorem names_of_no_slash {c : Name} (h : '/' ∉ c) (hc : Leads c) : names c = [c] := by
  rw [names, parts_of_no_slash h, List.filter_cons_of_pos (by simpa using hc), List.filter_nil]

/-- Without a `..` nothing is cancelled. -/
theorem foldl_normStep {abs : Bool} {comps : List Name} (h : dotdot ∉ comps) (new : List Name) :
    comps.foldl (normStep abs) new = new ++ comps.filter fun c => Leads c := by
  induction comps generalizing new with
  | nil => simp
  | cons c comps ih =>
    have hc : c ≠ dotdot := fun heq => h (heq ▸ List.mem_cons_self)
    rw [List.foldl_cons, ih fun hm => h (List.mem_cons_of_mem _ hm)]
    by_cases hl : Leads c
    · have hnot : ¬ (c = [] ∨ c = ['.']) := by
        rintro (heq | heq)
        · exact hl.1 heq
        · exact hl.2 heq
      rw [normStep, if_neg hnot, if_pos (.inl hc), List.filter_cons_of_pos (by simpa using hl),
        List.append_assoc]
      rfl
    · have hout : c = [] ∨ c = ['.'] := by
        by_contra hnot
        exact hl ⟨fun heq => hnot (.inl heq), fun heq => hnot (.inr heq)⟩
      rw [normStep, if_pos hout, List.filter_cons_of_neg (by simpa using hl)]

theorem normNames_eq {path : List Char} (h : dotdot ∉ parts path) : normNames path = names path := by
  rw [normNames, foldl_normStep h, List.nil_append, names]

/-! ## Where a path leads to -/

/-- `base / path` of `pathlib`, for an absolute `base`. -/
def join (base : List Name) (path : List Char) : List Name :=
  if isAbs path then names path else base ++ names path

theorem join_name (base : List Name) {c : Name} (h : '/' ∉ c) (hc : Leads c) :
    join base c = base ++ [c] := by
  have habs : isAbs c = false := by
    rw [isAbs, decide_eq_false_iff_not]
    intro hhead
    exact h (List.mem_of_head? hhead)
  rw [join, habs, names_of_no_slash h hc]
  rfl

def follow (dir : List Name) (c : Name) : List Name :=
  if c = dotdot then dir.dropLast else dir ++ [c]

/-- The directory that the names lead to from the root. -/
def resolve (path : List Name) : List Name := path.foldl follow []

theorem resolve_append (p q : List Name) : resolve (p ++ q) = q.foldl follow (resolve p) :=
  List.foldl_append

theorem resolve_concat (p : List Name) {c : Name} (h : c ≠ dotdot) :
    resolve (p ++ [c]) = resolve p ++ [c] := by
  rw [resolve_append, List.foldl_cons, List.foldl_nil, follow, if_neg h]

theorem resolve_append_of_not_mem (p : List Name) {q : List Name} (h : dotdot ∉ q) :
    resolve (p ++ q) = resolve p ++ q := by
  induction q generalizing p with
  | nil => simp
  | cons c q ih =>
    have hc : c ≠ dotdot := fun heq => h (heq ▸ List.mem_cons_self)
    rw [List.append_cons, ih _ fun hq => h (List.mem_cons_of_mem _ hq), resolve_append p [c],
      List.foldl_cons, List.foldl_nil, follow, if_neg hc, List.append_assoc]
    rfl

theorem resolve_parent (p : List Name) : resolve (p ++ [dotdot]) = (resolve p).dropLast := by
  rw [resolve_append, List.foldl_cons, List.foldl_nil, follow, if_pos rfl]

/-- A name that a directory can have. -/
def EntryName : Type := { c : Name // Leads c ∧ c ≠ dotdot ∧ '/' ∉ c }

/-- `p` is `dir` or lies below it. -/
def Under (dir p : List Name) : Prop := resolve dir <+: resolve p

/-- `p` lies below `dir`. -/
def StrictlyUnder (dir p : List Name) : Prop := Under dir p ∧ resolve p ≠ resolve dir

theorem under_append (dir : List Name) {q : List Name} (h : dotdot ∉ q) : Under dir (dir ++ q) := by
  rw [Under, resolve_append_of_not_mem dir h]
  exact List.prefix_append _ _

theorem strictlyUnder_concat (dir : List Name) {c : Name} (h : c ≠ dotdot) :
    StrictlyUnder dir (dir ++ [c]) := by
  refine ⟨under_append dir (by simpa using h.symm), ?_⟩
  rw [resolve_concat dir h]
  simp

end AiMeshChat.Lib.Posix
