import Mathlib.Data.List.AList
import Mathlib.Data.Nat.Notation

/-!
# A file store with atomic operations

Files lie in directories `D` under a name and hold a value of `δ` with a
modification time and an inode number. The operations are those that a file
system performs in one step: look, create or overwrite, link, remove and rename.
A rename takes the file with its time and its inode and replaces what lies at
the target; a new file gets an inode of its own.

Only what a path holds afterwards matters to a caller, so each operation comes
with the equation for `Files.get?` of an arbitrary path, and `Files.names` (the
listing of a directory) with the fact that it lists the paths that hold
something.
-/

namespace AiMeshChat.Lib

/-- A name in a directory. -/
structure Path (D : Type) where
  dir : D
  name : String
  deriving DecidableEq

/-- What a path holds. -/
structure File (δ : Type) where
  data : δ
  mtime : ℕ
  ino : ℕ
  deriving DecidableEq

/-- The files of all directories, and the next inode number. -/
structure Files (D δ : Type) where
  entries : AList (fun _ : Path D => File δ)
  nextIno : ℕ

namespace Files

variable {D δ : Type}

/-- No files. -/
def empty : Files D δ := ⟨∅, 0⟩

variable [DecidableEq D]

/-- The file at `p`. -/
def get? (fs : Files D δ) (p : Path D) : Option (File δ) := fs.entries.lookup p

/-- Let `p` hold `f`. -/
def put (fs : Files D δ) (p : Path D) (f : File δ) : Files D δ :=
  ⟨fs.entries.insert p f, fs.nextIno⟩

/-- Remove the file at `p`, if there is one. -/
def del (fs : Files D δ) (p : Path D) : Files D δ := ⟨fs.entries.erase p, fs.nextIno⟩

/-- Create or overwrite the file at `p`. -/
def write (fs : Files D δ) (p : Path D) (x : δ) (time : ℕ) : Files D δ :=
  match fs.get? p with
  | some f => fs.put p ⟨x, time, f.ino⟩
  | none => { fs.put p ⟨x, time, fs.nextIno⟩ with nextIno := fs.nextIno + 1 }

/-- Rename `src` to `dst`; nothing happens when there is no `src`. -/
def move (fs : Files D δ) (src dst : Path D) : Files D δ :=
  match fs.get? src with
  | none => fs
  | some f => (fs.del src).put dst f

/-- The names in a directory. -/
def names (fs : Files D δ) (d : D) : List String :=
  fs.entries.entries.filterMap fun e => if e.1.dir = d then some e.1.name else none

@[simp] theorem get?_empty (p : Path D) : (empty : Files D δ).get? p = none := rfl

theorem get?_put (fs : Files D δ) (p q : Path D) (f : File δ) :
    (fs.put p f).get? q = if q = p then some f else fs.get? q := by
  split_ifs with h
  · subst h; exact AList.lookup_insert fs.entries
  · exact AList.lookup_insert_ne h

theorem get?_del (fs : Files D δ) (p q : Path D) :
    (fs.del p).get? q = if q = p then none else fs.get? q := by
  split_ifs with h
  · subst h; exact AList.lookup_erase q fs.entries
  · exact AList.lookup_erase_ne h

@[simp] theorem get?_put_self (fs : Files D δ) (p : Path D) (f : File δ) :
    (fs.put p f).get? p = some f := by rw [get?_put, if_pos rfl]

variable {p q src : Path D} {fs : Files D δ} {d : D}

theorem get?_put_ne (fs : Files D δ) (f : File δ) (h : q ≠ p) :
    (fs.put p f).get? q = fs.get? q := by rw [get?_put, if_neg h]

@[simp] theorem get?_del_self (fs : Files D δ) (p : Path D) : (fs.del p).get? p = none := by
  rw [get?_del, if_pos rfl]

theorem get?_del_ne (fs : Files D δ) (h : q ≠ p) :
    (fs.del p).get? q = fs.get? q := by rw [get?_del, if_neg h]

theorem get?_write (fs : Files D δ) (p : Path D) (x : δ) (t : ℕ) :
    ∃ n, ∀ q, (fs.write p x t).get? q = if q = p then some ⟨x, t, n⟩ else fs.get? q := by
  cases h : fs.get? p with
  | some f => exact ⟨f.ino, fun q => by rw [write, h]; exact get?_put fs p q _⟩
  | none => exact ⟨fs.nextIno, fun q => by rw [write, h]; exact get?_put fs p q _⟩

theorem get?_write_ne (fs : Files D δ) (x : δ) (t : ℕ) (h : q ≠ p) :
    (fs.write p x t).get? q = fs.get? q := by
  obtain ⟨n, hn⟩ := get?_write fs p x t
  rw [hn, if_neg h]

theorem get?_write_self (fs : Files D δ) (p : Path D) (x : δ) (t : ℕ) :
    ∃ n, (fs.write p x t).get? p = some ⟨x, t, n⟩ := by
  obtain ⟨n, hn⟩ := get?_write fs p x t
  exact ⟨n, by rw [hn, if_pos rfl]⟩

theorem del_of_none (h : fs.get? p = none) : fs.del p = fs := by
  have hkeys : p ∉ fs.entries.entries.keys := AList.lookup_eq_none.mp h
  have he : fs.entries.erase p = fs.entries := AList.ext (List.kerase_of_notMem_keys hkeys)
  rw [del, he]

theorem move_of_none (h : fs.get? src = none) (dst : Path D) :
    fs.move src dst = fs := by rw [move, h]

theorem get?_move {f : File δ} (h : fs.get? src = some f)
    (dst q : Path D) : (fs.move src dst).get? q =
      if q = dst then some f else if q = src then none else fs.get? q := by
  rw [move, h]
  simp only [get?_put, get?_del]

theorem get?_move_ne (fs : Files D δ) {dst : Path D} (hs : q ≠ src) (hd : q ≠ dst) :
    (fs.move src dst).get? q = fs.get? q := by
  cases h : fs.get? src with
  | none => rw [move_of_none h]
  | some f => rw [get?_move h, if_neg hd, if_neg hs]

theorem mem_names {name : String} : name ∈ fs.names d ↔ ∃ f, fs.get? ⟨d, name⟩ = some f := by
  simp only [names, List.mem_filterMap]
  constructor
  · rintro ⟨⟨p, f⟩, hmem, he⟩
    split_ifs at he with hd
    simp only [Option.some.injEq] at he
    subst he
    subst hd
    exact ⟨f, AList.mem_lookup_iff.mpr hmem⟩
  · rintro ⟨f, hf⟩
    exact ⟨⟨⟨d, name⟩, f⟩, AList.mem_lookup_iff.mp hf, by simp⟩

theorem names_nodup (fs : Files D δ) (d : D) : (fs.names d).Nodup := by
  have hkeys : (fs.entries.entries.map Sigma.fst).Nodup := fs.entries.nodupKeys
  refine List.Pairwise.filterMap _ ?_ (List.pairwise_map.mp hkeys)
  intro e e' hne name hname name' hname'
  split_ifs at hname hname' with hd hd'
  cases hname
  cases hname'
  intro heq
  refine hne ?_
  cases hp : e.1
  cases hp' : e'.1
  simp_all

theorem filterMap_kerase (h : p.dir ≠ d) (l : List (Sigma fun _ : Path D => File δ)) :
    ((l.kerase p).filterMap fun e => if e.1.dir = d then some e.1.name else none) =
      l.filterMap fun e => if e.1.dir = d then some e.1.name else none := by
  induction l with
  | nil => rfl
  | cons e l ih =>
    by_cases he : p = e.1
    · rw [List.kerase_cons_eq he, List.filterMap_cons, if_neg (he ▸ h)]
    · rw [List.kerase_cons_ne he, List.filterMap_cons, List.filterMap_cons, ih]

theorem names_del_ne (fs : Files D δ) (h : p.dir ≠ d) :
    (fs.del p).names d = fs.names d := filterMap_kerase h fs.entries.entries

theorem names_put_ne (fs : Files D δ) (f : File δ) (h : p.dir ≠ d) :
    (fs.put p f).names d = fs.names d := by
  refine Eq.trans ?_ (names_del_ne fs h)
  show ((⟨p, f⟩ :: fs.entries.entries.kerase p).filterMap _) = _
  rw [List.filterMap_cons, if_neg h]
  rfl

theorem names_write_ne (fs : Files D δ) (x : δ) (t : ℕ) (h : p.dir ≠ d) :
    (fs.write p x t).names d = fs.names d := by
  unfold write
  split
  · exact names_put_ne fs _ h
  · exact names_put_ne fs _ h

end Files

end AiMeshChat.Lib
