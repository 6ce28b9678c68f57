import AiMeshChat.Lib.Files
import AiMeshChat.Lib.Pool
import AiMeshChat.Mailbox.Protocol

/-!
# The mailbox directory tree and its atomic operations

The store works on `<root>/<session>/<agent>/{inbox,processing,archive,_corrupt}`
with one directory `history` and a few single files per session. Everything it
does to them is one of the operations `Op`, each of which the file system
performs in one step.

Four things are left to the environment and handed in as the `Choice` of a step:
the clock, random values, the order in which a directory is listed, and whether
the disk fails. A read, write, link, rename or removal may fail with an
`OSError` at any time.

A rename carries an optional `Lease`: the claim that was found to have run out
and the cutoff it was compared with, when that is why a message is moved out of
`processing`. It has no effect on the files.
-/

namespace AiMeshChat.Mailbox

open Lib

/-- The sub-directories of an agent. -/
inductive Box
  | inbox
  | processing
  | archive
  | corrupt
  deriving DecidableEq

/-- The directories of the store. -/
inductive Dir
  | session (sid : String)
  | history (sid : String)
  | box (sid agent : String) (b : Box)
  deriving DecidableEq

/-- The content of a file: a JSON document, or bytes that `json.loads` rejects. -/
inductive Data
  | json (j : Json)
  | junk
  deriving DecidableEq

/-- The length of the file: `send` writes messages with `json.dumps(…, indent=2)`. -/
def Data.size : Data → ℕ
  | .json j => (dumps 0 j).utf8ByteSize
  | .junk => 0

abbrev MPath := Lib.Path Dir
abbrev MFile := Lib.File Data

/-- Why a message leaves `processing` without its owner: the claim that ran out
and the cutoff. -/
structure Lease where
  claim : MPath
  cutoff : ℤ
  deriving DecidableEq

/-- `OSError` and the two subclasses the code tells apart. -/
inductive OsErr
  | notFound
  | exists
  | other
  deriving DecidableEq

/-- The exceptions the store raises or lets through. -/
inductive PyErr
  | value (msg : String)
  | json
  | os (e : OsErr)
  | type (msg : String)
  | attribute
  deriving DecidableEq

/-- The state of the disk: files, directories, and who holds which lock. The
first table is for lock files that are never replaced, the second for locks on
the inode that was opened. -/
structure Disk where
  files : Files Dir Data
  dirs : List Dir
  locks : List (MPath × ℕ)
  inoLocks : List (ℕ × ℕ)

/-- One atomic step of a call. -/
inductive Op
  | fileExists (p : MPath)
  | isDir (d : Dir)
  | mkdir (d : Dir)
  | read (p : MPath)
  | write (p : MPath) (x : Data)
  | writeNew (p : MPath) (x : Data)
  | replace (src dst : MPath) (lease : Option Lease)
  | link (src dst : MPath)
  | unlink (p : MPath)
  | scan (d : Dir)
  | stat (p : MPath)
  | clock
  | random
  | randomText
  | lock (p : MPath)
  | unlock (p : MPath)
  | openFd (p : MPath)
  | flock (ino : ℕ)
  | funlock (ino : ℕ)
  deriving DecidableEq

/-- What the operation answers. -/
abbrev Ans : Op → Type
  | .fileExists _ => Bool
  | .isDir _ => Bool
  | .mkdir _ => Unit
  | .read _ => Except OsErr Data
  | .write _ _ => Except OsErr Unit
  | .writeNew _ _ => Except OsErr Unit
  | .replace _ _ _ => Except OsErr Unit
  | .link _ _ => Except OsErr Unit
  | .unlink _ => Except OsErr Unit
  | .scan _ => List String
  | .stat _ => Except OsErr (ℕ × ℕ)
  | .clock => ℕ
  | .random => ℕ
  | .randomText => String
  | .lock _ => Unit
  | .unlock _ => Unit
  | .openFd _ => Except OsErr ℕ
  | .flock _ => Unit
  | .funlock _ => Unit

/-- What the environment decides at a step: the clock in microseconds, a random
number or text, the order of a listing (names of a smaller rank come first), and
whether the disk fails. -/
structure Choice where
  time : ℕ := 0
  number : ℕ := 0
  text : String := ""
  rank : String → ℕ := fun _ => 0
  fault : Bool := false

namespace Disk

/-- Write `x` to `p` at the time `t`. -/
def write (s : Disk) (p : MPath) (x : Data) (t : ℕ) : Disk :=
  { s with files := s.files.write p x t }

/-- Perform one operation; `none` while a lock is held by another process. -/
def perform (i : ℕ) (o : Op) (c : Choice) (s : Disk) : Option (Ans o × Disk) :=
  match o with
  | .fileExists p => some ((s.files.get? p).isSome, s)
  | .isDir d => some (decide (d ∈ s.dirs), s)
  | .mkdir d => some ((), if d ∈ s.dirs then s else { s with dirs := d :: s.dirs })
  | .read p =>
    if c.fault then some (.error .other, s)
    else match s.files.get? p with
      | none => some (.error .notFound, s)
      | some f => some (.ok f.data, s)
  | .write p x =>
    if c.fault then some (.error .other, s)
    else if p.dir ∉ s.dirs then some (.error .notFound, s)
    else some (.ok (), s.write p x c.time)
  | .writeNew p x =>
    if c.fault then some (.error .other, s)
    else if p.dir ∉ s.dirs then some (.error .notFound, s)
    else if (s.files.get? p).isSome then some (.error .exists, s)
    else some (.ok (), s.write p x c.time)
  | .replace src dst _ =>
    if c.fault then some (.error .other, s)
    else if (s.files.get? src).isNone ∨ dst.dir ∉ s.dirs then some (.error .notFound, s)
    else some (.ok (), { s with files := s.files.move src dst })
  | .link src dst =>
    if c.fault then some (.error .other, s)
    else match s.files.get? src with
      | none => some (.error .notFound, s)
      | some f =>
        if dst.dir ∉ s.dirs then some (.error .notFound, s)
        else if (s.files.get? dst).isSome then some (.error .exists, s)
        else some (.ok (), { s with files := s.files.put dst f })
  | .unlink p =>
    if c.fault then some (.error .other, s)
    else if (s.files.get? p).isNone then some (.error .notFound, s)
    else some (.ok (), { s with files := s.files.del p })
  | .scan d =>
    some ((s.files.names d).insertionSort (fun a b => c.rank a ≤ c.rank b), s)
  | .stat p =>
    match s.files.get? p with
    | none => some (.error .notFound, s)
    | some f => some (.ok (f.mtime, f.data.size), s)
  | .clock => some (c.time, s)
  | .random => some (c.number, s)
  | .randomText => some (c.text, s)
  | .lock p =>
    if (s.locks.lookup p).isSome then none else some ((), { s with locks := (p, i) :: s.locks })
  | .unlock p => some ((), { s with locks := s.locks.filter (· ≠ (p, i)) })
  | .openFd p =>
    match s.files.get? p with
    | some f => some (.ok f.ino, s)
    | none =>
      if p.dir ∉ s.dirs then some (.error .notFound, s)
      else some (.ok s.files.nextIno, s.write p .junk c.time)
  | .flock n =>
    if (s.inoLocks.lookup n).isSome then none
    else some ((), { s with inoLocks := (n, i) :: s.inoLocks })
  | .funlock n => some ((), { s with inoLocks := s.inoLocks.filter (· ≠ (n, i)) })

/-- The kernel drops the locks of a process that dies. -/
def crash (i : ℕ) (s : Disk) : Disk :=
  { s with
    locks := s.locks.filter (·.2 ≠ i)
    inoLocks := s.inoLocks.filter (·.2 ≠ i) }

end Disk

/-- The paths whose content an operation may change. -/
def Op.targets : Op → List MPath
  | .write p _ | .writeNew p _ | .unlink p | .openFd p => [p]
  | .link _ dst => [dst]
  | .replace src dst _ => [src, dst]
  | _ => []

variable {i : ℕ} {o : Op} {c : Choice} {s s' : Disk} {a : Except OsErr Unit} {p : MPath}

/-- **Frame.**  An operation changes nothing outside its targets. -/
theorem Disk.perform_get? {a : Ans o} (h : s.perform i o c = some (a, s')) (hp : p ∉ o.targets) :
    s'.files.get? p = s.files.get? p := by
  cases o <;> simp only [Disk.perform, Op.targets, List.mem_cons, List.not_mem_nil, or_false,
    not_or] at h hp
  case write q x =>
    split_ifs at h <;> cases h <;> first | rfl | exact Files.get?_write_ne _ _ _ hp
  case writeNew q x =>
    split_ifs at h <;> cases h <;> first | rfl | exact Files.get?_write_ne _ _ _ hp
  case replace src dst l =>
    split_ifs at h <;> cases h <;> first | rfl | exact Files.get?_move_ne _ hp.1 hp.2
  case link src dst =>
    cases hsrc : s.files.get? src <;> simp only [hsrc] at h <;> split_ifs at h <;> cases h <;>
      first | rfl | exact Files.get?_put_ne _ _ hp
  case unlink q =>
    split_ifs at h <;> cases h <;> first | rfl | exact Files.get?_del_ne _ hp
  case openFd q =>
    cases hq : s.files.get? q <;> simp only [hq] at h <;> (try split_ifs at h) <;> cases h <;>
      first | rfl | exact Files.get?_write_ne _ _ _ hp
  case read q => cases hq : s.files.get? q <;> simp only [hq] at h <;> split_ifs at h <;> cases h <;> rfl
  case stat q => split at h <;> cases h <;> rfl
  case lock q => split_ifs at h; cases h; rfl
  case flock n => split_ifs at h; cases h; rfl
  case mkdir d => cases h; split_ifs <;> rfl
  all_goals cases h; rfl

/-- Whether the operation is about the lock of a claim. -/
def Op.locking : Op → Bool
  | .lock _ | .unlock _ => true
  | _ => false

/-- Whether the operation is about the lock of an inode. -/
def Op.flocking : Op → Bool
  | .flock _ | .funlock _ => true
  | _ => false

theorem Disk.perform_held {a : Ans o} (h : s.perform i o c = some (a, s')) :
    (o.locking = false → s'.locks = s.locks) ∧ (o.flocking = false → s'.inoLocks = s.inoLocks) := by
  cases o <;> simp only [Disk.perform] at h
  case lock q => split_ifs at h; cases h; exact ⟨fun ho => (by cases ho), fun _ => rfl⟩
  case unlock q => cases h; exact ⟨fun ho => (by cases ho), fun _ => rfl⟩
  case flock n => split_ifs at h; cases h; exact ⟨fun _ => rfl, fun ho => (by cases ho)⟩
  case funlock n => cases h; exact ⟨fun _ => rfl, fun ho => (by cases ho)⟩
  all_goals
    suffices hsame : s'.locks = s.locks ∧ s'.inoLocks = s.inoLocks from
      ⟨fun _ => hsame.1, fun _ => hsame.2⟩
  case read q =>
    cases hq : s.files.get? q <;> simp only [hq] at h <;> split_ifs at h <;> cases h <;>
      exact ⟨rfl, rfl⟩
  case link src dst =>
    cases hsrc : s.files.get? src <;> simp only [hsrc] at h <;> split_ifs at h <;> cases h <;>
      exact ⟨rfl, rfl⟩
  case openFd q =>
    cases hq : s.files.get? q <;> simp only [hq] at h <;> (try split_ifs at h) <;> cases h <;>
      exact ⟨rfl, rfl⟩
  case stat q => split at h <;> cases h <;> exact ⟨rfl, rfl⟩
  case mkdir d => cases h; split_ifs <;> exact ⟨rfl, rfl⟩
  case write | writeNew | replace | unlink => split_ifs at h <;> cases h <;> exact ⟨rfl, rfl⟩
  all_goals cases h; exact ⟨rfl, rfl⟩

theorem Disk.perform_locks {a : Ans o} (h : s.perform i o c = some (a, s'))
    (ho : o.locking = false) : s'.locks = s.locks := (Disk.perform_held h).1 ho

theorem Disk.perform_inoLocks {a : Ans o} (h : s.perform i o c = some (a, s'))
    (ho : o.flocking = false) : s'.inoLocks = s.inoLocks := (Disk.perform_held h).2 ho

theorem Disk.perform_replace {src dst : MPath} {l : Option Lease}
    (h : s.perform i (.replace src dst l) c = some (a, s')) : (∃ e, a = .error e ∧ s' = s) ∨
    (a = .ok () ∧ (∃ f, s.files.get? src = some f) ∧
      s' = { s with files := s.files.move src dst }) := by
  simp only [Disk.perform] at h
  split_ifs at h with hf hn
  · cases h; exact .inl ⟨_, rfl, rfl⟩
  · cases h; exact .inl ⟨_, rfl, rfl⟩
  · cases h
    simp only [not_or, Option.isNone_iff_eq_none] at hn
    exact .inr ⟨rfl, Option.ne_none_iff_exists'.mp hn.1, rfl⟩

theorem Disk.perform_read {a : Except OsErr Data} (h : s.perform i (.read p) c = some (a, s')) :
    s' = s ∧ ((c.fault = true ∧ a = .error .other) ∨
      (s.files.get? p = none ∧ a = .error .notFound) ∨
      ∃ f, s.files.get? p = some f ∧ a = .ok f.data) := by
  simp only [Disk.perform] at h
  cases hp : s.files.get? p with
  | none =>
    simp only [hp] at h
    split_ifs at h with hf <;> cases h
    · exact ⟨rfl, .inl ⟨hf, rfl⟩⟩
    · exact ⟨rfl, .inr (.inl ⟨rfl, rfl⟩)⟩
  | some f =>
    simp only [hp] at h
    split_ifs at h with hf <;> cases h
    · exact ⟨rfl, .inl ⟨hf, rfl⟩⟩
    · exact ⟨rfl, .inr (.inr ⟨f, rfl, rfl⟩)⟩

theorem Disk.perform_write {x : Data} (h : s.perform i (.write p x) c = some (a, s')) :
    (∃ e, a = .error e ∧ s' = s) ∨
    (a = .ok () ∧ ∃ f : MFile, f.data = x ∧
      ∀ r, s'.files.get? r = if r = p then some f else s.files.get? r) := by
  simp only [Disk.perform] at h
  split_ifs at h <;> cases h
  · exact .inl ⟨_, rfl, rfl⟩
  · obtain ⟨n, hn⟩ := Files.get?_write s.files p x c.time
    exact .inr ⟨rfl, _, rfl, hn⟩
  · exact .inl ⟨_, rfl, rfl⟩

theorem Disk.perform_writeNew {x : Data} (h : s.perform i (.writeNew p x) c = some (a, s')) :
    (∃ e, a = .error e ∧ s' = s) ∨
    (a = .ok () ∧ s.files.get? p = none ∧ ∃ f : MFile, f.data = x ∧
      ∀ r, s'.files.get? r = if r = p then some f else s.files.get? r) := by
  simp only [Disk.perform] at h
  split_ifs at h with _ _ hnew <;> cases h
  · exact .inl ⟨_, rfl, rfl⟩
  · exact .inl ⟨_, rfl, rfl⟩
  · obtain ⟨n, hn⟩ := Files.get?_write s.files p x c.time
    exact .inr ⟨rfl, by simpa using hnew, _, rfl, hn⟩
  · exact .inl ⟨_, rfl, rfl⟩

theorem Disk.perform_link {src dst : MPath} (h : s.perform i (.link src dst) c = some (a, s')) :
    (∃ e, a = .error e ∧ s' = s) ∨
    (a = .ok () ∧ ∃ f, s.files.get? src = some f ∧ s.files.get? dst = none ∧
      ∀ r, s'.files.get? r = if r = dst then some f else s.files.get? r) := by
  simp only [Disk.perform] at h
  cases hsrc : s.files.get? src with
  | none =>
    simp only [hsrc] at h
    split_ifs at h <;> cases h <;> exact .inl ⟨_, rfl, rfl⟩
  | some f =>
    simp only [hsrc] at h
    split_ifs at h with _ _ hnew <;> cases h
    · exact .inl ⟨_, rfl, rfl⟩
    · exact .inl ⟨_, rfl, rfl⟩
    · exact .inr ⟨rfl, f, rfl, by simpa using hnew, fun r => Files.get?_put _ _ _ _⟩
    · exact .inl ⟨_, rfl, rfl⟩

theorem Disk.perform_unlink (h : s.perform i (.unlink p) c = some (a, s')) :
    s' = s ∨ ∀ r, s'.files.get? r = if r = p then none else s.files.get? r := by
  simp only [Disk.perform] at h
  split_ifs at h <;> cases h
  · exact .inl rfl
  · exact .inl rfl
  · exact .inr fun r => Files.get?_del _ _ _

/-- The file system as the world of store calls. -/
def world : World Op Ans Disk Choice := ⟨Disk.perform, Disk.crash⟩

/-- A call of the store. -/
abbrev Call := Prog Op Ans PyErr

/-! ## The operations as calls -/

def fileExists (p : MPath) : Call Bool := Prog.op (Op.fileExists p)
def isDir (d : Dir) : Call Bool := Prog.op (Op.isDir d)
def mkdir (d : Dir) : Call Unit := Prog.op (Op.mkdir d)
def readBytes (p : MPath) : Call (Except OsErr Data) := Prog.op (Op.read p)
def tryWrite (p : MPath) (x : Data) : Call (Except OsErr Unit) := Prog.op (Op.write p x)
def tryWriteNew (p : MPath) (x : Data) : Call (Except OsErr Unit) := Prog.op (Op.writeNew p x)
def tryReplace (src dst : MPath) (lease : Option Lease := none) : Call (Except OsErr Unit) :=
  Prog.op (Op.replace src dst lease)
def tryLink (src dst : MPath) : Call (Except OsErr Unit) := Prog.op (Op.link src dst)
def tryUnlink (p : MPath) : Call (Except OsErr Unit) := Prog.op (Op.unlink p)
def scan (d : Dir) : Call (List String) := Prog.op (Op.scan d)
def stat (p : MPath) : Call (Except OsErr (ℕ × ℕ)) := Prog.op (Op.stat p)
def clock : Call ℕ := Prog.op Op.clock
def random : Call ℕ := Prog.op Op.random
def randomText : Call String := Prog.op Op.randomText
def lock (p : MPath) : Call Unit := Prog.op (Op.lock p)
def unlock (p : MPath) : Call Unit := Prog.op (Op.unlock p)
def openFd (p : MPath) : Call (Except OsErr ℕ) := Prog.op (Op.openFd p)
def flock (n : ℕ) : Call Unit := Prog.op (Op.flock n)
def funlock (n : ℕ) : Call Unit := Prog.op (Op.funlock n)

/-- Raise the error of an operation that the source does not catch. -/
def orRaise {α : Type} : Except OsErr α → Call α
  | .ok a => .ret a
  | .error e => .raise (.os e)

/-- `if not c: raise e`. -/
def require (c : Bool) (e : PyErr) : Call Unit := if c then .ret () else .raise e

def write (p : MPath) (x : Data) : Call Unit := do orRaise (← tryWrite p x)
def replace (src dst : MPath) (lease : Option Lease := none) : Call Unit := do
  orRaise (← tryReplace src dst lease)
def unlink (p : MPath) : Call Unit := do orRaise (← tryUnlink p)

/-- `p.unlink(missing_ok=True)`. -/
def unlinkMissingOk (p : MPath) : Call Unit := do
  match ← tryUnlink p with
  | .error .notFound => .ret ()
  | r => orRaise r

/-- `json.loads(p.read_bytes())`. -/
def loadJson (p : MPath) : Call Json := do
  match ← orRaise (← readBytes p) with
  | .json j => .ret j
  | .junk => .raise .json

end AiMeshChat.Mailbox
