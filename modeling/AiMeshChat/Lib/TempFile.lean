import Mathlib.Data.Nat.Notation
import Mathlib.Logic.Function.Basic

/-!
# A file that is replaced by renaming

A file, and a temporary one beside it that is written first and then renamed. Any number
of processes do so with the same two names. `open` cuts the file of the temporary name to
nothing, or makes one; a write goes to the file that was opened, at the place the process
has come to, whatever its name is by then; and `rename` moves whatever is there.

`Settled` says that no process can change the file any more. Everything but a rename keeps
it, and the content; a rename keeps it if no process has the temporary file open.
-/

namespace AiMeshChat.Lib

/-- A file that a process has open, and the place it has come to. -/
structure Opened where
  proc : ℕ
  ino : ℕ
  offset : ℕ

/-- Two names and the files by their inodes. -/
structure TempFile where
  saved : Option ℕ
  tmp : Option ℕ
  bytes : ℕ → List UInt8
  next : ℕ
  fds : List Opened := []
  /-- The process that opened a file last. -/
  opener : ℕ → ℕ := fun _ => 0

namespace TempFile

/-- What the file holds. -/
def content (d : TempFile) : Option (List UInt8) := d.saved.map d.bytes

/-- A write at an offset; zeros fill the gap behind the end of the file. -/
def overwrite (bs : List UInt8) (offset : ℕ) (chunk : List UInt8) : List UInt8 :=
  bs.take offset ++ List.replicate (offset - bs.length) 0 ++ chunk ++ bs.drop (offset + chunk.length)

def close (d : TempFile) (i : ℕ) : TempFile := { d with fds := d.fds.filter (·.proc ≠ i) }

/-- `open(tmp, "w")`. -/
def truncate (d : TempFile) (i : ℕ) : TempFile :=
  let ino := d.tmp.getD d.next
  { d with
    tmp := some ino
    bytes := Function.update d.bytes ino []
    next := if d.tmp.isSome then d.next else d.next + 1
    fds := ⟨i, ino, 0⟩ :: d.fds
    opener := Function.update d.opener ino i }

/-- The process writes to the file that it has open. -/
def write (d : TempFile) (i : ℕ) (chunk : List UInt8) : TempFile :=
  match d.fds.find? (·.proc = i) with
  | none => d
  | some f =>
    { d with
      bytes := Function.update d.bytes f.ino (overwrite (d.bytes f.ino) f.offset chunk)
      fds := d.fds.map fun g =>
        if g.proc = i then { g with offset := g.offset + chunk.length } else g }

/-- The file of the temporary name takes the place of the file; there may be none. -/
def rename (d : TempFile) : TempFile :=
  match d.tmp with
  | none => d
  | some ino => { d with saved := some ino, tmp := none }

/-- No process can change the file. -/
structure Settled (d : TempFile) : Prop where
  old : ∀ ino, d.saved = some ino → ino < d.next
  new : ∀ ino, d.tmp = some ino → ino < d.next
  apart : ∀ ino, d.saved = some ino → d.tmp ≠ some ino
  closed : ∀ ino, d.saved = some ino → ∀ f ∈ d.fds, f.ino ≠ ino

variable {d : TempFile} {i : ℕ}

theorem Settled.close (h : d.Settled) : (d.close i).Settled :=
  { h with closed := fun ino hino f hf => h.closed ino hino f (List.mem_filter.mp hf).1 }

theorem Settled.ne_tmp (h : d.Settled) {ino : ℕ} (hino : d.saved = some ino) :
    ino ≠ d.tmp.getD d.next := by
  have hold := h.old ino hino
  have hapart := h.apart ino hino
  cases htmp : d.tmp with
  | none =>
    show ino ≠ d.next
    omega
  | some ino' => exact fun heq => hapart (htmp.trans (congrArg some heq.symm))

theorem Settled.truncate (h : d.Settled) : (d.truncate i).Settled where
  old ino hino := by
    have hold := h.old ino hino
    simp only [TempFile.truncate]
    split <;> omega
  new ino hino := by
    cases Option.some.inj hino
    cases htmp : d.tmp with
    | none => simp [TempFile.truncate, htmp]
    | some ino' => simpa [TempFile.truncate, htmp] using h.new ino' htmp
  apart ino hino heq := h.ne_tmp hino (Option.some.inj heq).symm
  closed ino hino f hf := by
    rcases List.mem_cons.mp hf with rfl | hf
    · exact (h.ne_tmp hino).symm
    · exact h.closed ino hino f hf

theorem content_truncate (h : d.Settled) : (d.truncate i).content = d.content := by
  show d.saved.map (Function.update d.bytes (d.tmp.getD d.next) []) = d.saved.map d.bytes
  refine Option.map_congr fun ino hino => ?_
  exact Function.update_of_ne (h.ne_tmp hino) _ _

theorem write_cases (d : TempFile) (i : ℕ) (chunk : List UInt8) : d.write i chunk = d ∨
    ∃ f ∈ d.fds, ∃ bs, d.write i chunk = { d with
      bytes := Function.update d.bytes f.ino bs
      fds := d.fds.map fun g =>
        if g.proc = i then { g with offset := g.offset + chunk.length } else g } := by
  unfold write
  cases hf : d.fds.find? (·.proc = i) with
  | none => exact .inl rfl
  | some f => exact .inr ⟨f, List.mem_of_find?_eq_some hf, _, rfl⟩

theorem Settled.write (h : d.Settled) (chunk : List UInt8) : (d.write i chunk).Settled := by
  rcases write_cases d i chunk with heq | ⟨f, -, bs, heq⟩
  · rw [heq]
    exact h
  · rw [heq]
    refine ⟨h.old, h.new, h.apart, fun ino hino g hg => ?_⟩
    obtain ⟨g', hg', rfl⟩ := List.mem_map.mp hg
    split <;> exact h.closed ino hino g' hg'

theorem content_write (h : d.Settled) (chunk : List UInt8) :
    (d.write i chunk).content = d.content := by
  rcases write_cases d i chunk with heq | ⟨f, hf, bs, heq⟩
  · rw [heq]
  · rw [heq]
    show d.saved.map (Function.update d.bytes f.ino bs) = d.saved.map d.bytes
    exact Option.map_congr fun ino hino =>
      Function.update_of_ne (h.closed ino hino f hf).symm _ _

theorem Settled.rename (h : d.Settled) {ino : ℕ} (htmp : d.tmp = some ino)
    (hclosed : ∀ f ∈ d.fds, f.ino ≠ ino) : d.rename.Settled := by
  simp only [TempFile.rename, htmp]
  refine ⟨fun ino' hino => ?_, nofun, nofun, fun ino' hino => ?_⟩
  · cases hino
    exact h.new ino htmp
  · cases hino
    exact hclosed

theorem content_rename {ino : ℕ} (htmp : d.tmp = some ino) :
    d.rename.content = some (d.bytes ino) := by
  simp only [TempFile.rename, htmp]
  rfl

theorem rename_of_none (htmp : d.tmp = none) : d.rename = d := by
  simp only [TempFile.rename, htmp]

end TempFile

end AiMeshChat.Lib
