import Mathlib.Data.List.Count
import Mathlib.Data.Nat.Notation

/-!
# A buffered reader of lines

A writer puts elements into a pipe. A reader moves some of them at a time from the pipe
into a buffer of its own, and takes whole lines from the front of the buffer: everything up
to the first separator, which belongs to the line.

`taken_eq_iff` says when nothing complete is left in the buffer.
-/

namespace AiMeshChat.Lib

section

variable {α : Type} {p : α → Bool}

/-- The first line and what follows it, if there is a whole line. -/
def firstLine (p : α → Bool) : List α → Option (List α × List α)
  | [] => none
  | c :: cs =>
    if p c then some ([c], cs)
    else (firstLine p cs).map fun r => (c :: r.1, r.2)

/-- The whole lines, each with its separator. -/
def fullLines (p : α → Bool) : List α → List (List α)
  | [] => []
  | c :: cs =>
    if p c then [c] :: fullLines p cs
    else match fullLines p cs with
      | [] => []
      | l :: ls => (c :: l) :: ls

attribute [local simp] firstLine fullLines

theorem firstLine_eq_none {cs : List α} : firstLine p cs = none ↔ cs.countP p = 0 := by
  induction cs with
  | nil => exact ⟨fun _ => rfl, fun _ => rfl⟩
  | cons c cs ih =>
    rw [firstLine]
    by_cases hc : p c = true
    · rw [if_pos hc, List.countP_cons_of_pos hc]
      exact ⟨fun h => (Option.some_ne_none _ h).elim, fun h => by omega⟩
    · rw [if_neg hc, List.countP_cons_of_neg hc, Option.map_eq_none_iff]
      exact ih

theorem firstLine_eq_some {cs line rest : List α} (h : firstLine p cs = some (line, rest)) :
    cs = line ++ rest ∧ line.countP p = 1 ∧ fullLines p cs = line :: fullLines p rest := by
  induction cs generalizing line with
  | nil => cases h
  | cons c cs ih =>
    rw [firstLine] at h
    by_cases hc : p c = true
    · rw [if_pos hc] at h
      cases h
      rw [fullLines, if_pos hc]
      exact ⟨rfl, by rw [List.countP_singleton, if_pos hc], rfl⟩
    · rw [if_neg hc] at h
      obtain ⟨⟨l, r⟩, hl, hr⟩ := Option.map_eq_some_iff.mp h
      cases hr
      obtain ⟨hcs, hcount, hlines⟩ := ih hl
      refine ⟨by rw [hcs]; rfl, by rw [List.countP_cons_of_neg hc]; exact hcount, ?_⟩
      rw [fullLines, if_neg hc, hlines]

theorem fullLines_eq_nil {cs : List α} : fullLines p cs = [] ↔ cs.countP p = 0 := by
  induction cs with
  | nil => exact ⟨fun _ => rfl, fun _ => rfl⟩
  | cons c cs ih =>
    rw [fullLines]
    by_cases hc : p c = true
    · rw [if_pos hc, List.countP_cons_of_pos hc]
      exact ⟨fun h => (List.cons_ne_nil _ _ h).elim, fun h => by omega⟩
    · rw [if_neg hc, List.countP_cons_of_neg hc, ← ih]
      cases fullLines p cs with
      | nil => exact ⟨fun _ => rfl, fun _ => rfl⟩
      | cons l ls => exact ⟨fun h => (List.cons_ne_nil _ _ h).elim,
          fun h => (List.cons_ne_nil _ _ h).elim⟩

theorem fullLines_append {line : List α} (hline : firstLine p line = some (line, []))
    (rest : List α) : fullLines p (line ++ rest) = line :: fullLines p rest := by
  induction line with
  | nil => cases hline
  | cons c line ih =>
    rw [firstLine] at hline
    by_cases hc : p c = true
    · rw [if_pos hc] at hline
      cases hline
      rw [List.singleton_append, fullLines, if_pos hc]
    · rw [if_neg hc] at hline
      obtain ⟨⟨l, r⟩, hl, hr⟩ := Option.map_eq_some_iff.mp hline
      cases hr
      rw [List.cons_append, fullLines, if_neg hc, ih hl]

theorem firstLine_self {cs line rest : List α} (h : firstLine p cs = some (line, rest)) :
    firstLine p line = some (line, []) := by
  induction cs generalizing line with
  | nil => cases h
  | cons c cs ih =>
    rw [firstLine] at h
    by_cases hc : p c = true
    · rw [if_pos hc] at h
      cases h
      rw [firstLine, if_pos hc]
    · rw [if_neg hc] at h
      obtain ⟨⟨l, r⟩, hl, hr⟩ := Option.map_eq_some_iff.mp h
      cases hr
      rw [firstLine, if_neg hc, ih hl]
      rfl

/-! ## The pipe and the buffer -/

/-- A pipe and the buffer of its reader, with what has been written in all, the lines that
were taken, and what the last move has brought. -/
structure Buffered (α : Type) where
  pipe : List α := []
  buffer : List α := []
  arrived : List α := []
  taken : List (List α) := []
  lastMoved : List α := []
  deriving DecidableEq

namespace Buffered

def write (b : Buffered α) (xs : List α) : Buffered α :=
  { b with pipe := b.pipe ++ xs, arrived := b.arrived ++ xs }

/-- Move the first `n` elements of the pipe. -/
def move (b : Buffered α) (n : ℕ) : Buffered α :=
  { b with pipe := b.pipe.drop n, buffer := b.buffer ++ b.pipe.take n, lastMoved := b.pipe.take n }

/-- Take the line in front of the buffer. -/
def take (b : Buffered α) (line rest : List α) : Buffered α :=
  { b with buffer := rest, taken := b.taken ++ [line] }

/-- The lines that were taken, the buffer and the pipe are what has been written. -/
structure Conserved (p : α → Bool) (b : Buffered α) : Prop where
  lines : ∀ line ∈ b.taken, firstLine p line = some (line, [])
  all : b.arrived = b.taken.flatten ++ b.buffer ++ b.pipe

theorem conserved_empty : Conserved p {} := ⟨fun _ h => absurd h List.not_mem_nil, rfl⟩

variable {b : Buffered α}

theorem Conserved.write (h : b.Conserved p) (xs : List α) : (b.write xs).Conserved p :=
  ⟨h.lines, by simp only [Buffered.write, h.all, List.append_assoc]⟩

theorem Conserved.move (h : b.Conserved p) (n : ℕ) : (b.move n).Conserved p := by
  refine ⟨h.lines, ?_⟩
  simp only [Buffered.move, h.all, List.append_assoc, List.take_append_drop]

theorem Conserved.take (h : b.Conserved p) {line rest : List α}
    (hline : firstLine p b.buffer = some (line, rest)) : (b.take line rest).Conserved p := by
  refine ⟨fun l hl => ?_, ?_⟩
  · rcases List.mem_append.mp hl with hl | hl
    · exact h.lines l hl
    · rw [List.mem_singleton.mp hl]
      exact firstLine_self hline
  · simp only [Buffered.take, h.all, (firstLine_eq_some hline).1, List.flatten_append,
      List.flatten_singleton, List.append_assoc]

theorem fullLines_flatten {ls : List (List α)} (hls : ∀ l ∈ ls, firstLine p l = some (l, []))
    (rest : List α) : fullLines p (ls.flatten ++ rest) = ls ++ fullLines p rest := by
  induction ls with
  | nil => rfl
  | cons l ls ih =>
    obtain ⟨hl, hls⟩ := List.forall_mem_cons.mp hls
    rw [List.flatten_cons, List.append_assoc, fullLines_append hl, ih hls, List.cons_append]

/-- **All whole lines have been taken exactly if there is none in the buffer**, once the
pipe is empty. -/
theorem taken_eq_iff (h : b.Conserved p) (hpipe : b.pipe = []) :
    fullLines p b.arrived = b.taken ↔ b.buffer.countP p = 0 := by
  rw [h.all, hpipe, List.append_nil, fullLines_flatten h.lines, ← fullLines_eq_nil]
  exact List.append_right_eq_self

end Buffered

end

end AiMeshChat.Lib
