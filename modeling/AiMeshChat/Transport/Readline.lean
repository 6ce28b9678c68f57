import AiMeshChat.Lib.Buffered
import AiMeshChat.Lib.History
import AiMeshChat.Wire.Protocol

/-!
# `SSHStream.poll` over a buffered reader

`poll` and `_readline` of `transport/ssh.py`, with the standard output of the child as a
pipe and Python's `BufferedReader` on it. `_readline` asks `select` about the pipe and
takes a line from the reader, which looks into its buffer first and moves bytes from the
pipe, as many at a time as it likes, only when there is no whole line in it.

`select` does not see the buffer. So a call can return for lack of bytes while there are
frames in the buffer: `drained_iff` says that this happens exactly when the last move
brought more than one line.

What is done with a frame is in `Stream/Link.lean`; here a line counts once it is handed to
`decode_line`. The banner of a child is read when it is started.
-/

namespace AiMeshChat.Transport

open Lib Wire

def isNewline (b : UInt8) : Bool := b = 10

/-- Where the client stands: no `poll` is under way, at the head of its loop, or in the
reader's `readline`. -/
inductive PollPlace
  | away
  | loop
  | readline
  deriving DecidableEq

/-- The stream: where the client stands, the output of the child, and whether the child has
closed it. -/
structure PollState where
  place : PollPlace := .away
  out : Buffered UInt8 := {}
  closed : Bool := false
  deriving DecidableEq

/-- What happens next. `exited` and `stale` are what `poll` finds after a `_readline`
without a line: the status of the child and the time since the last frame. -/
inductive PollEvent
  | write (bytes : List UInt8)
  | close
  | poll
  | late
  | ready
  | timeout (exited stale : Bool)
  | move (n : ℕ)
  | take (raises : Bool)
  | eof (exited stale : Bool)

namespace PollState

/-- After a `_readline` without a line: a new child, or `poll` returns. -/
def noLine (s : PollState) (exited stale : Bool) : PollState :=
  if exited || stale then { place := .loop } else { s with place := .away }

/-- A line is handed to `decode_line`, after which `poll` goes on or raises. -/
def decode (s : PollState) (line rest : List UInt8) (raises : Bool) : PollState :=
  { s with place := if raises then .away else .loop, out := s.out.take line rest }

/-- One event; `none` if it cannot happen. -/
def next? (s : PollState) : PollEvent → Option PollState
  | .write bytes => if s.closed then none else some { s with out := s.out.write bytes }
  | .close => some { s with closed := true }
  | .poll => if s.place = .away then some { s with place := .loop } else none
  | .late => if s.place = .loop then some { s with place := .away } else none
  | .ready =>
    -- the end of the output is reported as readable, too
    if s.place = .loop ∧ (s.out.pipe ≠ [] ∨ s.closed) then some { s with place := .readline }
    else none
  | .timeout exited stale =>
    if s.place = .loop ∧ s.out.pipe = [] ∧ !s.closed then some (s.noLine exited stale) else none
  | .move n =>
    if s.place = .readline ∧ firstLine isNewline s.out.buffer = none ∧ 0 < n ∧
        n ≤ s.out.pipe.length then
      some { s with out := s.out.move n }
    else none
  | .take raises =>
    if s.place = .readline then
      match firstLine isNewline s.out.buffer with
      | some (line, rest) => some (s.decode line rest raises)
      | none => none
    else none
  | .eof exited stale =>
    if s.place = .readline ∧ firstLine isNewline s.out.buffer = none ∧ s.out.pipe = [] ∧
        s.closed then
      -- what is left without a newline counts as a line
      if s.out.buffer = [] then some (s.noLine exited stale)
      else some (s.decode s.out.buffer [] false)
    else none

/-- An event that cannot happen changes nothing. -/
def step (s : PollState) (e : PollEvent) : PollState := (s.next? e).getD s

/-- The event makes `poll` return because `select` has timed out. -/
def Returns (s : PollState) (e : PollEvent) : Prop :=
  e = .timeout false false ∧ (s.next? e).isSome = true

/-- Every whole line that the child has written has been decoded. -/
def Drained (s : PollState) : Prop := fullLines isNewline s.out.arrived = s.out.taken

/-- Each time `poll` returns because `select` has timed out, nothing is left behind. -/
def LeavesNothing (s : PollState) (es : List PollEvent) : Prop :=
  History.Admits step (fun s e => s.Returns e → s.Drained) s es

/-- Each time `select` times out, the last move had brought at most one line. -/
def MovesLines (s : PollState) (es : List PollEvent) : Prop :=
  History.Admits step (fun s e => s.Returns e → s.out.lastMoved.countP isNewline ≤ 1) s es

/-! ## The invariant -/

/-- The newlines in the buffer, as long as the child may still write: with an empty pipe
they are those of the last move, less the line that was taken after it. -/
structure Inv (s : PollState) : Prop where
  conserved : s.closed = false → s.out.Conserved isNewline
  reading : s.closed = false → s.out.pipe = [] → s.place = .readline →
    s.out.buffer.countP isNewline = s.out.lastMoved.countP isNewline
  between : s.closed = false → s.out.pipe = [] → s.place ≠ .readline →
    s.out.buffer.countP isNewline = s.out.lastMoved.countP isNewline - 1

theorem inv_new (place : PollPlace) (h : place ≠ .readline) : ({ place := place } : PollState).Inv :=
  ⟨fun _ => Buffered.conserved_empty, fun _ _ hp => absurd hp h, fun _ _ _ => rfl⟩

variable {s s' : PollState}

theorem Inv.place (h : s.Inv) {place : PollPlace} (hs : s.place ≠ .readline)
    (hp : place ≠ .readline) : ({ s with place := place } : PollState).Inv :=
  ⟨h.conserved, fun _ _ hp' => absurd hp' hp, fun hc hpipe _ => h.between hc hpipe hs⟩

theorem Inv.noLine (h : s.Inv) (hs : s.place ≠ .readline ∨ s.closed = true)
    (exited stale : Bool) : (s.noLine exited stale).Inv := by
  unfold PollState.noLine
  split
  · exact inv_new .loop (by decide)
  · rcases hs with hs | hs
    · exact h.place hs (by decide)
    · refine ⟨h.conserved, fun hc => ?_, fun hc => ?_⟩ <;> exact absurd (hs.symm.trans hc) (by decide)

theorem inv_next {e : PollEvent} (h : s.Inv) (he : s.next? e = some s') : s'.Inv := by
  cases e with
  | write bytes =>
    simp only [next?] at he
    split at he
    · cases he
    · cases he
      exact ⟨fun hc => (h.conserved hc).write bytes,
        fun hc hnil hp => h.reading hc (List.append_eq_nil_iff.mp hnil).1 hp,
        fun hc hnil hp => h.between hc (List.append_eq_nil_iff.mp hnil).1 hp⟩
  | close =>
    cases he
    exact ⟨fun hc => (Bool.noConfusion hc), fun hc => (Bool.noConfusion hc),
      fun hc => (Bool.noConfusion hc)⟩
  | poll =>
    simp only [next?] at he
    split at he
    · next hp =>
      cases he
      exact h.place (by rw [hp]; decide) (by decide)
    · cases he
  | late =>
    simp only [next?] at he
    split at he
    · next hp =>
      cases he
      exact h.place (by rw [hp]; decide) (by decide)
    · cases he
  | ready =>
    simp only [next?] at he
    split at he
    · next hp =>
      cases he
      -- there is something in the pipe, or the child has closed it
      refine ⟨h.conserved, fun hc hnil _ => ?_, fun _ _ hp' => absurd rfl hp'⟩
      rcases hp.2 with hne | hclosed
      · exact absurd hnil hne
      · exact absurd (hclosed.symm.trans hc) (by decide)
    · cases he
  | timeout exited stale =>
    simp only [next?] at he
    split at he
    · next hp =>
      cases he
      exact h.noLine (.inl (by rw [hp.1]; decide)) exited stale
    · cases he
  | move n =>
    simp only [next?] at he
    split at he
    · next hp =>
      cases he
      obtain ⟨hplace, hline, -, -⟩ := hp
      have hnone := firstLine_eq_none.mp hline
      refine ⟨fun hc => (h.conserved hc).move n, fun _ _ _ => ?_, fun _ _ hp' => absurd hplace hp'⟩
      show (s.out.buffer ++ s.out.pipe.take n).countP isNewline = (s.out.pipe.take n).countP isNewline
      rw [List.countP_append, hnone, Nat.zero_add]
    · cases he
  | take raises =>
    simp only [next?] at he
    split at he
    · next hplace =>
      split at he
      · next line rest hline =>
        cases he
        have haway : (if raises then PollPlace.away else .loop) ≠ .readline := by
          cases raises <;> decide
        refine ⟨fun hc => (h.conserved hc).take hline, fun _ _ hp => absurd hp haway,
          fun hc hnil _ => ?_⟩
        obtain ⟨hbuffer, hone, -⟩ := firstLine_eq_some hline
        have hcount := h.reading hc hnil hplace
        rw [hbuffer, List.countP_append, hone] at hcount
        show rest.countP isNewline = s.out.lastMoved.countP isNewline - 1
        omega
      · cases he
    · cases he
  | eof exited stale =>
    simp only [next?] at he
    split at he
    · next hp =>
      have hclosed : s.closed = true := hp.2.2.2
      split at he
      · cases he
        exact h.noLine (.inr hclosed) exited stale
      · cases he
        refine ⟨fun hc => ?_, fun hc => ?_, fun hc => ?_⟩ <;>
          exact absurd (hclosed.symm.trans hc) (by decide)
    · cases he

/-- **One event keeps the invariant.** -/
theorem inv_step (e : PollEvent) (h : s.Inv) : (s.step e).Inv := by
  unfold step
  cases he : s.next? e with
  | none => exact h
  | some s' => exact inv_next h he

/-- When `select` times out, nothing is left behind exactly if the last move had brought at
most one line. -/
theorem Inv.drained_iff (h : s.Inv) {e : PollEvent} (he : s.Returns e) :
    s.Drained ↔ s.out.lastMoved.countP isNewline ≤ 1 := by
  obtain ⟨rfl, hsome⟩ := he
  simp only [next?] at hsome
  split at hsome
  · next hp =>
    obtain ⟨hplace, hpipe, hopen⟩ := hp
    have hc : s.closed = false := by simpa using hopen
    have hcount := h.between hc hpipe (by rw [hplace]; decide)
    unfold Drained
    rw [Buffered.taken_eq_iff (h.conserved hc) hpipe, hcount]
    omega
  · cases hsome

/-- **`poll` leaves nothing behind exactly if each time `select` times out the last move
had brought at most one line.** -/
theorem leavesNothing_iff (es : List PollEvent) :
    LeavesNothing {} es ↔ MovesLines {} es := by
  have hrun : ∀ s : PollState, s.Inv → (LeavesNothing s es ↔ MovesLines s es) := by
    induction es with
    | nil => exact fun s _ => Iff.rfl
    | cons e es ih =>
      intro s hs
      have hhead : (s.Returns e → s.Drained) ↔
          (s.Returns e → s.out.lastMoved.countP isNewline ≤ 1) :=
        forall_congr' fun he => hs.drained_iff he
      exact and_congr hhead (ih (s.step e) (inv_step e hs))
  exact hrun {} (inv_new .away (by decide))

/-! ## Two frames in one burst -/

def pong : List UInt8 := encodeLine (.obj [("type", .str "pong")])

/-- Two frames arrive together, the reader moves both, and `poll` decodes the first. -/
def twoFrames : List PollEvent :=
  [.poll, .write (pong ++ pong), .ready, .move (pong ++ pong).length, .take false,
    .timeout false false]

theorem frame_left_behind : ¬ ∀ es : List PollEvent, LeavesNothing {} es := by
  intro h
  obtain ⟨-, -, -, -, -, htimeout, -⟩ := h twoFrames
  have hdrained := htimeout ⟨rfl, by decide +kernel⟩
  unfold Drained at hdrained
  exact absurd hdrained (by decide +kernel)

end PollState

end AiMeshChat.Transport
