import AiMeshChat.Lib.Utf8
import AiMeshChat.Wire.Reply

/-!
# The relay transport

`_run_with_pty` of `transport/relay.py`: the loop that reads what a child prints on a
pseudo terminal. It decodes each read by itself, joins the texts in a buffer, takes the
complete lines out of it and makes frames of those it can; the other lines are what the
relay shows to its user.

The state is the buffer and what was heard in the lines. What the terminal does in a
round of the loop is up to the environment, as are the clock and the status of the child.

`read_boundaries` says that the result depends on the bytes only and not on the reads, if
no read ends inside of a character.
-/

namespace AiMeshChat.Transport

open Lib Wire

def MAX_PTY_ITERATIONS : ℕ := 100000

/-! ## Lines -/

/-- What the lines have said so far. `null` stands for no exit code. -/
structure Heard where
  stdout : List String := []
  stderr : List String := []
  sessionId : Option String := none
  exitCode : Json := .null
  mismatch : Bool := false
  deriving DecidableEq

def Heard.complain (h : Heard) (text : String) : Heard := { h with stderr := h.stderr ++ [text] }

/-- What a frame does. -/
def takeWire (h : Heard) (line : List Char) (m : WireMessage) : Heard :=
  if m.type = "session" then { h with sessionId := (m.payload.get? "id").bind Json.str? }
  else if m.type = "result" then
    if h.mismatch then h.complain "ignoring result after wire version mismatch"
    else { h with stdout := h.stdout ++ [m.text "stdout"],
                  exitCode := (m.payload.get? "exit_code").getD (.int 0) }
  else if m.type = "mailbox_result" then
    if h.mismatch then h.complain "ignoring mailbox_result after wire version mismatch"
    else { h with stdout := h.stdout ++ [m.text "stdout"], stderr := h.stderr ++ [m.text "stderr"],
                  exitCode := (m.payload.get? "exit_code").getD (.int 0) }
  else if m.type = "error" then
    { h with stderr := h.stderr ++ [m.text "message"],
             exitCode := (m.payload.get? "exit_code").getD (.int 1) }
  else if m.type = "ready" then
    if m.Mismatch then
      { h with stderr := h.stderr ++ ["wire version mismatch: remote=" ++
                 strOf ((m.payload.get? "wire_version").getD (.int 0)) ++ ", local=" ++
                 toString WIRE_VERSION],
               exitCode := .int 1, mismatch := true }
    else h
  else if m.type = "accepted" || m.type = "progress" then h
  else h.complain (String.ofList line)

/-- The body of the loop over the lines. A line that is nested too deep raises, and what
was heard before it is kept. -/
def takeLine (d : ℕ) (h : Heard) (line : List Char) : Except Heard Heard :=
  if strip line = [] then .ok h
  else match decodeLine d false (strip line) with
    | .ok m => .ok (takeWire h (strip line) m)
    | .error (.value _) => .ok (h.complain (String.ofList (strip line)))
    | .error .recursion => .error h

/-- The complete lines of a text, and what is left. -/
def completeLines : List Char → List (List Char) × List Char
  | [] => ([], [])
  | c :: cs =>
    if c = '\n' then ([] :: (completeLines cs).1, (completeLines cs).2)
    else match (completeLines cs).1 with
      | [] => ([], c :: (completeLines cs).2)
      | l :: ls => ((c :: l) :: ls, (completeLines cs).2)

/-! ## The loop -/

/-- What the terminal does in a round: nothing within a second, a read, which is empty at
the end of the output, or an error. -/
inductive Round
  | idle
  | read (data : List UInt8)
  | readError
  | selectError
  deriving DecidableEq

structure Pty where
  buffer : List Char := []
  gotAnyOutput : Bool := false
  heard : Heard := {}
  deriving DecidableEq

/-- How the loop is left: the time is up, the output has ended, it was given up, or a line
has raised. -/
inductive Leave
  | late
  | eof
  | aborted
  | raised
  deriving DecidableEq

/-- A read: the text joins the buffer, and the lines that are complete are taken. -/
def takeData (d : ℕ) (st : Pty) (data : List UInt8) : Except Heard Pty := do
  let (lines, rest) := completeLines (st.buffer ++ utf8Replace data)
  let heard ← lines.foldlM (takeLine d) st.heard
  return ⟨rest, true, heard⟩

/-- The loop. It goes on until the time is up, which is when no round is left. -/
def readPty (d : ℕ) : ℕ → List Round → Pty → Pty × Leave
  | _, [], st => (st, .late)
  | n, r :: rs, st =>
    if MAX_PTY_ITERATIONS ≤ n then
      ({ st with heard := { st.heard.complain ("relay pty iteration cap reached after " ++
          toString n ++ " iterations") with exitCode := .int (-1) } }, .aborted)
    else if MAX_LINE_LENGTH < st.buffer.length then
      ({ st with heard := { st.heard.complain "relay output buffer exceeded limit; aborting" with
          exitCode := .int (-1) } }, .aborted)
    else match r with
      | .idle => readPty d (n + 1) rs st
      | .readError => (st, .aborted)
      | .selectError => (st, .aborted)
      | .read [] => (st, .eof)
      | .read (b :: bs) =>
        match takeData d st (b :: bs) with
        | .ok st => readPty d (n + 1) rs st
        | .error heard => ({ st with heard := heard }, .raised)

/-- `RunResult`; the exit code of an error frame may be any value. -/
structure RelayResult where
  returncode : Json
  stdout : String
  stderr : String
  sessionId : Option String
  deriving DecidableEq

def Heard.result (h : Heard) (exitCode : Json) : RelayResult :=
  ⟨exitCode, String.intercalate "\n" h.stdout, String.intercalate "\n" h.stderr, h.sessionId⟩

/-- No exit code was heard: the status of the child, which is no success if it has
printed something. -/
def Pty.orStatus (st : Pty) (status : Option ℤ) : RelayResult :=
  if st.heard.exitCode ≠ .null then st.heard.result st.heard.exitCode
  else if st.gotAnyOutput && status = some 0 then
    (st.heard.complain NO_TERMINAL_FRAME_MSG).result (.int 1)
  else st.heard.result (.int (status.getD 1))

/-- After the loop: `late` says whether the time is up, and `status` how the child has
ended, if it has. -/
def Pty.finish (st : Pty) (leave : Leave) (timeout : ℤ) (late : Bool) (status : Option ℤ) :
    RelayResult :=
  if leave = .raised then
    (st.heard.complain "relay execution error: maximum recursion depth exceeded").result (.int 1)
  else if late || leave = .late then
    { st with heard := { st.heard.complain ("timeout after " ++ toString timeout ++ "s") with
        exitCode := .int (-1) } }.orStatus status
  else st.orStatus status

/-- `_run_with_pty`, where the child can be started. -/
def runWithPty (d : ℕ) (timeout : ℤ) (rounds : List Round) (late : Bool) (status : Option ℤ) :
    RelayResult :=
  let (st, leave) := readPty d 0 rounds {}
  st.finish leave timeout late status

/-! ## Lines and parts -/

theorem completeLines_append (cs ds : List Char) :
    (completeLines (cs ++ ds)).1 =
        (completeLines cs).1 ++ (completeLines ((completeLines cs).2 ++ ds)).1 ∧
      (completeLines (cs ++ ds)).2 = (completeLines ((completeLines cs).2 ++ ds)).2 := by
  induction cs with
  | nil => exact ⟨rfl, rfl⟩
  | cons c cs ih =>
    obtain ⟨ih₁, ih₂⟩ := ih
    rw [List.cons_append, completeLines, completeLines]
    by_cases hc : c = '\n'
    · simp only [if_pos hc]
      exact ⟨by rw [ih₁]; rfl, ih₂⟩
    · simp only [if_neg hc, ih₁, ih₂]
      cases (completeLines cs).1 with
      | nil =>
        rw [List.cons_append, completeLines, if_neg hc]
        exact ⟨rfl, rfl⟩
      | cons l ls => exact ⟨rfl, rfl⟩

theorem completeLines_rest (cs : List Char) : '\n' ∉ (completeLines cs).2 := by
  induction cs with
  | nil => exact List.not_mem_nil
  | cons c cs ih =>
    rw [completeLines]
    by_cases hc : c = '\n'
    · rw [if_pos hc]
      exact ih
    · rw [if_neg hc]
      split
      · intro hin
        rcases List.mem_cons.mp hin with hin | hin
        · exact hc hin.symm
        · exact ih hin
      · exact ih

theorem completeLines_begin {cs : List Char} (hcs : '\n' ∉ cs) (ds : List Char) :
    (∃ x ls, (completeLines (cs ++ ds)).1 = (cs ++ x) :: ls) ∨
      ((completeLines (cs ++ ds)).1 = [] ∧ ∃ x, (completeLines (cs ++ ds)).2 = cs ++ x) := by
  induction cs with
  | nil =>
    cases h : (completeLines ds).1 with
    | nil => exact .inr ⟨h, _, rfl⟩
    | cons l ls => exact .inl ⟨l, ls, h⟩
  | cons c cs ih =>
    have hc : c ≠ '\n' := fun h => hcs (h ▸ List.mem_cons_self ..)
    rw [List.cons_append, completeLines, if_neg hc]
    rcases ih fun h => hcs (List.mem_cons_of_mem _ h) with ⟨x, ls, h⟩ | ⟨h, x, hx⟩
    · rw [h]
      exact .inl ⟨x, ls, rfl⟩
    · rw [h]
      exact .inr ⟨rfl, x, by rw [hx]; rfl⟩

/-- No line is too long, nor what is left. -/
def Sized (cs : List Char) : Prop :=
  (∀ l ∈ (completeLines cs).1, l.length ≤ MAX_LINE_LENGTH) ∧
    (completeLines cs).2.length ≤ MAX_LINE_LENGTH

theorem Sized.rest {cs ds : List Char} (h : Sized (cs ++ ds)) :
    Sized ((completeLines cs).2 ++ ds) := by
  obtain ⟨hlines, hrest⟩ := completeLines_append cs ds
  refine ⟨fun l hl => h.1 l ?_, ?_⟩
  · rw [hlines]
    exact List.mem_append_right _ hl
  · rw [← hrest]
    exact h.2

theorem Sized.le {cs ds : List Char} (h : Sized (cs ++ ds)) (hcs : '\n' ∉ cs) :
    cs.length ≤ MAX_LINE_LENGTH := by
  rcases completeLines_begin hcs ds with ⟨x, ls, hx⟩ | ⟨-, x, hx⟩
  · have hl := h.1 (cs ++ x) (by rw [hx]; exact List.mem_cons_self ..)
    rw [List.length_append] at hl
    omega
  · have hl := h.2
    rw [hx, List.length_append] at hl
    omega

/-! ## One read -/

variable {d : ℕ}

theorem takeData_append (st : Pty) {bs bs' : List UInt8} (h : splitsChar bs bs' = false) :
    takeData d st (bs ++ bs') = takeData d st bs >>= fun st' => takeData d st' bs' := by
  obtain ⟨hlines, hrest⟩ := completeLines_append (st.buffer ++ utf8Replace bs) (utf8Replace bs')
  simp only [takeData, utf8Replace_append h, ← List.append_assoc, hlines, hrest,
    List.foldlM_append, bind_assoc, pure_bind]

theorem takeData_buffer {st st' : Pty} {bs : List UInt8} (h : takeData d st bs = .ok st') :
    st'.buffer = (completeLines (st.buffer ++ utf8Replace bs)).2 := by
  simp only [takeData, bind, Except.bind] at h
  split at h
  · cases h
  · cases h
    rfl

/-- A round in which the loop goes on. -/
def Round.Goes : Round → Prop
  | .idle => True
  | .read data => data ≠ []
  | _ => False

/-- What is read in a round. -/
def Round.data : Round → List UInt8
  | .read data => data
  | _ => []

/-- All that is read. -/
def bytesOf (rs : List Round) : List UInt8 := rs.flatMap Round.data

/-- No read ends inside of a character. -/
def NoSplit : List Round → Prop
  | [] => True
  | r :: rs => splitsChar r.data (bytesOf rs) = false ∧ NoSplit rs

/-- What is read, each read decoded by itself. -/
def textOf (rs : List Round) : List Char := rs.flatMap fun r => utf8Replace r.data

theorem length_textOf (rs : List Round) : (utf8Replace (bytesOf rs)).length ≤ (textOf rs).length ∧
    ((utf8Replace (bytesOf rs)).length = (textOf rs).length → NoSplit rs) := by
  induction rs with
  | nil => exact ⟨Nat.le_refl _, fun _ => trivial⟩
  | cons r rs ih =>
    obtain ⟨hle, heq⟩ := ih
    have hbytes : bytesOf (r :: rs) = r.data ++ bytesOf rs := rfl
    have htext : textOf (r :: rs) = utf8Replace r.data ++ textOf rs := rfl
    rw [hbytes, htext]
    cases hcut : splitsChar r.data (bytesOf rs) with
    | true =>
      have hlt := length_utf8Replace_lt hcut
      rw [List.length_append] at hlt ⊢
      exact ⟨by omega, fun h => by omega⟩
    | false =>
      rw [utf8Replace_append hcut, List.length_append, List.length_append]
      exact ⟨by omega, fun h => ⟨hcut, heq (by omega)⟩⟩

/-- **The loop sees the text of the bytes** exactly if no read ends inside of a character. -/
theorem textOf_eq_iff (rs : List Round) : textOf rs = utf8Replace (bytesOf rs) ↔ NoSplit rs := by
  constructor
  · intro h
    exact (length_textOf rs).2 (by rw [h])
  · intro h
    induction rs with
    | nil => rfl
    | cons r rs ih =>
      have hbytes : bytesOf (r :: rs) = r.data ++ bytesOf rs := rfl
      rw [hbytes, utf8Replace_append h.1, ← ih h.2]
      rfl

/-- Two ways to leave the loop that give the same result. -/
def SameEnd (x y : Pty × Leave) : Prop :=
  x.2 = y.2 ∧ x.1.heard = y.1.heard ∧ (x.2 ≠ .raised → x.1 = y.1)

theorem SameEnd.trans {x y z : Pty × Leave} (h : SameEnd x y) (h' : SameEnd y z) :
    SameEnd x z := by
  refine ⟨h.1.trans h'.1, h.2.1.trans h'.2.1, fun hx => (h.2.2 hx).trans (h'.2.2 ?_)⟩
  rw [← h.1]
  exact hx

theorem SameEnd.finish {x y : Pty × Leave} (h : SameEnd x y) (timeout : ℤ) (late : Bool)
    (status : Option ℤ) :
    x.1.finish x.2 timeout late status = y.1.finish y.2 timeout late status := by
  obtain ⟨hleave, hheard, hrest⟩ := h
  by_cases hr : x.2 = .raised
  · rw [Pty.finish, Pty.finish, ← hleave, if_pos hr, if_pos hr, hheard]
  · rw [hrest hr, hleave]

/-- How the loop is left by a round in which it does not go on. -/
def Round.leave : Round → Leave
  | .read _ => .eof
  | _ => .aborted

/-- The loop that reads everything at once. -/
def readOnce (d : ℕ) (st : Pty) (data : List UInt8) (leave : Leave) : Pty × Leave :=
  if data = [] then (st, leave)
  else match takeData d st data with
    | .ok st => (st, leave)
    | .error heard => ({ st with heard := heard }, .raised)

/-- **The loop** hears what it would hear if it read everything at once. -/
theorem readPty_once {e : Round} (hend : ¬ e.Goes) {rs : List Round} (hgo : ∀ r ∈ rs, r.Goes) :
    ∀ (n : ℕ) (st : Pty), n + rs.length < MAX_PTY_ITERATIONS → '\n' ∉ st.buffer →
      Sized (st.buffer ++ utf8Replace (bytesOf rs)) → NoSplit rs →
      SameEnd (readPty d n (rs ++ [e]) st) (readOnce d st (bytesOf rs) e.leave) := by
  induction rs with
  | nil =>
    intro n st hcap hline hsize _
    have hn : ¬ MAX_PTY_ITERATIONS ≤ n := by
      simp only [List.length_nil] at hcap
      omega
    have hbuf : ¬ MAX_LINE_LENGTH < st.buffer.length := Nat.not_lt.mpr (hsize.le hline)
    cases e with
    | idle => exact absurd trivial hend
    | readError =>
      rw [List.nil_append, readPty, if_neg hn, if_neg hbuf]
      exact ⟨rfl, rfl, fun _ => rfl⟩
    | selectError =>
      rw [List.nil_append, readPty, if_neg hn, if_neg hbuf]
      exact ⟨rfl, rfl, fun _ => rfl⟩
    | read data =>
      have hdata : data = [] := not_not.mp hend
      rw [hdata, List.nil_append, readPty, if_neg hn, if_neg hbuf]
      exact ⟨rfl, rfl, fun _ => rfl⟩
  | cons r rs ih =>
    intro n st hcap hline hsize hsplit
    obtain ⟨hcut, hsplit⟩ := hsplit
    have hrs : ∀ r ∈ rs, r.Goes := fun x hx => hgo x (List.mem_cons_of_mem _ hx)
    rw [List.length_cons] at hcap
    have hn : ¬ MAX_PTY_ITERATIONS ≤ n := by omega
    have hbuf : ¬ MAX_LINE_LENGTH < st.buffer.length := Nat.not_lt.mpr (hsize.le hline)
    have hr := hgo r (List.mem_cons_self ..)
    cases r with
    | idle =>
      rw [List.cons_append, readPty, if_neg hn, if_neg hbuf]
      exact ih hrs _ _ (by omega) hline hsize hsplit
    | readError => exact hr.elim
    | selectError => exact hr.elim
    | read data =>
      cases data with
      | nil => exact absurd rfl hr
      | cons b bs =>
        have hbytes : bytesOf (.read (b :: bs) :: rs) = b :: bs ++ bytesOf rs := rfl
        have hcut : splitsChar (b :: bs) (bytesOf rs) = false := hcut
        have hmore := takeData_append (d := d) st hcut
        rw [hbytes, utf8Replace_append hcut, ← List.append_assoc] at hsize
        rw [hbytes, List.cons_append, readPty, if_neg hn, if_neg hbuf]
        cases htake : takeData d st (b :: bs) with
        | error heard =>
          rw [htake] at hmore
          have hmore : takeData d st (b :: bs ++ bytesOf rs) = .error heard := hmore
          rw [readOnce, if_neg (by simp), hmore]
          exact ⟨rfl, rfl, fun h => absurd rfl h⟩
        | ok st' =>
          rw [htake] at hmore
          have hmore : takeData d st (b :: bs ++ bytesOf rs) = takeData d st' (bytesOf rs) := hmore
          have hbuffer := takeData_buffer htake
          have hnext := ih hrs (n + 1) st' (by omega)
            (by rw [hbuffer]; exact completeLines_rest _) (by rw [hbuffer]; exact hsize.rest) hsplit
          refine hnext.trans ?_
          rw [readOnce, readOnce, if_neg (show b :: bs ++ bytesOf rs ≠ [] by simp), hmore]
          by_cases hnil : bytesOf rs = []
          · have hall : takeData d st' (bytesOf rs) = .ok st' := by
              rw [hnil, List.append_nil] at hmore
              rw [hnil, ← hmore, htake]
            rw [if_pos hnil, hall]
            exact ⟨rfl, rfl, fun _ => rfl⟩
          · rw [if_neg hnil]
            cases takeData d st' (bytesOf rs) with
            | ok st'' => exact ⟨rfl, rfl, fun _ => rfl⟩
            | error heard => exact ⟨rfl, rfl, fun h => absurd rfl h⟩

/-- **Read boundaries do not matter.**  Two ways to read the same bytes, none of whose
lines is too long, give the same result if no read ends inside of a character. -/
theorem read_boundaries (d : ℕ) (timeout : ℤ) (status : Option ℤ) {rs rs' : List Round}
    {e : Round} (hgo : ∀ r ∈ rs, r.Goes) (hgo' : ∀ r ∈ rs', r.Goes) (hend : ¬ e.Goes)
    (hcap : rs.length < MAX_PTY_ITERATIONS) (hcap' : rs'.length < MAX_PTY_ITERATIONS)
    (hsame : bytesOf rs = bytesOf rs') (hsize : Sized (utf8Replace (bytesOf rs)))
    (hsplit : NoSplit rs) (hsplit' : NoSplit rs') :
    runWithPty d timeout (rs ++ [e]) false status =
      runWithPty d timeout (rs' ++ [e]) false status := by
  have hzero {k : ℕ} (h : k < MAX_PTY_ITERATIONS) : 0 + k < MAX_PTY_ITERATIONS := by omega
  have honce := readPty_once (d := d) hend hgo 0 {} (hzero hcap) List.not_mem_nil hsize hsplit
  have honce' := readPty_once (d := d) hend hgo' 0 {} (hzero hcap') List.not_mem_nil
    (by rw [← hsame]; exact hsize) hsplit'
  rw [← hsame] at honce'
  exact (honce.finish timeout false status).trans (honce'.finish timeout false status).symm

theorem read_boundaries_accent : runWithPty 9 60 [.read (encode "é\n".toList), .read []] false
    (some 0) = runWithPty 9 60 [.idle, .read (encode ['é']), .read [10], .read []] false
    (some 0) := by
  have hsize : Sized (utf8Replace (bytesOf [.read (encode "é\n".toList)])) := by
    have hlines : completeLines (utf8Replace (bytesOf [.read (encode "é\n".toList)])) =
        ([['é']], []) := by
      decide +kernel
    rw [Sized, hlines]
    exact ⟨by decide, by decide⟩
  refine @read_boundaries 9 60 (some 0) [.read (encode "é\n".toList)]
    [.idle, .read (encode ['é']), .read [10]] (.read []) ?_ ?_ (fun h => h rfl) (by decide)
    (by decide) (by decide +kernel) hsize ?_ ?_
  · intro r hr
    rw [List.mem_singleton.mp hr]
    exact (by decide +kernel : encode "é\n".toList ≠ [])
  · intro r hr
    simp only [List.mem_cons, List.not_mem_nil, or_false] at hr
    rcases hr with rfl | rfl | rfl
    · trivial
    · exact (by decide +kernel : encode ['é'] ≠ [])
    · exact (by decide : [10] ≠ ([] : List UInt8))
  · exact ⟨by decide +kernel, trivial⟩
  · exact ⟨by decide +kernel, by decide +kernel, by decide +kernel, trivial⟩

/-! ### A character in two reads -/

/-- A result with one character outside of ASCII in its output, in one read and in two. -/
def accented : List UInt8 :=
  encode "\x7b\"type\":\"result\",\"exit_code\":0,\"stdout\":\"é\",\"stderr\":\"\"\x7d\n".toList

/-- The second read begins with the second byte of the character. -/
theorem accent_torn : ¬ ∀ (d : ℕ) (timeout : ℤ) (status : Option ℤ) (rs rs' : List Round) (e : Round),
    (∀ r ∈ rs, r.Goes) → (∀ r ∈ rs', r.Goes) → ¬ e.Goes → rs.length < MAX_PTY_ITERATIONS →
    rs'.length < MAX_PTY_ITERATIONS → bytesOf rs = bytesOf rs' →
    Sized (utf8Replace (bytesOf rs)) →
    runWithPty d timeout (rs ++ [e]) false status =
      runWithPty d timeout (rs' ++ [e]) false status := by
  intro h
  have hone : (runWithPty 9 60 [.read accented, .read []] false (some 0)).stdout = "é" := by
    decide +kernel
  have htwo : (runWithPty 9 60 [.read (accented.take 42), .read (accented.drop 42), .read []] false
      (some 0)).stdout = "\ufffd\ufffd" := by
    decide +kernel
  have hsize : Sized (utf8Replace (bytesOf [.read accented])) := by
    have hrest : (completeLines (utf8Replace (bytesOf [.read accented]))).2 = [] := by
      decide +kernel
    rw [Sized, hrest]
    exact ⟨by decide +kernel, by decide⟩
  have hsame := h 9 60 (some 0) [.read accented]
    [.read (accented.take 42), .read (accented.drop 42)] (.read []) ?_ ?_ (fun h => h rfl)
    (by decide) (by decide) (by decide +kernel) hsize
  · have hout := congrArg RelayResult.stdout hsame
    exact absurd (hone.symm.trans (hout.trans htwo)) (by decide)
  · intro r hr
    rw [List.mem_singleton.mp hr]
    exact (by decide +kernel : accented ≠ [])
  · intro r hr
    simp only [List.mem_cons, List.not_mem_nil, or_false] at hr
    rcases hr with rfl | rfl
    · exact (by decide +kernel : accented.take 42 ≠ [])
    · exact (by decide +kernel : accented.drop 42 ≠ [])

end AiMeshChat.Transport
