import AiMeshChat.Domain
import AiMeshChat.Lib.Lines
import AiMeshChat.Wire.Protocol

/-!
# Two readers of one answer

`_run_wire` of `transport/local.py` and `_run_ssh_wire` of `transport/ssh.py` read the
frames of a helper and make a `RunResult` of them. They differ in three places. The
local one cuts the decoded output with `str.splitlines`, the other one cuts the bytes
at the newlines. An error frame sets the exit code to -1 here and to 1 there, and -1
is also what stands for "no result yet", so the local reader answers with the status
of the process (`error_frame_exits_zero`).

`readers_agree_iff` says when the two give the same answer, for an output in which both
find the same frames.
-/

namespace AiMeshChat.Wire

open Lib

/-- `TransportError` with its text, or `RecursionError`. -/
inductive ReadErr
  | transport (text : String)
  | recursion
  deriving DecidableEq

/-! ## The loop over the frames -/

/-- What a reader has seen of the answer. -/
structure Reply where
  sessionId : Option String := none
  stdout : String := ""
  stderr : String := ""
  exitCode : ℤ := -1
  gotTerminal : Bool := false
  deriving DecidableEq

/-- `payload.get(key, "")` of a field that the schema requires to be a `str`. -/
def WireMessage.text (m : WireMessage) (key : String) : String :=
  ((m.payload.get? key).bind Json.str?).getD ""

/-- `payload.get(key, 0)` of a field that the schema requires to be an `int`. -/
def WireMessage.number (m : WireMessage) (key : String) : ℤ :=
  ((m.payload.get? key).bind intOf?).getD 0

/-- A `ready` frame of another version. -/
def WireMessage.Mismatch (m : WireMessage) : Prop :=
  m.type = "ready" ∧ m.number "wire_version" ≠ WIRE_VERSION

instance (m : WireMessage) : Decidable m.Mismatch := inferInstanceAs (Decidable (_ ∧ _))

/-- What a frame does to the reply; `errorCode` is what an error frame sets. Frames of
other types, `progress` among them, do nothing. -/
def takeFrame (errorCode : ℤ) (st : Reply) (m : WireMessage) : Reply :=
  if m.type = "session" then { st with sessionId := (m.payload.get? "id").bind Json.str? }
  else if m.type = "result" then
    { st with gotTerminal := true, stdout := m.text "stdout", stderr := m.text "stderr",
              exitCode := m.number "exit_code" }
  else if m.type = "error" then
    { st with gotTerminal := true, stderr := m.text "message", exitCode := errorCode }
  else st

def mismatchText (m : WireMessage) : String :=
  "wire version mismatch: remote=" ++ strOf ((m.payload.get? "wire_version").getD (.int 0)) ++
    ", local=" ++ toString WIRE_VERSION ++ ". Update codeagent-py on the remote host."

/-- The body of the loop after the frame has been decoded. -/
def handleFrame (errorCode : ℤ) (st : Reply) (m : WireMessage) : Except ReadErr Reply :=
  if m.Mismatch then .error (.transport (mismatchText m)) else .ok (takeFrame errorCode st m)

/-- The lines that the loop looks at: stripped, and not empty. -/
def nonBlank (lines : List (List Char)) : List (List Char) :=
  (lines.map strip).filter (· ≠ [])

/-- The loop. After `MAX_CONSECUTIVE_BAD_FRAMES` lines in a row that are no frames it
gives up. -/
def readLines (d : ℕ) (errorCode : ℤ) : ℕ → List (List Char) → Reply → Except ReadErr Reply
  | _, [], st => .ok st
  | bad, l :: ls, st =>
    match decodeLine d false l with
    | .error (.value _) =>
      if MAX_CONSECUTIVE_BAD_FRAMES ≤ bad + 1 then .ok st
      else readLines d errorCode (bad + 1) ls st
    | .error .recursion => .error .recursion
    | .ok m => do readLines d errorCode 0 ls (← handleFrame errorCode st m)

/-! ## The local reader -/

/-- The diagnostic for an answer without a terminal frame. -/
def noTerminal (resultStderr processStderr : String) : String :=
  let text := if resultStderr = "" && processStderr ≠ "" then processStderr else resultStderr
  (if text = "" then text else text ++ "\n") ++ NO_TERMINAL_FRAME_MSG

/-- The invariant both readers enforce: without a terminal frame a status of 0 is no
success. -/
def requireTerminal (st : Reply) (processStderr : String) (status : ℤ) : Reply :=
  if !st.gotTerminal && st.exitCode = -1 && status = 0 then
    { st with stderr := noTerminal st.stderr processStderr, exitCode := 1 }
  else st

/-- `str.splitlines` on the decoded output. -/
def localLines (stdout : List UInt8) : List (List Char) := splitLines (utf8Replace stdout)

/-- `_run_wire` on what the helper wrote and its status. -/
def runWire (d : ℕ) (backend host workdir : String) (stdout stderr : List UInt8) (status : ℤ) :
    Except ReadErr RunResult := do
  let st ← readLines d (-1) 0 (nonBlank (localLines stdout)) {}
  let processStderr := String.ofList (utf8Replace stderr)
  let st := requireTerminal st processStderr status
  return { returncode := if st.exitCode ≠ -1 then st.exitCode else status
           stdout := st.stdout
           stderr := if st.stderr = "" then processStderr else st.stderr
           sessionId := st.sessionId
           backend := backend
           host := host
           workdir := workdir }

/-! ## The reader of the SSH transport -/

/-- The lines of a pipe, each decoded by itself. The newline at the end of a line is
white space and stripped. -/
def pipeLines (stdout : List UInt8) : List (List Char) :=
  (linesOn (· = 10) stdout).map utf8Replace

/-- The end of `_run_ssh_wire`, after the process has exited. -/
def sshResult (backend host workdir : String) (st : Reply) (stderr : List UInt8) (status : ℤ) :
    RunResult :=
  let sshStderr := String.ofList (utf8Replace stderr)
  let st := requireTerminal st sshStderr status
  let stderr := if st.exitCode = -1 && st.stderr = "" && sshStderr ≠ "" then sshStderr else st.stderr
  let exitCode := if st.exitCode = -1 && status ≠ 0 then status else st.exitCode
  { returncode := if exitCode ≠ -1 then exitCode else status
    stdout := st.stdout
    stderr := stderr
    sessionId := st.sessionId
    backend := backend
    host := host
    workdir := workdir }

/-- `_run_ssh_wire` when the process ends by itself. -/
def runSshWire (d : ℕ) (backend host workdir : String) (stdout stderr : List UInt8) (status : ℤ) :
    Except ReadErr RunResult := do
  let st ← readLines d 1 0 (nonBlank (pipeLines stdout)) {}
  return sshResult backend host workdir st stderr status

/-! ## What the loop reads -/

/-- The frames that the loop decodes, and whether it stops at a line that is nested too
deep. -/
def framesRead (d : ℕ) : ℕ → List (List Char) → List WireMessage × Bool
  | _, [] => ([], false)
  | bad, l :: ls =>
    match decodeLine d false l with
    | .error (.value _) =>
      if MAX_CONSECUTIVE_BAD_FRAMES ≤ bad + 1 then ([], false) else framesRead d (bad + 1) ls
    | .error .recursion => ([], true)
    | .ok m => (m :: (framesRead d 0 ls).1, (framesRead d 0 ls).2)

/-- The frames one after the other. -/
def takeFrames (errorCode : ℤ) (ms : List WireMessage) (st : Reply) : Except ReadErr Reply :=
  ms.foldlM (handleFrame errorCode) st

/-- **The loop** takes the frames, and then fails if a line was too deep. -/
theorem readLines_eq (d : ℕ) (errorCode : ℤ) (ls : List (List Char)) :
    ∀ (bad : ℕ) (st : Reply), readLines d errorCode bad ls st = (do
      let st' ← takeFrames errorCode (framesRead d bad ls).1 st
      if (framesRead d bad ls).2 then .error .recursion else .ok st') := by
  induction ls with
  | nil => intro bad st; rfl
  | cons l ls ih =>
    intro bad st
    rw [readLines, framesRead]
    rcases decodeLine d false l with (_ | _) | m
    · by_cases hbad : MAX_CONSECUTIVE_BAD_FRAMES ≤ bad + 1
      · simp only [if_pos hbad]
        rfl
      · simp only [if_neg hbad]
        exact ih (bad + 1) st
    · rfl
    · simp only [takeFrames, List.foldlM_cons, ih, bind_assoc]

theorem foldlM_matching {σ : Type} {handle : σ → WireMessage → Except ReadErr σ}
    {take : σ → WireMessage → σ} (hhandle : ∀ st m, handle st m =
      if m.Mismatch then .error (.transport (mismatchText m)) else .ok (take st m))
    (ms : List WireMessage) (st : σ) :
    if ∃ m ∈ ms, m.Mismatch then ∃ text, ms.foldlM handle st = .error (.transport text)
    else ms.foldlM handle st = .ok (ms.foldl take st) := by
  induction ms generalizing st with
  | nil => simp; rfl
  | cons m ms ih =>
    rw [List.foldlM_cons, hhandle]
    by_cases hm : m.Mismatch
    · rw [if_pos ⟨m, List.mem_cons_self, hm⟩, if_pos hm]
      exact ⟨mismatchText m, rfl⟩
    · have hrest : (∃ m' ∈ m :: ms, m'.Mismatch) ↔ ∃ m' ∈ ms, m'.Mismatch := by simp [hm]
      simp only [hrest, if_neg hm]
      exact ih (take st m)

theorem readLines_cases {d : ℕ} (errorCode : ℤ) {ls : List (List Char)} {ms : List WireMessage}
    {deep : Bool} (hms : framesRead d 0 ls = (ms, deep)) :
    if ∃ m ∈ ms, m.Mismatch then ∃ text, readLines d errorCode 0 ls {} = .error (.transport text)
    else readLines d errorCode 0 ls {} =
      if deep then .error .recursion else .ok (ms.foldl (takeFrame errorCode) {}) := by
  have hloop := foldlM_matching (fun st m => (rfl : handleFrame errorCode st m = _)) ms {}
  rw [readLines_eq, hms, takeFrames]
  by_cases hmis : ∃ m ∈ ms, m.Mismatch
  · rw [if_pos hmis] at hloop ⊢
    obtain ⟨text, htext⟩ := hloop
    exact ⟨text, by rw [htext]; rfl⟩
  · rw [if_neg hmis] at hloop ⊢
    rw [hloop]
    rfl

/-- `result` and `error` end an exchange. -/
def WireMessage.IsTerminal (m : WireMessage) : Prop := m.type = "result" ∨ m.type = "error"

instance (m : WireMessage) : Decidable m.IsTerminal := inferInstanceAs (Decidable (_ ∨ _))

/-- The last terminal frame. -/
def lastTerminal (ms : List WireMessage) : Option WireMessage :=
  (ms.filter fun m => decide m.IsTerminal).getLast?

/-- The exit code that a terminal frame leaves. -/
def WireMessage.code (errorCode : ℤ) (m : WireMessage) : ℤ :=
  if m.type = "result" then m.number "exit_code" else errorCode

theorem lastTerminal_concat (ms : List WireMessage) (m : WireMessage) :
    lastTerminal (ms ++ [m]) = if m.IsTerminal then some m else lastTerminal ms := by
  rw [lastTerminal, List.filter_append]
  by_cases hm : m.IsTerminal
  · simp [hm]
  · simp [hm, lastTerminal]

theorem takeFrame_code (errorCode : ℤ) (st : Reply) (m : WireMessage) :
    (takeFrame errorCode st m).exitCode = (if m.IsTerminal then m.code errorCode else st.exitCode) ∧
      (takeFrame errorCode st m).gotTerminal = (st.gotTerminal || decide m.IsTerminal) := by
  unfold takeFrame
  by_cases hr : m.type = "result"
  · have hm : m.IsTerminal := .inl hr
    simp [hr, hm, WireMessage.code]
  · by_cases he : m.type = "error"
    · have hm : m.IsTerminal := .inr he
      simp [he, hm, WireMessage.code]
    · have hm : ¬ m.IsTerminal := by
        rintro (h | h)
        · exact hr h
        · exact he h
      by_cases hs : m.type = "session"
      · simp [hs, hm]
      · simp [hs, hr, he, hm]

/-- **The reply** has the code of the last terminal frame. -/
theorem foldl_takeFrame (errorCode : ℤ) (ms : List WireMessage) (st : Reply) :
    (ms.foldl (takeFrame errorCode) st).exitCode =
        ((lastTerminal ms).map (·.code errorCode)).getD st.exitCode ∧
      (ms.foldl (takeFrame errorCode) st).gotTerminal =
        (st.gotTerminal || (lastTerminal ms).isSome) := by
  induction ms using List.reverseRecOn with
  | nil => simp [lastTerminal]
  | append_singleton ms m ih =>
    obtain ⟨hcode, hgot⟩ := takeFrame_code errorCode (ms.foldl (takeFrame errorCode) st) m
    rw [List.foldl_append, List.foldl_cons, List.foldl_nil, lastTerminal_concat, hcode, hgot]
    by_cases hm : m.IsTerminal
    · simp [hm]
    · simp [hm, ih]

/-- What the two readers keep is the same but for the code and the diagnostics. -/
theorem foldl_takeFrame_same (a b : ℤ) (ms : List WireMessage) (st : Reply) :
    (ms.foldl (takeFrame a) st).sessionId = (ms.foldl (takeFrame b) st).sessionId ∧
      (ms.foldl (takeFrame a) st).stdout = (ms.foldl (takeFrame b) st).stdout := by
  have hstep (s s' : Reply) (m : WireMessage) (h : s.sessionId = s'.sessionId ∧
      s.stdout = s'.stdout) : (takeFrame a s m).sessionId = (takeFrame b s' m).sessionId ∧
      (takeFrame a s m).stdout = (takeFrame b s' m).stdout := by
    unfold takeFrame
    split_ifs
    · exact ⟨rfl, h.2⟩
    · exact ⟨h.1, rfl⟩
    · exact h
    · exact h
  induction ms using List.reverseRecOn with
  | nil => exact ⟨rfl, rfl⟩
  | append_singleton ms m ih =>
    rw [List.foldl_append, List.foldl_append]
    exact hstep _ _ m ih

/-! ## Agreement -/

/-- Both raise `TransportError`, or both return the same code, output and session. -/
def SameAnswer : Except ReadErr RunResult → Except ReadErr RunResult → Prop
  | .error (.transport _), .error (.transport _) => True
  | .ok a, .ok b => a.returncode = b.returncode ∧ a.stdout = b.stdout ∧ a.sessionId = b.sessionId
  | _, _ => False

/-- An answer that has an error frame among the frames `ms` is not 0. -/
def Loud (ms : List WireMessage) (r : Except ReadErr RunResult) : Prop :=
  (∃ m ∈ ms, m.type = "error") → ∀ a, r = .ok a → a.returncode ≠ 0

/-- The two readers agree on what a helper wrote, and neither makes 0 of an error
frame that it read. -/
def ReadersAgree (d : ℕ) (stdout stderr : List UInt8) (status : ℤ) : Prop :=
  ∀ backend host host' workdir : String,
    let home := runWire d backend host workdir stdout stderr status
    let ssh := runSshWire d backend host' workdir stdout stderr status
    SameAnswer home ssh ∧
      Loud (framesRead d 0 (nonBlank (localLines stdout))).1 home ∧
      Loud (framesRead d 0 (nonBlank (pipeLines stdout))).1 ssh

/-- The status that the frames and the process leave, with the code of an error frame. -/
def finalCode (errorCode : ℤ) (ms : List WireMessage) (status : ℤ) : ℤ :=
  match lastTerminal ms with
  | none => if status = 0 then 1 else status
  | some m => if m.code errorCode = -1 then status else m.code errorCode

theorem requireTerminal_code (errorCode : ℤ) (ms : List WireMessage) (text : String) (status : ℤ) :
    let st := requireTerminal (ms.foldl (takeFrame errorCode) {}) text status
    (if st.exitCode ≠ -1 then st.exitCode else status) = finalCode errorCode ms status := by
  obtain ⟨hcode, hgot⟩ := foldl_takeFrame errorCode ms {}
  unfold requireTerminal finalCode
  cases hl : lastTerminal ms with
  | none =>
    rw [hl] at hcode hgot
    by_cases hstatus : status = 0
    · simp [hcode, hgot, hstatus]
    · simp [hcode, hgot, hstatus]
  | some m =>
    rw [hl] at hcode hgot
    by_cases hm : m.code errorCode = -1
    · simp [hcode, hgot, hm]
    · simp [hcode, hgot, hm]

theorem requireTerminal_fields (st : Reply) (text : String) (status : ℤ) :
    (requireTerminal st text status).sessionId = st.sessionId ∧
      (requireTerminal st text status).stdout = st.stdout := by
  unfold requireTerminal
  split_ifs <;> exact ⟨rfl, rfl⟩

theorem runWire_eq (d : ℕ) (backend host workdir : String) (stdout stderr : List UInt8)
    (status : ℤ) {ms : List WireMessage} {deep : Bool}
    (hms : framesRead d 0 (nonBlank (localLines stdout)) = (ms, deep)) :
    if ∃ m ∈ ms, m.Mismatch then
      ∃ text, runWire d backend host workdir stdout stderr status = .error (.transport text)
    else if deep then runWire d backend host workdir stdout stderr status = .error .recursion
    else ∃ a, runWire d backend host workdir stdout stderr status = .ok a ∧
      a.returncode = finalCode (-1) ms status ∧
      a.stdout = (ms.foldl (takeFrame (-1)) {}).stdout ∧
      a.sessionId = (ms.foldl (takeFrame (-1)) {}).sessionId := by
  have hread := readLines_cases (-1) hms
  rw [runWire]
  by_cases hmis : ∃ m ∈ ms, m.Mismatch
  · rw [if_pos hmis] at hread ⊢
    obtain ⟨text, htext⟩ := hread
    exact ⟨text, by rw [htext]; rfl⟩
  · rw [if_neg hmis] at hread ⊢
    rw [hread]
    cases deep with
    | true => rfl
    | false =>
      obtain ⟨hsid, hout⟩ := requireTerminal_fields (ms.foldl (takeFrame (-1)) {})
        (String.ofList (utf8Replace stderr)) status
      exact ⟨_, rfl, requireTerminal_code (-1) ms _ status, hout, hsid⟩

theorem fallback_status (code status : ℤ) :
    (if (if code = -1 && status ≠ 0 then status else code) ≠ -1
      then (if code = -1 && status ≠ 0 then status else code) else status) =
      if code ≠ -1 then code else status := by
  by_cases hcode : code = -1
  · by_cases hstatus : status = 0
    · simp [hcode, hstatus]
    · by_cases hneg : status = -1 <;> simp [hcode, hstatus, hneg]
  · simp [hcode]

theorem runSshWire_eq (d : ℕ) (backend host workdir : String) (stdout stderr : List UInt8)
    (status : ℤ) {ms : List WireMessage} {deep : Bool}
    (hms : framesRead d 0 (nonBlank (pipeLines stdout)) = (ms, deep)) :
    if ∃ m ∈ ms, m.Mismatch then
      ∃ text, runSshWire d backend host workdir stdout stderr status = .error (.transport text)
    else if deep then runSshWire d backend host workdir stdout stderr status = .error .recursion
    else ∃ a, runSshWire d backend host workdir stdout stderr status = .ok a ∧
      a.returncode = finalCode 1 ms status ∧
      a.stdout = (ms.foldl (takeFrame 1) {}).stdout ∧
      a.sessionId = (ms.foldl (takeFrame 1) {}).sessionId := by
  have hread := readLines_cases 1 hms
  rw [runSshWire]
  by_cases hmis : ∃ m ∈ ms, m.Mismatch
  · rw [if_pos hmis] at hread ⊢
    obtain ⟨text, htext⟩ := hread
    exact ⟨text, by rw [htext]; rfl⟩
  · rw [if_neg hmis] at hread ⊢
    rw [hread]
    cases deep with
    | true => rfl
    | false =>
      obtain ⟨hsid, hout⟩ := requireTerminal_fields (ms.foldl (takeFrame 1) {})
        (String.ofList (utf8Replace stderr)) status
      refine ⟨_, rfl, ?_, hout, hsid⟩
      rw [← requireTerminal_code 1 ms (String.ofList (utf8Replace stderr)) status]
      exact fallback_status _ status

/-- If an error frame was read, the process or a later result makes up for it: the last
terminal frame is an error and the status is 1, or it is a result that is neither 0 nor
a -1 that the status 0 stands for. -/
def ErrorsMadeUp (ms : List WireMessage) (status : ℤ) : Prop :=
  (∃ m ∈ ms, m.type = "error") → ∀ m, lastTerminal ms = some m →
    (m.type = "error" → status = 1) ∧
    (m.type ≠ "error" → m.number "exit_code" ≠ 0 ∧ (m.number "exit_code" = -1 → status ≠ 0))

theorem lastTerminal_isTerminal {ms : List WireMessage} {m : WireMessage}
    (h : lastTerminal ms = some m) : m.IsTerminal := by
  have := List.mem_of_getLast? h
  simpa using (List.mem_filter.mp this).2

theorem lastTerminal_of_error {ms : List WireMessage} (h : ∃ m ∈ ms, m.type = "error") :
    ∃ m, lastTerminal ms = some m := by
  obtain ⟨m, hm, he⟩ := h
  have hmem : m ∈ ms.filter fun m => decide m.IsTerminal :=
    List.mem_filter.mpr ⟨hm, decide_eq_true (Or.inr he : m.IsTerminal)⟩
  cases hl : lastTerminal ms with
  | none => exact absurd (List.getLast?_eq_none_iff.mp hl) (List.ne_nil_of_mem hmem)
  | some x => exact ⟨x, rfl⟩

theorem not_result_of_error {m : WireMessage} (h : m.type = "error") : m.type ≠ "result" := by
  rw [h]
  decide

theorem finalCode_iff (ms : List WireMessage) (status : ℤ) :
    (finalCode (-1) ms status = finalCode 1 ms status ∧
        ((∃ m ∈ ms, m.type = "error") → finalCode (-1) ms status ≠ 0)) ↔
      ErrorsMadeUp ms status := by
  by_cases herr : ∃ m ∈ ms, m.type = "error"
  · obtain ⟨m, hm⟩ := lastTerminal_of_error herr
    by_cases hme : m.type = "error"
    · have hcode (e : ℤ) : m.code e = e := if_neg (not_result_of_error hme)
      simp only [finalCode, hm, hcode, ErrorsMadeUp, herr, forall_true_left, if_true,
        Option.some.injEq, forall_eq', hme, ne_eq, not_true_eq_false, false_imp_iff, and_true]
      constructor
      · rintro ⟨h, -⟩
        simpa using h
      · rintro rfl
        decide
    · have hmr : m.type = "result" := (lastTerminal_isTerminal hm).resolve_right hme
      have hcode (e : ℤ) : m.code e = m.number "exit_code" := if_pos hmr
      simp only [finalCode, hm, hcode, ErrorsMadeUp, herr, forall_true_left, true_and,
        Option.some.injEq, forall_eq', hme, ne_eq, not_false_eq_true, false_imp_iff]
      by_cases hneg : m.number "exit_code" = -1
      · simp [hneg]
      · simp [hneg]
  · refine ⟨fun _ h => absurd h herr, fun _ => ⟨?_, fun h => absurd h herr⟩⟩
    unfold finalCode
    cases hl : lastTerminal ms with
    | none => rfl
    | some m =>
      have hmem : m ∈ ms := List.mem_of_mem_filter (List.mem_of_getLast? hl)
      have hmr : m.type = "result" :=
        (lastTerminal_isTerminal hl).resolve_right fun h => herr ⟨m, hmem, h⟩
      have hcode (e : ℤ) : m.code e = m.number "exit_code" := if_pos hmr
      simp only [hcode]

/-- **The readers agree** on an output in which both find the same frames exactly if the
versions differ, or no line is nested too deep and every error frame is made up for. -/
theorem readers_agree_iff (d : ℕ) (stdout stderr : List UInt8) (status : ℤ)
    (hframes : framesRead d 0 (nonBlank (localLines stdout)) =
      framesRead d 0 (nonBlank (pipeLines stdout))) :
    let (ms, deep) := framesRead d 0 (nonBlank (localLines stdout))
    ReadersAgree d stdout stderr status ↔
      (∃ m ∈ ms, m.Mismatch) ∨ (deep = false ∧ ErrorsMadeUp ms status) := by
  rcases hms : framesRead d 0 (nonBlank (localLines stdout)) with ⟨ms, deep⟩
  have hms' : framesRead d 0 (nonBlank (pipeLines stdout)) = (ms, deep) := by rw [← hframes, hms]
  have home (b h w : String) := runWire_eq d b h w stdout stderr status hms
  have ssh (b h w : String) := runSshWire_eq d b h w stdout stderr status hms'
  simp only [ReadersAgree, hms, hms', Loud]
  by_cases hmis : ∃ m ∈ ms, m.Mismatch
  · simp only [if_pos hmis] at home ssh
    refine ⟨fun _ => .inl hmis, fun _ b h h' w => ?_⟩
    obtain ⟨t, ht⟩ := home b h w
    obtain ⟨t', ht'⟩ := ssh b h' w
    rw [ht, ht']
    exact ⟨trivial, (fun _ a ha => by cases ha), fun _ a ha => by cases ha⟩
  · simp only [if_neg hmis] at home ssh
    cases deep with
    | true =>
      simp only [if_true] at home ssh
      constructor
      · intro h
        have hsame := (h "" "" "" "").1
        rw [home, ssh] at hsame
        exact hsame.elim
      · rintro (h | ⟨h, -⟩)
        · exact absurd h hmis
        · cases h
    | false =>
      simp only [Bool.false_eq_true, if_false] at home ssh
      rw [← finalCode_iff]
      have hsame := foldl_takeFrame_same (-1) 1 ms {}
      constructor
      · intro h
        obtain ⟨hsa, hla, -⟩ := h "" "" "" ""
        obtain ⟨a, ha, hcode, -⟩ := home "" "" ""
        obtain ⟨b, hb, hcode', -⟩ := ssh "" "" ""
        rw [ha, hb] at hsa
        rw [← hcode, ← hcode']
        exact .inr ⟨rfl, hsa.1, fun herr => hla herr a ha⟩
      · rintro (hm | ⟨-, heq, hne⟩) backend host host' workdir
        · exact absurd hm hmis
        · obtain ⟨a, ha, hcode, hout, hsid⟩ := home backend host workdir
          obtain ⟨a', ha', hcode', hout', hsid'⟩ := ssh backend host' workdir
          rw [ha, ha']
          refine ⟨⟨?_, ?_, ?_⟩, fun herr x hx => ?_, fun herr x hx => ?_⟩
          · rw [hcode, hcode', heq]
          · rw [hout, hout', hsame.2]
          · rw [hsid, hsid', hsame.1]
          · rw [← Except.ok.inj hx, hcode]
            exact hne herr
          · rw [← Except.ok.inj hx, hcode', ← heq]
            exact hne herr

/-! ### An error frame -/

/-- The output of a helper that failed. -/
def errorOutput : List UInt8 :=
  encode "\x7b\"type\":\"error\",\"message\":\"x\"\x7d\n".toList

/-- An error frame of a helper that exits with 0: the local reader returns 0, the
other one 1. -/
theorem error_frame_exits_zero : ¬ ReadersAgree 9 errorOutput [] 0 := by
  intro h
  have hsame := (h "" "" "" "").1
  have home : runWire 9 "" "" "" errorOutput [] 0 = .ok ⟨0, "", "x", none, "", "", ""⟩ := by
    decide +kernel
  have ssh : runSshWire 9 "" "" "" errorOutput [] 0 = .ok ⟨1, "", "x", none, "", "", ""⟩ := by
    decide +kernel
  rw [home, ssh] at hsame
  exact absurd hsame.1 (by decide)

/-- The output of a helper that ran a task, with both kinds of line ends. -/
def resultOutput : List UInt8 :=
  encode ("\x7b\"type\":\"session\",\"id\":\"s\"\x7d\r\n" ++
    "\x7b\"type\":\"result\",\"exit_code\":3,\"stdout\":\"é\",\"stderr\":\"\"\x7d\n").toList

theorem readers_agree_iff_result : ReadersAgree 9 resultOutput [] 0 := by
  have hframes : framesRead 9 0 (nonBlank (localLines resultOutput)) =
      framesRead 9 0 (nonBlank (pipeLines resultOutput)) := by
    decide +kernel
  refine (readers_agree_iff 9 resultOutput [] 0 hframes).mpr (.inr ⟨by decide +kernel, ?_⟩)
  rintro ⟨m, hm, he⟩
  exact absurd he (by revert m; decide +kernel)

end AiMeshChat.Wire
