import AiMeshChat.Wire.Reply
import Mathlib.Data.List.Infix

/-!
# The exit code of an answer

`_run_ssh_mailbox` of `transport/ssh.py`, the third reader of frames: it waits for the
whole output, cuts it with `str.splitlines` and looks for a `mailbox_result`. A result
that it cannot read makes the exchange fail, whatever else came (`spoiled`).

`exit_codes_faithful` says what the exit codes of this reader and of `_run_ssh_wire` have
to do with the frames that were read. Both keep -1 for "no result yet".
-/

namespace AiMeshChat.Wire

open Lib

/-! ## The reader -/

/-- What the reader has seen of the answer. -/
structure MailboxReply where
  stdout : String := ""
  stderr : String := ""
  exitCode : ℤ := -1
  invalid : Bool := false
  gotTerminal : Bool := false
  deriving DecidableEq

/-- The fields of a `mailbox_result`: two texts, and an `int` that is no `bool`. -/
def WireMessage.mailboxFields (m : WireMessage) : Option (String × String × ℤ) :=
  match m.payload.get? "stdout", m.payload.get? "stderr", m.payload.get? "exit_code" with
  | some (.str stdout), some (.str stderr), some (.int code) => some (stdout, stderr, code)
  | _, _, _ => none

/-- What a frame does to the reply. -/
def takeMailbox (st : MailboxReply) (m : WireMessage) : MailboxReply :=
  if m.type = "mailbox_result" then
    match m.mailboxFields with
    | some (stdout, stderr, code) =>
      { st with gotTerminal := true, stdout := stdout, stderr := stderr, exitCode := code }
    | none => { st with gotTerminal := true, invalid := true }
  else if m.type = "error" then
    { st with gotTerminal := true, stderr := m.text "message", exitCode := 1 }
  else st

/-- The body of the loop after the frame has been decoded. -/
def handleMailbox (st : MailboxReply) (m : WireMessage) : Except ReadErr MailboxReply :=
  if m.Mismatch then .error (.transport (mismatchText m)) else .ok (takeMailbox st m)

/-- `"mailbox_result" in line`. -/
def namesResult (line : List Char) : Bool := decide ("mailbox_result".toList <:+: line)

/-- The loop. -/
def readMailbox (d : ℕ) : ℕ → List (List Char) → MailboxReply → Except ReadErr MailboxReply
  | _, [], st => .ok st
  | bad, l :: ls, st =>
    match decodeLine d false l with
    | .error (.value _) =>
      let st := { st with invalid := st.invalid || namesResult l }
      if MAX_CONSECUTIVE_BAD_FRAMES ≤ bad + 1 then .ok st else readMailbox d (bad + 1) ls st
    | .error .recursion => .error .recursion
    | .ok m => do readMailbox d 0 ls (← handleMailbox st m)

/-- After the loop: an invalid result is no success. -/
def refuseInvalid (st : MailboxReply) : MailboxReply :=
  if st.invalid then
    { st with
      stderr := if st.stderr = "" then "invalid mailbox_result response from remote helper"
        else st.stderr
      exitCode := if st.exitCode = -1 || st.exitCode = 0 then 1 else st.exitCode }
  else st

/-- The end of `_run_ssh_mailbox`: exit code, output and error output. -/
def mailboxResult (st : MailboxReply) (stderr : List UInt8) (status : ℤ) : ℤ × String × String :=
  let sshStderr := String.ofList (utf8Replace stderr)
  let st := refuseInvalid st
  let st := if !st.gotTerminal && st.exitCode = -1 && status = 0 then
      { st with stderr := noTerminal st.stderr sshStderr, exitCode := 1 }
    else st
  if st.exitCode = -1 then
    (status, st.stdout, if sshStderr ≠ "" then sshStderr else st.stderr)
  else (st.exitCode, st.stdout, st.stderr)

/-- `_run_ssh_mailbox` on what the helper wrote and its status. -/
def runSshMailbox (d : ℕ) (stdout stderr : List UInt8) (status : ℤ) :
    Except ReadErr (ℤ × String × String) := do
  let st ← readMailbox d 0 (nonBlank (localLines stdout)) {}
  return mailboxResult st stderr status

/-! ## What the loop reads -/

/-- A line that names a result and is no frame is among those that the loop looks at. -/
def brokenRead (d : ℕ) : ℕ → List (List Char) → Bool
  | _, [] => false
  | bad, l :: ls =>
    match decodeLine d false l with
    | .error (.value _) =>
      namesResult l || !(MAX_CONSECUTIVE_BAD_FRAMES ≤ bad + 1) && brokenRead d (bad + 1) ls
    | .error .recursion => false
    | .ok _ => brokenRead d 0 ls

/-- The frames one after the other. -/
def takeMailboxes (ms : List WireMessage) (st : MailboxReply) : Except ReadErr MailboxReply :=
  ms.foldlM handleMailbox st

/-- A reply that is invalid for one more reason. -/
def MailboxReply.spoil (st : MailboxReply) (broken : Bool) : MailboxReply :=
  { st with invalid := st.invalid || broken }

theorem takeMailbox_spoil (st : MailboxReply) (broken : Bool) (m : WireMessage) :
    takeMailbox (st.spoil broken) m = (takeMailbox st m).spoil broken := by
  unfold takeMailbox
  split
  · split
    · rfl
    · simp [MailboxReply.spoil]
  · split <;> rfl

theorem takeMailboxes_spoil (ms : List WireMessage) (broken : Bool) :
    ∀ st, takeMailboxes ms (st.spoil broken) =
      (takeMailboxes ms st).map fun st' => st'.spoil broken := by
  induction ms with
  | nil => intro st; rfl
  | cons m ms ih =>
    intro st
    simp only [takeMailboxes, List.foldlM_cons, handleMailbox]
    by_cases hm : m.Mismatch
    · simp only [if_pos hm]
      rfl
    · simp only [if_neg hm]
      rw [takeMailbox_spoil]
      exact ih _

/-- **The loop** takes the frames, notes a broken result, and then fails if a line was
too deep. -/
theorem readMailbox_eq (d : ℕ) (ls : List (List Char)) :
    ∀ (bad : ℕ) (st : MailboxReply), readMailbox d bad ls st = (do
      let st' ← takeMailboxes (framesRead d bad ls).1 st
      if (framesRead d bad ls).2 then .error .recursion
      else .ok (st'.spoil (brokenRead d bad ls))) := by
  have hspoil (st : MailboxReply) : st.spoil false = st := by simp [MailboxReply.spoil]
  induction ls with
  | nil =>
    intro bad st
    exact congrArg Except.ok (hspoil st).symm
  | cons l ls ih =>
    intro bad st
    rw [readMailbox, framesRead, brokenRead]
    rcases decodeLine d false l with (_ | _) | m
    · by_cases hbad : MAX_CONSECUTIVE_BAD_FRAMES ≤ bad + 1
      · simp only [hbad, decide_true, if_true, Bool.not_true, Bool.false_and, Bool.or_false]
        rfl
      · simp only [hbad, decide_false, if_false, Bool.not_false, Bool.true_and]
        rw [ih, show ({ st with invalid := st.invalid || namesResult l } : MailboxReply) =
          st.spoil (namesResult l) from rfl, takeMailboxes_spoil]
        rcases takeMailboxes (framesRead d (bad + 1) ls).1 st with e | st'
        · rfl
        · show (if _ then _ else _) = (if _ then _ else _)
          simp only [MailboxReply.spoil, Bool.or_assoc]
    · rfl
    · simp only [takeMailboxes, List.foldlM_cons, ih, bind_assoc]

/-! ## The code that is returned -/

/-- The code that a frame reports: the one of a result of the kind `kind`, or 1 for an
error. -/
def WireMessage.code? (kind : String) (m : WireMessage) : Option ℤ :=
  if m.type = kind then some (m.number "exit_code")
  else if m.type = "error" then some 1
  else none

/-- The code that a frame reports to the reader of a mailbox answer. -/
def WireMessage.mailed? (m : WireMessage) : Option ℤ :=
  if m.type = "mailbox_result" then m.mailboxFields.map (·.2.2)
  else if m.type = "error" then some 1
  else none

/-- A `mailbox_result` with a field that the reader does not accept. -/
def WireMessage.Unfit (m : WireMessage) : Prop :=
  m.type = "mailbox_result" ∧ m.mailboxFields = none

instance (m : WireMessage) : Decidable m.Unfit := inferInstanceAs (Decidable (_ ∧ _))

/-- The last code that was reported. -/
def lastCode (f : WireMessage → Option ℤ) (ms : List WireMessage) : Option ℤ :=
  (ms.filterMap f).getLast?

theorem lastCode_concat (f : WireMessage → Option ℤ) (ms : List WireMessage) (m : WireMessage) :
    lastCode f (ms ++ [m]) = (f m).or (lastCode f ms) := by
  cases hm : f m with
  | none => simp [lastCode, hm]
  | some c => simp [lastCode, hm]

/-- The code that is returned for the last code reported, with an invalid result among
what was read or without one. -/
def wireCode (last : Option ℤ) (spoiled : Bool) (status : ℤ) : ℤ :=
  match last with
  | some c => if spoiled && (c = -1 || c = 0) then 1 else if c = -1 then status else c
  | none => if spoiled || status = 0 then 1 else status

theorem lastTerminal_code (ms : List WireMessage) :
    (lastTerminal ms).map (·.code 1) = lastCode (·.code? "result") ms := by
  induction ms using List.reverseRecOn with
  | nil => rfl
  | append_singleton ms m ih =>
    rw [lastTerminal_concat, lastCode_concat]
    by_cases hr : m.type = "result"
    · have hm : m.IsTerminal := .inl hr
      simp [hm, WireMessage.code, WireMessage.code?, hr]
    · by_cases he : m.type = "error"
      · have hm : m.IsTerminal := .inr he
        simp [hm, WireMessage.code, WireMessage.code?, he]
      · have hm : ¬ m.IsTerminal := fun h => h.elim hr he
        simp [hm, WireMessage.code?, hr, he, ih]

theorem finalCode_eq (ms : List WireMessage) (status : ℤ) :
    finalCode 1 ms status = wireCode (lastCode (·.code? "result") ms) false status := by
  rw [← lastTerminal_code, finalCode]
  cases lastTerminal ms with
  | none => simp [wireCode]
  | some m => simp [wireCode]

/-- **The reader of runs** returns the last code that was reported. -/
theorem runSshWire_code {d : ℕ} {backend host workdir : String} {stdout stderr : List UInt8}
    {status : ℤ} {a : RunResult}
    (h : runSshWire d backend host workdir stdout stderr status = .ok a) :
    a.returncode = wireCode
      (lastCode (·.code? "result") (framesRead d 0 (nonBlank (pipeLines stdout))).1) false status := by
  rcases hms : framesRead d 0 (nonBlank (pipeLines stdout)) with ⟨ms, deep⟩
  have hrun := runSshWire_eq d backend host workdir stdout stderr status hms
  by_cases hmis : ∃ m ∈ ms, m.Mismatch
  · rw [if_pos hmis] at hrun
    obtain ⟨text, htext⟩ := hrun
    rw [h] at htext
    cases htext
  · rw [if_neg hmis] at hrun
    cases deep with
    | true =>
      rw [if_pos rfl, h] at hrun
      cases hrun
    | false =>
      rw [if_neg (by decide)] at hrun
      obtain ⟨a', ha', hcode, -⟩ := hrun
      rw [h] at ha'
      cases ha'
      rw [hcode, finalCode_eq]

theorem foldl_takeMailbox (ms : List WireMessage) (st : MailboxReply) :
    (ms.foldl takeMailbox st).exitCode = (lastCode (·.mailed?) ms).getD st.exitCode ∧
      (ms.foldl takeMailbox st).invalid = (st.invalid || ms.any fun m => m.Unfit) ∧
      (ms.foldl takeMailbox st).gotTerminal =
        (st.gotTerminal || ((lastCode (·.mailed?) ms).isSome || ms.any fun m => m.Unfit)) := by
  induction ms using List.reverseRecOn with
  | nil => simp [lastCode]
  | append_singleton ms m ih =>
    obtain ⟨hcode, hinvalid, hgot⟩ := ih
    simp only [List.foldl_append, List.foldl_cons, List.foldl_nil, lastCode_concat, List.any_append,
      List.any_cons, List.any_nil, Bool.or_false]
    by_cases hr : m.type = "mailbox_result"
    · cases hf : m.mailboxFields with
      | none =>
        have hu : m.Unfit := ⟨hr, hf⟩
        simp [takeMailbox, hr, hf, WireMessage.mailed?, hu, hcode]
      | some x =>
        obtain ⟨out, err, code⟩ := x
        have hu : ¬ m.Unfit := by
          intro hu
          rw [hu.2] at hf
          cases hf
        simp [takeMailbox, hr, hf, WireMessage.mailed?, hu, hinvalid]
    · have hu : ¬ m.Unfit := fun hu => hr hu.1
      by_cases he : m.type = "error"
      · simp [takeMailbox, he, WireMessage.mailed?, hu, hinvalid]
      · simp only [takeMailbox, if_neg hr, if_neg he, WireMessage.mailed?, Option.none_or, hu,
          decide_false, Bool.or_false]
        exact ⟨hcode, hinvalid, hgot⟩

theorem mailboxResult_code (st : MailboxReply) (stderr : List UInt8) (status : ℤ)
    (last : Option ℤ) (hcode : st.exitCode = last.getD (-1))
    (hgot : last.isSome = true → st.gotTerminal = true)
    (hlast : st.gotTerminal = true → last.isSome = true ∨ st.invalid = true) :
    (mailboxResult st stderr status).1 = wireCode last st.invalid status := by
  unfold mailboxResult refuseInvalid wireCode
  cases hi : st.invalid with
  | true =>
    cases last with
    | none =>
      have hneg : st.exitCode = -1 := hcode
      simp [hneg]
    | some c =>
      have hc : st.exitCode = c := hcode
      by_cases h : c = -1 ∨ c = 0
      · rcases h with rfl | rfl <;> simp [hc]
      · obtain ⟨h₁, h₂⟩ := not_or.mp h
        simp [hc, h₁, h₂]
  | false =>
    rw [hi] at hlast
    cases last with
    | none =>
      have hneg : st.exitCode = -1 := hcode
      have hno : st.gotTerminal = false := by
        by_contra hne
        rcases hlast (by simpa using hne) with h | h <;> cases h
      by_cases hs : status = 0
      · simp [hneg, hno, hs]
      · simp [hneg, hs]
    | some c =>
      have hc : st.exitCode = c := hcode
      have hyes : st.gotTerminal = true := hgot rfl
      by_cases h : c = -1
      · simp [hc, hyes, h]
      · simp [hc, h]

/-- An invalid result is among what the reader of a mailbox answer looks at. -/
def spoiled (d : ℕ) (ls : List (List Char)) : Bool :=
  ((framesRead d 0 ls).1.any fun m => m.Unfit) || brokenRead d 0 ls

theorem runSshMailbox_eq (d : ℕ) (stdout stderr : List UInt8) (status : ℤ)
    {ms : List WireMessage} {deep : Bool}
    (hms : framesRead d 0 (nonBlank (localLines stdout)) = (ms, deep)) :
    if ∃ m ∈ ms, m.Mismatch then
      ∃ text, runSshMailbox d stdout stderr status = .error (.transport text)
    else if deep then runSshMailbox d stdout stderr status = .error .recursion
    else runSshMailbox d stdout stderr status =
      .ok (mailboxResult ((ms.foldl takeMailbox {}).spoil
        (brokenRead d 0 (nonBlank (localLines stdout)))) stderr status) := by
  have hloop := foldlM_matching (fun st m => (rfl : handleMailbox st m = _)) ms {}
  rw [runSshMailbox, readMailbox_eq, hms, takeMailboxes]
  by_cases hmis : ∃ m ∈ ms, m.Mismatch
  · rw [if_pos hmis] at hloop ⊢
    obtain ⟨text, htext⟩ := hloop
    exact ⟨text, by rw [htext]; rfl⟩
  · rw [if_neg hmis] at hloop ⊢
    rw [hloop]
    cases deep <;> rfl

/-- **The reader of mailbox answers** returns the last code that was reported. -/
theorem runSshMailbox_code {d : ℕ} {stdout stderr : List UInt8} {status : ℤ}
    {a : ℤ × String × String} (h : runSshMailbox d stdout stderr status = .ok a) :
    a.1 = wireCode (lastCode (·.mailed?) (framesRead d 0 (nonBlank (localLines stdout))).1)
      (spoiled d (nonBlank (localLines stdout))) status := by
  rcases hms : framesRead d 0 (nonBlank (localLines stdout)) with ⟨ms, deep⟩
  have hrun := runSshMailbox_eq d stdout stderr status hms
  by_cases hmis : ∃ m ∈ ms, m.Mismatch
  · rw [if_pos hmis] at hrun
    obtain ⟨text, htext⟩ := hrun
    rw [h] at htext
    cases htext
  · rw [if_neg hmis] at hrun
    cases deep with
    | true =>
      rw [if_pos rfl, h] at hrun
      cases hrun
    | false =>
      rw [if_neg (by decide), h, Except.ok.injEq] at hrun
      obtain ⟨hcode, hinvalid, hgot⟩ := foldl_takeMailbox ms {}
      rw [hrun, mailboxResult_code _ _ _ (lastCode (·.mailed?) ms)]
      · rw [MailboxReply.spoil, hinvalid, spoiled, hms]
        rfl
      · exact hcode
      · intro hs
        show (ms.foldl takeMailbox {}).gotTerminal = true
        rw [hgot, hs]
        rfl
      · intro hg
        have hg : (ms.foldl takeMailbox {}).gotTerminal = true := hg
        rw [hgot, Bool.false_or, Bool.or_eq_true] at hg
        refine hg.imp id fun hu => ?_
        show ((ms.foldl takeMailbox {}).invalid || _) = true
        rw [hinvalid, hu]
        rfl

/-! ## The code is faithful -/

/-- The code that was reported last is returned, but for a 0 beside an invalid result,
and 0 is returned for nothing else. About a reported -1 nothing is said. -/
structure Faithful (last : Option ℤ) (spoiled : Bool) (code : ℤ) : Prop where
  reported : ∀ c, last = some c → c ≠ -1 → code = if spoiled = true ∧ c = 0 then 1 else c
  zero : last ≠ some (-1) → code = 0 → last = some 0 ∧ spoiled = false

theorem wireCode_faithful (last : Option ℤ) (spoiled : Bool) (status : ℤ) :
    Faithful last spoiled (wireCode last spoiled status) := by
  constructor
  · intro c hc hne
    rw [hc, wireCode]
    cases spoiled with
    | true => simp [hne]
    | false => simp [hne]
  · intro hne hzero
    cases last with
    | none =>
      by_cases h : spoiled = true ∨ status = 0
      · simp [wireCode, h] at hzero
      · obtain ⟨h₁, h₂⟩ := not_or.mp h
        simp [wireCode, h₁, h₂] at hzero
    | some c =>
      have hc : c ≠ -1 := fun h => hne (congrArg some h)
      cases spoiled with
      | true =>
        by_cases h0 : c = 0
        · simp [wireCode, h0] at hzero
        · simp [wireCode, h0, hc] at hzero
      | false =>
        have h0 : c = 0 := by simpa [wireCode, hc] using hzero
        exact ⟨congrArg some h0, rfl⟩

/-- **Both readers are faithful**, on every output and every status. -/
theorem exit_codes_faithful (d : ℕ) (stdout stderr : List UInt8) (status : ℤ) :
    (∀ backend host workdir a,
      runSshWire d backend host workdir stdout stderr status = .ok a →
      Faithful (lastCode (·.code? "result") (framesRead d 0 (nonBlank (pipeLines stdout))).1) false
        a.returncode) ∧
    (∀ a, runSshMailbox d stdout stderr status = .ok a →
      Faithful (lastCode (·.mailed?) (framesRead d 0 (nonBlank (localLines stdout))).1)
        (spoiled d (nonBlank (localLines stdout))) a.1) := by
  constructor
  · intro backend host workdir a h
    rw [runSshWire_code h]
    exact wireCode_faithful _ _ _
  · intro a h
    rw [runSshMailbox_code h]
    exact wireCode_faithful _ _ _

/-- The answer to a mailbox request that failed with 3. -/
def mailOutput : List UInt8 :=
  encode ("\x7b\"type\":\"ready\",\"wire_version\":2\x7d\n" ++
    "\x7b\"type\":\"mailbox_result\",\"stdout\":\"é\",\"stderr\":\"\",\"exit_code\":3\x7d\n").toList

theorem exit_codes_faithful_three :
    ∃ a, runSshMailbox 9 mailOutput [] 0 = .ok a ∧ a.1 = 3 := by
  have hrun : (runSshMailbox 9 mailOutput [] 0).toOption.isSome = true := by decide +kernel
  have hlast : lastCode (·.mailed?) (framesRead 9 0 (nonBlank (localLines mailOutput))).1 =
      some 3 := by
    decide +kernel
  cases ha : runSshMailbox 9 mailOutput [] 0 with
  | error e =>
    rw [ha] at hrun
    cases hrun
  | ok a =>
    have hcode := ((exit_codes_faithful 9 mailOutput [] 0).2 a ha).reported 3 hlast (by decide)
    exact ⟨a, rfl, by simpa using hcode⟩

/-! ### A broken result before a good one -/

/-- A result that was cut off, and one with exit code 0. -/
def brokenOutput : List UInt8 :=
  encode ("\x7b\"type\":\"mailbox_result\",\n" ++
    "\x7b\"type\":\"mailbox_result\",\"exit_code\":0,\"stdout\":\"\",\"stderr\":\"\"\x7d\n").toList

/-- The last result has exit code 0, and 1 is returned. -/
theorem zero_after_broken_result : ¬ ∀ d stdout stderr status a,
    runSshMailbox d stdout stderr status = .ok a →
    ∀ c, lastCode (·.code? "mailbox_result") (framesRead d 0 (nonBlank (localLines stdout))).1 =
      some c → a.1 = c := by
  intro h
  have hrun : (runSshMailbox 9 brokenOutput [] 0).map (·.1) = .ok 1 := by decide +kernel
  have hlast : lastCode (·.code? "mailbox_result")
      (framesRead 9 0 (nonBlank (localLines brokenOutput))).1 = some 0 := by
    decide +kernel
  cases ha : runSshMailbox 9 brokenOutput [] 0 with
  | error e =>
    rw [ha] at hrun
    cases hrun
  | ok a =>
    rw [ha] at hrun
    have hone : a.1 = 1 := Except.ok.inj hrun
    have hzero := h 9 brokenOutput [] 0 a ha 0 hlast
    rw [hone] at hzero
    cases hzero

end AiMeshChat.Wire
