import AiMeshChat.Helper.Serve
import Mathlib.Tactic.Common

/-!
# One answer for each request

What the frames of the helper are worth to its client. `Answers` says that the helper
reads its input to the end, that a run or mailbox request gets one terminal frame, and
that a result with exit code 0 stands for an agent that has finished with 0 and reported
no error.

None of this is true of every request. `handled_iff` finds the requests for which it
is, and `answers_iff` carries them through a whole input. The largest class outside
is that of the OpenCode runs: their handles have no return code, `int(None)` raises,
and the helper ends (`opencode_run_ends_helper`).
-/

namespace AiMeshChat.Helper

open Runner Wire

/-! ## What is asked of the frames -/

/-- A frame that ends an exchange. -/
def isTerminal (f : Json) : Bool :=
  f.get? "type" ∈ [some (.str "result"), some (.str "error"), some (.str "mailbox_result")]

/-- The terminal frames among what a request has written. -/
def terminals (fs : List Json) : List Json := fs.filter isTerminal

/-- The agent has printed an error frame. -/
def SentError (d : ℕ) (p : Process) : Prop :=
  ∃ line ∈ p.stdout, ∃ obj, loads d (strip line) = .ok obj ∧ obj.get? "type" = some (.str "error")

/-- A result with exit code 0 comes from a process that ended with 0 and sent no error. -/
def Truthful (h : Host) (x : Handled) : Prop :=
  ∀ f ∈ x.frames, f.get? "type" = some (.str "result") → f.get? "exit_code" = some (.int 0) →
    ∃ argv ∈ x.commands, ∃ p, h.launch argv = .ok p ∧ p.ending = .exited 0 ∧ ¬ SentError h.depth p

/-- A request of the right version that the decoder accepts. -/
def Requests (h : Host) (text : List Char) (cmd : String) (req : Json) : Prop :=
  decodeRequest h.depth (text ++ ['\n']) = .ok req ∧
  versionOk ((req.get? "wire_version").getD (.int 0)) = true ∧
  req.get? "command" = some (.str cmd)

/-- What is asked of the answer to an event. -/
def Answered : Event → Handled → Prop
  | .pause _, _ => True
  | .line text h, x => ∀ cmd req, Requests h text cmd req →
    (cmd = "run" ∨ cmd = "mailbox" → (terminals x.frames).length = 1) ∧
    (cmd = "run" → Truthful h x)

/-- What is asked of the helper. -/
structure Answers (es : List Event) : Prop where
  reads : (serve [] es).length = es.length
  survives : ∀ x ∈ serve [] es, x.raised = none
  answered : List.Forall₂ Answered es (serve [] es)

/-! ## When it holds -/

/-- A frame that `_send` writes as it is. -/
def Fits (f : Json) : Prop := (spaced f).length ≤ MAX_LINE_LENGTH

/-- What is asked of the adapter: OMP finds a session that fits into a line, and an
agent that fails says so by its return code; OpenCode cannot be started. -/
def AdapterSound (h : Host) (p : Payload) : Adapter → Prop
  | .omp => ∀ o, (run h.toMachine p.timeout (shortTask p)).2 = .ok o →
    (o.sessionId.truthy = true → Fits (sessionFrame o.sessionId)) ∧
    (o.returncode = 0 → Fits (resultFrame (orElse o.stdout (.str "")) (.str o.stderr) 0) →
      ∀ argv ∈ (run h.toMachine p.timeout (shortTask p)).1, ∀ proc,
        h.launch argv = .ok proc → ¬ SentError h.depth proc)
  | .opencode => ∀ proc, h.launch (opencodeArgv p) ≠ .ok proc
  | .generic => True

/-- What is asked of a run request: capabilities that can be gone through, a home that
can be looked up, and where there is such a directory a backend that can be hashed and,
where there is such a backend, a time limit that is a float. -/
def RunSound (h : Host) (req : Json) : Prop :=
  iterable ((req.get? "capabilities").getD .null) = true ∧
  ∃ workdir, expandUser h.home (((req.get? "workdir").bind Json.str?).getD ".") = some workdir ∧
    (h.isDir workdir = true →
      selectAdapter ((req.get? "backend").getD (.str RUNTIME_OMP)) ≠ .unhashable ∧
      ∀ a, selectAdapter ((req.get? "backend").getD (.str RUNTIME_OMP)) = .adapter a →
        overflows (payloadOf req workdir).timeout = false ∧ AdapterSound h (payloadOf req workdir) a)

/-- What is asked of an event: a line that is read is not nested too deep, and if it is
a run request, it is a sound one. -/
def Event.Sound : Event → Prop
  | .pause _ => True
  | .line text h => (text ++ ['\n']).length ≤ MAX_LINE_LENGTH →
    decodeRequest h.depth (text ++ ['\n']) ≠ .error .recursion ∧
    ∀ req, Requests h text "run" req → RunSound h req

/-! ## Frames -/

@[simp] theorem frame_type (type : String) (fields : List (String × Json)) :
    (frame type fields).get? "type" = some (.str type) := rfl

variable {f : Json} {h : Host} {p : Payload} {subs : List Subscription}

theorem send_of_fits (h : Fits f) : send f = f := if_neg (Nat.not_lt.mpr h)

theorem send_of_not_fits (h : ¬ Fits f) : (send f).get? "type" = some (.str "error") := by
  rw [send, if_pos (Nat.lt_of_not_le h)]
  rfl

theorem isTerminal_of_type {type : String} (h : f.get? "type" = some (.str type))
    (ht : type ∈ ["result", "error", "mailbox_result"]) : isTerminal f = true := by
  simp only [List.mem_cons, List.not_mem_nil, or_false] at ht
  rcases ht with rfl | rfl | rfl <;> simp [isTerminal, h]

theorem isTerminal_send (h : isTerminal f = true) : isTerminal (send f) = true := by
  by_cases hf : Fits f
  · rwa [send_of_fits hf]
  · exact isTerminal_of_type (send_of_not_fits hf) (by simp)

theorem sendError_type (message : String) :
    (sendError message).get? "type" = some (.str "error") := by
  by_cases hf : Fits (frame "error" [("message", .str message)])
  · rw [sendError, send_of_fits hf]
    rfl
  · exact send_of_not_fits hf

theorem send_accepted : send (frame "accepted" [("wire_version", .int WIRE_VERSION)]) =
    frame "accepted" [("wire_version", .int WIRE_VERSION)] := by
  refine send_of_fits ?_
  show List.length _ ≤ _
  decide

theorem send_progress : send (frame "progress" [("message", .str "still running")]) =
    frame "progress" [("message", .str "still running")] := by
  refine send_of_fits ?_
  show List.length _ ≤ _
  decide

theorem terminals_append (fs gs : List Json) : terminals (fs ++ gs) = terminals fs ++ terminals gs :=
  List.filter_append ..

theorem terminals_error (message : String) : (terminals [sendError message]).length = 1 := by
  rw [terminals, List.filter_singleton,
    isTerminal_of_type (sendError_type message) (by simp)]
  rfl

/-! ## One run -/

/-- What a run request should come to. -/
structure Good (h : Host) (x : Handled) : Prop where
  survives : x.raised = none
  once : (terminals x.frames).length = 1
  truthful : Truthful h x

theorem good_error (h : Host) (message : String) (commands : List (List Arg)) :
    Good h { frames := [sendError message], commands := commands } := by
  refine ⟨rfl, terminals_error message, ?_⟩
  intro f hf htype
  rw [List.mem_singleton.mp hf, sendError_type] at htype
  simp at htype

theorem good_append {x : Handled} (fs : List Json)
    (hfs : ∀ f ∈ fs, ∃ type, f.get? "type" = some (.str type) ∧ type ∈ ["accepted", "progress"]) :
    Good h (x.after fs) ↔ Good h x := by
  have hnone : terminals fs = [] := by
    rw [terminals, List.filter_eq_nil_iff]
    intro f hf
    obtain ⟨type, htype, hmem⟩ := hfs f hf
    simp only [List.mem_cons, List.not_mem_nil, or_false] at hmem
    rcases hmem with rfl | rfl <;> simp [isTerminal, htype]
  have hcount : terminals (fs ++ x.frames) = terminals x.frames := by
    rw [terminals_append, hnone, List.nil_append]
  constructor
  · intro hg
    have honce := hg.once
    simp only [Handled.after, hcount] at honce
    exact ⟨hg.survives, honce, fun f hf => hg.truthful f (List.mem_append_right _ hf)⟩
  · intro hg
    refine ⟨hg.survives, ?_, ?_⟩
    · show (terminals (fs ++ x.frames)).length = 1
      rw [hcount]
      exact hg.once
    · intro f hf htype
      rcases List.mem_append.mp hf with hf | hf
      · obtain ⟨type, htype', hmem⟩ := hfs f hf
        rw [htype] at htype'
        simp only [Option.some.injEq, Json.str.injEq] at htype'
        rw [← htype'] at hmem
        simp at hmem
      · exact hg.truthful f hf htype

theorem answer_omp (o : Outcome) :
    answer { backendSessionId := orElse o.sessionId (.str ""), result := o.toResult } =
      ((if o.sessionId.truthy then [send (sessionFrame o.sessionId)] else []) ++
        [send (resultFrame (orElse o.stdout (.str "")) (.str o.stderr) o.returncode)], none) := by
  have hnull : Json.null.truthy = false := rfl
  have hempty : (Json.str "").truthy = false := rfl
  have hresult : orElse o.toResult (.obj []) = o.toResult := rfl
  have hcode : o.toResult.get? "returncode" = some (.int o.returncode) := rfl
  have hout : o.toResult.get? "stdout" = some o.stdout := rfl
  have herr : o.toResult.get? "stderr" = some (.str o.stderr) := rfl
  have hid : o.toResult.get? "session_id" = none := rfl
  have hstderr : orElse (.str o.stderr) (.str "") = .str o.stderr := by
    by_cases hnone : o.stderr = "" <;> simp [orElse, hnone, Json.truthy]
  have hsession : orElse (orElse o.sessionId (.str "")) .null =
      if o.sessionId.truthy then o.sessionId else .null := by
    cases htruthy : o.sessionId.truthy <;> simp [orElse, htruthy, hempty]
  simp only [answer, hresult, hcode, hout, herr, hid, Option.getD_some, Option.getD_none, intOf,
    sessionOf, hsession, hstderr]
  cases htruthy : o.sessionId.truthy <;> simp [htruthy, hnull]

/-- **OMP**: a run is answered well if and only if its session fits into a line and a
return code of 0 hides no error. -/
theorem good_omp : Good h (ofSpawn (ompSpawn h.toMachine p)) ↔ AdapterSound h p .omp := by
  have hcommands : (ompSpawn h.toMachine p).1 = (run h.toMachine p.timeout (shortTask p)).1 := rfl
  have hspawned : (ompSpawn h.toMachine p).2 =
      (run h.toMachine p.timeout (shortTask p)).2.map fun o =>
        { backendSessionId := orElse o.sessionId (.str ""), result := o.toResult } := rfl
  rw [ofSpawn, hcommands, hspawned]
  cases hrun : (run h.toMachine p.timeout (shortTask p)).2 with
  | error e =>
    constructor
    · intro _ o ho
      rw [hrun] at ho
      cases ho
    · intro _
      exact good_error h _ _
  | ok o =>
    have hanswer : spawnAnswer ((Except.ok o : Except Exc Outcome).map fun o =>
        { backendSessionId := orElse o.sessionId (.str ""), result := o.toResult }) =
        answer { backendSessionId := orElse o.sessionId (.str ""), result := o.toResult } := rfl
    rw [hanswer, answer_omp]
    have hresult : isTerminal (send (resultFrame (orElse o.stdout (.str "")) (.str o.stderr)
        o.returncode)) = true := isTerminal_send rfl
    constructor
    · intro hg o' ho'
      rw [hrun] at ho'
      cases ho'
      constructor
      · intro htruthy
        by_contra hfits
        have honce := hg.once
        have hsession := isTerminal_of_type (send_of_not_fits hfits) (by simp)
        simp [htruthy, terminals, hsession, hresult] at honce
      · intro h0 hfits argv hargv proc hproc
        rw [← h0] at hfits
        have hmem := hg.truthful _ (List.mem_append_right _ (List.mem_singleton.mpr rfl))
        rw [send_of_fits hfits, h0] at hmem
        obtain ⟨argv', hargv', proc', hproc', -, herror⟩ := hmem rfl rfl
        obtain ⟨argv'', -, hone, -⟩ := run_zero hrun h0
        rw [hone, List.mem_singleton] at hargv hargv'
        rw [hargv] at hproc
        rw [hargv', hproc] at hproc'
        cases hproc'
        exact herror
    · intro hsound
      obtain ⟨hsession, herror⟩ := hsound o hrun
      refine ⟨rfl, ?_, ?_⟩
      · cases htruthy : o.sessionId.truthy
        · simp [terminals, hresult]
        · have hplain : isTerminal (send (sessionFrame o.sessionId)) = false := by
            rw [send_of_fits (hsession htruthy)]
            simp [isTerminal, sessionFrame]
          simp [terminals, hplain, hresult]
      · intro f hf htype hcode
        have hfr : f = send (resultFrame (orElse o.stdout (.str "")) (.str o.stderr) o.returncode) := by
          rcases List.mem_append.mp hf with hf | hf
          · cases htruthy : o.sessionId.truthy
            · simp [htruthy] at hf
            · simp only [htruthy, if_true, List.mem_singleton] at hf
              rw [hf, send_of_fits (hsession htruthy)] at htype
              simp [sessionFrame] at htype
          · exact List.mem_singleton.mp hf
        subst hfr
        have hfits : Fits (resultFrame (orElse o.stdout (.str "")) (.str o.stderr) o.returncode) := by
          by_contra hfits
          rw [send_of_not_fits hfits] at htype
          simp at htype
        rw [send_of_fits hfits] at hcode
        have h0 : o.returncode = 0 := by simpa [resultFrame, frame, List.lookup_cons] using hcode
        obtain ⟨argv, proc, hone, hproc, hend⟩ := run_zero hrun h0
        refine ⟨argv, by simp [hone], proc, hproc, hend, ?_⟩
        exact herror h0 (h0 ▸ hfits) argv (by simp [hone]) proc hproc

theorem not_good_of_raised {x : Handled} {e : Exc} (hx : x.raised = some e) : ¬ Good h x := by
  intro hg
  rw [hg.survives] at hx
  cases hx

/-- **OpenCode**: a run is answered well if and only if the program cannot be started. -/
theorem good_opencode :
    Good h (ofSpawn (opencodeSpawn h.toMachine p)) ↔ AdapterSound h p .opencode := by
  cases hl : h.launch (opencodeArgv p) with
  | error e =>
    have hspawned : (opencodeSpawn h.toMachine p).2 =
        .error (asRuntimeError "opencode spawn failed" e) := by
      simp only [opencodeSpawn, hl]
    rw [ofSpawn, hspawned]
    constructor
    · intro _ proc hproc
      rw [hl] at hproc
      cases hproc
    · intro _
      exact good_error h _ _
  | ok proc =>
    constructor
    · intro hg
      refine absurd hg (not_good_of_raised
        (e := .other "int() argument must be a string or a real number") ?_)
      simp only [opencodeSpawn, hl]
      rfl
    · intro hsound
      exact absurd hl (hsound proc)

/-- **Generic**: without a command line there is nothing to start. -/
theorem good_generic (hargv : p.argv = []) (hprofile : p.profileArgs = []) :
    Good h (ofSpawn (genericSpawn h.toMachine p)) := by
  have hspawn : genericSpawn h.toMachine p =
      ([], .error (.value "generic runtime requires 'argv' (configured, no shell)")) := by
    simp [genericSpawn, hargv, hprofile]
  rw [hspawn]
  exact good_error h _ _

theorem good_adapter (hargv : p.argv = []) (hprofile : p.profileArgs = []) (a : Adapter) :
    Good h (runAdapter h a p) ↔ overflows p.timeout = false ∧ AdapterSound h p a := by
  cases hover : overflows p.timeout with
  | true =>
    have hrun : (runAdapter h a p).raised = some (.other "int too large to convert to float") := by
      simp [runAdapter, hover]
    exact ⟨fun hg => absurd hg (not_good_of_raised hrun), fun hs => by cases hs.1⟩
  | false =>
    have hrun : runAdapter h a p = (ofSpawn (a.spawn h.toMachine p)).after
        (List.replicate h.beats (frame "progress" [("message", .str "still running")])) := by
      simp [runAdapter, hover, send_progress]
    have hbeats : ∀ f ∈ List.replicate h.beats (frame "progress" [("message", .str "still running")]),
        ∃ type, f.get? "type" = some (.str type) ∧ type ∈ ["accepted", "progress"] := by
      intro f hf
      rw [List.eq_of_mem_replicate hf]
      exact ⟨"progress", rfl, by simp⟩
    rw [hrun, good_append _ hbeats]
    cases a with
    | omp => exact good_omp.trans (by simp)
    | opencode => exact good_opencode.trans (by simp)
    | generic => exact iff_of_true (good_generic hargv hprofile) ⟨rfl, trivial⟩

/-- **One run**: what `_handle_run` does with a request is good if and only if the
request is sound. -/
theorem good_run {req : Json} : Good h (handleRun h req) ↔ RunSound h req := by
  rw [handleRun, RunSound]
  cases hiter : iterable ((req.get? "capabilities").getD .null) with
  | false =>
    simp only [Bool.not_false, if_true, Bool.false_eq_true, false_and, iff_false]
    exact not_good_of_raised rfl
  | true =>
    have haccepted : ∀ f ∈ [frame "accepted" [("wire_version", .int WIRE_VERSION)]],
        ∃ type, f.get? "type" = some (.str type) ∧ type ∈ ["accepted", "progress"] := by
      intro f hf
      rw [List.mem_singleton.mp hf]
      exact ⟨"accepted", rfl, by simp⟩
    simp only [Bool.not_true, Bool.false_eq_true, if_false, true_and]
    rw [send_accepted, good_append _ haccepted, runAccepted]
    cases hdir : expandUser h.home (((req.get? "workdir").bind Json.str?).getD ".") with
    | none =>
      simp only [reduceCtorEq, false_and, exists_false, iff_false]
      exact not_good_of_raised rfl
    | some workdir =>
      simp only [Option.some.injEq, exists_eq_left']
      cases hisDir : h.isDir workdir with
      | false => exact iff_of_true (good_error h _ _) (fun hd => by cases hd)
      | true =>
        simp only [Bool.not_true, Bool.false_eq_true, if_false, true_implies]
        cases hsel : selectAdapter ((req.get? "backend").getD (.str RUNTIME_OMP)) with
        | unhashable =>
          simp only [ne_eq, not_true, false_and, iff_false]
          exact not_good_of_raised rfl
        | refused code message =>
          exact iff_of_true (good_error h _ _) ⟨by simp, fun a ha => by cases ha⟩
        | adapter a =>
          simp only [ne_eq, reduceCtorEq, not_false_eq_true, true_and, Selection.adapter.injEq,
            forall_eq']
          exact good_adapter rfl rfl a

/-! ## The other requests -/

theorem isTerminal_mailboxResult (out err : String) (code : ℤ) :
    isTerminal (mailboxResult out err code) = true := isTerminal_send rfl

theorem mailbox_once (h : Host) (req : Json) :
    (handleMailbox h req).raised = none ∧ (terminals (handleMailbox h req).frames).length = 1 := by
  have hone {f : Json} (hf : isTerminal f = true) : (terminals [f]).length = 1 := by
    simp [terminals, hf]
  have hfallback (run : String × String × CommandEnd) : isTerminal (mailboxFallback run) = true := by
    obtain ⟨out, err, ending⟩ := run
    cases ending <;> exact isTerminal_mailboxResult ..
  have hdispatch (args : List Json) (root : Option String) :
      (handleMailbox.dispatch h args root).raised = none ∧
      (terminals (handleMailbox.dispatch h args root).frames).length = 1 := by
    rw [handleMailbox.dispatch]
    cases h.mailboxDirect args root with
    | none => exact ⟨rfl, hone (hfallback _)⟩
    | some r => exact ⟨rfl, hone (isTerminal_mailboxResult ..)⟩
  rw [handleMailbox]
  cases (req.get? "args").getD (.arr []) with
  | arr args =>
    cases mailboxRoot req with
    | none => exact hdispatch args none
    | some root =>
      by_cases hroot : rootOk root = true
      · simp only [hroot, if_true]
        exact hdispatch args (some root)
      · simp only [hroot]
        exact ⟨rfl, terminals_error _⟩
  | _ => exact ⟨rfl, terminals_error _⟩

theorem handleStream_raised (h : Host) (subs : List Subscription) (req : Json) :
    (handleStream h subs req).2.raised = none := by
  simp only [handleStream]
  split_ifs <;> rfl

theorem handle_raised {h : Host} {subs : List Subscription} {req : Json}
    (hrun : ¬ (versionOk ((req.get? "wire_version").getD (.int 0)) = true ∧
      req.get? "command" = some (.str "run"))) : (handle h subs req).2.raised = none := by
  rw [handle]
  cases hver : versionOk ((req.get? "wire_version").getD (.int 0)) with
  | false => rfl
  | true =>
    simp only [Bool.not_true, Bool.false_eq_true, if_false]
    split
    case h_3 hcmd => exact absurd ⟨hver, hcmd⟩ hrun
    case h_4 => exact (mailbox_once h req).1
    case h_5 => exact handleStream_raised h subs req
    all_goals rfl

/-! ## A whole input -/

/-- **One event** leaves the helper running and is answered as it should be, if and only
if it is sound. -/
theorem handled_iff (subs : List Subscription) (e : Event) :
    (step subs e).2.raised = none ∧ Answered e (step subs e).2 ↔ e.Sound := by
  cases e with
  | pause h => exact iff_of_true ⟨rfl, trivial⟩ trivial
  | line text h =>
    by_cases hlong : MAX_LINE_LENGTH < (text ++ ['\n']).length
    · have hstep : (step subs (.line text h)).2 = { frames :=
          [sendError ("wire line exceeds " ++ toString MAX_LINE_LENGTH ++ " bytes")] } := by
        rw [step, handleLine, if_pos hlong]
      rw [hstep]
      refine iff_of_true ⟨rfl, fun cmd req _ => ⟨fun _ => terminals_error _, fun _ => ?_⟩⟩
        fun hle => absurd hle (Nat.not_le.mpr hlong)
      exact (good_error h _ []).truthful
    · have hle := Nat.le_of_not_lt hlong
      have hstep : step subs (.line text h) =
          handleDecoded h subs (decodeRequest h.depth (text ++ ['\n'])) := by
        rw [step, handleLine, if_neg hlong]
      simp only [Event.Sound, Answered, Requests, hle, true_implies]
      rw [hstep]
      cases hdec : decodeRequest h.depth (text ++ ['\n']) with
      | error err =>
        cases err with
        | value why =>
          refine iff_of_true ⟨rfl, fun cmd req hreq => ?_⟩ ⟨by simp, fun req hreq => ?_⟩
          · cases hreq.1
          · cases hreq.1
        | recursion =>
          refine iff_of_false (fun hg => ?_) fun hs => hs.1 rfl
          cases hg.1
      | ok req =>
        simp only [ne_eq, reduceCtorEq, not_false_eq_true, true_and, Except.ok.injEq]
        by_cases hrun : versionOk ((req.get? "wire_version").getD (.int 0)) = true ∧
            req.get? "command" = some (.str "run")
        · obtain ⟨hver, hcmd⟩ := hrun
          have hhandle : (handleDecoded h subs (.ok req)).2 = handleRun h req := by
            simp only [handleDecoded, handle, hver, hcmd, Bool.not_true, Bool.false_eq_true, if_false]
          rw [hhandle]
          constructor
          · rintro ⟨hraised, hanswered⟩ req' ⟨rfl, -, -⟩
            obtain ⟨honce, htruthful⟩ := hanswered "run" req ⟨rfl, hver, hcmd⟩
            exact good_run.mp ⟨hraised, honce (.inl rfl), htruthful rfl⟩
          · intro hsound
            have hgood := good_run.mpr (hsound req ⟨rfl, hver, hcmd⟩)
            refine ⟨hgood.survives, ?_⟩
            rintro cmd req' ⟨rfl, -, -⟩
            exact ⟨fun _ => hgood.once, fun _ => hgood.truthful⟩
        · refine iff_of_true ⟨handle_raised hrun, ?_⟩ ?_
          · rintro cmd req' ⟨rfl, hver, hcmd⟩
            constructor
            · rintro (rfl | rfl)
              · exact absurd ⟨hver, hcmd⟩ hrun
              · simp only [handleDecoded, handle, hver, hcmd, Bool.not_true, Bool.false_eq_true, if_false]
                exact (mailbox_once h req).2
            · rintro rfl
              exact absurd ⟨hver, hcmd⟩ hrun
          · rintro req' ⟨rfl, hver, hcmd⟩
            exact absurd ⟨hver, hcmd⟩ hrun

theorem serve_cons {e : Event} {es : List Event} (h : (step subs e).2.raised = none) :
    serve subs (e :: es) = (step subs e).2 :: serve (step subs e).1 es := by
  simp [serve, h]

/-- What is asked of the rest of an input. -/
def AnswersFrom (subs : List Subscription) (es : List Event) : Prop :=
  (serve subs es).length = es.length ∧ (∀ x ∈ serve subs es, x.raised = none) ∧
  List.Forall₂ Answered es (serve subs es)

theorem answersFrom_cons {e : Event} {es : List Event} :
    AnswersFrom subs (e :: es) ↔ ((step subs e).2.raised = none ∧ Answered e (step subs e).2) ∧
      AnswersFrom (step subs e).1 es := by
  by_cases hraised : (step subs e).2.raised = none
  · rw [AnswersFrom, AnswersFrom, serve_cons hraised]
    simp only [List.length_cons, Nat.add_right_cancel_iff, List.mem_cons, forall_eq_or_imp,
      List.forall₂_cons]
    tauto
  · have hmem : (step subs e).2 ∈ serve subs (e :: es) := by
      rw [serve]
      exact List.mem_cons_self ..
    refine iff_of_false (fun ha => hraised (ha.2.1 _ hmem)) fun ha => hraised ha.1.1

theorem answersFrom_iff (es : List Event) :
    ∀ subs, AnswersFrom subs es ↔ ∀ e ∈ es, e.Sound := by
  induction es with
  | nil =>
    intro subs
    exact iff_of_true ⟨rfl, by simp [serve], .nil⟩ (by simp)
  | cons e es ih =>
    intro subs
    rw [answersFrom_cons, handled_iff, ih]
    simp only [List.mem_cons, forall_eq_or_imp]

/-- **Each request is answered once and truthfully**, in every run of the helper whose
events are sound, and in no other. -/
theorem answers_iff (es : List Event) : Answers es ↔ ∀ e ∈ es, e.Sound := by
  rw [← answersFrom_iff es []]
  exact ⟨fun h => ⟨h.reads, h.survives, h.answered⟩, fun h => ⟨h.1, h.2.1, h.2.2⟩⟩

/-! ## OpenCode -/

/-- A run of OpenCode, as the relay sends it. -/
def opencodeLine : List Char :=
  compact (makeRequest { task := "t", workdir := "/", backend := some "opencode" } "" none)

/-- **An OpenCode run ends the helper**: the request is accepted, the program is started,
and the handle without a return code raises before any answer. -/
theorem opencode_run_ends_helper : ¬ Answers [.line opencodeLine anyHost, .line opencodeLine anyHost] := by
  intro h
  have hlength : (serve [] [.line opencodeLine anyHost, .line opencodeLine anyHost]).length = 1 := by
    decide +kernel
  have hreads := h.reads
  rw [hlength] at hreads
  simp at hreads

end AiMeshChat.Helper
