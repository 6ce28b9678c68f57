import AiMeshChat.Helper.Serve
import Mathlib.Tactic.Common

/-!
# From a request to the command line of its agent

A run request goes through four lists of fields: the wire request of `make_request`, what
`_handle_run` reads of it, the payload of the spawn and the `RunRequest` of the adapter.
`helperCommands` is the command line at the far end, `directCommands` the one that the
runner builds from the request itself.

The last list has no session to resume and no permissions. So the two agree only where
these do not matter: `sameCommand_iff`.
-/

namespace AiMeshChat.Helper

open Lib Runner Wire

/-! ## The two command lines -/

/-- A text read with universal newlines. -/
def universalNewlines (cs : List Char) : List Char :=
  (joinCrLf cs).map fun c => if c = '\r' then '\n' else c

/-- The lines of the helper's input; `none` for bytes that are no text. -/
def stdinLines (bytes : List UInt8) : Option (List (List Char)) :=
  (utf8 bytes).map fun cs => linesOn (· = '\n') (universalNewlines cs)

/-- The command lines that the helper starts for its input. -/
def helperCommands (h : Host) (bytes : List UInt8) : List (List Arg) :=
  match stdinLines bytes with
  | none => []
  | some lines => (serve [] (lines.map fun l => .line l h)).flatMap (·.commands)

/-- The request that a transport is asked to send: with its working directory and the
session to resume, the directory expanded as on the host. -/
def directTask (h : Host) (request : RunRequest) (workdir : String) (sessionId : Option String) :
    Task :=
  let dir := orText (some workdir) request.workdir
  Task.ofRequest { request with
    workdir := (expandUser h.home dir).getD dir
    resumeSessionId := sessionId }

/-- The command line that the runner builds of the request itself; there is none if the
profile of its agent cannot be read. -/
def directCommands (h : Host) (request : RunRequest) (workdir : String)
    (sessionId : Option String) : List (List Arg) :=
  (run h.toMachine request.timeout (directTask h request workdir sessionId)).1

/-- A request that fits on a line. -/
structure Sendable (request : RunRequest) (workdir : String) (sessionId : Option String) : Prop where
  timeout : shortInt request.timeout.natAbs
  line : (compact (makeRequest request workdir sessionId) ++ ['\n']).length ≤ MAX_LINE_LENGTH

/-- The runner gets as far as building a command line. -/
def Builds (h : Host) (agent : Json) : Prop :=
  ∃ profile, profileOf h.toMachine agent = .ok profile ∧ swarmSession h.toMachine profile = .ok ()

/-- The helper comes to call the adapter. -/
structure Reached (h : Host) (request : RunRequest) (workdir : String) : Prop where
  dir : ∃ dir, expandUser h.home (orText (some workdir) request.workdir) = some dir ∧
    h.isDir dir = true
  timeout : overflows request.timeout = false

/-- Nothing is asked for that the last list of fields leaves out. -/
structure Covered (request : RunRequest) (sessionId : Option String) : Prop where
  permissions : request.skipPermissions = true
  session : truthyText sessionId = none ∨ request.newSession = true

/-! ## The wire request -/

theorem lookup_optField (key k : String) (value : Option String) :
    (optField key value).lookup k = if k = key then (truthyText value).map .str else none := by
  rw [optField]
  cases truthyText value with
  | none => simp
  | some s =>
    by_cases hk : k = key
    · simp [hk]
    · simp [hk, List.lookup_cons, beq_false_of_ne hk]

section

variable (request : RunRequest) (workdir : String) (sessionId : Option String)

theorem makeRequest_fields :
    let req := makeRequest request workdir sessionId
    req.get? "wire_version" = some (.int WIRE_VERSION) ∧
    req.get? "command" = some (.str "run") ∧
    req.get? "task" = some (.str request.task) ∧
    req.get? "workdir" = some (.str (orText (some workdir) request.workdir)) ∧
    req.get? "timeout" = some (.int request.timeout) ∧
    req.get? "backend" = (truthyText request.backend).map .str ∧
    req.get? "agent" = (truthyText request.agent).map .str ∧
    req.get? "model" = (truthyText request.model).map .str ∧
    req.get? "capabilities" = if request.capabilities = [] then none
      else some (.arr (request.capabilities.map .str)) := by
  have hcaps (key : String) : List.lookup key (if request.capabilities = [] then []
      else [("capabilities", Json.arr (request.capabilities.map .str))]) =
      if request.capabilities = [] ∨ key ≠ "capabilities" then none
      else some (.arr (request.capabilities.map .str)) := by
    by_cases hnone : request.capabilities = []
    · simp [hnone]
    · by_cases hkey : key = "capabilities"
      · simp [hnone, hkey]
      · simp [hnone, hkey, List.lookup_cons, beq_false_of_ne hkey]
  refine ⟨?_, ?_, ?_, ?_, ?_, ?_, ?_, ?_, ?_⟩ <;>
    simp [makeRequest, List.lookup_append, lookup_optField, List.lookup_cons, hcaps]

theorem makeRequest_values {fields : List (String × Json)}
    (h : makeRequest request workdir sessionId = .obj fields) :
    ∀ kv ∈ fields, (∃ s, kv.2 = .str s) ∨ (∃ b, kv.2 = .bool b) ∨ kv.2 = .int WIRE_VERSION ∨
      kv.2 = .int request.timeout ∨ kv.2 = .arr (request.capabilities.map .str) := by
  have hopt {key : String} {value : Option String} {kv : String × Json}
      (hkv : kv ∈ optField key value) : ∃ s, kv.2 = .str s := by
    rw [optField] at hkv
    cases hval : truthyText value with
    | none => simp [hval] at hkv
    | some s =>
      simp only [hval, List.mem_singleton] at hkv
      exact ⟨s, by rw [hkv]⟩
  cases h
  intro kv hkv
  simp only [List.mem_append, List.mem_cons, List.not_mem_nil, or_false] at hkv
  rcases hkv with (((((((rfl | rfl | rfl | rfl) | h) | h) | h) | h) | h) |
    (rfl | rfl | rfl | rfl | rfl | rfl | rfl)) | h
  · exact .inr (.inr (.inl rfl))
  · exact .inl ⟨_, rfl⟩
  · exact .inl ⟨_, rfl⟩
  · exact .inl ⟨_, rfl⟩
  · exact .inl (hopt h)
  · exact .inl (hopt h)
  · exact .inl (hopt h)
  · exact .inl (hopt h)
  · exact .inl (hopt h)
  · exact .inr (.inl ⟨_, rfl⟩)
  · exact .inr (.inr (.inr (.inl rfl)))
  · exact .inl ⟨_, rfl⟩
  · exact .inl ⟨_, rfl⟩
  · exact .inl ⟨_, rfl⟩
  · exact .inl ⟨_, rfl⟩
  · exact .inr (.inl ⟨_, rfl⟩)
  · split_ifs at h
    · cases h
    · exact .inr (.inr (.inr (.inr (by rw [List.mem_singleton.mp h]))))

theorem makeRequest_nodup {fields : List (String × Json)}
    (h : makeRequest request workdir sessionId = .obj fields) : (fields.map (·.1)).Nodup := by
  have hopt (key : String) (value : Option String) :
      ((optField key value).map (·.1)).Sublist [key] := by
    rw [optField]
    cases truthyText value <;> simp
  have hcaps : ((if request.capabilities = [] then []
      else [("capabilities", Json.arr (request.capabilities.map .str))]).map (·.1)).Sublist
      ["capabilities"] := by
    split_ifs <;> simp
  have hkeys : (fields.map (·.1)).Sublist (["wire_version", "command", "task", "workdir"] ++
      ["backend"] ++ ["agent"] ++ ["model"] ++ ["skills"] ++ ["resume_session_id"] ++
      ["skip_permissions", "timeout", "session_key", "request_id", "run_id", "review_key",
        "require_ack"] ++ ["capabilities"]) := by
    cases h
    simp only [List.map_append]
    exact ((((((List.Sublist.refl _).append (hopt _ _)).append (hopt _ _)).append
      (hopt _ _)).append (hopt _ _)).append (hopt _ _)).append (.refl _) |>.append hcaps
  exact hkeys.nodup (by decide)

theorem makeRequest_proper (htimeout : shortInt request.timeout.natAbs) (d : ℕ) :
    Proper (d + 2) (makeRequest request workdir sessionId) := by
  obtain ⟨fields, hfields⟩ : ∃ fields, makeRequest request workdir sessionId = .obj fields := ⟨_, rfl⟩
  rw [hfields]
  refine ⟨makeRequest_nodup request workdir sessionId hfields, properFields_iff.mpr fun kv hkv => ?_⟩
  rcases makeRequest_values request workdir sessionId hfields kv hkv with
    ⟨s, h⟩ | ⟨b, h⟩ | h | h | h <;> rw [h]
  · trivial
  · trivial
  · show (Nat.toDigits 10 2).length ≤ _
    decide
  · exact htimeout
  · refine properItems_iff.mpr fun v hv => ?_
    obtain ⟨s, -, rfl⟩ := List.mem_map.mp hv
    cases d <;> trivial

theorem makeRequest_noFloat : NoFloat (makeRequest request workdir sessionId) := by
  obtain ⟨fields, hfields⟩ : ∃ fields, makeRequest request workdir sessionId = .obj fields := ⟨_, rfl⟩
  rw [hfields]
  refine noFloatFields_iff.mpr fun kv hkv => ?_
  rcases makeRequest_values request workdir sessionId hfields kv hkv with
    ⟨s, h⟩ | ⟨b, h⟩ | h | h | h <;> rw [h]
  · trivial
  · trivial
  · trivial
  · trivial
  · refine noFloatItems_iff.mpr fun v hv => ?_
    obtain ⟨s, -, rfl⟩ := List.mem_map.mp hv
    trivial

end

/-! ## The line -/

/-- **What is sent is read**: the bytes of a value without floats are one line. -/
theorem stdinLines_encodeLine {obj : Json} (h : NoFloat obj) :
    stdinLines (encodeLine obj) = some [compact obj] := by
  have hprint : Printable (compact obj) :=
    jsonText_printable (by decide : Printable [',']) (by decide : Printable [':']) h
  have hbytes : encodeLine obj = encode (compact obj ++ ['\n']) := by
    rw [encode_append]
    rfl
  have hcr : '\r' ∉ compact obj ++ ['\n'] := by
    intro hm
    rcases List.mem_append.mp hm with hm | hm
    · exact absurd (hprint _ hm) (by decide)
    · exact absurd (List.mem_singleton.mp hm) (by decide)
  have huniversal : universalNewlines (compact obj ++ ['\n']) = compact obj ++ ['\n'] := by
    rw [universalNewlines, joinCrLf_of_no_cr hcr]
    refine (List.map_congr_left fun c hc => ?_).trans (List.map_id _)
    have hne : c ≠ '\r' := fun he => hcr (he ▸ hc)
    exact if_neg hne
  rw [stdinLines, hbytes, utf8_encode, Option.map_some, huniversal]
  have hline : ∀ c ∈ compact obj, decide (c = '\n') = false := by
    intro c hc
    have := hprint c hc
    simp only [decide_eq_false_iff_not]
    rintro rfl
    revert this
    decide
  rw [linesOn_line hline rfl]
  rfl

section

variable {request : RunRequest} {workdir : String} {sessionId : Option String}

theorem decodeRequest_makeRequest {d : ℕ} (hd : 2 ≤ d) (h : Sendable request workdir sessionId) :
    decodeRequest d (compact (makeRequest request workdir sessionId) ++ ['\n']) =
      .ok (makeRequest request workdir sessionId) := by
  obtain ⟨-, hcmd, htask, hdir, htimeout, -⟩ := makeRequest_fields request workdir sessionId
  obtain ⟨d, rfl⟩ := Nat.exists_eq_add_of_le hd
  obtain ⟨cs, hcs⟩ : ∃ cs, compact (makeRequest request workdir sessionId) =
      '\x7b' :: cs ++ ['\x7d'] := jsonText_obj _ _ _
  have hstrip : strip (compact (makeRequest request workdir sessionId) ++ ['\n']) =
      compact (makeRequest request workdir sessionId) := by
    rw [hcs]
    exact strip_braces_append cs rfl
  have hne : compact (makeRequest request workdir sessionId) ≠ [] := by
    rw [hcs]
    simp
  have hlength : ¬ MAX_LINE_LENGTH < (compact (makeRequest request workdir sessionId)).length := by
    have := h.line
    rw [List.length_append] at this
    omega
  have hloads := loads_compact (makeRequest_proper request workdir sessionId h.timeout d)
  rw [Nat.add_comm] at hloads
  have hparse : parseObject (2 + d) "wire request"
      (compact (makeRequest request workdir sessionId) ++ ['\n']) =
      .ok (makeRequest request workdir sessionId) := by
    rw [parseObject, hstrip, if_neg hne, if_neg hlength, hloads]
    rfl
  have hschema : checkFields ("command " ++ reprStr "run") (makeRequest request workdir sessionId)
      [("task", .str), ("workdir", .str), ("timeout", .int)] = .ok () := by
    simp [checkFields, htask, hdir, htimeout, isInstance]
  rw [decodeRequest, hparse]
  simp only [bind, Except.bind, hcmd]
  rw [if_neg (by decide), show requestRequired "run" =
    some [("task", .str), ("workdir", .str), ("timeout", .int)] from rfl]
  simp only [hschema]
  rfl

theorem helperCommands_eq {h : Host} (hd : 2 ≤ h.depth) (hs : Sendable request workdir sessionId) :
    helperCommands h (encodeLine (makeRequest request workdir sessionId)) =
      (handleRun h (makeRequest request workdir sessionId)).commands := by
  obtain ⟨hver, hcmd, -⟩ := makeRequest_fields request workdir sessionId
  have hhandle : handleLine h [] (compact (makeRequest request workdir sessionId)) =
      ([], handleRun h (makeRequest request workdir sessionId)) := by
    have hversion : versionOk (.int WIRE_VERSION) = true := rfl
    rw [handleLine, if_neg (Nat.not_lt.mpr hs.line), decodeRequest_makeRequest hd hs]
    simp only [handleDecoded, handle, hver, hcmd, Option.getD_some, hversion, Bool.not_true,
      Bool.false_eq_true, if_false]
  rw [helperCommands, stdinLines_encodeLine (makeRequest_noFloat request workdir sessionId)]
  simp only [List.map_cons, List.map_nil, serve, step, hhandle]
  cases (handleRun h (makeRequest request workdir sessionId)).raised.isSome <;> simp

end

/-! ## The runner -/

theorem run_commands (m : Machine) (timeout : ℤ) (r : Task) :
    (run m timeout r).1 = match profileOf m r.agent with
      | .error _ => []
      | .ok profile => if swarmSession m profile = .ok () then [buildCmd DEFAULT_BINARY profile r]
        else [] := by
  rw [run]
  cases profileOf m r.agent with
  | error e => cases e <;> rfl
  | ok profile =>
    cases hs : swarmSession m profile with
    | error e => simp [hs]
    | ok u => simp [hs]

theorem profileOf_orElse (m : Machine) (v : Json) : profileOf m (orElse v (.str "")) = profileOf m v := by
  cases hv : v.truthy with
  | true => simp [orElse, hv]
  | false =>
    have hempty : (Json.str "").truthy = false := rfl
    simp [orElse, hv, profileOf, hempty]

theorem orElse_wire (value : Option String) :
    orElse (((truthyText value).map Json.str).getD .null) (.str "") =
      orElse ((value.map Json.str).getD .null) (.str "") := by
  cases value with
  | none => rfl
  | some s =>
    by_cases hs : s = ""
    · subst hs
      rfl
    · have hfilter : truthyText (some s) = some s := by simp [truthyText, hs]
      rw [hfilter]

theorem modelOf_orElse (profile : Option AgentProfile) (v : Json) :
    modelOf profile (orElse v (.str "")) = modelOf profile v := by
  have hempty : (Json.str "").truthy = false := rfl
  cases hv : v.truthy <;> simp [orElse, hv, modelOf, hempty]

/-- **The command line without a session and with all permissions** is that of a task if
and only if the task asks for just that. -/
theorem buildCmd_eq_iff (binary : String) (profile : Option AgentProfile) (r : Task) (model : Json)
    (hmodel : modelOf profile model = modelOf profile r.model) (agent : Json) :
    buildCmd binary profile { task := r.task, workdir := r.workdir, agent := agent, model := model } =
      buildCmd binary profile r ↔ resumeArgs r = [] ∧ r.skipPermissions = true := by
  have hnone : resumeArgs { task := r.task, workdir := r.workdir, agent := agent, model := model } = [] := by
    simp [resumeArgs, Json.truthy]
  constructor
  · intro heq
    have hlength := congrArg List.length heq
    simp only [buildCmd, hnone, hmodel, List.length_append, List.length_nil] at hlength
    have hresume : (resumeArgs r).length = 0 ∨ (resumeArgs r).length = 2 := by
      rw [resumeArgs]
      split_ifs <;> simp
    cases hskip : r.skipPermissions with
    | true =>
      simp only [hskip, if_true, List.length_singleton] at hlength
      exact ⟨List.length_eq_zero_iff.mp (by omega), rfl⟩
    | false =>
      simp only [hskip, if_true, Bool.false_eq_true, if_false, List.length_singleton,
        List.length_nil] at hlength
      omega
  · rintro ⟨hresume, hskip⟩
    simp only [buildCmd, hnone, hmodel, hresume, hskip]

/-! ## The law -/

section

variable {h : Host} {request : RunRequest} {workdir : String} {sessionId : Option String}

theorem selectAdapter_omp (homp : orText request.backend RUNTIME_OMP = RUNTIME_OMP) :
    selectAdapter (((truthyText request.backend).map Json.str).getD (.str RUNTIME_OMP)) =
      .adapter .omp := by
  cases hb : request.backend with
  | none => rfl
  | some b =>
    rw [hb, orText] at homp
    by_cases hempty : b = ""
    · subst hempty
      rfl
    · rw [if_neg hempty] at homp
      subst homp
      rfl

/-- What `_handle_run` starts for the request. -/
theorem handleRun_commands (homp : orText request.backend RUNTIME_OMP = RUNTIME_OMP) {dir : String}
    (hdir : expandUser h.home (orText (some workdir) request.workdir) = some dir)
    (hisDir : h.isDir dir = true) (htimeout : overflows request.timeout = false) :
    (handleRun h (makeRequest request workdir sessionId)).commands =
      (run h.toMachine request.timeout
        { task := request.task, workdir := dir
          agent := orElse ((request.agent.map Json.str).getD .null) (.str "")
          model := orElse ((request.model.map Json.str).getD .null) (.str "") }).1 := by
  obtain ⟨-, -, htask, hworkdir, hseconds, hbackend, hagent, hmodel, hcaps⟩ :=
    makeRequest_fields request workdir sessionId
  have hiter : iterable (((makeRequest request workdir sessionId).get? "capabilities").getD .null) =
      true := by
    rw [hcaps]
    by_cases hnone : request.capabilities = []
    · rw [if_pos hnone]
      rfl
    · rw [if_neg hnone]
      simp [iterable]
  have hpayload : payloadOf (makeRequest request workdir sessionId) dir =
      { payloadOf (makeRequest request workdir sessionId) dir with
        task := request.task, workdir := dir, timeout := request.timeout
        agentId := orElse ((request.agent.map Json.str).getD .null) (.str "")
        model := orElse ((request.model.map Json.str).getD .null) (.str "") } := by
    simp [payloadOf, htask, hseconds, hagent, hmodel, orElse_wire, Json.str?, Wire.intOf?]
  have hafter (fs : List Json) (x : Handled) : (x.after fs).commands = x.commands := rfl
  rw [handleRun, hiter]
  simp only [Bool.not_true, Bool.false_eq_true, if_false, hafter]
  rw [runAccepted, hworkdir]
  simp only [Option.bind_some, Json.str?, Option.getD_some, hdir, hisDir, Bool.not_true,
    Bool.false_eq_true, if_false, hbackend, selectAdapter_omp homp]
  rw [runAdapter, hpayload]
  simp only [htimeout, Bool.false_eq_true, if_false, hafter]
  rfl

theorem handleRun_nothing (hreached : ¬ Reached h request workdir) :
    (handleRun h (makeRequest request workdir sessionId)).commands = [] := by
  obtain ⟨-, -, -, hworkdir, hseconds, -⟩ := makeRequest_fields request workdir sessionId
  have hafter (fs : List Json) (x : Handled) : (x.after fs).commands = x.commands := rfl
  have haccepted : (runAccepted h (makeRequest request workdir sessionId)).commands = [] := by
    rw [runAccepted, hworkdir]
    simp only [Option.bind_some, Json.str?, Option.getD_some]
    cases hdir : expandUser h.home (orText (some workdir) request.workdir) with
    | none => rfl
    | some dir =>
      cases hisDir : h.isDir dir with
      | false => simp [hisDir]
      | true =>
        have hover : overflows request.timeout = true := by
          by_contra hover
          exact hreached ⟨⟨dir, hdir, hisDir⟩, by simpa using hover⟩
        have htimeout : (payloadOf (makeRequest request workdir sessionId) dir).timeout =
            request.timeout := by
          simp [payloadOf, hseconds, Wire.intOf?]
        simp only [hisDir, Bool.not_true, Bool.false_eq_true, if_false]
        split
        · rfl
        · rfl
        · rw [runAdapter, htimeout, if_pos hover]
  rw [handleRun]
  split_ifs
  · rfl
  · rw [hafter, haccepted]

/-- **The command line is the one of the request**, unless the request names a session to
resume or withholds permissions: of the four lists of fields the last has neither. The
other conditions say that the helper comes to call its adapter, and that there is a
command line at all. -/
theorem sameCommand_iff (hdepth : 2 ≤ h.depth)
    (homp : orText request.backend RUNTIME_OMP = RUNTIME_OMP)
    (hsend : Sendable request workdir sessionId) :
    helperCommands h (encodeLine (makeRequest request workdir sessionId)) =
      directCommands h request workdir sessionId ↔
    ¬ Builds h ((request.agent.map Json.str).getD .null) ∨
      (Reached h request workdir ∧ Covered request sessionId) := by
  rw [helperCommands_eq hdepth hsend, directCommands]
  have hdirect : (directTask h request workdir sessionId).agent =
      (request.agent.map Json.str).getD .null := rfl
  have hrun (r : Task) (hagent : profileOf h.toMachine r.agent =
      profileOf h.toMachine ((request.agent.map Json.str).getD .null)) :
      (¬ Builds h ((request.agent.map Json.str).getD .null) ∧
        (run h.toMachine request.timeout r).1 = []) ∨
      ∃ profile, Builds h ((request.agent.map Json.str).getD .null) ∧
        profileOf h.toMachine ((request.agent.map Json.str).getD .null) = .ok profile ∧
        (run h.toMachine request.timeout r).1 = [buildCmd DEFAULT_BINARY profile r] := by
    rw [run_commands, hagent]
    cases hp : profileOf h.toMachine ((request.agent.map Json.str).getD .null) with
    | error e =>
      refine .inl ⟨?_, rfl⟩
      rintro ⟨profile, hprofile, -⟩
      rw [hp] at hprofile
      cases hprofile
    | ok profile =>
      by_cases hs : swarmSession h.toMachine profile = .ok ()
      · exact .inr ⟨profile, ⟨profile, hp, hs⟩, rfl, if_pos hs⟩
      · refine .inl ⟨?_, if_neg hs⟩
        rintro ⟨profile', hprofile, hs'⟩
        rw [hp] at hprofile
        cases hprofile
        exact hs hs'
  by_cases hreached : Reached h request workdir
  · obtain ⟨⟨dir, hdir, hisDir⟩, htimeout⟩ := hreached
    rw [handleRun_commands homp hdir hisDir htimeout]
    rcases hrun { task := request.task, workdir := dir
                  agent := orElse ((request.agent.map Json.str).getD .null) (.str "")
                  model := orElse ((request.model.map Json.str).getD .null) (.str "") }
        (profileOf_orElse ..) with ⟨hno, hnil⟩ | ⟨profile, hbuilds, hprofile, hcmd⟩
    · rcases hrun (directTask h request workdir sessionId) (by rw [hdirect]) with
        ⟨-, hnil'⟩ | ⟨-, hbuilds, -⟩
      · exact iff_of_true (hnil.trans hnil'.symm) (.inl hno)
      · exact absurd hbuilds hno
    · rcases hrun (directTask h request workdir sessionId) (by rw [hdirect]) with
        ⟨hno, -⟩ | ⟨profile', -, hprofile', hcmd'⟩
      · exact absurd hbuilds hno
      · rw [hprofile] at hprofile'
        cases hprofile'
        have hworkdir : (directTask h request workdir sessionId).workdir = dir := by
          simp [directTask, Task.ofRequest, hdir]
        have hsame := buildCmd_eq_iff DEFAULT_BINARY profile (directTask h request workdir sessionId)
          (orElse ((request.model.map Json.str).getD .null) (.str "")) (modelOf_orElse ..)
          (orElse ((request.agent.map Json.str).getD .null) (.str ""))
        rw [hworkdir] at hsame
        have hresume : resumeArgs (directTask h request workdir sessionId) = [] ↔
            truthyText sessionId = none ∨ request.newSession = true := by
          have htruthy : ((sessionId.map Json.str).getD .null).truthy = true ↔
              truthyText sessionId ≠ none := by
            cases sessionId with
            | none => simp [truthyText, Json.truthy]
            | some s => by_cases hs : s = "" <;> simp [truthyText, Json.truthy, hs]
          simp only [resumeArgs, directTask, Task.ofRequest, Bool.and_eq_true, htruthy]
          cases request.newSession <;> simp
        rw [hcmd, hcmd', List.singleton_inj]
        refine hsame.trans ?_
        rw [hresume]
        constructor
        · rintro ⟨hsession, hskip⟩
          exact .inr ⟨⟨⟨dir, hdir, hisDir⟩, htimeout⟩, hskip, hsession⟩
        · rintro (hno | ⟨-, hskip, hsession⟩)
          · exact absurd hbuilds hno
          · exact ⟨hsession, hskip⟩
  · rw [handleRun_nothing hreached]
    rcases hrun (directTask h request workdir sessionId) (by rw [hdirect]) with
      ⟨hno, hnil⟩ | ⟨profile, hbuilds, -, hcmd⟩
    · exact iff_of_true hnil.symm (.inl hno)
    · rw [hcmd]
      refine iff_of_false (by simp) ?_
      rintro (hno | ⟨hreached', -⟩)
      · exact hno hbuilds
      · exact hreached hreached'

/-- A new conversation with all permissions. -/
theorem sameCommand_new :
    helperCommands anyHost (encodeLine (makeRequest { task := "t" } "/w" none)) =
      directCommands anyHost { task := "t" } "/w" none :=
  (sameCommand_iff (by decide) rfl
    ⟨by decide +kernel, by decide +kernel⟩).mpr
    (.inr ⟨⟨⟨"/w", by decide +kernel, rfl⟩, by decide +kernel⟩, rfl, .inl rfl⟩)

/-- **The session is dropped**: a request to resume `s1` starts a new conversation. -/
theorem resume_is_dropped :
    helperCommands anyHost (encodeLine (makeRequest { task := "t" } "/w" (some "s1"))) ≠
      directCommands anyHost { task := "t" } "/w" (some "s1") := by
  decide +kernel

end

end AiMeshChat.Helper
