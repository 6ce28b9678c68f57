import AiMeshChat.Domain
import AiMeshChat.JsonText
import AiMeshChat.Lib.Lines

/-!
# `OMPRunner`

`runners/base.py` and `runners/omp.py`: the command line of an agent and what is read
off its output. The runner works on a `RunRequest` whose fields nobody has checked,
so those that the helper takes from the wire are `Json` values here.

A process is what it prints and how it ends. The prompt is written to a temporary
file; its argument is kept as the content of that file. Events, the environment of
the child and the removal of temporary files are left out, since no result depends on
them.
-/

namespace AiMeshChat.Runner

open Lib

/-- What a Python call raises. `FileNotFoundError` is an `OSError`; `exit` is not an
`Exception`. -/
inductive Exc
  | value (text : String)
  | notFound (text : String)
  | os (text : String)
  | other (text : String)
  | exit
  deriving DecidableEq

/-- `str(exc)`. -/
def Exc.text : Exc → String
  | .value t | .notFound t | .os t | .other t => t
  | .exit => ""

/-- Whether `except Exception` catches it. -/
def Exc.isException : Exc → Bool
  | .exit => false
  | _ => true

/-! ## The command line -/

/-- `AgentProfile`, as far as a run depends on it. -/
structure AgentProfile where
  name : String
  model : String := ""
  thinking : String := ""
  systemPromptPath : String := ""
  autoExit : Bool := true
  park : Bool := false
  deriving DecidableEq

/-- The fields of a `RunRequest` that the runner reads. -/
structure Task where
  task : String
  workdir : String := ""
  agent : Json := .null
  model : Json := .null
  resumeSessionId : Json := .null
  newSession : Bool := false
  skipPermissions : Bool := true
  deriving DecidableEq

/-- The `RunRequest` itself as the runner sees it. -/
def Task.ofRequest (r : RunRequest) : Task where
  task := r.task
  workdir := r.workdir
  agent := (r.agent.map Json.str).getD .null
  model := (r.model.map Json.str).getD .null
  resumeSessionId := (r.resumeSessionId.map Json.str).getD .null
  newSession := r.newSession
  skipPermissions := r.skipPermissions

/-- An argument: a value, or `@` and the prompt file with this content. -/
inductive Arg
  | val (v : Json)
  | prompt (content : String)
  deriving DecidableEq

/-- A text as an argument. -/
def arg (s : String) : Arg := .val (.str s)

def DEFAULT_BINARY : String := "omp"

/-- The options that come from the agent's profile. -/
def profileArgs : Option AgentProfile → List Arg
  | none => []
  | some p =>
    (if p.thinking = "" then [] else [arg "--thinking", arg p.thinking]) ++
    (if p.systemPromptPath = "" then [] else [arg "--append-system-prompt", arg p.systemPromptPath])

/-- `request.model or (profile.model if profile else None)`. -/
def modelOf (profile : Option AgentProfile) (model : Json) : Json :=
  if model.truthy then model else (profile.map fun p => Json.str p.model).getD .null

/-- `--resume`, unless a new conversation is asked for. -/
def resumeArgs (r : Task) : List Arg :=
  if r.resumeSessionId.truthy && !r.newSession then [arg "--resume", .val r.resumeSessionId] else []

/-- `_build_cmd`. -/
def buildCmd (binary : String) (profile : Option AgentProfile) (r : Task) : List Arg :=
  [arg binary, arg "--print", arg "--mode", arg "json"] ++
  (if r.workdir = "" then [] else [arg "--cwd", arg r.workdir]) ++
  resumeArgs r ++
  profileArgs profile ++
  (if (modelOf profile r.model).truthy then [arg "--model", .val (modelOf profile r.model)] else []) ++
  (if r.skipPermissions then [arg "--auto-approve"] else []) ++
  [.prompt r.task]

/-! ## The process -/

/-- How waiting for a process ends. -/
inductive Ending
  | exited (code : ℤ)
  | timeout
  deriving DecidableEq

/-- A process that has been started: its output line by line, an exception that reading
it raises after these lines, and its end. `early` of the lines come while the OpenCode
adapter waits for a session. -/
structure Process where
  stdout : List (List Char) := []
  readError : Option Exc := none
  stderr : String := ""
  ending : Ending := .exited 0
  watchdogKilled : Bool := false
  early : ℕ := 0
  deriving DecidableEq

/-- The machine on which an agent runs, during one request. `launch` is everything
that `spawn` does with a command line; `profile` reads the file of an agent. -/
structure Machine where
  depth : ℕ
  profile : Json → Except Exc AgentProfile
  swarmSession : Except Exc Unit := .ok ()
  launch : List Arg → Except Exc Process

/-- `RunResult`, with the values that the agent's output is free to choose. -/
structure Outcome where
  returncode : ℤ
  stdout : Json := .str ""
  stderr : String := ""
  sessionId : Json := .null
  deriving DecidableEq

/-! ## The output of the agent -/

/-- What `_consume_line` has seen: the session and the last visible text. -/
structure Seen where
  sessionId : Json := .null
  text : Option Json := none
  deriving DecidableEq

/-- `json.loads` of a line: `none` where it is skipped. -/
def parseLine (d : ℕ) (line : List Char) : Except Exc (Option Json) :=
  if strip line = [] then .ok none
  else match loads d (strip line) with
    | .error .invalid => .ok none
    | .error .recursion => .error (.other "maximum recursion depth exceeded")
    | .ok obj => if obj.isDict then .ok (some obj) else .error (.other "no attribute 'get'")

/-- `obj.get("message_end", {}).get("message")`. -/
def messageEnd (obj : Json) : Except Exc Json :=
  match obj.get? "message_end" with
  | none => .ok .null
  | some (.obj fields) => .ok ((Json.get? (.obj fields) "message").getD .null)
  | some _ => .error (.other "no attribute 'get'")

/-- Whether `text[:1000]` raises: only strings and lists have slices. -/
def sliceable : Json → Bool
  | .str _ | .arr _ => true
  | _ => false

/-- `_consume_line`. -/
def consumeLine (d : ℕ) (s : Seen) (line : List Char) : Except Exc Seen := do
  match ← parseLine d line with
  | none => return s
  | some obj =>
    if obj.get? "type" = some (.str "session") then
      let id := (obj.get? "id").getD .null
      return if id.truthy then { s with sessionId := id } else s
    else if obj.get? "type" = some (.str "assistant") then
      let text ← messageEnd obj
      if !text.truthy then return s
      else if sliceable text then return { s with text := some text }
      else throw (.other "object is not subscriptable")
    else return s

/-- The loop with which `_parse_output` goes through the output again when no visible
text was seen. -/
def reparse (d : ℕ) : List (List Char) → Seen → Except Exc Seen
  | [], s => .ok s
  | line :: rest, s => do
    match ← parseLine d line with
    | none => reparse d rest s
    | some obj =>
      if obj.get? "type" = some (.str "session") && !s.sessionId.truthy then
        reparse d rest { s with sessionId := (obj.get? "id").getD .null }
      else if obj.get? "type" = some (.str "assistant") then
        let text ← messageEnd obj
        reparse d rest (if text.truthy then { s with text := some text } else s)
      else if obj.get? "type" = some (.str "agent_end") then return s
      else reparse d rest s

/-- The session and the final message. -/
def finalSeen (d : ℕ) (s : Seen) (stdout : String) : Except Exc Seen :=
  if s.text.isSome then .ok s else reparse d (splitLines stdout.toList) s

/-- `_parse_output`. -/
def parseOutput (d : ℕ) (s : Seen) (code : ℤ) (stdout stderr : String) : Except Exc Outcome :=
  if code ≠ 0 then .ok { returncode := code, stdout := .str stdout, stderr := stderr }
  else (finalSeen d s stdout).map fun s =>
    { returncode := code, stdout := s.text.getD (.str stdout), stderr := stderr,
      sessionId := s.sessionId }

/-! ## `run` -/

/-- The diagnostic for a process that the watchdog has killed. -/
def withDiagnostic (timeout : ℤ) (p : Process) : String :=
  if p.watchdogKilled then
    String.ofList (strip ((p.stderr ++ "\n" ++ "watchdog: killed after " ++ toString timeout ++
      "s deadline (AIMESHCHAT_DEADLINE)").toList))
  else p.stderr

/-- `BaseRunner.run` after the process has been started. -/
def follow (d : ℕ) (timeout : ℤ) (p : Process) : Except Exc Outcome := do
  let s ← p.stdout.foldlM (consumeLine d) {}
  match p.readError, p.ending with
  | some (.os t), _ | some (.notFound t), _ => return { returncode := 1, stderr := t }
  | some e, _ => throw e
  | none, .timeout =>
    return { returncode := -1, stderr := "timeout after " ++ toString timeout ++ "s" }
  | none, .exited code =>
    parseOutput d s code (String.ofList p.stdout.flatten) (withDiagnostic timeout p)

/-- `BaseRunner.run` on a command line. -/
def runCommand (m : Machine) (timeout : ℤ) (argv : List Arg) : Except Exc Outcome :=
  match m.launch argv with
  | .error (.value t) => .ok { returncode := 1, stderr := t }
  | .error (.notFound t) => .ok { returncode := 127, stderr := t }
  | .error (.os t) => .ok { returncode := 1, stderr := t }
  | .error e => .error e
  | .ok p => follow m.depth timeout p

/-- The profile of the request's agent. -/
def profileOf (m : Machine) (agent : Json) : Except Exc (Option AgentProfile) :=
  if agent.truthy then (m.profile agent).map some else .ok none

/-- `_ensure_swarm_session`, for an agent that parks. -/
def swarmSession (m : Machine) (profile : Option AgentProfile) : Except Exc Unit :=
  if profile.any (·.park) then m.swarmSession else .ok ()

def ORACLE_TIMEOUT : ℤ := 3600

/-- The time limit: oracle agents get their own. -/
def timeoutOf (profile : Option AgentProfile) (timeout : ℤ) : ℤ :=
  if profile.any fun p => p.park && !p.autoExit then ORACLE_TIMEOUT else timeout

/-- `OMPRunner.run`: the command lines it starts, and what comes of them. -/
def run (m : Machine) (timeout : ℤ) (r : Task) : List (List Arg) × Except Exc Outcome :=
  match profileOf m r.agent with
  | .error (.value t) => ([], .ok { returncode := 1, stderr := t })
  | .error e => ([], .error e)
  | .ok profile =>
    match swarmSession m profile with
    | .error e => ([], .error e)
    | .ok () =>
      let argv := buildCmd DEFAULT_BINARY profile r
      ([argv], runCommand m (timeoutOf profile timeout) argv)

/-! ## A return code of 0 -/

theorem parseOutput_returncode {d : ℕ} {s : Seen} {code : ℤ} {stdout stderr : String} {o : Outcome}
    (h : parseOutput d s code stdout stderr = .ok o) : o.returncode = code := by
  rw [parseOutput] at h
  by_cases hcode : code ≠ 0
  · rw [if_pos hcode] at h
    cases h
    rfl
  · rw [if_neg hcode] at h
    cases hs : finalSeen d s stdout with
    | error e =>
      rw [hs] at h
      cases h
    | ok s' =>
      rw [hs] at h
      cases h
      rfl

theorem follow_zero {d : ℕ} {timeout : ℤ} {p : Process} {o : Outcome}
    (h : follow d timeout p = .ok o) (h0 : o.returncode = 0) : p.ending = .exited 0 := by
  rw [follow] at h
  cases hs : p.stdout.foldlM (consumeLine d) {} with
  | error e =>
    rw [hs] at h
    cases h
  | ok s =>
    rw [hs] at h
    simp only [bind, Except.bind] at h
    cases he : p.readError with
    | some e =>
      rw [he] at h
      cases e <;> cases h <;> simp at h0
    | none =>
      rw [he] at h
      cases hend : p.ending with
      | timeout =>
        rw [hend] at h
        cases h
        simp at h0
      | exited code =>
        rw [hend] at h
        rw [← h0, parseOutput_returncode h]

/-- **A return code of 0** is the one of a process that has ended with it. -/
theorem run_zero {m : Machine} {timeout : ℤ} {r : Task} {o : Outcome}
    (h : (run m timeout r).2 = .ok o) (h0 : o.returncode = 0) :
    ∃ argv p, (run m timeout r).1 = [argv] ∧ m.launch argv = .ok p ∧ p.ending = .exited 0 := by
  rw [run] at h ⊢
  cases hp : profileOf m r.agent with
  | error e =>
    rw [hp] at h
    cases e <;> cases h
    simp at h0
  | ok profile =>
    rw [hp] at h
    cases hs : swarmSession m profile with
    | error e =>
      simp only [hs] at h
      cases h
    | ok u =>
      simp only [hs] at h ⊢
      rw [runCommand] at h
      cases hl : m.launch (buildCmd DEFAULT_BINARY profile r) with
      | error e =>
        rw [hl] at h
        cases e <;> cases h <;> simp at h0
      | ok p =>
        rw [hl] at h
        exact ⟨_, p, rfl, hl, follow_zero h h0⟩

end AiMeshChat.Runner
