import AiMeshChat.Runner.Omp

/-!
# The runtime adapters

`runtime/registry.py` and `spawn` of the three adapters, as the helper calls them: with
a payload that asks for a short task and brings no `argv`. The three put different
things into the handle. OMP waits for the agent and stores its return code; OpenCode
stores `None`, since the agent still runs; the generic adapter needs a command line.
-/

namespace AiMeshChat.Runner

def RUNTIME_OMP : String := "omp"
def RUNTIME_OPENCODE : String := "opencode"
def RUNTIME_GENERIC : String := "generic"
def UNSUPPORTED_RUNTIME : String := "UNSUPPORTED_RUNTIME"

/-- The payload of a spawn, as far as the adapters read it for a short task. -/
structure Payload where
  task : String
  workdir : String
  agentId : Json
  model : Json
  backendSessionId : Json
  timeout : ℤ
  argv : List Arg := []
  profileArgs : List Arg := []

/-- `RuntimeHandle`: the session of the backend and `extra["result"]`. -/
structure Handle where
  backendSessionId : Json
  result : Json
  deriving DecidableEq

/-- `a or b`. -/
def orElse (a b : Json) : Json := if a.truthy then a else b

/-! ## OMP -/

/-- The request of `_spawn_short_task`. What the payload says about the session to
resume is not in it, nor are permissions. -/
def shortTask (p : Payload) : Task where
  task := p.task
  workdir := p.workdir
  agent := p.agentId
  model := p.model

/-- `extra["result"]` of a short task. -/
def Outcome.toResult (o : Outcome) : Json :=
  .obj [("returncode", .int o.returncode), ("stdout", o.stdout), ("stderr", .str o.stderr)]

/-- `OMPRuntimeAdapter.spawn` of a short task. -/
def ompSpawn (m : Machine) (p : Payload) : List (List Arg) × Except Exc Handle :=
  let (commands, r) := run m p.timeout (shortTask p)
  (commands, r.map fun o =>
    { backendSessionId := orElse o.sessionId (.str ""), result := o.toResult })

/-! ## OpenCode -/

/-- The command line of `OpenCodeRuntimeAdapter.spawn`, in a directory that is there. -/
def opencodeArgv (p : Payload) : List Arg :=
  [arg "opencode", arg "run", arg "--format", arg "json", arg "--dir", arg p.workdir] ++
  (if p.agentId.truthy then [arg "--agent", .val p.agentId] else []) ++
  (if p.backendSessionId.truthy then [arg "--session", .val p.backendSessionId] else []) ++
  (if p.model.truthy then [arg "--model", .val p.model] else []) ++
  (if p.task = "" then [] else [arg p.task])

/-- The session that the drain thread finds. A line that is no dict ends the thread. -/
def findSession (d : ℕ) : List (List Char) → Json
  | [] => .str ""
  | line :: rest =>
    match loads d line with
    | .error .invalid => findSession d rest
    | .error .recursion => .str ""
    | .ok obj =>
      if !obj.isDict then .str ""
      else
        let found := (obj.get? "sessionID").getD .null
        let id := (obj.get? "id").getD .null
        if found.truthy then .str (strOf found)
        else if obj.get? "type" = some (.str "session") && id.truthy then id
        else findSession d rest

/-- `raise RuntimeError(f"{what}: {exc}")` for an `OSError`. -/
def asRuntimeError (what : String) : Exc → Exc
  | .os t | .notFound t => .other (what ++ ": " ++ t)
  | e => e

/-- `OpenCodeRuntimeAdapter.spawn`: it does not wait for the agent, and has no return
code to report. -/
def opencodeSpawn (m : Machine) (p : Payload) : List (List Arg) × Except Exc Handle :=
  let argv := opencodeArgv p
  ([argv], match m.launch argv with
    | .error e => .error (asRuntimeError "opencode spawn failed" e)
    | .ok proc =>
      let early := proc.stdout.take proc.early
      let text := if p.backendSessionId.truthy then "" else String.ofList early.flatten
      .ok { backendSessionId :=
              if p.backendSessionId.truthy then p.backendSessionId else findSession m.depth early
            result := .obj [("returncode", .null), ("stdout", .str text), ("stderr", .str "")] })

/-! ## Generic -/

/-- The loop over the frames of a generic agent: its result, an error, or nothing. -/
def genericResult (d : ℕ) : List (List Char) → Except Exc Json
  | [] => .ok .null
  | line :: rest =>
    if strip line = [] then genericResult d rest
    else match loads d (strip line) with
      | .error .invalid => genericResult d rest
      | .error .recursion => .error (.other "maximum recursion depth exceeded")
      | .ok obj =>
        if !obj.isDict then .error (.other "no attribute 'get'")
        else if obj.get? "type" = some (.str "result") then .ok obj
        else if obj.get? "type" = some (.str "error") then
          .ok (.obj [("error", (obj.get? "error").getD (.str "unknown error"))])
        else genericResult d rest

/-- `raise RuntimeError(f"generic protocol failure: {exc}")` for an `Exception`. -/
def protocolFailure (e : Exc) : Exc :=
  if e.isException then .other ("generic protocol failure: " ++ e.text) else e

/-- `GenericRuntimeAdapter.spawn`. -/
def genericSpawn (m : Machine) (p : Payload) : List (List Arg) × Except Exc Handle :=
  let argv := if p.argv = [] then p.profileArgs else p.argv
  if argv = [] then
    ([], .error (.value "generic runtime requires 'argv' (configured, no shell)"))
  else
    ([argv], match m.launch argv with
      | .error e => .error (asRuntimeError "generic spawn failed" e)
      | .ok proc =>
        match genericResult m.depth proc.stdout, proc.readError, proc.ending with
        | .error e, _, _ => .error (protocolFailure e)
        | .ok .null, some e, _ => .error (protocolFailure e)
        | .ok _, _, .timeout => .error (.other "generic protocol failure: timed out")
        | .ok result, _, .exited _ => .ok { backendSessionId := .str "", result := result })

/-! ## The registry -/

inductive Adapter
  | omp
  | opencode
  | generic
  deriving DecidableEq

def Adapter.spawn : Adapter → Machine → Payload → List (List Arg) × Except Exc Handle
  | .omp => ompSpawn
  | .opencode => opencodeSpawn
  | .generic => genericSpawn

/-- `RuntimeRegistry().names()`. -/
def registered : List String := [RUNTIME_GENERIC, RUNTIME_OMP, RUNTIME_OPENCODE]

def adapterOf (name : String) : Option Adapter :=
  if name = RUNTIME_OMP then some .omp
  else if name = RUNTIME_OPENCODE then some .opencode
  else if name = RUNTIME_GENERIC then some .generic
  else none

/-- How the registry answers: an adapter, `RuntimeErrorCode`, or `TypeError` for a name
that cannot be hashed. -/
inductive Selection
  | adapter (a : Adapter)
  | refused (code message : String)
  | unhashable
  deriving DecidableEq

/-- `RuntimeRegistry().get(name)`: an empty name selects OMP. -/
def selectAdapter (name : Json) : Selection :=
  if !name.truthy then .adapter .omp
  else match name with
    | .arr _ | .obj _ => .unhashable
    | .str s =>
      match adapterOf s with
      | some a => .adapter a
      | none => unavailable
    | _ => unavailable
where
  unavailable : Selection := .refused UNSUPPORTED_RUNTIME
    ("runtime " ++ reprOf name ++ " unavailable; registered: " ++
      reprOf (.arr (registered.map .str)))

end AiMeshChat.Runner
