import AiMeshChat.Runner.Adapters
import AiMeshChat.Wire.Protocol

/-!
# The helper

`remote_exec.py`: the loop that reads requests from its input and answers each with
frames. What one request does is a value `Handled`: the frames it writes, the command
lines it starts and the exception that leaves it, if there is one. Nothing catches an
exception outside `_handle_mailbox` and the thread of a spawn, so it ends the helper.

`Host` is what the machine answers meanwhile, for each request anew. The direct
mailbox dispatch, the mailbox command and the polls of the streams are parts of it:
the first two may end in any way, and a poll catches what it raises and writes no
answer to a request.
-/

namespace AiMeshChat.Helper

open Runner Wire

/-! ## The host -/

/-- How the mailbox command ends: it returns, leaves with a status or a text, or raises. -/
inductive CommandEnd
  | returned
  | status (code : Option ℤ)
  | complaint (text : String)
  | raised (text : String)
  deriving DecidableEq

structure Host extends Machine where
  hostname : String := ""
  packageVersion : String := ""
  /-- The home directory of a user, or of this one for the empty name. -/
  home : String → Option String
  isDir : String → Bool
  /-- How many heartbeats a spawn takes. -/
  beats : ℕ := 0
  /-- `_dispatch_mailbox_direct`: output, error output and exit code, or `none` when it
  raises. -/
  mailboxDirect : List Json → Option String → Option (String × String × ℤ)
  /-- `codeagent.mailbox.cli.main` with the output it has written. -/
  mailboxCli : List Json → String × String × CommandEnd
  /-- The frames of the next poll. -/
  polled : List Json := []

/-! ## Frames -/

/-- A frame of the type `type`. -/
def frame (type : String) (fields : List (String × Json)) : Json := .obj (("type", .str type) :: fields)

/-- `obj.get("type", "?")` in a format string. -/
def frameType (obj : Json) : String := ((obj.get? "type").map strOf).getD "?"

/-- `_send`: a frame that is too long is replaced by an error. -/
def send (obj : Json) : Json :=
  if MAX_LINE_LENGTH < (spaced obj).length then
    frame "error" [("message", .str ("response frame (type=" ++ frameType obj ++ ") exceeds " ++
      toString MAX_LINE_LENGTH ++ " bytes"))]
  else obj

/-- An error frame. -/
def sendError (message : String) : Json := send (frame "error" [("message", .str message)])

/-- What one request does. -/
structure Handled where
  frames : List Json := []
  commands : List (List Arg) := []
  raised : Option Exc := none
  deriving DecidableEq

/-- The frames `fs`, and then what `x` does. -/
def Handled.after (fs : List Json) (x : Handled) : Handled := { x with frames := fs ++ x.frames }

/-! ## `ping` and `capabilities` -/

def handlePing (h : Host) : Handled where
  frames := [send (frame "pong" [("wire_version", .int WIRE_VERSION),
    ("package_version", .str h.packageVersion),
    ("capabilities", .arr (["run", "ping", "capabilities", "mailbox"].map .str)),
    ("hostname", .str h.hostname)])]

def handleCapabilities : Handled where
  frames := [send (frame "capabilities" [("wire_version", .int WIRE_VERSION),
    ("backends", .arr (registered.map .str)),
    ("features", .arr (["resume", "session", "timeout"].map .str))])]

/-! ## `run` -/

/-- `os.path.expanduser`; `none` where the name of the user raises `ValueError`. -/
def expandUser (home : String → Option String) (path : String) : Option String :=
  match path.toList with
  | '~' :: rest =>
    let user := rest.takeWhile (· ≠ '/')
    if '\x00' ∈ user then none
    else match home (String.ofList user) with
      | none => some path
      | some dir =>
        let dir := (dir.toList.reverse.dropWhile (· = '/')).reverse
        let full := dir ++ rest.dropWhile (· ≠ '/')
        some (if full = [] then "/" else String.ofList full)
  | _ => some path

/-- Whether `for c in req.get("capabilities") or []` raises. -/
def iterable (v : Json) : Bool :=
  !v.truthy || (match v with | .str _ | .arr _ | .obj _ => true | _ => false)

/-- Whether `time.monotonic() + timeout` overflows: the greatest float is
`2 ^ 1024 - 2 ^ 971`, and what is nearer to `2 ^ 1024` is rounded to it. -/
def overflows (timeout : ℤ) : Bool := 2 ^ 1024 - 2 ^ 970 ≤ timeout.natAbs

/-- `int(v)` of a return code; `none` for values without one. -/
def intOf (v : Json) : Option ℤ :=
  match v with
  | .int n => some n
  | .bool b => some (if b then 1 else 0)
  | .str s => parseInt s
  | .float t => (Json.floatParts t).map fun (m, k) =>
    (if startsWith "-" t then -1 else 1) * ((m * 10 ^ k.toNat / 10 ^ (-k).toNat : ℕ) : ℤ)
  | _ => none

def sessionFrame (id : Json) : Json := frame "session" [("id", id)]

def resultFrame (stdout stderr : Json) (code : ℤ) : Json :=
  frame "result" [("stdout", stdout), ("stderr", stderr), ("exit_code", .int code)]

/-- The session of the handle, else of its result. -/
def sessionOf (handle : Handle) (result : Json) : Json :=
  orElse handle.backendSessionId ((result.get? "session_id").getD .null)

/-- The frames for the handle of a run. -/
def answer (handle : Handle) : List Json × Option Exc :=
  let result := orElse handle.result (.obj [])
  match intOf ((result.get? "returncode").getD (.int 0)) with
  | none => ([], some (.other "int() argument must be a string or a real number"))
  | some returncode =>
    let session := sessionOf handle result
    ((if session.truthy then [send (sessionFrame session)] else []) ++
      [send (resultFrame (orElse ((result.get? "stdout").getD (.str "")) (.str ""))
        (orElse ((result.get? "stderr").getD (.str "")) (.str "")) returncode)], none)

/-- What the thread of the spawn leaves behind. An exception that is no `Exception`
ends the thread without a trace. -/
def spawnAnswer : Except Exc Handle → List Json × Option Exc
  | .ok handle => answer handle
  | .error e =>
    ([sendError (if e.isException then "run failed: " ++ e.text
      else "run failed: no handle returned")], none)

/-- The end of `_handle_run`, after a spawn. -/
def ofSpawn (spawned : List (List Arg) × Except Exc Handle) : Handled where
  frames := (spawnAnswer spawned.2).1
  commands := spawned.1
  raised := (spawnAnswer spawned.2).2

/-- `spawn_payload` of a request; the request has passed the check of its schema. -/
def payloadOf (req : Json) (workdir : String) : Payload where
  task := ((req.get? "task").bind Json.str?).getD ""
  workdir := workdir
  agentId := orElse ((req.get? "agent").getD .null) (.str "")
  model := orElse ((req.get? "model").getD .null) (.str "")
  backendSessionId := (req.get? "resume_session_id").getD .null
  timeout := ((req.get? "timeout").bind Wire.intOf?).getD DEFAULT_EXEC_TIMEOUT

/-- The part of `_handle_run` after an adapter has been found. -/
def runAdapter (h : Host) (a : Adapter) (p : Payload) : Handled :=
  if overflows p.timeout then { raised := some (.other "int too large to convert to float") }
  else (ofSpawn (a.spawn h.toMachine p)).after
    (List.replicate h.beats (send (frame "progress" [("message", .str "still running")])))

/-- The part of `_handle_run` after the request has been accepted. -/
def runAccepted (h : Host) (req : Json) : Handled :=
  match expandUser h.home (((req.get? "workdir").bind Json.str?).getD ".") with
  | none => { raised := some (.value "embedded null byte") }
  | some workdir =>
    if !h.isDir workdir then { frames := [sendError ("workdir not found: " ++ workdir)] }
    else match selectAdapter ((req.get? "backend").getD (.str RUNTIME_OMP)) with
      | .unhashable => { raised := some (.other "unhashable type") }
      | .refused code message => { frames := [sendError (code ++ ": " ++ message)] }
      | .adapter a => runAdapter h a (payloadOf req workdir)

/-- `_handle_run`. -/
def handleRun (h : Host) (req : Json) : Handled :=
  if !iterable ((req.get? "capabilities").getD .null) then
    { raised := some (.other "object is not iterable") }
  else (runAccepted h req).after [send (frame "accepted" [("wire_version", .int WIRE_VERSION)])]

/-! ## `mailbox` -/

/-- A character of `[a-zA-Z0-9/_.-]`. -/
def isRootChar (c : Char) : Bool := isIdChar c || c = '/'

/-- `re.match(r"^/[a-zA-Z0-9/_.-]+$", root)`. -/
def rootOk (root : String) : Bool :=
  dollar (fun cs => match cs with | '/' :: rest => rest ≠ [] && rest.all isRootChar | _ => false) root

def mailboxResult (stdout stderr : String) (code : ℤ) : Json :=
  send (frame "mailbox_result" [("stdout", .str stdout), ("stderr", .str stderr),
    ("exit_code", .int code)])

/-- The fallback of `_handle_mailbox`: the mailbox command with its output captured. -/
def mailboxFallback (run : String × String × CommandEnd) : Json :=
  match run with
  | (out, err, .returned) => mailboxResult out err 0
  | (out, err, .status code) => mailboxResult out err (code.getD 0)
  | (out, err, .complaint text) => mailboxResult out (err ++ text ++ "\n") 1
  | (out, err, .raised text) => mailboxResult out (err ++ "error: " ++ text ++ "\n") 1

/-- `mailbox_root` of a request, when it is a text that is not empty. -/
def mailboxRoot (req : Json) : Option String :=
  truthyText ((req.get? "mailbox_root").bind Json.str?)

/-- `_handle_mailbox`. -/
def handleMailbox (h : Host) (req : Json) : Handled :=
  match (req.get? "args").getD (.arr []) with
  | .arr args =>
    match mailboxRoot req with
    | some root =>
      if rootOk root then dispatch args (some root) else
        { frames := [sendError ("invalid mailbox_root: " ++ root)] }
    | none => dispatch args none
  | _ => { frames := [sendError "mailbox 'args' must be a list"] }
where
  dispatch (args : List Json) (root : Option String) : Handled :=
    match h.mailboxDirect args root with
    | some (out, err, code) => { frames := [mailboxResult out err code] }
    | none =>
      { frames := [mailboxFallback (h.mailboxCli
          ((root.toList.flatMap fun r => [.str "--mailbox-root", .str r]) ++ args))] }

/-! ## `stream` -/

/-- `_StreamSubscription`, without what its polls keep. -/
structure Subscription where
  requestId : Json
  sessionId : Json
  agentId : Json
  cursor : Json
  streamKind : Json
  runtimeId : Json
  deriving DecidableEq

def STREAM_KINDS : List Json := ["mailbox", "runtime", "all"].map .str

/-- `stream`: the subscription is registered and polled at once. -/
def handleStream (h : Host) (subs : List Subscription) (req : Json) : List Subscription × Handled :=
  let field (key : String) (default : Json) : Json := (req.get? key).getD default
  let requestId := field "request_id" (.str "")
  let streamKind := field "stream_kind" (.str "mailbox")
  if !(field "session_id" (.str "")).truthy then
    (subs, { frames := [sendError "stream requires session_id"] })
  else if !(field "agent_id" (.str "")).truthy then
    (subs, { frames := [sendError "stream requires agent_id"] })
  else if streamKind ∉ STREAM_KINDS then
    (subs, { frames := [sendError ("invalid stream_kind: " ++ strOf streamKind)] })
  else
    let sub : Subscription :=
      { requestId := requestId
        sessionId := field "session_id" (.str "")
        agentId := field "agent_id" (.str "")
        cursor := field "cursor" (.str "0")
        streamKind := streamKind
        runtimeId := field "runtime_id" (.str "") }
    (subs.filter (·.requestId ≠ requestId) ++ [sub],
      { frames := send (frame "accepted" [("wire_version", .int WIRE_VERSION),
          ("request_id", requestId), ("stream_kind", streamKind)]) :: h.polled })

/-! ## The main loop -/

/-- `version == WIRE_VERSION`: a float is equal if it is rounded to 2. -/
def versionOk : Json → Bool
  | .int n => n = WIRE_VERSION
  | .float t =>
    !startsWith "-" t && (match Json.floatParts t with
      | some (m, k) =>
        (2 ^ 54 - 1) * 10 ^ (-k).toNat ≤ m * 10 ^ k.toNat * 2 ^ 53 &&
          m * 10 ^ k.toNat * 2 ^ 52 ≤ (2 ^ 53 + 1) * 10 ^ (-k).toNat
      | none => false)
  | _ => false

/-- The body of the main loop for a request that was read. -/
def handle (h : Host) (subs : List Subscription) (req : Json) : List Subscription × Handled :=
  let version := (req.get? "wire_version").getD (.int 0)
  if !versionOk version then
    (subs, { frames := [sendError ("wire_version " ++ strOf version ++ " != required " ++
      toString WIRE_VERSION)] })
  else match req.get? "command" with
    | some (.str "ping") => (subs, handlePing h)
    | some (.str "capabilities") => (subs, handleCapabilities)
    | some (.str "run") => (subs, handleRun h req)
    | some (.str "mailbox") => (subs, handleMailbox h req)
    | some (.str "stream") => handleStream h subs req
    | some (.str cmd) => (subs, { frames := [sendError ("unknown command: " ++ cmd)] })
    | _ => (subs, { frames := [sendError "request missing or invalid 'command' field"] })

/-- What the loop meets: a line of its input, or a pause in which it polls. -/
inductive Event
  | line (text : List Char) (host : Host)
  | pause (host : Host)

/-- What the decoded line does. One that is no request is answered with an error, unless
it is nested too deep. -/
def handleDecoded (h : Host) (subs : List Subscription) :
    Except WireErr Json → List Subscription × Handled
  | .error (.value why) => (subs, { frames := [sendError why] })
  | .error .recursion => (subs, { raised := some (.other "maximum recursion depth exceeded") })
  | .ok req => handle h subs req

/-- What a line does; it comes with its newline. -/
def handleLine (h : Host) (subs : List Subscription) (text : List Char) :
    List Subscription × Handled :=
  if MAX_LINE_LENGTH < (text ++ ['\n']).length then
    (subs, { frames := [sendError ("wire line exceeds " ++ toString MAX_LINE_LENGTH ++ " bytes")] })
  else handleDecoded h subs (decodeRequest h.depth (text ++ ['\n']))

def step (subs : List Subscription) : Event → List Subscription × Handled
  | .line text h => handleLine h subs text
  | .pause h => (subs, { frames := if subs = [] then [] else h.polled })

/-- `main`: an exception ends it. -/
def serve : List Subscription → List Event → List Handled
  | _, [] => []
  | subs, e :: es =>
    let (subs', h) := step subs e
    h :: (if h.raised.isSome then [] else serve subs' es)

/-- A host on which every program can be started. -/
def anyHost : Host where
  depth := 10
  profile := fun _ => .error (.value "Unknown agent profile")
  launch := fun _ => .ok {}
  home := fun _ => none
  isDir := fun _ => true
  mailboxDirect := fun _ _ => none
  mailboxCli := fun _ => ("", "", .returned)

end AiMeshChat.Helper
