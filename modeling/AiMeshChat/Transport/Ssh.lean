import AiMeshChat.Lib.Pool
import AiMeshChat.Session.Registry
import AiMeshChat.Wire.Reply

/-!
# Running a task over SSH

`SSHTransport` of `transport/ssh.py` and the part of `cli._execute` that calls it. A
run request is sent over the ControlMaster of the host's alias. Two layers repeat it
over the fallback alias: `execute`, if the master cannot be created or the exchange
returns 255 with the text of a connection error, and `_execute`, on any
`TransportError`.

Whether a master is alive, whether it can be created and what an ssh process does is
up to the environment. The state keeps the exchanges in order.
-/

namespace AiMeshChat.Transport

open Lib Wire

/-- `TransportError`, or another exception. -/
inductive Exc
  | transport (text : String)
  | other (text : String)
  deriving DecidableEq

def Exc.text : Exc → String
  | .transport t => t
  | .other t => t

def SSH_IDLE_WINDOW : ℤ := 180

/-- `_SSH_ERROR_PATTERNS`. -/
def SSH_ERROR_PATTERNS : List String :=
  ["Connection refused", "Connection timed out", "Operation timed out", "Connection reset by peer",
    "No route to host", "Network is unreachable", "Name or service not known",
    "Could not resolve hostname", "Permission denied", "Host key verification failed",
    "Connection closed by remote host"]

/-- `pattern in stderr`. -/
def isInfix (pattern text : String) : Bool := text.toList.tails.any (pattern.toList.isPrefixOf ·)

/-- `_is_ssh_error`. -/
def isSshError (stderr : String) : Bool := SSH_ERROR_PATTERNS.any (isInfix · stderr)

/-! ## One exchange -/

/-- How an ssh process ends: it cannot be started, the request cannot be written, it
falls silent for the idle window, it closes its output and stays, or it exits. -/
inductive SshEnd
  | notFound
  | unsent (text : String)
  | silent
  | lingers
  | exited (status : ℤ)
  deriving DecidableEq

/-- What an ssh process does: the lines it prints, what it prints on stderr, its end. -/
structure SshRun where
  lines : List (List UInt8)
  stderr : List UInt8
  ending : SshEnd
  deriving DecidableEq

/-- The lines as the loop looks at them. -/
def SshRun.texts (x : SshRun) : List (List Char) := nonBlank (x.lines.map utf8Replace)

/-- The loop has given up on bad frames. -/
def gaveUp (d : ℕ) : ℕ → List (List Char) → Bool
  | _, [] => false
  | bad, l :: ls =>
    match decodeLine d false l with
    | .error (.value _) => MAX_CONSECUTIVE_BAD_FRAMES ≤ bad + 1 || gaveUp d (bad + 1) ls
    | .error .recursion => false
    | .ok _ => gaveUp d 0 ls

/-- `_run_ssh_wire`. -/
def SshRun.result (d : ℕ) (backend host workdir : String) (timeout : ℤ) (x : SshRun) :
    Except Exc RunResult :=
  match x.ending with
  | .notFound => .error (.transport "ssh binary not found: ssh")
  | .unsent text => .error (.transport ("failed to send request to SSH: " ++ text))
  | ending =>
    match readLines d 1 0 x.texts {} with
    | .error (.transport text) => .error (.transport text)
    | .error .recursion => .error (.other "maximum recursion depth exceeded")
    | .ok st =>
      match ending with
      | .exited status => .ok (sshResult backend host workdir st x.stderr status)
      | .silent =>
        if gaveUp d 0 x.texts then
          .error (.transport "SSH process did not exit after stream completion")
        else .error (.transport ("SSH execution timed out after " ++
          toString (max timeout SSH_IDLE_WINDOW) ++ "s (no frames from remote)"))
      | _ => .error (.transport "SSH process did not exit after stream completion")

/-- With a process that ends by itself this is `runSshWire`. -/
theorem result_exited (d : ℕ) (backend host workdir : String) (timeout : ℤ)
    (stdout stderr : List UInt8) (status : ℤ) :
    SshRun.result d backend host workdir timeout ⟨linesOn (· = 10) stdout, stderr, .exited status⟩ =
      match runSshWire d backend host workdir stdout stderr status with
      | .ok a => .ok a
      | .error (.transport text) => .error (.transport text)
      | .error .recursion => .error (.other "maximum recursion depth exceeded") := by
  have htexts : SshRun.texts ⟨linesOn (· = 10) stdout, stderr, .exited status⟩ =
      nonBlank (pipeLines stdout) := rfl
  simp only [SshRun.result, htexts, runSshWire]
  rcases readLines d 1 0 (nonBlank (pipeLines stdout)) {} with (_ | _) | st <;> rfl

/-! ## The environment -/

inductive NetOp
  | alive (sshAlias : String)
  | create (sshAlias : String)
  | exchange (sshAlias : String) (request : Json)

abbrev NetAns : NetOp → Type
  | .alive _ => Except Exc Bool
  | .create _ => Except Exc Unit
  | .exchange _ _ => SshRun

/-- An exchange that has taken place. -/
structure Exchange where
  sshAlias : String
  request : Json
  run : SshRun
  deriving DecidableEq

/-- What the environment answers. -/
structure NetChoice where
  alive : Except Exc Bool := .ok true
  create : Except Exc Unit := .ok ()
  run : SshRun

def perform (_ : ℕ) (o : NetOp) (c : NetChoice) (log : List Exchange) :
    Option (NetAns o × List Exchange) :=
  match o with
  | .alive _ => some (c.alive, log)
  | .create _ => some (c.create, log)
  | .exchange sshAlias request => some (c.run, log ++ [⟨sshAlias, request, c.run⟩])

def netWorld : World NetOp NetAns (List Exchange) NetChoice := ⟨perform, fun _ log => log⟩

abbrev Net := Prog NetOp NetAns Exc

def orRaise {α : Type} : Except Exc α → Net α
  | .ok a => pure a
  | .error e => throw e

/-! ## The transport -/

/-- The master of an alias is alive, or is created. -/
def ensureAlive (sshAlias : String) : Net Unit := do
  if !(← orRaise (← Prog.op (.alive sshAlias))) then orRaise (← Prog.op (.create sshAlias))

/-- `warm`. -/
def warm (host : HostSpec) : Net Unit := do orRaise (← Prog.op (.create host.sshAlias))

section

variable (d : ℕ) (request : RunRequest) (workdir : String) (sessionId : Option String)

/-- `_run_on_host`. -/
def runOnHost (sshAlias : String) : Net RunResult := do
  let x : SshRun ← Prog.op (NetOp.exchange sshAlias (makeRequest request workdir sessionId))
  orRaise (x.result d (orText request.backend "") sshAlias workdir request.timeout)

/-- `_execute_on_fallback`. -/
def executeOnFallback (host : HostSpec) : Net RunResult := do
  ensureAlive host.fallbackSshAlias
  runOnHost d request workdir sessionId host.fallbackSshAlias

/-- `SSHTransport.execute`. -/
def execute (host : HostSpec) : Net RunResult := do
  let ready ← (do ensureAlive host.sshAlias; return true : Net Bool).tryCatch fun e =>
    match e with
    | .transport _ => if host.fallbackSshAlias = "" then throw e else return false
    | .other _ => throw e
  if ready then
    let result ← runOnHost d request workdir sessionId host.sshAlias
    if result.returncode = 255 && host.fallbackSshAlias ≠ "" && isSshError result.stderr then
      executeOnFallback d request workdir sessionId host
    else return result
  else executeOnFallback d request workdir sessionId host

end

/-! ## `cli._execute` -/

/-- The fallback alias as a host of its own, without another fallback. -/
def fallbackHost (host : HostSpec) : HostSpec :=
  { host with sshAlias := host.fallbackSshAlias, fallbackSshAlias := "" }

/-- The transport part: warm and execute, and both once more over the fallback. -/
def runRemote (d : ℕ) (request : RunRequest) (target : Target) (sessionId : Option String) :
    Net RunResult :=
  (do warm target.host; execute d request target.workdir sessionId target.host : Net RunResult).tryCatch
    fun e =>
      match e with
      | .transport _ =>
        if target.host.fallbackSshAlias = "" then throw e
        else do
          warm (fallbackHost target.host)
          execute d request target.workdir sessionId (fallbackHost target.host)
      | .other _ => throw e

/-- `_execute` for a remote target, under the key's lock: the rows and the result. -/
def executeRemote (d : ℕ) (t : Session.Sessions) (key : String) (request : RunRequest)
    (target : Target) : Net (Session.Sessions × RunResult) := do
  let sessionId := Session.resumeId t key request
  let t := Session.markStarting t key request target request.newSession
  let outcome ← (do return .ok (← runRemote d request target sessionId) :
    Net (Except String RunResult)).tryCatch fun e => return .error e.text
  return Session.settle t key request target outcome

end AiMeshChat.Transport
