import AiMeshChat.Domain
import Mathlib.Logic.Function.Basic

/-!
# The session registry

`session/registry.py`: one row for each namespace key, with the session id of the
backend and the status of its last run, and the part of `cli._execute` that reads
and writes it. A call resumes the stored session if its status is `active`. The id
and the status are written by different operations: `mark_starting` keeps the id,
`mark_active` does not touch it.

All calls on a key run under the key's lock, one after the other. What the transport
makes of a call is an input here; the transports are in `Transport/Ssh.lean` and
`Wire/Reply.lean`.
-/

namespace AiMeshChat.Session

inductive Status
  | starting
  | observed
  | active
  | failed
  | interrupted
  deriving DecidableEq

/-- A row of the table `sessions`, without its key and its times. -/
structure SessionRecord where
  sessionId : String
  backend : String
  host : String
  workdir : String
  agent : String
  model : String
  topic : String
  status : Status
  deriving DecidableEq

/-- The table. -/
abbrev Sessions := String → Option SessionRecord

/-- `text.lower()`, of ASCII texts. -/
def lower (s : String) : String := s.map Char.toLower

/-- `target.ssh_alias`, or the marker of this host. -/
def hostOf (target : Target) : String :=
  if target.isLocal then LOCAL_HOST_MARKER else target.host.sshAlias

/-! ## The operations -/

/-- `lookup`. -/
def lookup (t : Sessions) (key : String) : Option SessionRecord := t key

/-- `mark_starting`. -/
def markStarting (t : Sessions) (key : String) (request : RunRequest) (target : Target)
    (clearSession : Bool) : Sessions :=
  Function.update t key (some
    { sessionId := if clearSession then "" else ((t key).map (·.sessionId)).getD ""
      backend := lower (orText request.backend "opencode")
      host := hostOf target
      workdir := if target.workdir = "" then request.workdir else target.workdir
      agent := orText request.agent ""
      model := orText request.model ""
      topic := orText request.topic ""
      status := .starting })

/-- An `UPDATE` of the row of a key, if there is one. -/
def update (t : Sessions) (key : String) (f : SessionRecord → SessionRecord) : Sessions :=
  Function.update t key ((t key).map f)

/-- `mark_observed`. -/
def markObserved (t : Sessions) (key sessionId : String) : Sessions :=
  update t key fun r => { r with sessionId := sessionId, status := .observed }

/-- `mark_active`. -/
def markActive (t : Sessions) (key : String) : Sessions :=
  update t key fun r => { r with status := .active }

/-- `mark_failed`. -/
def markFailed (t : Sessions) (key : String) : Sessions :=
  update t key fun r => { r with status := .failed }

/-- The terminal status of an exit code. -/
def statusOf (returncode : ℤ) : Status :=
  if returncode = 0 then .active else if returncode < 0 then .interrupted else .failed

/-- `upsert`. -/
def upsert (t : Sessions) (key : String) (result : RunResult) (request : RunRequest)
    (target : Target) : Sessions :=
  Function.update t key (some
    { sessionId := orText result.sessionId ""
      backend := lower (orText request.backend (orText (some result.backend) "opencode"))
      host := hostOf target
      workdir := orText (some target.workdir) (orText (some request.workdir) result.workdir)
      agent := orText request.agent ""
      model := orText request.model ""
      topic := orText request.topic ""
      status := statusOf result.returncode })

/-! ## One call -/

/-- The session that a call resumes. -/
def resumeId (t : Sessions) (key : String) (request : RunRequest) : Option String :=
  if request.newSession || request.noAutoResume then none
  else
    match lookup t key with
    | some r => if r.status = .active && r.sessionId ≠ "" then some r.sessionId else none
    | none => none

/-- The end of a call: the row after the outcome of the transport, and the result. -/
def settle (t : Sessions) (key : String) (request : RunRequest) (target : Target) :
    Except String RunResult → Sessions × RunResult
  | .error text => (markFailed t key, { returncode := 1, stderr := "transport error: " ++ text })
  | .ok result =>
    match truthyText result.sessionId with
    | some sid => (upsert (markObserved t key sid) key result request target, result)
    | none =>
      if result.returncode = 0 then (markActive t key, result) else (markFailed t key, result)

/-- A call of `_execute` and the outcome of its transport. -/
structure Call where
  request : RunRequest
  target : Target
  outcome : Except String RunResult

/-- What is known of a call that has ended: the session that it passed to the
transport, its exit code and the session that it reported. -/
structure Ended where
  passed : Option String
  returncode : ℤ
  reported : Option String
  deriving DecidableEq

/-- `_execute` under the key's lock. -/
def executeCall (t : Sessions) (key : String) (c : Call) : Sessions × Ended :=
  let passed := resumeId t key c.request
  let (t', result) := settle (markStarting t key c.request c.target c.request.newSession) key
    c.request c.target c.outcome
  (t', ⟨passed, result.returncode, truthyText result.sessionId⟩)

/-- Calls one after the other, and what is known of each. -/
def runCalls (key : String) : List Call → Sessions → List Ended
  | [], _ => []
  | c :: cs, t => (executeCall t key c).2 :: runCalls key cs (executeCall t key c).1

end AiMeshChat.Session
