import Mathlib.Data.Nat.Notation
import Mathlib.Data.Int.Notation

/-!
# The domain's records

`domain/__init__.py`: what a run is asked for, where it runs and what comes of it.
An optional text is an `Option`; where the code tests one for truth, the empty text
counts as none (`orText`).
-/

namespace AiMeshChat

def LOCAL_HOST_MARKER : String := "__local__"
def DEFAULT_EXEC_TIMEOUT : ℤ := 600

/-- `value or default`. -/
def orText (value : Option String) (default : String) : String :=
  match value with
  | some s => if s = "" then default else s
  | none => default

/-- `value or None`. -/
def truthyText (value : Option String) : Option String := value.filter (· ≠ "")

structure RunRequest where
  task : String
  workdir : String := ""
  backend : Option String := none
  agent : Option String := none
  model : Option String := none
  skills : Option String := none
  skipPermissions : Bool := true
  sessionKey : Option String := none
  newSession : Bool := false
  noAutoResume : Bool := false
  topic : Option String := none
  timeout : ℤ := DEFAULT_EXEC_TIMEOUT
  resumeSessionId : Option String := none
  requestId : String := ""
  runId : String := ""
  reviewKey : String := ""
  requireAck : Bool := false
  capabilities : List String := []
  deriving DecidableEq

structure RunResult where
  returncode : ℤ
  stdout : String := ""
  stderr : String := ""
  sessionId : Option String := none
  backend : String := ""
  host : String := ""
  workdir : String := ""
  deriving DecidableEq

/-- `HostSpec`, without its description and the kind of its transport. -/
structure HostSpec where
  name : String
  sshAlias : String
  fallbackSshAlias : String := ""
  hostnames : List String := []
  shellPrefix : String := ""
  deriving DecidableEq

/-- `Target`: the host, the path of the repository on it, and whether it is this one. -/
structure Target where
  host : HostSpec
  workdir : String
  isLocal : Bool := false
  deriving DecidableEq

end AiMeshChat
