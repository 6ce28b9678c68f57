import AiMeshChat.Domain
import AiMeshChat.Lib.Pool
import AiMeshChat.Lib.Utf8
import AiMeshChat.Python

/-!
# Background jobs

`JobManager` of `job.py`. A job is a directory. The parent makes it, starts a child and
calls `mark_running`; the child calls `mark_done` with its result; and anyone may call
`status`, which reads the files one after another.

Every file but `stderr.txt` is written by `_atomic_write`: first under a temporary name,
which is the name of the file with the suffix `.tmp`, and then renamed. Both sides write
`status`, and so they use one temporary name for it.

A file of JSON is kept as its value.
-/

namespace AiMeshChat.Jobs

open Lib

def MAX_STDERR_TAIL : ℕ := 8192

/-! ## The directory of a job -/

inductive JobFile
  | metaJson
  | status
  | startedAt
  | pid
  | resultJson
  | stderrTxt
  | finishedAt
  deriving DecidableEq

abbrev JobFile.Content : JobFile → Type
  | .metaJson | .resultJson => Json
  | .stderrTxt => List UInt8
  | .status | .startedAt | .pid | .finishedAt => String

/-- The files under their own names and under their temporary names. -/
structure JobDir where
  made : Bool := false
  saved : (f : JobFile) → Option f.Content := fun _ => none
  tmp : (f : JobFile) → Option f.Content := fun _ => none

/-- `rename` answers whether the temporary file was there, `read` whether the file was, and
`kill` whether the process is alive. -/
inductive JobOp
  | dirExists
  | writeTmp (f : JobFile) (x : f.Content)
  | rename (f : JobFile)
  | writeStderr (bytes : List UInt8)
  | exists (f : JobFile)
  | read (f : JobFile)
  | now
  | kill (pid : ℤ)

abbrev JobAns : JobOp → Type
  | .dirExists | .rename _ | .exists _ | .kill _ => Bool
  | .writeTmp _ _ | .writeStderr _ => Unit
  | .read f => Option f.Content
  | .now => String

/-- The clock, and whether a process is alive. -/
structure JobChoice where
  time : ℕ := 0
  alive : Bool := false

namespace JobDir

def perform (_ : ℕ) (o : JobOp) (c : JobChoice) (d : JobDir) : Option (JobAns o × JobDir) :=
  match o with
  | .dirExists => some (d.made, d)
  | .writeTmp f x => some ((), { d with tmp := Function.update d.tmp f (some x) })
  | .rename f =>
    match d.tmp f with
    | some x => some (true, { d with
        saved := Function.update d.saved f (some x), tmp := Function.update d.tmp f none })
    | none => some (false, d)
  | .writeStderr bytes =>
    some ((), { d with saved := Function.update d.saved .stderrTxt (some bytes) })
  | .exists f => some ((d.saved f).isSome, d)
  | .read f => some (d.saved f, d)
  | .now => some (isoFormat c.time, d)
  | .kill _ => some (c.alive, d)

end JobDir

def jobWorld : World JobOp JobAns JobDir JobChoice := ⟨JobDir.perform, fun _ d => d⟩

/-- The exceptions of the calls; `replace` is that of a rename without its source. -/
inductive JobErr
  | fileNotFound (message : String)
  | replace
  | attribute
  deriving DecidableEq

abbrev JobCall := Prog JobOp JobAns JobErr

/-- `path.exists()`. -/
def fileExists (f : JobFile) : JobCall Bool := Prog.op (JobOp.exists f)

/-- `path.read_text()`; for JSON, what it says. -/
def readFile (f : JobFile) : JobCall (Option f.Content) := Prog.op (JobOp.read f)

/-! ## Writing -/

/-- `_atomic_write`. -/
def atomicWrite (f : JobFile) (x : f.Content) : JobCall Unit := do
  (Prog.op (JobOp.writeTmp f x) : JobCall Unit)
  if ← Prog.op (.rename f) then return ()
  else throw .replace

def requireDir (jobId : String) : JobCall Unit := do
  if ← Prog.op .dirExists then return ()
  else throw (.fileNotFound ("job " ++ jobId ++ " not found"))

/-- `create_placeholder`: the directory that it leaves. Nobody else knows the identifier
before it returns. -/
def createPlaceholder (jobId task host workdir : String) (now : ℕ) : JobDir where
  made := true
  saved
    | .metaJson => some (.obj [("job_id", .str jobId),
        ("task", .str (String.ofList (task.toList.take 500))), ("host", .str host),
        ("workdir", .str workdir), ("created_at", .str (isoFormat now))])
    | .status => some "pending"
    | _ => none

/-- `mark_running`; no pid is 0. -/
def markRunning (jobId : String) (pid : ℤ) : JobCall Unit := do
  requireDir jobId
  atomicWrite .status "running"
  atomicWrite .startedAt (← Prog.op .now)
  if pid ≠ 0 then atomicWrite .pid (toString pid)

/-- The last bytes of `stderr`. -/
def stderrTail (stderr : String) : List UInt8 :=
  let bytes := encode stderr.toList
  bytes.drop (bytes.length - MAX_STDERR_TAIL)

def resultDict (result : RunResult) : Json :=
  .obj [("returncode", .int result.returncode), ("stdout", .str result.stdout),
    ("stderr", .str result.stderr), ("session_id", (result.sessionId.map Json.str).getD .null),
    ("backend", .str result.backend), ("host", .str result.host),
    ("workdir", .str result.workdir)]

def finalStatus (result : RunResult) : String := if result.returncode = 0 then "done" else "failed"

/-- `mark_done`. -/
def markDone (jobId : String) (result : RunResult) : JobCall Unit := do
  requireDir jobId
  atomicWrite .resultJson (resultDict result)
  if result.stderr ≠ "" then
    (Prog.op (JobOp.writeStderr (stderrTail result.stderr)) : JobCall Unit)
  atomicWrite .status (finalStatus result)
  atomicWrite .finishedAt (← Prog.op .now)

/-! ## Reading -/

/-- What is taken from a file of JSON may be any value. -/
structure JobInfo where
  jobId : String
  status : String
  task : Json := .str ""
  host : Json := .str ""
  workdir : Json := .str ""
  createdAt : Json := .str ""
  startedAt : String := ""
  finishedAt : String := ""
  returncode : Json := .null
  stdout : Json := .str ""
  stderr : Json := .str ""
  sessionId : Json := .null
  backend : Json := .str ""
  pid : Option ℤ := none
  deriving DecidableEq

/-- `text.strip()`. -/
def stripped (text : String) : String := String.ofList (strip text.toList)

/-- `d.get(key, default)`. -/
def getOr (d : Json) (key : String) (default : Json) : Json := (d.get? key).getD default

def readMeta (info : JobInfo) : JobCall JobInfo := do
  if ← fileExists .metaJson then
    match ← readFile .metaJson with
    | none => return info
    | some m =>
      if m.isDict then
        return { info with
          task := getOr m "task" (.str ""), host := getOr m "host" (.str "")
          workdir := getOr m "workdir" (.str ""), createdAt := getOr m "created_at" (.str "") }
      else throw .attribute
  else return info

/-- The text of a file, or an empty one if there is none. -/
def textOf (there : JobCall Bool) (text : JobCall (Option String)) : JobCall String := do
  if ← there then return stripped ((← text).getD "")
  else return ""

def readTimes (info : JobInfo) : JobCall JobInfo := do
  let startedAt ← textOf (fileExists .startedAt) (readFile .startedAt)
  let finishedAt ← textOf (fileExists .finishedAt) (readFile .finishedAt)
  return { info with startedAt := startedAt, finishedAt := finishedAt }

/-- The process is gone but its status has not been written. -/
def JobInfo.gone (info : JobInfo) : JobInfo :=
  if info.status = "running" then { info with status := "stale" } else info

/-- The process of the pid file is looked for, if the file holds a number. -/
def checkPid (info : JobInfo) (text : Option String) : JobCall JobInfo :=
  match text.bind fun text => parseInt (stripped text) with
  | none => return info.gone
  | some pid => do
    if ← Prog.op (.kill pid) then return { info with pid := some pid }
    else return info.gone

def readPid (info : JobInfo) : JobCall JobInfo := do
  if (← fileExists .pid) && info.status ∉ ["done", "failed"] then
    checkPid info (← readFile .pid)
  else return info

/-- What `result.json` says. The host and the directory are overridden only by values
that are not empty. -/
def JobInfo.withResult (info : JobInfo) (r : Json) : JobInfo :=
  { info with
    returncode := getOr r "returncode" .null
    stdout := getOr r "stdout" (.str ""), stderr := getOr r "stderr" (.str "")
    sessionId := getOr r "session_id" .null, backend := getOr r "backend" (.str "")
    host := if (getOr r "host" .null).truthy then getOr r "host" .null else info.host
    workdir := if (getOr r "workdir" .null).truthy then getOr r "workdir" .null else info.workdir }

def readResult (info : JobInfo) : JobCall JobInfo := do
  if ← fileExists .resultJson then
    match ← readFile .resultJson with
    | none => return info
    | some r => if r.isDict then return info.withResult r else throw .attribute
  else return info

/-- The files that `_read_info` reads between the status and the result. -/
def readFiles (info : JobInfo) : JobCall JobInfo := do
  readPid (← readTimes (← readMeta info))

/-- `_read_info`. -/
def readInfo (jobId : String) : JobCall JobInfo := do
  let text ← readFile .status
  readResult (← readFiles { jobId := jobId, status := (text.map stripped).getD "unknown" })

/-- `JobManager.status`. -/
def status (jobId : String) : JobCall JobInfo := do
  requireDir jobId
  readInfo jobId

end AiMeshChat.Jobs
