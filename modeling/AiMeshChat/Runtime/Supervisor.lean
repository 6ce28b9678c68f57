import AiMeshChat.Gateway.Generations

/-!
# Supervisors

`runtime/supervisor.py`: what `main` writes to `identity.json` and what it reports. The
spec file is written once and every start reads it again; the identity file is written
beside and renamed, so a start finds none or a whole one. The markers, the pid file and
the environment of the agent are left out, as nothing here reads them.

A supervisor may die at any moment, and the next one starts over. In between the plugin
of the agent hands the identity it finds in the file to the gateway, and the gateway
records the launch, hears of the agent, or drops the record.
-/

namespace AiMeshChat.Supervisor

open Lib Gateway

/-! ## The program -/

structure RuntimeSpec where
  runtimeId : String
  sessionId : String
  agentId : String
  runtime : String := "omp"
  reviewKey : String := ""
  generation : ℤ := 1
  backendSessionId : String := ""
  workdir : String := ""
  task : String := ""
  model : String := ""
  profileArgs : List String := []
  gatewaySocket : String := ""
  nonce : String := ""
  mode : String := "interactive_plugin"
  sessionDir : String := ""

/-- An option of the command line, if it has a value. -/
def option (name value : String) : List String := if value = "" then [] else [name, value]

/-- `_build_agent_argv`, with the path of the prompt file it writes. -/
def buildAgentArgv (spec : RuntimeSpec) (promptFile : String) : Except String (List String) :=
  if spec.runtime = "omp" then
    .ok (["omp"] ++
      (if spec.mode = "short_task" then ["--print", "--mode", "json"] else []) ++
      (if spec.mode ≠ "short_task" then option "--resume" spec.backendSessionId else []) ++
      option "--cwd" spec.workdir ++ option "--session-dir" spec.sessionDir ++
      option "--model" spec.model ++ spec.profileArgs ++
      (if spec.mode = "short_task" then ["@" ++ promptFile] else []))
  else if spec.runtime = "opencode" then
    .ok (["opencode", "run", "--format", "json", "--dir",
        if spec.workdir = "" then "." else spec.workdir] ++
      option "--agent" spec.agentId ++ option "--session" spec.backendSessionId ++
      option "--model" spec.model ++ if spec.task = "" then [] else [spec.task])
  else if spec.runtime = "generic" then .ok spec.profileArgs
  else .error ("unsupported runtime: " ++ spec.runtime)

/-- What `identity.json` holds. -/
structure LauncherIdentity where
  sessionId : String
  agentId : String
  runtimeId : String
  reviewKey : String
  generation : ℤ
  gatewaySocket : String
  ownerPid : ℤ
  nonce : String
  deriving DecidableEq

/-- What a supervisor meets with: its process id, the ones for which `os.kill(pid, 0)`
raises, two random texts, the working directory as `expanduser` gives it and whether it is
there, what `Popen` does, and how the agent ends. -/
structure Start where
  pid : ℕ
  pid_pos : 0 < pid
  gone : ℤ → Bool
  firstHex : String
  secondHex : String
  wd : String := ""
  isdir : Bool := true
  promptFile : String := ""
  popen : Except String ℕ
  exitCode : ℤ := 0
  quotaHit : String := ""

/-- The kind and the payload of a report. -/
abbrev Report := String × List (String × Json)

/-- The generation and the nonce: those of the spec, or new ones if the owner in the file
is another process and a dead one. -/
def succession (spec : RuntimeSpec) (x : Start) : Option LauncherIdentity → ℤ × String
  | none => (spec.generation, if spec.nonce = "" then x.firstHex else spec.nonce)
  | some old =>
    if old.ownerPid ≠ 0 ∧ old.ownerPid ≠ x.pid ∧ x.gone old.ownerPid then
      (old.generation + 1, x.secondHex)
    else (spec.generation, if spec.nonce = "" then x.firstHex else spec.nonce)

def launcherIdentity (spec : RuntimeSpec) (x : Start) (old : Option LauncherIdentity) :
    LauncherIdentity where
  sessionId := spec.sessionId
  agentId := spec.agentId
  runtimeId := spec.runtimeId
  reviewKey := spec.reviewKey
  generation := (succession spec x old).1
  gatewaySocket := spec.gatewaySocket
  ownerPid := x.pid
  nonce := (succession spec x old).2

def quotaReport (spec : RuntimeSpec) (quotaHit : String) : Report :=
  ("ERROR", [("error_type", .str "insufficient_quota"), ("model", .str spec.model),
    ("detail", .str (String.ofList (quotaHit.toList.take 400))),
    ("degrade_hint", .str ("model quota exhausted — retry with a cheaper model " ++
      "(explicit --model or the default chain) or wait for quota reset"))])

/-- The reports from `Popen` on. -/
def runReports (spec : RuntimeSpec) (x : Start) (argv : List String) : List Report :=
  match x.popen with
  | .error e => [("ERROR", [("error", .str e)])]
  | .ok pid =>
    [("RUNTIME_STATE", [("state", .str "agent_started"), ("pid", .int pid),
      ("argv", .arr (argv.map .str))])] ++
    (if x.quotaHit = "" then [] else [quotaReport spec x.quotaHit]) ++
    [("RUNTIME_STATE", [("state", .str "agent_exited"), ("exit_code", .int x.exitCode),
      ("quota_error", .bool (x.quotaHit ≠ ""))])]

/-- `main`: the identity that it writes, if it gets there, and what it reports in its turn. -/
def main (spec : RuntimeSpec) (x : Start) (old : Option LauncherIdentity) :
    Option LauncherIdentity × List Report :=
  if spec.workdir ≠ "" ∧ x.isdir = false then
    (none, [("ERROR", [("error", .str ("workdir not found: " ++ x.wd))])])
  else match buildAgentArgv spec x.promptFile with
    | .error e => (none, [("ERROR", [("error", .str e)])])
    | .ok argv =>
      (if spec.gatewaySocket = "" then none else some (launcherIdentity spec x old),
        runReports spec x argv)

/-- The event that `_report` makes. -/
def reportDraft (spec : RuntimeSpec) (now : ℤ) (r : Report) : RuntimeEventDraft where
  runtimeId := spec.runtimeId
  generation := spec.generation
  sessionId := spec.sessionId
  agentId := spec.agentId
  kind := r.1
  createdAt := isoOf now
  payload := .obj r.2

/-! ## Starts and their gateway -/

/-- The identity file, how many identities were written to it, what the supervisor that
runs has still to report, the gateway, and which of the identities it has registered: `0`
if none. -/
structure World where
  identity : Option LauncherIdentity := none
  written : ℕ := 0
  todo : List Report := []
  gateway : GatewayState
  registered : ℕ := 0

/-- What the plugin adds to the identity that it registers. -/
structure Plugin where
  backendSessionId : String := ""
  runtime : String := "omp"
  capabilities : List String := []

def LauncherIdentity.params (i : LauncherIdentity) (p : Plugin) : RegisterParams where
  sessionId := i.sessionId
  agentId := i.agentId
  runtimeId := i.runtimeId
  generation := i.generation
  reviewKey := i.reviewKey
  backendSessionId := p.backendSessionId
  runtime := p.runtime
  ownerPid := i.ownerPid
  nonce := i.nonce
  capabilities := p.capabilities

/-- A call by which an agent is heard of. -/
inductive Sign
  | heartbeat (runtimeId : String)
  | event (d : RuntimeEventDraft)
  | lifecycle (runtimeId name : String)

def Sign.request : Sign → Request
  | heartbeat runtimeId => .heartbeat runtimeId
  | event d => .event d
  | lifecycle runtimeId name => .lifecycle runtimeId name

inductive Step
  /-- The supervisor before is dead, and another one starts. -/
  | start (x : Start)
  /-- The supervisor makes its next report. -/
  | report (now : ℤ)
  | register (now : ℤ) (p : Plugin) (roster : Option (List String))
  /-- The gateway records what its launcher has started. -/
  | spawn (now : ℤ) (p : SpawnParams) (backendSessionId hostAlias : String)
  /-- The gateway drops the record: it was stopped, or the gateway is a new one. -/
  | forget
  | sign (now : ℤ) (x : Sign)

namespace World

variable (spec : RuntimeSpec)

def step (w : World) : Step → World
  | .start x =>
    match main spec x w.identity with
    | (none, reports) => { w with todo := reports }
    | (some i, reports) =>
      { w with identity := some i, written := w.written + 1, todo := reports }
  | .report now =>
    match w.todo with
    | [] => w
    | r :: todo =>
      -- without a socket the client raises, and the report is lost
      if spec.gatewaySocket = "" then { w with todo := todo }
      else { w with todo := todo, gateway := (runtimeEvent now (reportDraft spec now r) w.gateway).2 }
  | .register now p roster =>
    match w.identity with
    | none => w
    | some i =>
      match runtimeRegister now (i.params p) roster w.gateway with
      | (.ok _, g) => { w with gateway := g, registered := w.written }
      | (.error _, g) => { w with gateway := g }
  | .spawn now p backendSessionId hostAlias =>
    { w with
      gateway := (runtimeSpawn now p (.ok ⟨spec.runtimeId, spec.generation, backendSessionId,
        hostAlias⟩) w.gateway).2
      registered := 0 }
  | .forget =>
    { w with
      gateway := { w.gateway with runtimes := w.gateway.runtimes.delete (·.runtimeId = spec.runtimeId) }
      registered := 0 }
  | .sign now x => { w with gateway := (x.request.perform now w.gateway).2 }

/-- What is promised of a step: an identity is of a later generation than the one before,
the gateway accepts the identity that it is handed, if it knows the session and the agent,
and an event is of the generation that is registered. -/
def Valid (w : World) : Step → Prop
  | .start x => ∀ old ∈ w.identity, ∀ new ∈ (main spec x w.identity).1,
      old.generation < new.generation
  | .report now => ∀ r ∈ w.todo.head?, ∀ record ∈ w.gateway.runtimes.get? spec.runtimeId,
      (reportDraft spec now r).generation = record.generation
  | .register now p roster => ∀ i ∈ w.identity,
      i.sessionId ≠ "" → i.agentId ≠ "" → i.runtimeId ≠ "" →
      (∀ names ∈ roster, i.agentId ∈ names) → roster ≠ none →
      (runtimeRegister now (i.params p) roster w.gateway).1 = .ok ()
  | _ => True

/-- No start that gets to write an identity finds the process id in the file in use, its
own or that of another process, and no report is made while the identity that the gateway
has registered is that of a restart. -/
def Sound (w : World) : Step → Prop
  | .start x => ∀ old ∈ w.identity, (main spec x w.identity).1 ≠ none →
      old.ownerPid ≠ x.pid ∧ x.gone old.ownerPid = true
  | .report _ => w.todo ≠ [] → w.registered ≤ 1
  | _ => True

end World

end AiMeshChat.Supervisor
