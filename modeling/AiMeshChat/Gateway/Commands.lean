import AiMeshChat.Mailbox.Store

/-!
# The gateway's commands

`gateway/service.py` and `gateway/control_store.py`, the path of one command.
`runtime_send` records a command under its `request_id`, writes the task into
the mailbox of the runtime's agent and, if the runtime has ended, revives it;
the plugin in the runtime acknowledges its progress with `runtime_command_ack`.
The command table is shared by all calls, and each read or update of it is one
step.

The runtime record changes at any time under the events of its process, so every
look at it is answered by the environment, and so are the outcome of the mailbox
write and that of `park_revive`. A mailbox write that fails may still have put
the message into the inbox: `MailboxService.send` publishes the message before
it advances the cursor, stamps the message and records it
(`Gateway/Mail.lean`). The message is one step here.

An update of the state carries the state it was checked against, if any. It has
no effect on the table.
-/

namespace AiMeshChat.Gateway

open Lib

/-! ## Command states -/

inductive CmdState
  | queued
  | claimed
  | reviving
  | triggering
  | turnTriggered
  | failedSafe
  | ambiguous
  | triggerUnknown
  deriving DecidableEq

def CmdState.name : CmdState → String
  | queued => "QUEUED"
  | claimed => "CLAIMED"
  | reviving => "REVIVING"
  | triggering => "TRIGGERING"
  | turnTriggered => "TURN_TRIGGERED"
  | failedSafe => "FAILED_SAFE"
  | ambiguous => "AMBIGUOUS"
  | triggerUnknown => "TRIGGER_UNKNOWN"

/-- The states that the comment on `CMD_TRANSITIONS` calls terminal. -/
def CmdState.terminal : CmdState → Bool
  | turnTriggered | failedSafe | ambiguous | triggerUnknown => true
  | queued | claimed | reviving | triggering => false

def CMD_TRANSITIONS : CmdState → List CmdState
  | .queued => [.claimed, .failedSafe, .ambiguous]
  | .claimed => [.reviving, .triggering, .failedSafe, .ambiguous]
  | .reviving => [.triggering, .failedSafe, .ambiguous]
  | .triggering => [.turnTriggered, .ambiguous, .triggerUnknown]
  | .turnTriggered | .failedSafe | .ambiguous | .triggerUnknown => []

def CMD_STATUS_BY_STATE : CmdState → String
  | .queued => "mailbox_persisted"
  | .claimed => "claimed"
  | .reviving => "session_live"
  | .triggering => "ambiguous"
  | .turnTriggered => "turn_triggered"
  | .failedSafe => "failed_safe"
  | .ambiguous => "ambiguous"
  | .triggerUnknown => "ambiguous"

def CMD_ACK_CHAIN : List CmdState := [.queued, .claimed, .reviving, .triggering, .turnTriggered]

/-- The loop of `_advance_ack_chain`: every hop must be a transition; the states
skipped on the way. -/
def ackHops (target : CmdState) : CmdState → List CmdState → Option (List CmdState)
  | _, [] => some []
  | src, hop :: rest =>
    if hop ∉ CMD_TRANSITIONS src then none
    else (ackHops target hop rest).map fun skipped =>
      if hop ≠ target then hop :: skipped else skipped

/-- `_advance_ack_chain`. -/
def advanceAckChain (current target : CmdState) : Option (CmdState × List CmdState) :=
  if current ∉ CMD_ACK_CHAIN ∨ target ∉ CMD_ACK_CHAIN then none
  else
    let i := CMD_ACK_CHAIN.idxOf current
    let j := CMD_ACK_CHAIN.idxOf target
    if j ≤ i then none
    else (ackHops target current ((CMD_ACK_CHAIN.drop (i + 1)).take (j - i))).map (target, ·)

example : advanceAckChain .reviving .turnTriggered = some (.turnTriggered, [.triggering]) := by
  decide

/-! ## Records, rows and errors -/

inductive Presence
  | alive
  | stale
  | dead
  deriving DecidableEq

inductive Binding
  | pending
  | bound
  | lost
  deriving DecidableEq

inductive AgentState
  | agentRunning
  | idle
  | ended
  deriving DecidableEq

def Presence.name : Presence → String
  | alive => "alive"
  | stale => "stale"
  | dead => "dead"

def Binding.name : Binding → String
  | pending => "pending"
  | bound => "bound"
  | lost => "lost"

def AgentState.name : AgentState → String
  | agentRunning => "agent_running"
  | idle => "idle"
  | ended => "ended"

/-- The fields of `RuntimeRecord` that a command reads. -/
structure RuntimeRecord where
  runtimeId : String
  sessionId : String
  agentId : String
  generation : ℤ
  reviewKey : String := ""
  backendSessionId : String := ""
  runtime : String := ""
  presence : Presence := .alive
  binding : Binding := .pending
  agentState : AgentState := .idle
  bindingEpoch : ℤ := 0
  capabilities : List String := []

def HOT_REQUIRED_CAPABILITIES : List String := ["park_revive", "correlated_turn_ack"]

/-- `_normalize_capability`: a final `_v<digits>` is cut off. -/
def normalizeCapability (name : String) : String :=
  let r := name.toList.reverse
  let ver := (r.takeWhile (· ≠ '_')).reverse
  match r.dropWhile (· ≠ '_'), ver with
  | _ :: base, 'v' :: d :: ds =>
    if (d :: ds).all Char.isDigit then String.ofList base.reverse else name
  | _, _ => name

example : normalizeCapability "park_revive_v1" = "park_revive" := by decide +kernel

/-- A backend whose runtimes have a plugin that reads the mailbox. -/
def hasConsumer (record : RuntimeRecord) : Bool := record.runtime = "" || record.runtime = "omp"

/-- `_is_hot`. -/
def isHot (record : RuntimeRecord) : Bool :=
  if !(record.presence = .alive && record.binding = .bound &&
      record.agentState ∈ [.agentRunning, .idle, .ended]) then false
  else if !hasConsumer record then false
  else
    let caps := record.capabilities.map normalizeCapability
    caps = [] || HOT_REQUIRED_CAPABILITIES.all (· ∈ caps)

/-- A row of the `commands` table; the two timestamps, which nothing here reads,
are left out. -/
structure CommandRow where
  requestId : String
  commandId : String
  msgId : String := ""
  turnId : String := ""
  runtimeId : String
  generation : ℤ
  payloadHash : String
  state : CmdState
  bindingEpoch : ℤ := 0
  backendSessionId : String := ""
  detail : Json := .obj []
  deriving DecidableEq

/-- The columns that an `update_command` sets. -/
structure Change where
  state : Option CmdState := none
  msgId : Option String := none
  turnId : Option String := none
  bindingEpoch : Option ℤ := none
  backendSessionId : Option String := none
  detail : Option Json := none
  deriving DecidableEq

def CommandRow.apply (row : CommandRow) (ch : Change) : CommandRow :=
  { row with
    state := ch.state.getD row.state
    msgId := ch.msgId.getD row.msgId
    turnId := ch.turnId.getD row.turnId
    bindingEpoch := ch.bindingEpoch.getD row.bindingEpoch
    backendSessionId := ch.backendSessionId.getD row.backendSessionId
    detail := ch.detail.getD row.detail }

inductive ErrCode
  | protocol
  | notFound
  | notAuthorized
  | ownerMismatch
  | generationStale
  | unsupportedRuntime
  | idempotencyConflict
  | protocolConflict
  deriving DecidableEq

/-- `GatewayError`, or another exception with its text. -/
inductive GatewayErr
  | gateway (code : ErrCode) (message : String) (context : Json)
  | other (message : String)
  deriving DecidableEq

/-! ## The world -/

/-- What `MailboxService.send` tells its caller: a receipt, or an exception. -/
inductive MailAnswer
  | delivered (msgId : String)
  | failed (msgId error : String)
  | raised (error : String)
  deriving DecidableEq

/-- How a mailbox write ends. One that does not succeed may have put the message
into the inbox before. -/
inductive MailOutcome
  | delivered (msgId : String)
  | failed (published : Bool) (msgId error : String)
  | raised (published : Bool) (msgId error : String)
  deriving DecidableEq

namespace MailOutcome

/-- What the caller sees of the outcome. -/
def answer : MailOutcome → MailAnswer
  | delivered mid => .delivered mid
  | failed _ mid error => .failed mid error
  | raised _ _ error => .raised error

def msgId : MailOutcome → String
  | delivered mid | failed _ mid _ | raised _ mid _ => mid

/-- Whether the outcome leaves the message in the inbox. -/
def posts : MailOutcome → Bool
  | delivered _ => true
  | failed published _ _ | raised published _ _ => published

end MailOutcome

/-- A message in an inbox. -/
structure Posted where
  args : Mailbox.SendArgs
  msgId : String

/-- The state that calls share: the command table and the messages written. -/
structure Control where
  commands : String → Option CommandRow
  posted : List Posted

def Control.empty : Control := ⟨fun _ => none, []⟩

/-- The atomic steps. `lookup k` is the `k`-th look of a call at its runtime,
`monotonic k` its `k`-th look at the clock. -/
inductive GateOp
  | getCommand (requestId : String)
  | enqueue (row : CommandRow)
  | update (requestId : String) (ch : Change) (basis : Option CmdState)
  | lookup (k : ℕ) (runtimeId : String)
  | mail (a : Mailbox.SendArgs)
  | revive (reviewKey body : String)
  | uuid
  | monotonic (k : ℕ)
  | nowIso

abbrev GateAns : GateOp → Type
  | .getCommand _ => Option CommandRow
  | .enqueue _ => Bool
  | .update _ _ _ => Unit
  | .lookup _ _ => Option RuntimeRecord
  | .mail _ => MailAnswer
  | .revive _ _ => Except String (Bool × String)
  | .uuid => String
  | .monotonic _ => ℕ
  | .nowIso => String

/-- What the environment decides: the runtime record at each look, the outcome of
the mailbox write, that of `park_revive` (success and method, or the text of an
exception), a random identifier and the clock in milliseconds at each look. -/
structure GateChoice where
  record : ℕ → Option RuntimeRecord := fun _ => none
  mail : MailOutcome := .delivered "m"
  revive : Except String (Bool × String) := .ok (false, "failed")
  uuid : String := ""
  time : ℕ → ℕ := fun _ => 0

namespace Control

def setRow (s : Control) (r : String) (row : CommandRow) : Control :=
  { s with commands := Function.update s.commands r (some row) }

def perform (_ : ℕ) (o : GateOp) (c : GateChoice) (s : Control) : Option (GateAns o × Control) :=
  match o with
  | .getCommand r => some (s.commands r, s)
  | .enqueue row =>
    -- INSERT OR IGNORE on the primary key
    match s.commands row.requestId with
    | some _ => some (false, s)
    | none => some (true, s.setRow row.requestId row)
  | .update r ch _ =>
    match s.commands r with
    | some row => some ((), s.setRow r (row.apply ch))
    | none => some ((), s)
  | .lookup k _ => some (c.record k, s)
  | .mail a =>
    let posted := if c.mail.posts then ⟨a, c.mail.msgId⟩ :: s.posted else s.posted
    some (c.mail.answer, { s with posted := posted })
  | .revive _ _ => some (c.revive, s)
  | .uuid => some (c.uuid, s)
  | .monotonic k => some (c.time k, s)
  | .nowIso => some (isoFormat (1000 * c.time 0), s)

end Control

/-- The table and the mailbox survive the death of a caller. -/
def gateWorld : World GateOp GateAns Control GateChoice := ⟨Control.perform, fun _ s => s⟩

abbrev GateCall := Prog GateOp GateAns GatewayErr

def getCommand (r : String) : GateCall (Option CommandRow) := Prog.op (GateOp.getCommand r)

/-- `update_command`: the update and then a read of the row. -/
def updateCommand (r : String) (ch : Change) (basis : Option CmdState) :
    GateCall (Option CommandRow) := do
  Prog.op (GateOp.update r ch basis)
  getCommand r

def require (c : Bool) (e : GatewayErr) : GateCall Unit := if c then .ret () else .raise e

/-! ## Results -/

/-- What a command call returns. -/
structure CommandResult where
  requestId : String
  commandId : String
  msgId : String
  turnId : String
  runtimeId : String
  generation : ℤ
  state : CmdState
  status : String
  detail : Json
  deriving DecidableEq

/-- `_command_result` of a row. -/
def resultOf (row : CommandRow) : CommandResult where
  requestId := row.requestId
  commandId := row.commandId
  msgId := row.msgId
  turnId := row.turnId
  runtimeId := row.runtimeId
  generation := row.generation
  state := row.state
  status :=
    if row.state = .queued && row.detail.get? "gate" = some (.str "binding_pending") then
      "binding_pending"
    else CMD_STATUS_BY_STATE row.state
  detail := row.detail

/-- `_command_result`; a missing row raises. -/
def commandResult : Option CommandRow → GateCall CommandResult
  | some row => .ret (resultOf row)
  | none => .raise (.other "'NoneType' object is not subscriptable")

/-- `return self._command_result(self._control.get_command(request_id))`. -/
def finish (r : String) : GateCall CommandResult := do commandResult (← getCommand r)

end AiMeshChat.Gateway
