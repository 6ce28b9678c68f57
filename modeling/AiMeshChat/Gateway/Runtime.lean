import AiMeshChat.Gateway.Commands

/-!
# `runtime_send` and `runtime_command_ack`

`runtime_send` looks for a row of the same `request_id` first and replays its
result. Otherwise it inserts one, and only the call whose insert took place goes
on: it refuses backends without a plugin, writes the mailbox message, waits for
the binding if asked to, and then either leaves the command queued or revives the
ended agent. All its updates of the state are unconditional.

`runtime_command_ack` reads the row, checks the transition and updates; a plugin
that skips states is moved along the chain of acknowledgements.
-/

namespace AiMeshChat.Gateway

open Lib

/-! ## `runtime_send` -/

/-- The parameters of `runtime_send`, with the defaults of `params.get`. -/
structure SendParams where
  runtimeId : String
  requestId : String
  body : String := ""
  payloadHash : String := ""
  fromId : String := "manager"
  subject : String := "steer"
  kind : String := "TASK"
  replyTo : String := ""
  runId : String := ""
  requireAck : Bool := false
  waitBinding : Bool := false
  waitBindingTimeout : ℕ := 0

/-- `params.get("payload_hash", "") or _sha256(body)`. -/
def SendParams.hash (sha256 : String → String) (p : SendParams) : String :=
  if p.payloadHash = "" then sha256 p.body else p.payloadHash

/-- The three dimensions of a record, as a detail. -/
def gateDetail (record : RuntimeRecord) : List (String × Json) :=
  [("presence", .str record.presence.name), ("binding", .str record.binding.name),
    ("agent_state", .str record.agentState.name)]

/-- `_require_runtime`. -/
def requireRuntime (rid : String) : GateCall RuntimeRecord := do
  match ← Prog.op (GateOp.lookup 0 rid) with
  | some record => return record
  | none => throw (.gateway .notFound ("unknown runtime: " ++ rid) (.obj []))

/-- The record as the table has it now, or the one at hand. -/
def refetch (k : ℕ) (rid : String) (record : RuntimeRecord) : GateCall RuntimeRecord := do
  return (← Prog.op (GateOp.lookup k rid)).getD record

/-- An update of the state that looks at nothing. -/
def setState (r : String) (ch : Change) : GateCall Unit := do
  let _ ← updateCommand r ch none
  return ()

/-- The loop of `wait_binding`, with the deadline in milliseconds. -/
def awaitBinding (rid : String) (deadline : ℕ) : ℕ → ℕ → RuntimeRecord → GateCall RuntimeRecord
  | 0, _, _ => .hang
  | fuel + 1, k, record => do
    let now ← Prog.op (GateOp.monotonic k)
    if now < deadline ∧ record.binding ≠ .bound then
      awaitBinding rid deadline fuel (k + 1) (← refetch k rid record)
    else return record

/-- `params.get("wait_binding_timeout") or 60.0`, in whole seconds. -/
def SendParams.waitSecs (p : SendParams) : ℕ :=
  if p.waitBindingTimeout = 0 then 60 else p.waitBindingTimeout

/-- The wait before the gate, when the caller asked for it. -/
def maybeAwait (fuel : ℕ) (p : SendParams) (record : RuntimeRecord) : GateCall RuntimeRecord :=
  if p.waitBinding && record.binding = .pending && record.presence = .alive then do
    let now ← Prog.op (GateOp.monotonic 0)
    awaitBinding p.runtimeId (now + 1000 * p.waitSecs) fuel 2 record
  else .ret record

/-- Step 4: the agent has ended; revive it. -/
def reviveEnded (p : SendParams) (record : RuntimeRecord) : GateCall CommandResult := do
  setState p.requestId
    { state := some .reviving
      bindingEpoch := some record.bindingEpoch
      backendSessionId := some record.backendSessionId
      detail := some (.obj [("revive", .str "starting"),
        ("agent_state", .str record.agentState.name)]) }
  match ← Prog.op (GateOp.revive record.reviewKey p.body) with
  | .ok (success, method) =>
    if success && (method = "hot" || method = "warm") then
      setState p.requestId
        { state := some .reviving, detail := some (.obj [("revive", .str method)]) }
      finish p.requestId
    else if success && method = "cold" then
      setState p.requestId
        { state := some .queued
          detail := some (.obj [("gate", .str "binding_pending"), ("revive", .str "cold")]) }
      finish p.requestId
    else
      setState p.requestId
        { state := some .failedSafe, detail := some (.obj [("revive_failed", .str method)]) }
      finish p.requestId
  | .error e =>
    setState p.requestId
      { state := some .failedSafe, detail := some (.obj [("revive_error", .str e)]) }
    finish p.requestId

/-- Why the gate is closed: no binding yet, or another reason. -/
def coldGate (record : RuntimeRecord) : String :=
  if record.binding ≠ .bound then "binding_pending" else "not_hot"

/-- Steps 3 to 5: the hot gate, the revival and the queue. -/
def hotGate (p : SendParams) (record : RuntimeRecord) : GateCall CommandResult :=
  if !isHot record then do
    setState p.requestId
      { state := some .queued
        detail := some (.obj (("gate", .str (coldGate record)) :: gateDetail record)) }
    finish p.requestId
  else if record.agentState = .ended then reviveEnded p record
  else finish p.requestId

/-- The mailbox message of the command. -/
def mailArgs (p : SendParams) (record : RuntimeRecord) : Mailbox.SendArgs where
  sessionId := record.sessionId
  fromId := p.fromId
  toId := record.agentId
  subject := p.subject
  body := p.body
  kind := p.kind
  replyTo := p.replyTo
  runId := p.runId
  requestId := p.requestId
  commandId := p.requestId
  requireAck := p.requireAck

/-- `receipt.error or "runtime_send mailbox failed"`. -/
def failureText (error : String) : String :=
  if error = "" then "runtime_send mailbox failed" else error

/-- Step 2: the mailbox write, and what follows from how it ended. -/
def mailAndGate (fuel : ℕ) (p : SendParams) (record : RuntimeRecord) : GateCall CommandResult := do
  match ← Prog.op (GateOp.mail (mailArgs p record)) with
  | .delivered mid =>
    setState p.requestId
      { msgId := some mid
        state := some .queued
        detail := some (.obj [("mailbox", .str "persisted"), ("msg_id", .str mid)]) }
    let record ← refetch 1 p.runtimeId record
    let record ← maybeAwait fuel p record
    hotGate p record
  | .failed _ error =>
    setState p.requestId
      { state := some .failedSafe, detail := some (.obj [("reason", .str (failureText error))]) }
    finish p.requestId
  | .raised error =>
    setState p.requestId
      { state := some .failedSafe, detail := some (.obj [("reason", .str error)]) }
    finish p.requestId

/-- What the call that created the row does: backends without a consumer are
refused before anything is written. -/
def dispatch (fuel : ℕ) (p : SendParams) (record : RuntimeRecord) : GateCall CommandResult :=
  if !hasConsumer record then do
    setState p.requestId
      { state := some .failedSafe
        detail := some (.obj (("gate", .str "no_plugin_consumer") ::
          ("backend", .str record.runtime) :: gateDetail record)) }
    throw (.gateway .unsupportedRuntime
      ("runtime " ++ p.runtimeId ++ " backend=" ++ record.runtime ++ " 无插件" ++
        " consumer，hot/mailbox 投递不可用 — 请走 warm native" ++
        " 路径（oracle ask 自动降级）") (.obj []))
  else mailAndGate fuel p record

/-- The row that `runtime_send` inserts. -/
def newRow (p : SendParams) (record : RuntimeRecord) (payloadHash uid : String) : CommandRow where
  requestId := p.requestId
  commandId := "cmd-" ++ uid
  runtimeId := p.runtimeId
  generation := record.generation
  payloadHash := payloadHash
  state := .queued
  bindingEpoch := record.bindingEpoch
  backendSessionId := record.backendSessionId

/-- The replay of a command that exists. -/
def replayCommand (p : SendParams) (payloadHash : String) (existing : CommandRow) :
    GateCall CommandResult :=
  if existing.payloadHash ≠ payloadHash then
    .raise (.gateway .idempotencyConflict
      ("request_id " ++ reprStr p.requestId ++ " already used with a different payload")
      (.obj [("request_id", .str p.requestId), ("state", .str existing.state.name)]))
  else .ret (resultOf existing)

/-- `AgentGateway.runtime_send`. -/
def runtimeSend (sha256 : String → String) (fuel : ℕ) (p : SendParams) :
    GateCall CommandResult := do
  require (p.runtimeId ≠ "" && p.requestId ≠ "")
    (.gateway .protocol "runtime.send requires runtime_id + request_id" (.obj []))
  let record ← requireRuntime p.runtimeId
  let payloadHash := p.hash sha256
  require (payloadHash ≠ "")
    (.gateway .protocol "runtime.send requires a non-empty body or payload_hash" (.obj []))
  match ← getCommand p.requestId with
  | some existing => replayCommand p payloadHash existing
  | none =>
    let uid ← Prog.op GateOp.uuid
    let created ← Prog.op (GateOp.enqueue (newRow p record payloadHash uid))
    if created then dispatch fuel p record else finish p.requestId

/-! ## `runtime_command_ack` -/

/-- The parameters of `runtime_command_ack`. `state` is `none` when it is no
command state, `generation` is `some none` when it is no number. -/
structure AckParams where
  requestId : String
  state : Option CmdState
  stateText : String := ""
  runtimeId : String := ""
  turnId : String := ""
  generation : Option (Option ℤ) := none

/-- `turn_id or row.get("turn_id", "")`. -/
def turnOf (a : AckParams) (row : CommandRow) : String :=
  if a.turnId = "" then row.turnId else a.turnId

/-- The owner and the generation of an acknowledgement. -/
def checkAck (a : AckParams) (row : CommandRow) : GateCall Unit := do
  require (a.runtimeId = "" || a.runtimeId = row.runtimeId)
    (.gateway .notAuthorized ("command " ++ a.requestId ++ " belongs to runtime " ++
      row.runtimeId ++ ", not " ++ a.runtimeId) (.obj []))
  match a.generation with
  | none => return ()
  | some none =>
    throw (.gateway .protocol "runtime.command_ack generation must be an int" (.obj []))
  | some (some g) =>
    require (row.generation ≤ g)
      (.gateway .generationStale ("ack generation " ++ toString g ++ " < command generation " ++
        toString row.generation) (.obj []))

/-- The transition itself: a legal one, or along the chain. -/
def applyAck (a : AckParams) (state : CmdState) (row : CommandRow) : GateCall CommandResult :=
  if state ∈ CMD_TRANSITIONS row.state then do
    let now ← Prog.op GateOp.nowIso
    let updated ← updateCommand a.requestId
      { state := some state
        turnId := some (turnOf a row)
        detail := some (.obj [("ack", .str state.name), ("ack_at", .str now)]) }
      (some row.state)
    commandResult updated
  else match advanceAckChain row.state state with
    | none => .raise (.gateway .protocolConflict ("invalid command transition " ++
        row.state.name ++ " → " ++ state.name ++ " for " ++ a.requestId) (.obj []))
    | some (final, skipped) => do
      let now ← Prog.op GateOp.nowIso
      let updated ← updateCommand a.requestId
        { state := some final
          turnId := some (turnOf a row)
          detail := some (.obj [("ack", .str state.name), ("ack_at", .str now),
            ("advanced_from", .str row.state.name),
            ("advanced_through", .arr (skipped.map fun s => .str s.name))]) }
        (some row.state)
      commandResult updated

/-- `AgentGateway.runtime_command_ack`. -/
def runtimeCommandAck (a : AckParams) : GateCall CommandResult :=
  match a.state with
  | none => .raise (.gateway .protocol ("runtime.command_ack requires request_id + valid state; " ++
      "got state=" ++ reprStr a.stateText) (.obj []))
  | some state => do
    require (a.requestId ≠ "") (.gateway .protocol
      ("runtime.command_ack requires request_id + valid state; got state=" ++
        reprStr state.name) (.obj []))
    match ← getCommand a.requestId with
    | none => throw (.gateway .notFound ("unknown command: " ++ a.requestId) (.obj []))
    | some row =>
      checkAck a row
      applyAck a state row

/-! ## Calls together -/

/-- A call of the gateway about a command. -/
inductive GateRequest
  | send (p : SendParams)
  | ack (a : AckParams)

def GateRequest.call (sha256 : String → String) (fuel : ℕ) : GateRequest → GateCall CommandResult
  | .send p => runtimeSend sha256 fuel p
  | .ack a => runtimeCommandAck a

/-- Process `i` makes the call `reqs i`, or none. -/
def gatePool (sha256 : String → String) (fuel : ℕ) (s : Control) (reqs : ℕ → Option GateRequest) :
    Pool GateOp GateAns Control GatewayErr CommandResult :=
  ⟨s, fun i => match reqs i with
    | some r => r.call sha256 fuel
    | none => .hang⟩

end AiMeshChat.Gateway
