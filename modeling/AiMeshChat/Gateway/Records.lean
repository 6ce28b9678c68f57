import AiMeshChat.Gateway.Events
import AiMeshChat.Lib.History
import AiMeshChat.Park.Registry

/-!
# The runtime records of a gateway

`gateway/service.py`, the calls that write `_runtimes`: registration, declaration, spawn,
heartbeat, events, lifecycle events, stop and purge, the restoration from the park
registry and the sweep. Each is one step here, at the time `now`.

What comes from elsewhere is an argument: the roster of the session, the manifest of the
review key, the handle of a launched process. The copy of the records in the control
store is not read back by these calls and is left out, and so are the hub peers, the
initial task, the spec and the model context of a runtime.

The branch of `runtime_event` that consumes a `TURN_TRIGGERED` event is here as it stands,
although no such event gets that far.
-/

namespace AiMeshChat.Gateway

open Lib Park

/-! ## Records -/

inductive Status
  | starting
  | active
  | offline
  | stopped
  | unknown
  deriving DecidableEq

def Status.name : Status → String
  | starting => "starting"
  | active => "active"
  | offline => "offline"
  | stopped => "stopped"
  | unknown => "unknown"

/-- The record of a runtime, with the fields that its own calls read. -/
structure Record extends RuntimeRecord where
  hostAlias : String := "__local__"
  ownerPid : ℤ := 0
  nonce : String := ""
  status : Status := .starting
  createdAt : String := ""
  lastActivity : ℤ := 0
  startedAt : ℤ := 0

/-- In the order in which the keys came into the dict. -/
abbrev Runtimes := Rows String Record (·.runtimeId)

theorem runtimeId_of_get? {t : Runtimes} {runtimeId : String} {r : Record}
    (h : t.get? runtimeId = some r) : r.runtimeId = runtimeId := (Rows.get?_eq_some.mp h).2

theorem eq_of_runtimeId {t : Runtimes} {runtimeId : String} {r r' : Record}
    (h : t.get? runtimeId = some r) (h' : r' ∈ t.list) (hid : r'.runtimeId = runtimeId) : r' = r :=
  Rows.eq_of_key h' (Rows.mem_of_get? h) (hid.trans (runtimeId_of_get? h).symm)

structure GatewayState where
  runtimes : Runtimes := Rows.empty
  events : EventStore
  commands : String → Option CommandRow := fun _ => none

/-- What a call answers, and the state it leaves. -/
abbrev Outcome (α : Type) := Except GatewayErr α × GatewayState

namespace GatewayState

def setRecord (s : GatewayState) (record : Record) : GatewayState :=
  { s with runtimes := s.runtimes.put record }

/-- An event is appended, and a failure logged. -/
def logEvent (s : GatewayState) (d : RuntimeEventDraft) : GatewayState :=
  match s.events.appendLocal d with
  | .ok (_, events) => { s with events := events }
  | .error _ => s

end GatewayState

/-- `ISO_TIMESTAMP_FORMAT` of a time. -/
def isoOf (now : ℤ) : String := isoFormat now.toNat

/-- An event about a record. -/
def Record.draft (record : Record) (kind createdAt : String) (payload : List (String × Json)) :
    RuntimeEventDraft where
  runtimeId := record.runtimeId
  generation := record.generation
  sessionId := record.sessionId
  agentId := record.agentId
  kind := kind
  createdAt := createdAt
  payload := .obj payload

def unknownRuntime (runtimeId : String) : GatewayErr :=
  .gateway .notFound ("unknown runtime: " ++ runtimeId) (.obj [])

/-! ## Registration -/

structure RegisterParams where
  sessionId : String := ""
  agentId : String := ""
  runtimeId : String := ""
  generation : ℤ := 0
  reviewKey : String := ""
  backendSessionId : String := ""
  runtime : String := "omp"
  ownerPid : ℤ := 0
  nonce : String := ""
  capabilities : List String := []

/-- A registration of an older generation, or of the same one by another owner. -/
def checkOwner (p : RegisterParams) : Option Record → Except GatewayErr Unit
  | none => .ok ()
  | some existing =>
    if p.generation < existing.generation then
      .error (.gateway .generationStale ("generation " ++ toString p.generation ++
        " < registered " ++ toString existing.generation ++ " for " ++ p.runtimeId) (.obj []))
    else if p.generation = existing.generation ∧ (existing.ownerPid ≠ 0 ∨ existing.nonce ≠ "") ∧
        (existing.ownerPid ≠ p.ownerPid ∨ existing.nonce ≠ p.nonce) then
      .error (.gateway .ownerMismatch ("owner identity mismatch for " ++ p.runtimeId ++ ": pid " ++
        toString existing.ownerPid ++ " != " ++ toString p.ownerPid ++ " or nonce mismatch")
        (.obj []))
    else .ok ()

/-- The agent is in the roster of the session, if there is such a session. -/
def checkRoster (p : RegisterParams) : Option (List String) → Except GatewayErr Unit
  | none => .error (.gateway .notAuthorized ("session not found: " ++ p.sessionId) (.obj []))
  | some roster =>
    if p.agentId ∈ roster then .ok ()
    else .error (.gateway .notAuthorized ("agent " ++ reprStr p.agentId ++ " not in session roster")
      (.obj []))

/-- How often a backend session was bound, after this registration. -/
def nextEpoch (p : RegisterParams) : Option Record → ℤ
  | none => if p.backendSessionId ≠ "" then 1 else 0
  | some existing =>
    if p.backendSessionId ≠ "" ∧ p.backendSessionId ≠ existing.backendSessionId then
      existing.bindingEpoch + 1
    else existing.bindingEpoch

def registered (now : ℤ) (p : RegisterParams) (existing : Option Record) : Record where
  runtimeId := p.runtimeId
  sessionId := p.sessionId
  agentId := p.agentId
  generation := p.generation
  reviewKey := p.reviewKey
  backendSessionId := p.backendSessionId
  runtime := p.runtime
  presence := .alive
  binding := if p.backendSessionId ≠ "" then .bound else .pending
  agentState := .idle
  bindingEpoch := nextEpoch p existing
  capabilities := p.capabilities
  ownerPid := p.ownerPid
  nonce := p.nonce
  status := .active
  createdAt := isoOf now
  lastActivity := now
  startedAt := now

/-- What `runtime_register` checks. -/
def checkRegister (p : RegisterParams) (roster : Option (List String)) (s : GatewayState) :
    Except GatewayErr Unit := do
  if p.sessionId = "" ∨ p.agentId = "" ∨ p.runtimeId = "" then
    throw (.gateway .notAuthorized "runtime.register requires session_id/agent_id/runtime_id"
      (.obj []))
  checkOwner p (s.runtimes.get? p.runtimeId)
  checkRoster p roster

/-- `runtime_register`. -/
def runtimeRegister (now : ℤ) (p : RegisterParams) (roster : Option (List String))
    (s : GatewayState) : Outcome Unit :=
  match checkRegister p roster s with
  | .error e => (.error e, s)
  | .ok () =>
    let record := registered now p (s.runtimes.get? p.runtimeId)
    let s := s.setRecord record
    match s.events.appendLocal (record.draft "RUNTIME_STATE" record.createdAt
      [("state", .str "active"), ("runtime", .str p.runtime),
        ("backend_session_id", .str p.backendSessionId)]) with
    | .ok (_, events) => (.ok (), { s with events := events })
    | .error e => (.error e, s)

/-! ## Declaration and spawn -/

structure DeclareParams where
  reviewKey : String := ""
  backendSessionId : String := ""
  runtimeId : String := ""
  agentId : String := "oracle"

/-- The record that a declaration refreshes: that of the runtime, or the first one of the
backend session. -/
def declaredBefore (p : DeclareParams) (s : GatewayState) : Option Record :=
  (if p.runtimeId ≠ "" then s.runtimes.get? p.runtimeId else none).or
    (s.runtimes.list.find? fun r => r.backendSessionId = p.backendSessionId)

theorem declaredBefore_mem {p : DeclareParams} {s : GatewayState} {r : Record}
    (h : declaredBefore p s = some r) : r ∈ s.runtimes.list := by
  rcases Option.or_eq_some_iff.mp h with hget | ⟨-, hfind⟩
  · split at hget
    · exact Rows.mem_of_get? hget
    · cases hget
  · exact List.mem_of_find?_eq_some hfind

def refreshed (now : ℤ) (existing : Record) : Record :=
  { existing with
    status := .active
    lastActivity := now
    presence := .alive
    binding := .bound
    agentState := .idle }

/-- The record of a session that is declared for the first time; `slug` is the head of the
digest of its backend session. -/
def declared (now : ℤ) (p : DeclareParams) (m : ParkManifest) (slug : String) : Record where
  runtimeId := if p.runtimeId = "" then "native-" ++ slug else p.runtimeId
  sessionId := m.swarmSessionId
  agentId := p.agentId
  generation := 0
  reviewKey := p.reviewKey
  backendSessionId := p.backendSessionId
  runtime := "native"
  presence := .alive
  binding := .bound
  agentState := .idle
  bindingEpoch := 1
  status := .active
  createdAt := isoOf now
  lastActivity := now

/-- `runtime_declare`, with the runtime it answers. -/
def runtimeDeclare (now : ℤ) (p : DeclareParams) (manifest : Option ParkManifest) (slug : String)
    (s : GatewayState) : Outcome String :=
  if p.reviewKey = "" then
    (.error (.gateway .notAuthorized "runtime.declare requires review_key" (.obj [])), s)
  else if p.backendSessionId = "" then
    (.error (.gateway .notAuthorized "runtime.declare requires backend_session_id" (.obj [])), s)
  else match manifest with
    | none => (.error (.gateway .notFound ("review_key not found: " ++ p.reviewKey) (.obj [])), s)
    | some m =>
      let record := match declaredBefore p s with
        | some existing => refreshed now existing
        | none => declared now p m slug
      (.ok record.runtimeId, s.setRecord record)

/-- The handle of a launched process. -/
structure Handle where
  runtimeId : String
  generation : ℤ
  backendSessionId : String := ""
  hostAlias : String := "__local__"

structure SpawnParams where
  runtime : String := "omp"
  sessionId : String := ""
  agentId : String := ""
  reviewKey : String := ""

def spawned (now : ℤ) (p : SpawnParams) (h : Handle) : Record where
  runtimeId := h.runtimeId
  sessionId := p.sessionId
  agentId := p.agentId
  generation := h.generation
  reviewKey := p.reviewKey
  backendSessionId := h.backendSessionId
  hostAlias := h.hostAlias
  runtime := p.runtime
  presence := .alive
  binding := .pending
  agentState := .idle
  status := .active
  createdAt := isoOf now
  lastActivity := now
  startedAt := now

/-- `runtime_spawn`; the launcher raises, or gives a handle. -/
def runtimeSpawn (now : ℤ) (p : SpawnParams) (launched : Except String Handle) (s : GatewayState) :
    Outcome String :=
  match launched with
  | .error e => (.error (.other e), s)
  | .ok h => (.ok h.runtimeId, s.setRecord (spawned now p h))

/-! ## Signs of life -/

/-- The record after a heartbeat: one that was offline is active again. -/
def Record.beat (now : ℤ) (record : Record) : Record :=
  { record with
    lastActivity := now
    presence := .alive
    status := if record.status = .offline then .active else record.status }

/-- `runtime_heartbeat`, with the status it answers. -/
def runtimeHeartbeat (now : ℤ) (runtimeId : String) (s : GatewayState) : Outcome String :=
  match s.runtimes.get? runtimeId with
  | none => (.error (unknownRuntime runtimeId), s)
  | some record =>
    let s := s.setRecord (record.beat now)
    let s := if record.status = .offline then
        s.logEvent (record.draft "AGENT_STATUS" (isoOf now) [("old_status", .str "offline"),
          ("new_status", .str "active"), ("reason", .str "heartbeat")])
      else s
    (.ok (record.beat now).status.name, s)

def AgentState.ofName? (name : String) : Option AgentState :=
  if name = "agent_running" then some .agentRunning
  else if name = "idle" then some .idle
  else if name = "ended" then some .ended
  else none

def Binding.ofName? (name : String) : Option Binding :=
  if name = "bound" then some .bound
  else if name = "pending" then some .pending
  else if name = "lost" then some .lost
  else none

/-- The record after an event. -/
def Record.noted (now : ℤ) (d : RuntimeEventDraft) (record : Record) : Record :=
  { record with
    lastActivity := now
    agentState := ((d.payload.getStr "agent_state").bind AgentState.ofName?).getD
      (if d.kind = "TURN_STARTED" then .agentRunning else record.agentState)
    binding := ((d.payload.getStr "binding").bind Binding.ofName?).getD record.binding }

/-- `payload.get("command_id", "") or draft.request_id`. -/
def commandKey (d : RuntimeEventDraft) : String :=
  match d.payload.getStr "command_id" with
  | some key => if key = "" then d.requestId else key
  | none => d.requestId

/-- A `TURN_TRIGGERED` event moves its command along the chain of acknowledgements. -/
def consumeTurn (now : ℤ) (d : RuntimeEventDraft) (s : GatewayState) : GatewayState :=
  match s.commands (commandKey d) with
  | none => s
  | some row =>
    if row.state = .turnTriggered then s
    else match advanceAckChain row.state .turnTriggered with
    | none => s
    | some (final, skipped) =>
      let turn := (d.payload.getStr "turn_id").getD ""
      let row' := row.apply
        { state := some final
          turnId := some (if turn = "" then row.turnId else turn)
          detail := some (.obj [("ack", .str CmdState.turnTriggered.name), ("ack_at", .str (isoOf now)),
            ("via", .str "runtime_event"), ("advanced_from", .str row.state.name),
            ("advanced_through", .arr (skipped.map fun st => .str st.name))]) }
      { s with commands := Function.update s.commands (commandKey d) (some row') }

/-- `runtime_event`, with the number and the sequence of the event. -/
def runtimeEvent (now : ℤ) (d : RuntimeEventDraft) (s : GatewayState) : Outcome (ℕ × ℤ) :=
  match s.runtimes.get? d.runtimeId with
  | none => (.error (unknownRuntime d.runtimeId), s)
  | some record =>
    if d.generation ≠ record.generation then
      (.error (.gateway .generationStale ("generation " ++ toString d.generation ++
        " != registered " ++ toString record.generation ++ " for " ++ d.runtimeId) (.obj [])), s)
    else match s.events.appendLocal d with
      | .error e => (.error e, s)
      | .ok (e, events) =>
        let s := { s.setRecord (record.noted now d) with events := events }
        let s := if d.kind = "TURN_TRIGGERED" ∧ commandKey d ≠ "" then consumeTurn now d s else s
        (.ok (e.eventId, e.sourceSequence), s)

def LIFECYCLE_EVENTS : List String := ["session_ready", "agent_start", "turn_start", "turn_end",
  "agent_end", "session_shutdown", "registry_parked", "registry_removed", "process_exit",
  "heartbeat"]

/-- `_reduce_lifecycle`. -/
def reduceLifecycle (event : String) (record : Record) : Record :=
  if event = "heartbeat" then { record with presence := .alive }
  else if event = "session_ready" then { record with presence := .alive, agentState := .idle }
  else if event ∈ ["agent_start", "turn_start"] then { record with agentState := .agentRunning }
  else if event ∈ ["turn_end", "agent_end"] then { record with agentState := .idle }
  else if event ∈ ["session_shutdown", "registry_parked", "registry_removed", "process_exit"] then
    { record with agentState := .ended }
  else record

/-- The record after a lifecycle event. -/
def Record.lived (now : ℤ) (event : String) (record : Record) : Record :=
  reduceLifecycle event (if event = "heartbeat" then { record with lastActivity := now } else record)

/-- `runtime_lifecycle`, with the record it answers. -/
def runtimeLifecycle (now : ℤ) (runtimeId event : String) (s : GatewayState) : Outcome Record :=
  if runtimeId = "" ∨ event ∉ LIFECYCLE_EVENTS then
    (.error (.gateway .protocol ("runtime.lifecycle requires runtime_id + known event; got event=" ++
      reprStr event) (.obj [])), s)
  else match s.runtimes.get? runtimeId with
    | none => (.error (unknownRuntime runtimeId), s)
    | some record =>
      let record := record.lived now event
      (.ok record, (s.setRecord record).logEvent (record.draft "AGENT_STATUS" (isoOf now)
        [("lifecycle", .str event), ("agent_state", .str record.agentState.name),
          ("presence", .str record.presence.name), ("binding", .str record.binding.name)]))

/-! ## Stop and purge -/

/-- The records that `_purge_stopped_for_key` removes. -/
def purgeable (reviewKey keep : String) (r : Record) : Bool :=
  r.reviewKey = reviewKey && r.status = .stopped && r.runtimeId ≠ keep

/-- `_purge_stopped_for_key`. -/
def purgeStoppedForKey (reviewKey keep : String) (s : GatewayState) : List String × GatewayState :=
  ((s.runtimes.select (purgeable reviewKey keep)).map (·.runtimeId),
    { s with runtimes := s.runtimes.delete (purgeable reviewKey keep) })

def Record.halted (record : Record) : Record :=
  { record with status := .stopped, agentState := .ended, presence := .dead }

/-- `runtime_stop`. The event comes before the purge. -/
def runtimeStop (now : ℤ) (runtimeId reason : String) (s : GatewayState) : Outcome Unit :=
  match s.runtimes.get? runtimeId with
  | none => (.error (unknownRuntime runtimeId), s)
  | some record =>
    let s := s.setRecord record.halted
    match s.events.appendLocal (record.draft "RUNTIME_STATE" (isoOf now)
      [("state", .str "stopped"), ("reason", .str reason)]) with
    | .error e => (.error e, s)
    | .ok (_, events) =>
      let s := { s with events := events }
      (.ok (), if record.reviewKey = "" then s else
        (purgeStoppedForKey record.reviewKey runtimeId s).2)

/-- `runtime_purge_stopped`. -/
def runtimePurgeStopped (reviewKey : String) (s : GatewayState) : Outcome (List String) :=
  if reviewKey = "" then
    (.error (.gateway .protocol "runtime.purge_stopped requires review_key" (.obj [])), s)
  else
    let (purged, s) := purgeStoppedForKey reviewKey "" s
    (.ok purged, s)

/-! ## Restoration -/

/-- The name of a placeholder; `token` is random. -/
def placeholderId (m : ParkManifest) (token : String) : String :=
  let slug := m.reviewKey.toList.map fun c => if c = ':' then '-' else c
  if 24 ≤ slug.length then "park-" ++ String.ofList (slug.drop (slug.length - 24))
  else "park-" ++ String.ofList slug ++ "-" ++ token

def placeholder (m : ParkManifest) (runtimeId : String) : Record where
  runtimeId := runtimeId
  sessionId := m.swarmSessionId
  agentId := if m.mailboxAgentId = "" then "oracle" else m.mailboxAgentId
  generation := m.round + 1
  reviewKey := m.reviewKey
  backendSessionId := m.backendSessionId
  runtime := if m.agentType = "" then "omp" else m.agentType
  presence := .stale
  binding := if m.backendSessionId ≠ "" then .bound else .pending
  agentState := .ended
  hostAlias := if m.host = "" then "__local__" else m.host
  status := .unknown
  createdAt := if m.createdAt = 0 then "" else isoOf m.createdAt
  lastActivity := 0
  startedAt := m.createdAt

/-- One round of the loop. -/
def restoreOne (s : GatewayState) (m : ParkManifest) (token : String) : GatewayState :=
  if m.swarmSessionId = "" ∨ m.backendSessionId = "" then s
  else if (s.runtimes.get? (placeholderId m token)).isSome then s
  else s.setRecord (placeholder m (placeholderId m token))

/-- `_restore_runtimes_from_park`, with the hot manifests of the registry and a random token
for each. -/
def restoreFromPark (manifests : List (ParkManifest × String)) (s : GatewayState) : GatewayState :=
  manifests.foldl (fun s x => restoreOne s x.1 x.2) s

/-- Another process takes over: the records are gone, the two stores are there. -/
def restarted (manifests : List (ParkManifest × String)) (s : GatewayState) : GatewayState :=
  restoreFromPark manifests { s with runtimes := Rows.empty }

/-! ## The sweep -/

def offlineTimeout : ℤ := 300 * second
def deadTimeout : ℤ := 600 * second
def coldStart : ℤ := 180 * second

/-- The timeout is doubled while a runtime is young. -/
def timeoutOf (now : ℤ) (r : Record) : ℤ :=
  match fromIsoFormat r.createdAt with
  | some created => if now - created < coldStart then offlineTimeout * 2 else offlineTimeout
  | none => offlineTimeout

/-- An active runtime that was not heard of in time. -/
def overdue (now : ℤ) (r : Record) : Bool :=
  r.status = .active && timeoutOf now r < now - r.lastActivity

def Record.dropped (r : Record) : Record := { r with status := .offline, presence := .stale }

theorem Record.dropped_key (r : Record) : r.dropped.runtimeId = r.runtimeId := rfl

/-- A runtime that has been offline for too long. -/
def decayed (now : ℤ) (r : Record) : Bool :=
  r.status = .offline && r.presence = .stale && 0 < r.lastActivity &&
    deadTimeout < now - r.lastActivity

def Record.died (r : Record) : Record := { r with presence := .dead }

theorem Record.died_key (r : Record) : r.died.runtimeId = r.runtimeId := rfl

/-- The record after a sweep, unless it is removed. -/
def Record.swept (now : ℤ) (r : Record) : Record :=
  let r := if overdue now r then r.dropped else r
  if decayed now r then r.died else r

/-- The event about a runtime that goes offline. -/
def offlineDraft (now : ℤ) (r : Record) : RuntimeEventDraft :=
  r.draft "AGENT_STATUS" (isoOf now) [("old_status", .str "active"), ("new_status", .str "offline"),
    ("reason", .str "heartbeat_timeout"), ("last_activity", .int r.lastActivity),
    ("presence", .str Presence.stale.name), ("binding", .str r.binding.name),
    ("agent_state", .str r.agentState.name)]

/-- What `_sweep_once` leaves of the records: overdue ones go offline, some of them die, and
stopped ones are removed. -/
def sweptRecords (now : ℤ) (t : Runtimes) : Runtimes :=
  let t := t.update (overdue now) Record.dropped Record.dropped_key
  let t := t.update (decayed now) Record.died Record.died_key
  t.delete (·.status = .stopped)

/-- `_sweep_once`, with the runtimes that went offline. -/
def sweepOnce (now : ℤ) (s : GatewayState) : List String × GatewayState :=
  let late := s.runtimes.select (overdue now)
  let s' := late.foldl (fun s r => s.logEvent (offlineDraft now r)) s
  (late.map (·.runtimeId), { s' with runtimes := sweptRecords now s.runtimes })

/-! ## Requests -/

/-- A call, with what comes from elsewhere. -/
inductive Request
  | register (p : RegisterParams) (roster : Option (List String))
  | declare (p : DeclareParams) (manifest : Option ParkManifest) (slug : String)
  | spawn (p : SpawnParams) (launched : Except String Handle)
  | heartbeat (runtimeId : String)
  | event (d : RuntimeEventDraft)
  | lifecycle (runtimeId name : String)
  | stop (runtimeId reason : String)
  | purgeStopped (reviewKey : String)
  | restore (manifests : List (ParkManifest × String))
  | restart (manifests : List (ParkManifest × String))
  | sweep

/-- The answer of a call, of which only the failure is kept, and the state after it. -/
def Request.perform (now : ℤ) (q : Request) (s : GatewayState) : Outcome Unit :=
  match q with
  | .register p roster => runtimeRegister now p roster s
  | .declare p manifest slug =>
    let (r, s) := runtimeDeclare now p manifest slug s
    (r.map fun _ => (), s)
  | .spawn p launched =>
    let (r, s) := runtimeSpawn now p launched s
    (r.map fun _ => (), s)
  | .heartbeat runtimeId =>
    let (r, s) := runtimeHeartbeat now runtimeId s
    (r.map fun _ => (), s)
  | .event d =>
    let (r, s) := runtimeEvent now d s
    (r.map fun _ => (), s)
  | .lifecycle runtimeId name =>
    let (r, s) := runtimeLifecycle now runtimeId name s
    (r.map fun _ => (), s)
  | .stop runtimeId reason => runtimeStop now runtimeId reason s
  | .purgeStopped reviewKey =>
    let (r, s) := runtimePurgeStopped reviewKey s
    (r.map fun _ => (), s)
  | .restore manifests => (.ok (), restoreFromPark manifests s)
  | .restart manifests => (.ok (), restarted manifests s)
  | .sweep => (.ok (), (sweepOnce now s).2)

/-! ## Where a record comes from -/

/-- A record after a call: it was there before, or the call wrote it. -/
inductive Origin (now : ℤ) (s : GatewayState) (r : Record) : Request → Prop
  | kept {q : Request} (old : r ∈ s.runtimes.list) : Origin now s r q
  | registered {p : RegisterParams} {roster : Option (List String)}
      (checked : checkRegister p roster s = .ok ())
      (new : r = registered now p (s.runtimes.get? p.runtimeId)) : Origin now s r (.register p roster)
  | refreshed {p : DeclareParams} {manifest : Option ParkManifest} {slug : String} {r₀ : Record}
      (old : r₀ ∈ s.runtimes.list) (new : r = refreshed now r₀) :
      Origin now s r (.declare p manifest slug)
  | declared {p : DeclareParams} {m : ParkManifest} {slug : String}
      (first : declaredBefore p s = none) (new : r = declared now p m slug) :
      Origin now s r (.declare p (some m) slug)
  | spawned {p : SpawnParams} {h : Handle} (new : r = spawned now p h) :
      Origin now s r (.spawn p (.ok h))
  | beat {runtimeId : String} {r₀ : Record} (old : s.runtimes.get? runtimeId = some r₀)
      (new : r = r₀.beat now) : Origin now s r (.heartbeat runtimeId)
  | noted {d : RuntimeEventDraft} {r₀ : Record} (old : s.runtimes.get? d.runtimeId = some r₀)
      (new : r = r₀.noted now d) : Origin now s r (.event d)
  | lived {runtimeId name : String} {r₀ : Record} (old : s.runtimes.get? runtimeId = some r₀)
      (new : r = r₀.lived now name) : Origin now s r (.lifecycle runtimeId name)
  | halted {runtimeId reason : String} {r₀ : Record} (old : s.runtimes.get? runtimeId = some r₀)
      (new : r = r₀.halted) : Origin now s r (.stop runtimeId reason)
  | restored {manifests : List (ParkManifest × String)} {m : ParkManifest} {runtimeId : String}
      (free : s.runtimes.get? runtimeId = none) (new : r = placeholder m runtimeId) :
      Origin now s r (.restore manifests)
  | restarted {manifests : List (ParkManifest × String)} {m : ParkManifest} {runtimeId : String}
      (new : r = placeholder m runtimeId) : Origin now s r (.restart manifests)
  | swept {r₀ : Record} (old : r₀ ∈ s.runtimes.list) (new : r = r₀.swept now) : Origin now s r .sweep

variable {now : ℤ} {s : GatewayState} {r : Record}

theorem GatewayState.mem_setRecord {record : Record} :
    r ∈ (s.setRecord record).runtimes.list ↔
      r = record ∨ (r ∈ s.runtimes.list ∧ r.runtimeId ≠ record.runtimeId) := Rows.mem_put

@[simp] theorem GatewayState.logEvent_runtimes (d : RuntimeEventDraft) :
    (s.logEvent d).runtimes = s.runtimes := by
  unfold GatewayState.logEvent
  split <;> rfl

theorem consumeTurn_runtimes (d : RuntimeEventDraft) :
    (consumeTurn now d s).runtimes = s.runtimes := by
  unfold consumeTurn
  split
  · rfl
  · split
    · rfl
    · split <;> rfl

theorem mem_purged {reviewKey keep : String} (h : r ∈ (purgeStoppedForKey reviewKey keep s).2.runtimes.list) :
    r ∈ s.runtimes.list := (Rows.mem_delete.mp h).1

theorem mem_restored {manifests : List (ParkManifest × String)}
    (h : r ∈ (restoreFromPark manifests s).runtimes.list) : r ∈ s.runtimes.list ∨
      ∃ m runtimeId, s.runtimes.get? runtimeId = none ∧ r = placeholder m runtimeId := by
  induction manifests generalizing s with
  | nil => exact .inl h
  | cons x manifests ih =>
    have hone : restoreOne s x.1 x.2 = s ∨ s.runtimes.get? (placeholderId x.1 x.2) = none ∧
        restoreOne s x.1 x.2 = s.setRecord (placeholder x.1 (placeholderId x.1 x.2)) := by
      unfold restoreOne
      split
      · exact .inl rfl
      · split
        · exact .inl rfl
        · next hfree => exact .inr ⟨Option.not_isSome_iff_eq_none.mp hfree, rfl⟩
    have h' : r ∈ (restoreFromPark manifests (restoreOne s x.1 x.2)).runtimes.list := h
    rcases hone with heq | ⟨hfree, heq⟩
    · exact ih (heq ▸ h')
    · rw [heq] at h'
      rcases ih h' with hmem | ⟨m, runtimeId, hnone, rfl⟩
      · rcases GatewayState.mem_setRecord.mp hmem with rfl | ⟨hold, -⟩
        · exact .inr ⟨_, _, hfree, rfl⟩
        · exact .inl hold
      · have hget : (s.runtimes.put (placeholder x.1 (placeholderId x.1 x.2))).get? runtimeId = none :=
          hnone
        rw [Rows.get?_put] at hget
        split at hget
        · cases hget
        · exact .inr ⟨m, runtimeId, hget, rfl⟩

theorem mem_sweptRecords {t : Runtimes} :
    r ∈ (sweptRecords now t).list ↔ r.status ≠ .stopped ∧ ∃ r₀ ∈ t.list, r = r₀.swept now := by
  unfold sweptRecords
  rw [Rows.mem_delete, and_comm, Rows.mem_update]
  simp only [Rows.mem_update, exists_exists_and_eq_and, decide_eq_false_iff_not]
  exact and_congr_right fun _ => exists_congr fun r₀ => and_congr_right fun _ => eq_comm

/-- **Every record after a call was there before or is one that the call writes.** -/
theorem Request.origin {q : Request} (h : r ∈ (q.perform now s).2.runtimes.list) :
    Origin now s r q := by
  cases q with
  | register p roster =>
    simp only [Request.perform, runtimeRegister] at h
    split at h
    · exact .kept h
    · next hok =>
      have hmem : r ∈ (s.setRecord (Gateway.registered now p (s.runtimes.get? p.runtimeId))).runtimes.list := by
        split at h <;> exact h
      rcases GatewayState.mem_setRecord.mp hmem with hnew | ⟨hold, -⟩
      · exact .registered hok hnew
      · exact .kept hold
  | declare p manifest slug =>
    simp only [Request.perform, runtimeDeclare] at h
    split at h
    · exact .kept h
    · split at h
      · exact .kept h
      · split at h
        · exact .kept h
        · next m =>
          rcases GatewayState.mem_setRecord.mp h with hnew | ⟨hold, -⟩
          · split at hnew
            · next r₀ hbefore => exact .refreshed (declaredBefore_mem hbefore) hnew
            · next hbefore => exact .declared hbefore hnew
          · exact .kept hold
  | spawn p launched =>
    simp only [Request.perform, runtimeSpawn] at h
    split at h
    · exact .kept h
    · rcases GatewayState.mem_setRecord.mp h with hnew | ⟨hold, -⟩
      · exact .spawned hnew
      · exact .kept hold
  | heartbeat runtimeId =>
    simp only [Request.perform, runtimeHeartbeat] at h
    split at h
    · exact .kept h
    · next r₀ hget =>
      have hmem : r ∈ (s.setRecord (r₀.beat now)).runtimes.list := by
        split at h
        · rwa [GatewayState.logEvent_runtimes] at h
        · exact h
      rcases GatewayState.mem_setRecord.mp hmem with hnew | ⟨hold, -⟩
      · exact .beat hget hnew
      · exact .kept hold
  | event d =>
    simp only [Request.perform, runtimeEvent] at h
    split at h
    · exact .kept h
    · next r₀ hget =>
      split at h
      · exact .kept h
      · split at h
        · exact .kept h
        · have hmem : r ∈ (s.setRecord (r₀.noted now d)).runtimes.list := by
            split at h
            · rwa [consumeTurn_runtimes] at h
            · exact h
          rcases GatewayState.mem_setRecord.mp hmem with hnew | ⟨hold, -⟩
          · exact .noted hget hnew
          · exact .kept hold
  | lifecycle runtimeId name =>
    simp only [Request.perform, runtimeLifecycle] at h
    split at h
    · exact .kept h
    · split at h
      · exact .kept h
      · next r₀ hget =>
        rw [GatewayState.logEvent_runtimes] at h
        rcases GatewayState.mem_setRecord.mp h with hnew | ⟨hold, -⟩
        · exact .lived hget hnew
        · exact .kept hold
  | stop runtimeId reason =>
    simp only [Request.perform, runtimeStop] at h
    split at h
    · exact .kept h
    · next r₀ hget =>
      have hmem : r ∈ (s.setRecord r₀.halted).runtimes.list := by
        split at h
        · exact h
        · dsimp only at h
          split at h
          · exact h
          · exact mem_purged h
      rcases GatewayState.mem_setRecord.mp hmem with hnew | ⟨hold, -⟩
      · exact .halted hget hnew
      · exact .kept hold
  | purgeStopped reviewKey =>
    simp only [Request.perform, runtimePurgeStopped] at h
    split at h
    · exact .kept h
    · exact .kept (mem_purged h)
  | restore manifests =>
    rcases mem_restored h with hold | ⟨m, runtimeId, hfree, hnew⟩
    · exact .kept hold
    · exact .restored hfree hnew
  | restart manifests =>
    rcases mem_restored h with hold | ⟨m, runtimeId, -, hnew⟩
    · exact absurd hold List.not_mem_nil
    · exact .restarted hnew
  | sweep =>
    obtain ⟨-, r₀, hold, hnew⟩ := mem_sweptRecords.mp h
    exact .swept hold hnew

/-! ## Runs -/

/-- A call at its time. -/
def GatewayState.step (s : GatewayState) (x : ℤ × Request) : GatewayState := (x.2.perform x.1 s).2

def GatewayState.run (s : GatewayState) (calls : List (ℤ × Request)) : GatewayState :=
  History.after step s calls

/-- Each call meets the condition in the state, and at the time, in which it is made. -/
def GatewayState.Admits (s : GatewayState) (Meets : GatewayState → ℤ → Request → Prop)
    (calls : List (ℤ × Request)) : Prop :=
  History.Admits step (fun s x => Meets s x.1 x.2) s calls

end AiMeshChat.Gateway
