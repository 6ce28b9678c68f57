import AiMeshChat.Gateway.Commands
import AiMeshChat.Lib.Rows

/-!
# The event store

`gateway/events.py` with the event records of `gateway/model.py`. The rows of
`runtime_events` stand in the order of their `event_id`, and no two of them have the same
host, runtime, generation and sequence: that is the UNIQUE constraint of the table.

`append_local` numbers the events of a stream, that is of a runtime in one generation on
this host, by the greatest sequence in the table; `ingest_remote` keeps the sequence it is
given and adds no row when there is one of the same identity; `list_after` reads a page of
what is beyond a cursor; `sweep` prunes by kind and age and, beyond a limit, the oldest
rows. A payload is kept as its value.
-/

namespace AiMeshChat.Gateway

open Lib

/-! ## Events -/

/-- In the order in which `sorted` lists them. -/
def EVENT_KINDS : List String := ["AGENT_STATUS", "ASSISTANT_PROGRESS", "ERROR",
  "MESSAGE_DELIVERED", "MESSAGE_READ", "RUNTIME_STATE", "TASK_STATE", "TOOL_FINISHED",
  "TOOL_STARTED", "TOOL_UPDATED", "TURN_STARTED", "USAGE"]

def EVENT_KIND_TOOL_UPDATE : List String := ["TOOL_UPDATED"]

def EVENT_KIND_TERMINAL : List String := ["ERROR", "MESSAGE_READ", "TASK_STATE"]

structure RuntimeEventDraft where
  runtimeId : String
  generation : ℤ := 0
  sessionId : String
  agentId : String := ""
  requestId : String := ""
  runId : String := ""
  kind : String
  createdAt : String := ""
  payload : Json := .obj []
  deriving DecidableEq

/-- `RuntimeEventDraft.validate`. -/
def RuntimeEventDraft.validate (d : RuntimeEventDraft) : Except GatewayErr Unit :=
  if d.runtimeId = "" ∨ d.sessionId = "" then
    throw (.gateway .protocol "runtime event requires runtime_id + session_id" (.obj []))
  else if d.kind ∉ EVENT_KINDS then
    throw (.gateway .protocol ("invalid event kind " ++ reprStr d.kind ++ "; expected one of " ++
      reprOf (.arr (EVENT_KINDS.map .str))) (.obj []))
  else if !d.payload.isDict then
    throw (.gateway .protocol "runtime event payload must be an object" (.obj []))
  else return ()

/-- What the UNIQUE constraint covers. -/
structure Identity where
  sourceHost : String
  runtimeId : String
  generation : ℤ
  sourceSequence : ℤ
  deriving DecidableEq

structure RuntimeEvent where
  eventId : ℕ
  sourceHost : String
  runtimeId : String
  generation : ℤ
  sourceSequence : ℤ
  sessionId : String
  agentId : String
  requestId : String
  runId : String
  kind : String
  createdAt : String
  payload : Json
  deriving DecidableEq

namespace RuntimeEvent

def identity (e : RuntimeEvent) : Identity :=
  ⟨e.sourceHost, e.runtimeId, e.generation, e.sourceSequence⟩

/-- The event is of the runtime and generation on the host. -/
def inStream (host runtimeId : String) (generation : ℤ) (e : RuntimeEvent) : Bool :=
  e.sourceHost = host && e.runtimeId = runtimeId && e.generation = generation

end RuntimeEvent

/-! ## The store -/

abbrev Events := Rows Identity RuntimeEvent RuntimeEvent.identity

structure EventStore where
  sourceHost : String
  events : Events := Rows.empty
  lastId : ℕ := 0

namespace EventStore

def TOOL_UPDATE_RETENTION_DAYS : ℕ := 7
def TERMINAL_RETENTION_DAYS : ℕ := 90
def MAX_TOTAL_EVENTS : ℕ := 100000

/-- `COALESCE(MAX(source_sequence), 0)` over a stream. -/
def maxSequence (t : Events) (host runtimeId : String) (generation : ℤ) : ℤ :=
  (((t.select (·.inStream host runtimeId generation)).map (·.sourceSequence)).max?).getD 0

/-- The event that `append_local` makes of a draft. -/
def numbered (s : EventStore) (d : RuntimeEventDraft) : RuntimeEvent where
  eventId := s.lastId + 1
  sourceHost := s.sourceHost
  runtimeId := d.runtimeId
  generation := d.generation
  sourceSequence := maxSequence s.events s.sourceHost d.runtimeId d.generation + 1
  sessionId := d.sessionId
  agentId := d.agentId
  requestId := d.requestId
  runId := d.runId
  kind := d.kind
  createdAt := d.createdAt
  payload := d.payload

/-- `INSERT` of a row whose identity is new. -/
def insert (s : EventStore) (e : RuntimeEvent) : EventStore :=
  { s with events := s.events.put e, lastId := e.eventId }

/-- `EventStore.append_local`. -/
def appendLocal (s : EventStore) (d : RuntimeEventDraft) :
    Except GatewayErr (RuntimeEvent × EventStore) := do
  d.validate
  return (s.numbered d, s.insert (s.numbered d))

/-- `EventStore.ingest_remote`. -/
def ingestRemote (s : EventStore) (e : RuntimeEvent) :
    Except GatewayErr (Option RuntimeEvent × EventStore) :=
  if e.sourceHost = "" ∨ e.runtimeId = "" then
    throw (.other "ingest_remote requires source_host + runtime_id")
  else if e.sourceSequence ≤ 0 then throw (.other "ingest_remote requires source_sequence > 0")
  else if e.kind ∉ EVENT_KINDS then return (none, s)
  else
    let e := { e with payload := if e.payload.truthy then e.payload else .obj [] }
    match s.events.get? e.identity with
    | some r => return (some { e with eventId := r.eventId }, s)
    | none =>
      let e := { e with eventId := s.lastId + 1 }
      return (some e, s.insert e)

/-- The `WHERE` of `list_after`, its cursor apart. An empty list of kinds filters nothing. -/
def selects (filters : Option (List String)) (sessionId runtimeId : String) (e : RuntimeEvent) :
    Bool :=
  (filters.getD [] = [] || e.kind ∈ filters.getD []) &&
    (sessionId = "" || e.sessionId = sessionId) && (runtimeId = "" || e.runtimeId = runtimeId)

/-- `max(1, min(int(limit), 1000))`. -/
def clampLimit (limit : ℤ) : ℕ := (max 1 (min limit 1000)).toNat

/-- `EventStore.list_after`, with the cursor of the next page. -/
def listAfter (s : EventStore) (cursor : ℤ) (filters : Option (List String)) (limit : ℤ)
    (sessionId runtimeId : String) : Except GatewayErr (List RuntimeEvent × ℤ) :=
  let invalid := (filters.getD []).filter (· ∉ EVENT_KINDS)
  if invalid ≠ [] then
    throw (.other ("invalid event kind filter: " ++
      reprOf (.arr ((Mailbox.sortedSet invalid).map .str))))
  else
    let events := (s.events.select fun e =>
      cursor < e.eventId && selects filters sessionId runtimeId e).take (clampLimit limit)
    return (events, (events.getLast?.map fun e => (e.eventId : ℤ)).getD cursor)

/-- A row of one of the kinds, made before the cutoff; the times are compared as texts. -/
def outdated (kinds : List String) (cutoff : String) (e : RuntimeEvent) : Bool :=
  e.kind ∈ kinds && e.createdAt < cutoff

/-- The cutoff of a number of days before `now`. -/
def cutoff (now days : ℕ) : String := isoFormat (now - days * 86400 * 1000000)

/-- Remove the rows of the lowest numbers. -/
def dropOldest (t : Events) (n : ℕ) : Events :=
  t.delete fun e => e ∈ t.list.take n

/-- The rows that `sweep` leaves. -/
def swept (now : ℕ) (t : Events) : Events :=
  let t := t.delete (outdated EVENT_KIND_TOOL_UPDATE (cutoff now TOOL_UPDATE_RETENTION_DAYS))
  let t := t.delete (outdated EVENT_KIND_TERMINAL (cutoff now TERMINAL_RETENTION_DAYS))
  dropOldest t (t.list.length - MAX_TOTAL_EVENTS)

/-- `EventStore.sweep`, with the number of rows it removes. -/
def sweep (s : EventStore) (now : ℕ) : ℕ × EventStore :=
  (s.events.list.length - (swept now s.events).list.length,
    { s with events := swept now s.events })

/-! ### Lemmas -/

theorem swept_sublist (now : ℕ) (t : Events) : (swept now t).list.Sublist t.list :=
  List.filter_sublist.trans (List.filter_sublist.trans List.filter_sublist)

theorem mem_of_mem_swept {now : ℕ} {t : Events} {e : RuntimeEvent} (h : e ∈ (swept now t).list) :
    e ∈ t.list := (swept_sublist now t).subset h

theorem validate_eq_ok {d : RuntimeEventDraft} : d.validate = .ok () ↔
    (d.runtimeId ≠ "" ∧ d.sessionId ≠ "") ∧ d.kind ∈ EVENT_KINDS ∧ d.payload.isDict = true := by
  unfold RuntimeEventDraft.validate
  split
  · next h => exact ⟨nofun, fun ⟨hn, _⟩ => absurd h (by tauto)⟩
  · next h =>
    split
    · next hk => exact ⟨nofun, fun ⟨_, hk', _⟩ => absurd hk' hk⟩
    · next hk =>
      split
      · next hp => exact ⟨nofun, fun ⟨_, _, hp'⟩ => by simp [hp'] at hp⟩
      · next hp => exact ⟨fun _ => ⟨by tauto, not_not.mp hk, by simpa using hp⟩, fun _ => rfl⟩

theorem appendLocal_eq_ok {s s' : EventStore} {d : RuntimeEventDraft} {e : RuntimeEvent} :
    s.appendLocal d = .ok (e, s') ↔
      d.validate = .ok () ∧ e = s.numbered d ∧ s' = s.insert (s.numbered d) := by
  unfold appendLocal
  cases h : d.validate with
  | error err => exact ⟨nofun, nofun⟩
  | ok u =>
    constructor
    · intro heq
      cases heq
      exact ⟨rfl, rfl, rfl⟩
    · rintro ⟨-, rfl, rfl⟩
      rfl

theorem le_maxSequence {t : Events} {e : RuntimeEvent} (h : e ∈ t.list) :
    e.sourceSequence ≤ maxSequence t e.sourceHost e.runtimeId e.generation := by
  have hmem : e.sourceSequence ∈ (t.select (·.inStream e.sourceHost e.runtimeId e.generation)).map
      (·.sourceSequence) :=
    List.mem_map_of_mem (Rows.mem_select.mpr ⟨h, by simp [RuntimeEvent.inStream]⟩)
  unfold maxSequence
  cases hmax : ((t.select (·.inStream e.sourceHost e.runtimeId e.generation)).map
      (·.sourceSequence)).max? with
  | none =>
    rw [List.max?_eq_none_iff] at hmax
    rw [hmax] at hmem
    cases hmem
  | some m => exact (List.max?_eq_some_iff.mp hmax).2 _ hmem

theorem maxSequence_cases (t : Events) (host runtimeId : String) (generation : ℤ) :
    maxSequence t host runtimeId generation = 0 ∨ ∃ e ∈ t.list,
      e.inStream host runtimeId generation = true ∧
      e.sourceSequence = maxSequence t host runtimeId generation := by
  unfold maxSequence
  cases hmax : ((t.select (·.inStream host runtimeId generation)).map (·.sourceSequence)).max? with
  | none => exact .inl rfl
  | some m =>
    obtain ⟨e, he, heq⟩ := List.mem_map.mp (List.max?_eq_some_iff.mp hmax).1
    obtain ⟨hmem, hstream⟩ := Rows.mem_select.mp he
    exact .inr ⟨e, hmem, hstream, heq⟩

end EventStore

end AiMeshChat.Gateway
