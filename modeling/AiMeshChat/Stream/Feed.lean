import AiMeshChat.Gateway.EventPages
import AiMeshChat.Stream.Parties
import AiMeshChat.Wire.Composite

/-!
# A stream of messages and runtime events

The helper of `remote_exec.py` serves three kinds of streams: the messages of a mailbox, the
runtime events in the store of its host, or both. A poll runs the leg of the mailbox and
then that of the events, as far as the kind of the stream asks for them, and both rebuild
the one cursor of the subscription.

The steps here are the legs, each on what it reads at its time; in between events come into
the store and are swept out of it, the client reads frames, and it reconnects. What the
file system answers to the leg of the mailbox may be anything. `_send` raises only when
the client is gone, and then nobody reads what was written: a connection is dropped with
the frames in flight on it.
-/

namespace AiMeshChat.Stream

open Lib Mailbox Gateway Wire.Composite

/-! ## Frames -/

inductive StreamKind
  | mailbox
  | runtime
  | all
  deriving DecidableEq

/-- `source`, and the inbox of a message. -/
inductive Source
  | mailbox (inboxAgent : String)
  | runtime
  deriving DecidableEq

/-- A `stream_event` frame of either leg. -/
structure FeedEvent where
  requestId : String
  sessionId : String
  cursor : String
  payload : Json
  source : Source
  deriving DecidableEq

def Source.fields : Source → List (String × Json)
  | mailbox inboxAgent => [("source", .str "mailbox"), ("inbox_agent", .str inboxAgent)]
  | runtime => [("source", .str "runtime")]

def FeedEvent.toDict (e : FeedEvent) : Json :=
  .obj ([("type", .str "stream_event"), ("request_id", .str e.requestId),
    ("session_id", .str e.sessionId), ("cursor", .str e.cursor), ("payload", e.payload)] ++
    e.source.fields)

/-- `RuntimeEvent.to_dict`. -/
def eventDict (e : RuntimeEvent) : Json :=
  .obj [("event_id", .int e.eventId), ("source_host", .str e.sourceHost),
    ("runtime_id", .str e.runtimeId), ("generation", .int e.generation),
    ("source_sequence", .int e.sourceSequence), ("session_id", .str e.sessionId),
    ("agent_id", .str e.agentId), ("request_id", .str e.requestId), ("run_id", .str e.runId),
    ("kind", .str e.kind), ("created_at", .str e.createdAt), ("payload", e.payload)]

inductive FeedFrame
  | accepted (requestId : String)
  | pong
  | error (message : String)
  | event (e : FeedEvent)
  deriving DecidableEq

/-- The frame is not longer than a line may be. -/
def FeedEvent.fits (e : FeedEvent) : Bool := (lineChars e.toDict).length ≤ MAX_LINE_LENGTH

/-- `_send` of an event: a frame that would be too long is replaced by an error frame. -/
def feedFrame (e : FeedEvent) : FeedFrame :=
  if e.fits then .event e
  else .error ("response frame (type=stream_event) exceeds " ++ toString MAX_LINE_LENGTH ++ " bytes")

/-! ## The helper -/

/-- `_StreamSubscription` of any kind. -/
structure FeedSubscription where
  requestId : String
  sessionId : String
  agentId : String
  cursor : String
  streamKind : StreamKind
  runtimeId : String
  mailboxStatCache : List ((String × String) × (ℕ × ℕ)) := []

/-- The levels of nesting that `json.loads` has left for a cursor, less one. -/
def CURSOR_DEPTH : ℕ := 900

/-- `_split_cursor`. -/
def splitCursor (cursor : String) : String × ℤ := splitCompositeCursor (CURSOR_DEPTH + 1) cursor

/-- `_advance_cursor`; `none` where writing the cursor raises. -/
def advanceCursor (sub : FeedSubscription) (msgCursor : String) (runtimeEventId : ℤ) :
    Option String :=
  if sub.streamKind = .mailbox then some (if msgCursor = "" then sub.cursor else msgCursor)
  else makeCompositeCursor (if msgCursor = "" then (splitCursor sub.cursor).1 else msgCursor)
    (if runtimeEventId = 0 then (splitCursor sub.cursor).2 else runtimeEventId)

/-! ### The leg of the mailbox -/

/-- What reading a file gives: a value, an error that is passed over, or one that ends the
loop. -/
inductive ReadResult
  | json (v : Json)
  | skipped
  | raised

/-- A file as the leg finds it: `stat` may fail. -/
structure FileView where
  name : String
  stat : Option (ℕ × ℕ)
  bytes : ReadResult

/-- An inbox as the leg finds it; listing it may fail. -/
structure InboxView where
  agentId : String
  files : Option (List FileView)

/-- What the leg carries along. -/
structure FeedPoll where
  cache : List ((String × String) × (ℕ × ℕ))
  lastCursor : String := ""
  frames : List FeedFrame := []

/-- A message that was read. An error ends the loop over the inbox. -/
def pollFeedMessage (sub : FeedSubscription) (agentId : String) (msg : Json) (p : FeedPoll) :
    Except FeedPoll FeedPoll :=
  if !msg.isDict then .error p
  else match msg.get? "_cursor" with
    | some (.str msgCursor) =>
      if msgCursor = "" || !cursorGt msgCursor (splitCursor sub.cursor).1 then .ok p
      else match advanceCursor sub msgCursor 0 with
        | none => .error p
        | some cursor => .ok { p with
            lastCursor := msgCursor
            frames := p.frames ++ [feedFrame ⟨sub.requestId, sub.sessionId, cursor, payloadOf msg,
              .mailbox agentId⟩] }
    | some v => if v.truthy then .error p else .ok p
    | none => .ok p

def pollFeedFile (sub : FeedSubscription) (agentId : String) (p : FeedPoll) (f : FileView) :
    Except FeedPoll FeedPoll :=
  match f.stat with
  | none => .ok p
  | some sig =>
    if p.cache.lookup (agentId, f.name) = some sig then .ok p
    else
      let p := { p with
        cache := ((agentId, f.name), sig) :: p.cache.filter (·.1 ≠ (agentId, f.name)) }
      match f.bytes with
      | .json msg => pollFeedMessage sub agentId msg p
      | .skipped => .ok p
      | .raised => .error p

/-- One inbox. Cache entries of files that have left it are dropped, unless an exception
ended the loop. -/
def pollFeedInbox (sub : FeedSubscription) (p : FeedPoll) (v : InboxView) : FeedPoll :=
  match v.files with
  | none => p
  | some files =>
    match files.foldlM (pollFeedFile sub v.agentId) p with
    | .ok p => { p with
        cache := p.cache.filter fun e => e.1.1 ≠ v.agentId || e.1.2 ∈ files.map (·.name) }
    | .error p => p

/-- `_poll_mailbox`, with the frames it sends. The last cursor has been written into a frame,
so that it can be written. -/
def pollFeedMailbox (sub : FeedSubscription) (inboxes : List InboxView) :
    FeedSubscription × List FeedFrame :=
  let p := inboxes.foldl (pollFeedInbox sub) { cache := sub.mailboxStatCache }
  ({ sub with
      mailboxStatCache := p.cache
      cursor := if p.lastCursor = "" then sub.cursor
        else (advanceCursor sub p.lastCursor 0).getD sub.cursor }, p.frames)

/-! ### The leg of the events -/

/-- The numbers that the database binds. -/
def bindable (n : ℤ) : Bool := -2 ^ 63 ≤ n && n < 2 ^ 63

/-- The frame of an event; there is none if it cannot be built. -/
def runtimeFrame (sub : FeedSubscription) (e : RuntimeEvent) : List FeedEvent :=
  match advanceCursor sub "" e.eventId with
  | some cursor => [⟨sub.requestId, sub.sessionId, cursor, eventDict e, .runtime⟩]
  | none => []

/-- The events that `_poll_runtime_events` fetches; none where fetching raises. -/
def fetched (sub : FeedSubscription) (store : EventStore) : List RuntimeEvent :=
  let rt := (splitCursor sub.cursor).2
  if bindable rt then
    match store.listAfter rt none 200 sub.sessionId sub.runtimeId with
    | .ok (events, _) => events
    | .error _ => []
  else []

/-- `_poll_runtime_events`, with the frames it sends. -/
def pollRuntimeEvents (sub : FeedSubscription) (store : EventStore) :
    FeedSubscription × List FeedFrame :=
  let events := fetched sub store
  ({ sub with
      cursor := match events.getLast? with
        | some e => (advanceCursor sub "" e.eventId).getD sub.cursor
        | none => sub.cursor },
    (events.flatMap (runtimeFrame sub)).map feedFrame)

/-! ## The state -/

/-- A connection: the subscription of its helper, if it has accepted one, and the frames in
flight. -/
structure FeedConn where
  sub : Option FeedSubscription
  pending : List FeedFrame

/-- The store of the helper's host, the client, its connection, and the frames that the
client has received so far. -/
structure Feed where
  store : EventStore
  client : SSHStream
  streamKind : StreamKind
  runtimeId : String := ""
  conn : Option FeedConn := none
  received : List FeedFrame := []

/-- The event that the client sees in a frame. -/
def FeedEvent.toStream (e : FeedEvent) : StreamEvent :=
  ⟨e.requestId, e.sessionId, e.cursor, e.payload, ""⟩

def FeedFrame.toStream : FeedFrame → Frame
  | .accepted requestId => .accepted requestId
  | .pong => .pong
  | .error message => .error message
  | .event e => .event e.toStream

/-- One step. -/
inductive FeedStep
  | append (d : RuntimeEventDraft)
  | ingest (e : RuntimeEvent)
  | sweep (now : ℕ)
  | connect (requestId : String)
  | mailbox (inboxes : List InboxView)
  | runtime
  | heartbeat
  | receive

namespace Feed

/-- The database is full: it gives no further row number. -/
def full (f : Feed) : Bool := 2 ^ 63 ≤ f.store.lastId + 1

/-- A helper takes the stream request. -/
def subscribe (f : Feed) (requestId : String) : FeedConn :=
  if f.client.sessionId = "" then ⟨none, [.error "stream requires session_id"]⟩
  else if f.client.agentId = "" then ⟨none, [.error "stream requires agent_id"]⟩
  else ⟨some ⟨requestId, f.client.sessionId, f.client.agentId, f.client.cursor, f.streamKind,
    f.runtimeId, []⟩, [.accepted requestId]⟩

/-- A leg of the helper, which sends frames and keeps its subscription. -/
def leg (f : Feed) (run : FeedSubscription → FeedSubscription × List FeedFrame) : Feed :=
  match f.conn with
  | some ⟨some sub, pending⟩ =>
    { f with conn := some ⟨some (run sub).1, pending ++ (run sub).2⟩ }
  | _ => f

/-- The loop body of `poll` for the next frame; a `TypeError` there drops the events of the
call. -/
def readFrame (f : Feed) : Feed :=
  match f.conn with
  | some ⟨sub, frame :: pending⟩ =>
    { f with
      conn := some ⟨sub, pending⟩
      received := f.received ++ [frame]
      client := (f.client.handle frame.toStream).getD { f.client with events := [] } }
  | _ => f

/-- A connection drops the one before it, with its frames in flight. -/
def step (f : Feed) : FeedStep → Feed
  | .append d =>
    match f.store.appendLocal d with
    | .ok (_, store) => if f.full then f else { f with store := store }
    | .error _ => f
  | .ingest e =>
    match f.store.ingestRemote e with
    | .ok (_, store) => if f.full then f else { f with store := store }
    | .error _ => f
  | .sweep now => { f with store := (f.store.sweep now).2 }
  | .connect requestId => { f with conn := some (f.subscribe requestId) }
  | .mailbox inboxes =>
    if f.streamKind = .runtime then f else f.leg fun sub => pollFeedMailbox sub inboxes
  | .runtime => if f.streamKind = .mailbox then f else f.leg fun sub => pollRuntimeEvents sub f.store
  | .heartbeat => f.leg fun sub => (sub, [.pong])
  | .receive => f.readFrame

def run (f : Feed) (steps : List FeedStep) : Feed := History.after step f steps

/-- A stream that has not been opened yet, on a host without events. -/
def start (host : String) (client : SSHStream) (kind : StreamKind) (runtimeId : String) : Feed :=
  { store := { sourceHost := host }, client := client, streamKind := kind, runtimeId := runtimeId }

end Feed

end AiMeshChat.Stream
