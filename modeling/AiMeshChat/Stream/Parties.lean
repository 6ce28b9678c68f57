import AiMeshChat.Stream.Link

/-!
# A mailbox stream: the helper, the client and the receiver

`_poll_mailbox` walks the inbox of the subscribed agent and then those of all
other members of the session, each in the order of modification times, and emits
every stamped message that is newer than the cursor of the subscription. Files
whose time and size are unchanged since the last poll are skipped unread. The
cursor moves at the end of the poll, to that of the last message emitted.

`SwarmReceiver` (`swarm/receiver.py`) hands every event of the stream to
`_handle_stream_event`, which writes the message into the local inbox of its
agent.
-/

namespace AiMeshChat.Stream

open Lib Mailbox

/-! ## The helper -/

/-- `_StreamSubscription`. The cache maps an inbox and a file name to the time
and size last seen. -/
structure StreamSubscription where
  requestId : String
  sessionId : String
  agentId : String
  cursor : String
  lastHeartbeat : ℕ := 0
  mailboxStatCache : List ((String × String) × (ℕ × ℕ)) := []

/-- `_send`: a frame that would be too long is replaced by an error frame. -/
def sendFrame (f : Frame) : LinkCall (Except OsErr Unit) :=
  match f with
  | .event e =>
    if MAX_LINE_LENGTH < (lineChars e.toDict).length then
      Prog.op (LinkOp.emit (.error ("response frame (type=stream_event) exceeds " ++
        toString MAX_LINE_LENGTH ++ " bytes")))
    else Prog.op (LinkOp.emit f)
  | f => Prog.op (LinkOp.emit f)

/-- `_send` outside of a poll: a broken pipe ends the helper. -/
def sendOrRaise (f : Frame) : LinkCall Unit := do
  match ← sendFrame f with
  | .ok () => return ()
  | .error e => throw (.os e)

/-- The inboxes of a poll: the agent's own, then the other members in order. -/
def inboxesOf (info : Option Json) (agent : String) : List String :=
  match info with
  | some info => agent :: (sortedSet ((rosterOf info).filter (· ≠ ""))).filter (· ≠ agent)
  | none => [agent]

/-- The head of `_poll_mailbox`; an unreadable session leaves the agent's own
inbox. -/
def pollInboxes (sub : StreamSubscription) : LinkCall (List String) :=
  Prog.tryCatch (do
    let info ← onRemote (readSession sub.sessionId)
    return inboxesOf (info.filter Json.isDict) sub.agentId) fun _ => .ret [sub.agentId]

/-- The fields of a message that a stream event carries. -/
def payloadKeys : List String :=
  ["msg_id", "from", "to", "kind", "subject", "body", "created_at", "reply_to", "run_id",
    "request_id"]

/-- A field that the event carries only when it is set. -/
def ifSet (msg : Json) (key : String) : List (String × Json) :=
  match msg.get? key with
  | some v => if v.truthy then [(key, v)] else []
  | none => []

/-- The payload of the event for a message. -/
def payloadOf (msg : Json) : Json :=
  .obj (payloadKeys.map (fun k => (k, (msg.get? k).getD (.str ""))) ++ ifSet msg "attachments" ++
    ifSet msg "trace_id")

/-- What a poll carries along: the cache and the cursor of the last event. -/
structure Poll where
  cache : List ((String × String) × (ℕ × ℕ))
  lastCursor : String := ""

/-- How the loop over the files of an inbox goes on: to the next file, or an
exception ends it. -/
inductive Walk
  | next (p : Poll)
  | broken (p : Poll)

def eventOf (sub : StreamSubscription) (agent cursor : String) (msg : Json) : StreamEvent where
  requestId := sub.requestId
  sessionId := sub.sessionId
  cursor := cursor
  payload := payloadOf msg
  inboxAgent := agent

/-- A message that was read: emit it if it is stamped and newer. -/
def pollMessage (sub : StreamSubscription) (agent : String) (msg : Json) (p : Poll) :
    LinkCall Walk :=
  if !msg.isDict then .ret (.broken p)
  else match msg.get? "_cursor" with
    | some (.str k) =>
      if k = "" || !cursorGt k sub.cursor then .ret (.next p)
      else do
        match ← sendFrame (.event (eventOf sub agent k msg)) with
        | .ok () => return .next { p with lastCursor := k }
        | .error _ => return .broken p
    | some v => if v.truthy then .ret (.broken p) else .ret (.next p)
    | none => .ret (.next p)

/-- One file of an inbox. -/
def pollFile (sub : StreamSubscription) (agent name : String) (p : Poll) : LinkCall Walk := do
  let path : MPath := ⟨.box sub.sessionId agent .inbox, name⟩
  match ← onRemote (stat path) with
  | .error _ => return .next p
  | .ok sig =>
    if p.cache.lookup (agent, name) = some sig then return .next p
    else
      let p := { p with cache := ((agent, name), sig) :: p.cache.filter (·.1 ≠ (agent, name)) }
      match ← onRemote (readBytes path) with
      | .ok (.json msg) => pollMessage sub agent msg p
      | _ => return .next p

/-- The loop over the files of an inbox. -/
def pollFiles (sub : StreamSubscription) (agent : String) : List String → Poll → LinkCall Walk
  | [], p => .ret (.next p)
  | name :: rest, p => do
    match ← pollFile sub agent name p with
    | .next p => pollFiles sub agent rest p
    | .broken p => return .broken p

/-- One inbox. Cache entries of files that have left it are dropped, unless an
exception ended the loop. -/
def pollInbox (sub : StreamSubscription) (agent : String) (p : Poll) : LinkCall Poll :=
  Prog.tryCatch (do
    let inbox ← onRemote (agentSubdir sub.sessionId agent .inbox)
    let files ← onRemote (listMessages inbox)
    match ← pollFiles sub agent files p with
    | .next p => return { p with
        cache := p.cache.filter fun e => e.1.1 ≠ agent || e.1.2 ∈ files }
    | .broken p => return p) fun _ => .ret p

def pollEach (sub : StreamSubscription) : List String → Poll → LinkCall Poll
  | [], p => .ret p
  | agent :: rest, p => do pollEach sub rest (← pollInbox sub agent p)

/-- `_poll_mailbox`. -/
def pollMailbox (sub : StreamSubscription) : LinkCall StreamSubscription := do
  let inboxes ← pollInboxes sub
  let p ← pollEach sub inboxes { cache := sub.mailboxStatCache }
  return { sub with
    mailboxStatCache := p.cache
    cursor := if p.lastCursor = "" then sub.cursor else p.lastCursor }

/-- `_poll_streams` with the one subscription of a helper that a stream started:
poll, and send a heartbeat when it is time. Clocks count microseconds. -/
def pollStreams (sub : StreamSubscription) : LinkCall StreamSubscription := do
  let now ← Prog.op LinkOp.monotonic
  let sub ← pollMailbox sub
  if STREAM_HEARTBEAT_INTERVAL * 1000000 ≤ now - sub.lastHeartbeat then do
    sendOrRaise .pong
    return { sub with lastHeartbeat := now }
  else return sub

/-- The main loop of the helper, once subscribed. -/
def serveLoop : ℕ → StreamSubscription → LinkCall Unit
  | 0, _ => .hang
  | fuel + 1, sub => do serveLoop fuel (← pollStreams sub)

/-- A helper that serves one stream request. -/
def serve (fuel : ℕ) : LinkCall Unit := do
  let req ← Prog.op LinkOp.accept
  let now ← Prog.op LinkOp.monotonic
  sendOrRaise (.accepted req.requestId)
  serveLoop fuel
    { requestId := req.requestId
      sessionId := req.sessionId
      agentId := req.agentId
      cursor := req.cursor
      lastHeartbeat := now }

/-! ## The client -/

/-- `_reconnect`: try until a new helper has the request. -/
def reconnect : ℕ → LinkCall Unit
  | 0 => .hang
  | fuel + 1 => do
    if ← Prog.op LinkOp.spawn then return () else reconnect fuel

/-- The loop of `SSHStream.poll`; it ends when no line comes in time. -/
def pollLoop : ℕ → LinkCall Unit
  | 0 => .hang
  | fuel + 1 => do
    match ← Prog.op LinkOp.readline with
    | .quiet => return ()
    | .exited =>
      reconnect fuel
      pollLoop fuel
    | .typeError => throw (.type "unhashable type")
    | .handled => pollLoop fuel

/-- `SSHStream.poll`. -/
def poll (fuel : ℕ) : LinkCall (List Json) := do
  pollLoop fuel
  Prog.op LinkOp.takeEvents

/-! ## The receiver -/

/-- `_RE_MSG_ID`. -/
def wireMsgIdOk (s : String) : Bool :=
  dollar (fun cs => cs ≠ [] && cs.all fun c => isAlnum c || c = '_' || c = '-') s

/-- `AttachmentRef.from_dict` and `to_dict` of a dict; a missing key raises. -/
def attachmentRoundTrip (a : Json) : Option Json := do
  let required ← ["artifact_id", "source_host", "remote_root", "relative_path", "size",
    "sha256"].mapM fun k => (a.get? k).map (k, ·)
  return .obj (required ++ [("media_type", (a.get? "media_type").getD (.str DEFAULT_MEDIA_TYPE))])

/-- `[AttachmentRef.from_dict(a) for a in v if isinstance(a, dict)]`; `none` where
that raises. -/
def attachmentsRoundTrip : Option Json → Option (List Json)
  | none => some []
  | some (.arr items) => (items.filter Json.isDict).mapM attachmentRoundTrip
  | some (.str _) | some (.obj _) => some []
  | some _ => none

/-- The message that `_write_to_inbox` stores for an event: the values of the
event under the name of the receiving agent. -/
def storedMessage (sid agent : String) (event : Json) : Option Json := do
  let get (k : String) (dflt : String) : Json := (event.get? k).getD (.str dflt)
  let atts ← attachmentsRoundTrip (event.get? "attachments")
  return .obj ([("session_id", .str sid), ("from", get "from" ""), ("to", .str agent),
    ("subject", get "subject" ""), ("body", get "body" ""), ("kind", get "kind" "TASK"),
    ("msg_id", get "msg_id" ""), ("created_at", get "created_at" ""),
    ("protocol_version", .int 1), ("require_ack", .bool false)]
    ++ ifSet event "reply_to" ++ ifSet event "run_id" ++ ifSet event "request_id"
    ++ ifSet event "trace_id" ++ ifSet event "causation_id"
    ++ (if atts = [] then [] else [("attachments", .arr atts)]))

/-- `_is_msg_on_disk`. -/
def isMsgOnDisk (sid agent name : String) : List Box → Call Bool
  | [] => .ret false
  | b :: bs => do
    let d ← agentSubdir sid agent b
    if ← fileExists ⟨d, name⟩ then return true else isMsgOnDisk sid agent name bs

/-- `_write_to_inbox` for an event with the identifier `mid`. -/
def writeToInbox (sid agent mid : String) (event : Json) : Call Unit :=
  if !wireMsgIdOk mid then .ret ()
  else do
    let inbox ← agentSubdir sid agent .inbox
    mkdir inbox
    if ← fileExists ⟨inbox, jsonName mid⟩ then return ()
    else match storedMessage sid agent event with
      | none => throw (.type "attachment")
      | some msg =>
        match ← tryWrite ⟨inbox, tmpName mid⟩ (.json msg) with
        | .ok () =>
          match ← tryReplace ⟨inbox, tmpName mid⟩ ⟨inbox, jsonName mid⟩ none with
          | .ok () => return ()
          | .error _ => unlinkMissingOk ⟨inbox, tmpName mid⟩
        | .error _ => unlinkMissingOk ⟨inbox, tmpName mid⟩

/-- `_handle_stream_event`, with the identifiers delivered so far. The callbacks
are notified only and leave the store alone. -/
def handleStreamEvent (sid agent : String) (seen : List Json) (event : Json) :
    Call (List Json) :=
  let mid := (event.get? "msg_id").getD (.str "")
  if !mid.truthy || mid ∈ seen then .ret seen
  else do
    if ← isMsgOnDisk sid agent (jsonName (strOf mid)) [.inbox, .processing, .archive] then
      return mid :: seen
    else match mid with
      | .str s =>
        writeToInbox sid agent s event
        return mid :: seen
      | _ => throw (.type "expected string")

def handleStreamEvents (sid agent : String) : List Json → List Json → Call (List Json)
  | seen, [] => .ret seen
  | seen, event :: rest => do
    handleStreamEvents sid agent (← handleStreamEvent sid agent seen event) rest

/-- The loop of `_stream_loop`. -/
def streamLoop (sid agent : String) : ℕ → List Json → LinkCall Unit
  | 0, _ => .hang
  | fuel + 1, seen => do
    let events ← poll fuel
    streamLoop sid agent fuel (← atHome (handleStreamEvents sid agent seen events))

/-- `SwarmReceiver._stream_loop`: open the stream, then poll and dispatch. -/
def receive (fuel : ℕ) (sid agent : String) : LinkCall Unit := do
  if ← Prog.op LinkOp.spawn then streamLoop sid agent fuel [] else return ()

/-! ## All of them together -/

/-- Who a process is: a caller of the store on the helper's host, a helper, or
the receiver. -/
inductive Party
  | store (r : Request)
  | helper
  | receiver

/-- Process `i` is `parties i`; the client starts without a connection. -/
def linkPool (fuel : ℕ) (n : Link) (parties : ℕ → Option Party) :
    Pool LinkOp LinkAns Link PyErr Unit :=
  ⟨n, fun i => match parties i with
    | some (.store r) => do
      let _ ← onRemote (r.call fuel)
      return ()
    | some .helper => serve fuel
    | some .receiver => receive fuel n.client.sessionId n.client.agentId
    | none => .ret ()⟩

end AiMeshChat.Stream
