import AiMeshChat.Mailbox.Claims

/-!
# A mailbox stream: the two ends and the wire between them

A receiver on one host follows the mailboxes of a session on another. `ssh`
starts a helper there (`remote_exec.py`), which polls the inboxes and writes one
frame per new message to its standard output; `SSHStream`
(`transport/ssh.py`) reads the frames, drops repeated messages and remembers the
cursor of the last one. When the connection breaks it starts a new helper and
hands that cursor over.

`Link` is the state of all of it: the disk of the helper's host, which the
senders and readers of the session work on at the same time, the disk of the
receiver, the client object and the connections so far. A connection keeps the
frames read from it and those in flight, oldest first; with a new connection the
frames in flight on the old one are gone.

Receivers open streams of the kind `mailbox`, whose cursors are plain texts
`epoch_ms/seq`; `_split_cursor` returns such a text as it is.
-/

namespace AiMeshChat.Stream

open Lib Mailbox

/-! ## Cursors -/

def STREAM_CURSOR_INITIAL : String := "0"
def STREAM_HEARTBEAT_INTERVAL : ℕ := 15
def MAX_LINE_LENGTH : ℕ := 1048576

/-- `cur.split("/", 1)`. -/
def splitSlash (cur : String) : String × Option String :=
  match cur.toList.dropWhile (· ≠ '/') with
  | [] => (cur, none)
  | _ :: r => (String.ofList (cur.toList.takeWhile (· ≠ '/')), some (String.ofList r))

/-- `_parse` of `_cursor_gt`: a text that is no cursor counts as `(0, 0)`. -/
def parseCursor (cur : String) : ℤ × ℤ :=
  if cur = "" || cur = STREAM_CURSOR_INITIAL then (0, 0)
  else match splitSlash cur with
    | (a, none) => ((parseInt a).getD 0, 0)
    | (a, some b) =>
      match parseInt a, parseInt b with
      | some x, some y => (x, y)
      | _, _ => (0, 0)

/-- `_cursor_gt`: is `a` strictly after `b`? -/
def cursorGt (a b : String) : Bool :=
  let x := parseCursor a
  let y := parseCursor b
  y.1 < x.1 || (y.1 = x.1 && y.2 < x.2)

example : cursorGt "7/000010" "7/9" = true ∧ cursorGt "7/000000" "0" = true := by decide +kernel

/-! ## Frames -/

/-- A `stream_event` frame. -/
structure StreamEvent where
  requestId : String
  sessionId : String
  cursor : String
  payload : Json
  inboxAgent : String
  deriving DecidableEq

/-- `payload.get("msg_id", "")`. -/
def StreamEvent.msgId (e : StreamEvent) : Json := (e.payload.get? "msg_id").getD (.str "")

/-- Whether looking the identifier up in a set works; an empty one is not looked
up. -/
def StreamEvent.hashable (e : StreamEvent) : Bool :=
  match e.msgId with
  | .arr items => items = []
  | .obj fields => fields = []
  | _ => true

def StreamEvent.toDict (e : StreamEvent) : Json :=
  .obj [("type", .str "stream_event"), ("request_id", .str e.requestId),
    ("session_id", .str e.sessionId), ("cursor", .str e.cursor), ("payload", e.payload),
    ("source", .str "mailbox"), ("inbox_agent", .str e.inboxAgent)]

/-- The frames a helper writes after its banner. -/
inductive Frame
  | accepted (requestId : String)
  | pong
  | error (message : String)
  | event (e : StreamEvent)
  deriving DecidableEq

/-- The event of a frame. -/
def Frame.event? : Frame → Option StreamEvent
  | .event e => some e
  | _ => none

/-! ## The client object -/

/-- Cap on the remembered identifiers. -/
def SEEN_IDS_MAX_SIZE : ℕ := 10000

/-- The fields of `SSHStream`. `conn` is the process, `events` the result list
of the `poll` under way and `returned` what earlier calls have returned. -/
structure SSHStream where
  sessionId : String
  agentId : String
  cursor : String := STREAM_CURSOR_INITIAL
  seenMsgIds : List Json := []
  seenIdsOrder : List Json := []
  conn : Option ℕ := none
  events : List Json := []
  returned : List Json := []

namespace SSHStream

/-- `_prune_seen_ids`: drop the older half when there are too many. -/
def pruneSeenIds (s : SSHStream) : SSHStream :=
  if s.seenIdsOrder.length ≤ SEEN_IDS_MAX_SIZE then s
  else
    let dropped := s.seenIdsOrder.take (s.seenIdsOrder.length / 2)
    { s with
      seenIdsOrder := s.seenIdsOrder.drop (s.seenIdsOrder.length / 2)
      seenMsgIds := s.seenMsgIds.filter (· ∉ dropped) }

/-- Remember an identifier. -/
def addSeen (s : SSHStream) (mid : Json) : SSHStream :=
  pruneSeenIds { s with
    seenMsgIds := mid :: s.seenMsgIds
    seenIdsOrder := s.seenIdsOrder ++ [mid] }

/-- The body of the loop of `poll` for one frame; `none` where looking up the
identifier raises `TypeError`. -/
def handle (s : SSHStream) : Frame → Option SSHStream
  | .event e =>
    let mid := e.msgId
    if !e.hashable then none
    else if mid.truthy && mid ∈ s.seenMsgIds then some s
    else
      let s := if mid.truthy then s.addSeen mid else s
      let s := if e.cursor ≠ "" then { s with cursor := e.cursor } else s
      some { s with events := s.events ++ [e.payload] }
  | _ => some s

/-- The payloads that `poll` has returned or is about to return. -/
def received (s : SSHStream) : List Json := s.returned ++ s.events

/-- Their identifiers. -/
def receivedIds (s : SSHStream) : List Json :=
  s.received.map fun p => (p.get? "msg_id").getD (.str "")

end SSHStream

/-! ## The state -/

/-- A stream request. -/
structure StreamRequest where
  requestId : String
  sessionId : String
  agentId : String
  cursor : String

/-- A connection: what it was opened with, the frames the client has read and
those in flight. -/
structure Conn where
  request : StreamRequest
  read : List Frame := []
  pending : List Frame := []

/-- All frames written to the connection. -/
def Conn.sent (k : Conn) : List Frame := k.read ++ k.pending

structure Link where
  disk : Disk
  home : Disk
  client : SSHStream
  conns : ℕ → Option Conn

/-- The connection the client reads from. -/
def Link.current (n : Link) : Option Conn := n.client.conn.bind n.conns

/-- How a `_readline` of `poll` ends. -/
inductive Line
  | quiet
  | exited
  | typeError
  | handled
  deriving DecidableEq

/-- The atomic steps. `remote` works on the helper's disk, `home` on the
receiver's. `readline` reads one line and runs the loop body of `poll` on it,
which touches nothing that others see. -/
inductive LinkOp
  | remote (o : Mailbox.Op)
  | home (o : Mailbox.Op)
  | accept
  | emit (f : Frame)
  | monotonic
  | spawn
  | readline
  | takeEvents

abbrev LinkAns : LinkOp → Type
  | .remote o => Mailbox.Ans o
  | .home o => Mailbox.Ans o
  | .accept => StreamRequest
  | .emit _ => Except OsErr Unit
  | .monotonic => ℕ
  | .spawn => Bool
  | .readline => Line
  | .takeEvents => List Json

/-- What the environment decides: the choices of a disk, and whether the helper
is found dead (or silent for too long), or no line comes in time. -/
structure LinkChoice where
  disk : Choice := {}
  exited : Bool := false
  quiet : Bool := false

namespace Link

def setConn (n : Link) (k : ℕ) (c : Conn) : Link :=
  { n with conns := Function.update n.conns k (some c) }

/-- `_spawn_and_subscribe`: a helper process with the number `k` of its own and
the request with the client's cursor. -/
def spawn (n : Link) (k : ℕ) (requestId : String) : Link :=
  let req := ⟨requestId, n.client.sessionId, n.client.agentId, n.client.cursor⟩
  { n.setConn k { request := req } with client := { n.client with conn := some k } }

/-- Read the frame `f` from connection `k`, which leaves the frames `fs`. -/
def take (n : Link) (k : ℕ) (c : Conn) (f : Frame) (fs : List Frame) : Line × Link :=
  let n := n.setConn k { c with read := c.read ++ [f], pending := fs }
  match n.client.handle f with
  | some s => (.handled, { n with client := s })
  | none => (.typeError, { n with client := { n.client with events := [] } })

def perform (i : ℕ) (o : LinkOp) (c : LinkChoice) (n : Link) : Option (LinkAns o × Link) :=
  match o with
  | .remote o => (n.disk.perform i o c.disk).map fun r => (r.1, { n with disk := r.2 })
  | .home o => (n.home.perform i o c.disk).map fun r => (r.1, { n with home := r.2 })
  | .accept => (n.conns i).map fun k => (k.request, n)
  | .emit f =>
    match n.conns i with
    | some k =>
      if c.disk.fault then some (.error .other, n)
      else some (.ok (), n.setConn i { k with pending := k.pending ++ [f] })
    | none => some (.error .other, n)
  | .monotonic => some (c.disk.time, n)
  | .spawn =>
    if c.disk.fault || (n.conns c.disk.number).isSome then
      some (false, { n with client := { n.client with conn := none } })
    else some (true, n.spawn c.disk.number c.disk.text)
  | .readline =>
    match n.client.conn, n.current with
    | some k, some conn =>
      if c.exited then some (.exited, n)
      else if c.quiet then some (.quiet, n)
      else match conn.pending with
        | f :: fs => some (n.take k conn f fs)
        | [] => some (.quiet, n)
    | _, _ => some (.quiet, n)
  | .takeEvents =>
    some (n.client.events, { n with
      client := { n.client with returned := n.client.received, events := [] } })

def crash (i : ℕ) (n : Link) : Link :=
  { n with disk := n.disk.crash i, home := n.home.crash i }

end Link

/-- The two hosts and the wire as a world. -/
def linkWorld : World LinkOp LinkAns Link LinkChoice := ⟨Link.perform, Link.crash⟩

/-- A program of one of the parties. -/
abbrev LinkCall := Prog LinkOp LinkAns PyErr

/-- A store call on the helper's host. -/
def onRemote {α : Type} (p : Call α) : LinkCall α := p.embed .remote fun _ a => a

/-- A store call on the receiver's host. -/
def atHome {α : Type} (p : Call α) : LinkCall α := p.embed .home fun _ a => a

end AiMeshChat.Stream
