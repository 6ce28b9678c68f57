import AiMeshChat.Kernel.State

/-!
# Who a message is routed to

The four ways of `SwarmKernel.send`: `direct`, `broadcast`, `channel` and `notice`. Each
first decides, under the kernel's lock, who the recipients are; then the sink is called
for one recipient after the other.

The decision goes by lists that are kept apart: the roster of the session, the two lists
of its access list, the members of a channel and the subscribers of a topic. Only the
members of a channel are checked against the roster, when the channel is made. So
`sends_go_by_lists` says which list each way stands for, and that nobody outside the roster
is reached if whoever fills the lists keeps to it.
-/

namespace AiMeshChat.Kernel

open Mailbox

/-- `Envelope` of `swarm/model.py`. -/
structure Envelope where
  subject : String
  body : String
  kind : String := "TASK"
  attachments : List AttachmentRef := []
  replyTo : String := ""
  runId : String := ""
  requestId : String := ""
  traceId : String := ""
  causationId : String := ""
  requireAck : Bool := false
  receiptType : String := ""
  deriving DecidableEq

inductive AddressKind
  | direct
  | channel
  | broadcast
  | notice
  deriving DecidableEq

/-- `Address`. -/
structure Address where
  kind : AddressKind
  agentId : String := ""
  channelId : String := ""
  topic : String := ""
  deriving DecidableEq

/-! ## The checks -/

/-- `_check_direct`. -/
def checkDirect (s : Session) (sender recipient : String) : Except PyErr Unit :=
  if sender ∉ s.acl.allowedSenders then
    .error (.permission ("sender not in allowed_senders: " ++ sender))
  else if recipient ∉ s.acl.roomMembers then
    .error (.permission ("recipient not in room_members: " ++ recipient))
  else .ok ()

/-- `_check_channel`. -/
def checkChannel (c : Channel) (sender : String) : Except PyErr Unit :=
  if sender ∉ c.members then .error (.permission ("sender not in channel members: " ++ sender))
  else .ok ()

/-- `_check_broadcast`. -/
def checkBroadcast (s : Session) (sender : String) : Except PyErr Unit :=
  if s.acl.policy = "open" then .ok ()
  else if sender ≠ s.acl.authority then
    .error (.permission ("sender is not broadcast authority: " ++ sender))
  else .ok ()

/-- `_check_notice`. -/
def checkNotice (s : Session) (sender : String) : Except PyErr Unit :=
  if sender ∉ s.acl.allowedSenders then
    .error (.permission ("sender not in allowed_senders: " ++ sender))
  else .ok ()

/-! ## The decision -/

/-- The channel of a session. -/
def requireChannel (k : Mem) (sid channelId : String) : Except PyErr Channel :=
  match k.channels sid channelId with
  | some c => .ok c
  | none => .error (.value ("channel not found: " ++ channelId))

/-- Whom a notice is for: the subscribers of the topic, or all if there are none. -/
def noticeTargets (k : Mem) (s : Session) (sid topic : String) : List String :=
  if k.topicSubscriptions sid topic = [] then s.acl.roomMembers
  else k.topicSubscriptions sid topic

/-- The recipients of a message. -/
def route (k : Mem) (sid sender : String) (target : Address) : Except PyErr (List String) := do
  let s ← requireSession k sid
  match target.kind with
  | .direct =>
    checkDirect s sender target.agentId
    return [target.agentId]
  | .broadcast =>
    checkBroadcast s sender
    return s.roster.filter (· ≠ sender)
  | .channel =>
    let c ← requireChannel k sid target.channelId
    checkChannel c sender
    return c.members.filter (· ≠ sender)
  | .notice =>
    checkNotice s sender
    return sortedSet ((noticeTargets k s sid target.topic).filter (· ≠ sender))

/-- The kernel after the decision: the set of subscribers that a notice goes to is the
one of the registry, so its sender is struck from the topic. -/
def afterRoute (k : Mem) (sid sender : String) (target : Address) : Mem :=
  match route k sid sender target, target.kind with
  | .ok _, .notice =>
    let old := k.topicSubscriptions sid
    let subscribers := (old target.topic).filter (· ≠ sender)
    { k with
      topicSubscriptions := Function.update k.topicSubscriptions sid
        (Function.update old target.topic subscribers) }
  | _, _ => k

/-! ## Sending -/

/-- What is generated for a message. -/
structure Fresh where
  msgId : ℕ → String
  createdAt : String
  traceId : String

/-- One call of `sink.deliver`. -/
structure Deliver where
  sessionId : String
  targetAgent : String
  envelope : Envelope
  msgId : String
  createdAt : String
  fromId : String
  deriving DecidableEq

/-- What a sink returns. -/
structure SinkReceipt where
  status : String
  error : String := ""
  queued : Bool := false
  deriving DecidableEq

/-- `SendReceipt`. -/
structure SendReceipt where
  msgId : String
  status : String
  sessionId : String := ""
  target : String := ""
  queued : Bool := false
  deriving DecidableEq

/-- `_ensure_trace_id`. -/
def ensureTraceId (env : Envelope) (traceId : String) : Envelope :=
  if env.traceId = "" then { env with traceId := traceId } else env

/-- The calls of the sink, one for each recipient; each has an id of its own. -/
def deliveries (sid sender : String) (env : Envelope) (f : Fresh) (recipients : List String) :
    List Deliver :=
  recipients.zipIdx.map fun (r, n) =>
    ⟨sid, r, ensureTraceId env f.traceId, f.msgId n, f.createdAt, sender⟩

/-- The receipt that `send` makes of those of the recipients. -/
def receiptOf (sid : String) (target : Address) (ds : List Deliver) (rs : List SinkReceipt) :
    SendReceipt :=
  let msgId := (ds.head?.map (·.msgId)).getD ""
  match target.kind with
  | .direct =>
    { msgId := msgId, status := (rs.head?.map (·.status)).getD "", sessionId := sid,
      target := target.agentId, queued := (rs.head?.map (·.queued)).getD false }
  | .broadcast =>
    if ds = [] then { msgId := "", status := "empty_roster", sessionId := sid }
    else { msgId := msgId, sessionId := sid,
           status := if rs.all (·.status = "delivered") then "delivered" else "accepted" }
  | _ => { msgId := msgId, sessionId := sid,
           status := if rs.all (·.status = "delivered") then "delivered" else "accepted" }

/-- What a send did that did not raise: its receipt and the calls of the sink. -/
structure Sent where
  receipt : SendReceipt
  calls : List Deliver

/-- `send`. The ids of the calls differ, so a sink that answers by the call stands for
any sequence of answers. -/
def send (k : Mem) (sink : Deliver → Except PyErr SinkReceipt) (sid sender : String)
    (target : Address) (env : Envelope) (f : Fresh) : Except PyErr Sent × Mem :=
  let out := do
    let recipients ← route k sid sender target
    let ds := deliveries sid sender env f recipients
    let rs ← ds.mapM sink
    return ⟨receiptOf sid target ds rs, ds⟩
  (out, afterRoute k sid sender target)

/-! ## Runs of a kernel -/

/-- A call of a public method. -/
inductive Call
  | createSession (a : CreateArgs) (now : String)
  | register (loc : AgentLocation) (sid token now : String)
  | unregister (sid aid : String)
  | setRegistrationToken (sid aid token : String)
  | createChannel (sid channelId : String) (members : List String) (acl : Option Acl)
  | subscribe (sid aid : String) (topics : List String)
  | send (sid sender : String) (target : Address)

/-- The state after a call, however it ends. What a sink does is not the kernel's. -/
def Call.run (st : State) : Call → State
  | .createSession a now => (Kernel.createSession st a now).2
  | .register loc sid token now => (Kernel.register st loc sid token now).2
  | .unregister sid aid => (Kernel.unregister st sid aid).2
  | .setRegistrationToken sid aid token => (Kernel.setRegistrationToken st sid aid token).2
  | .createChannel sid cid members acl => (Kernel.createChannel st sid cid members acl).2
  | .subscribe sid aid topics => { st with mem := (Kernel.subscribe st.mem sid aid topics).2 }
  | .send sid sender target => { st with mem := afterRoute st.mem sid sender target }

/-- The state after several calls. -/
def run (st : State) (calls : List Call) : State := calls.foldl Call.run st

/-- A kernel on a root without a session. -/
def State.start : State := ⟨load fun _ => {}, fun _ => {}⟩

end AiMeshChat.Kernel
