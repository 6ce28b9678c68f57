import AiMeshChat.Mailbox.Disk
import Mathlib.Data.List.Dedup

/-!
# `MailboxStore`: sending

`mailbox/store.py`, the sending half: `send`, `advance_cursor` and
`append_history`, each written as the sequence of file operations it performs.
The reading half is in `Mailbox/Claims.lean`.

`send` checks everything first, then looks for an earlier copy of the message
(in the recipients' inboxes, then in the history), and either replays it or
publishes a new one. A new message is published twice, once bare and, after the
cursor has been advanced, once more with its `_cursor`.

`chmod` and `fsync` change neither names nor contents and are left out; so are
symbolic links, which the store never creates.
-/

namespace AiMeshChat.Mailbox

open Lib

/-! ## Constants -/

def LEASE_TIMEOUT_S : ℤ := 3600
def LEASE_CLOCK_TOLERANCE_S : ℤ := 30
def MAX_MAILBOX_BODY : ℕ := 100000
def MAX_ATTACHMENT_SIZE : ℤ := 100000
def STREAM_CURSOR_FILE : String := ".stream-cursor"
def SEQ_WIDTH : ℕ := 6

/-! ## Names and checks -/

/-- The file of a message. -/
def jsonName (msgId : String) : String := msgId ++ ".json"

/-- The temporary file a message is written to before it is published. -/
def tmpName (msgId : String) : String := ".tmp-" ++ msgId ++ ".json"

/-- `validate_agent_id`. -/
def validateAgentId (aid : String) : Call Unit :=
  require (agentIdOk aid) (.value ("invalid agent id: " ++ reprStr aid))

/-- `_validate_msg_id`. -/
def validateMsgId (msgId : String) : Call Unit :=
  require (msgIdOk msgId) (.value ("invalid msg_id: " ++ msgId))

/-- Raise what `validate_message` found, after the words `what`. -/
def requireValid (what : String) : Except Refusal Unit → Call Unit
  | .error (.reject why) => .raise (.value (what ++ why))
  | .error (.typeError why) => .raise (.type why)
  | .ok () => .ret ()

/-- `agent_subdir`: both identifiers are checked before they become a path. -/
def agentSubdir (sid agent : String) (b : Box) : Call Dir := do
  validateAgentId agent
  validateAgentId sid
  return .box sid agent b

/-- `read_session`: `session.json`, or `None` when it is absent or unreadable. -/
def readSession (sid : String) : Call (Option Json) := do
  validateAgentId sid
  let p : MPath := ⟨.session sid, "session.json"⟩
  if ← fileExists p then
    match ← readBytes p with
    | .ok (.json j) => return some j
    | _ => return none
  else return none

/-- `{meta.get("manager", "")} | set(meta.get("agents", []))`. -/
def rosterOf (info : Json) : List String :=
  let agents := match info.get? "agents" with
    | some (.arr as) => as.filterMap Json.str?
    | _ => []
  (info.getStr "manager").getD "" :: agents

/-- `sorted(set(l))`. -/
def sortedSet (l : List String) : List String := l.dedup.insertionSort (· ≤ ·)

theorem mem_sortedSet {l : List String} {a : String} : a ∈ sortedSet l ↔ a ∈ l := by
  rw [sortedSet, (List.perm_insertionSort (· ≤ ·) l.dedup).mem_iff, List.mem_dedup]

/-- `sorted(set(l))` depends on the elements alone. -/
theorem sortedSet_congr {l l' : List String} (h : ∀ a, a ∈ l ↔ a ∈ l') :
    sortedSet l = sortedSet l' := by
  have hperm : l.dedup.Perm l'.dedup :=
    (List.perm_ext_iff_of_nodup l.nodup_dedup l'.nodup_dedup).mpr fun a => by
      rw [List.mem_dedup, List.mem_dedup, h a]
  unfold sortedSet
  refine List.Perm.eq_of_pairwise ?_ (List.pairwise_insertionSort _ _)
    (List.pairwise_insertionSort _ _) ?_
  · intro a b _ _ hab hba
    exact String.le_antisymm hab hba
  · exact ((List.perm_insertionSort _ _).trans hperm).trans (List.perm_insertionSort _ _).symm

/-- What `session_init` leaves behind for a new session: `session.json` (without
the optional tables that no function here reads) and the directories of every
member. -/
def newSession (sid manager : String) (agents : List String) (now : ℕ) : Disk where
  files := Files.empty.write ⟨.session sid, "session.json"⟩ (.json (.obj
    [("protocol_version", .str "2"), ("session_id", .str sid), ("manager", .str manager),
      ("agents", .arr ((sortedSet agents).map .str)), ("manifest_revision", .int 1),
      ("created_at", .str (isoFormat now))])) now
  dirs := .session sid :: (manager :: agents).flatMap fun aid =>
    [.box sid aid .inbox, .box sid aid .processing, .box sid aid .archive, .box sid aid .corrupt]
  locks := []
  inoLocks := []

/-! ## Attachments of a send -/

/-- `AttachmentRef.from_dict` of a dict that `attachment_error` accepts. -/
def refOf (ad : Json) : AttachmentRef where
  artifactId := textOf ad "artifact_id"
  sourceHost := textOf ad "source_host"
  remoteRoot := textOf ad "remote_root"
  relativePath := textOf ad "relative_path"
  size := ((ad.get? "size").bind Json.int?).getD 0
  sha256 := textOf ad "sha256"
  mediaType := ((ad.get? "media_type").bind Json.str?).getD DEFAULT_MEDIA_TYPE

/-- The check of one attachment of a send. -/
def attachmentRef (ad : Json) : Call AttachmentRef :=
  if !ad.isDict then .raise (.value "invalid attachment: must be AttachmentRef or dict")
  else match attachmentError ad with
    | some err => .raise (.value ("invalid attachment: " ++ err))
    | none =>
      if MAX_ATTACHMENT_SIZE < ((ad.get? "size").bind Json.int?).getD 0 then
        .raise (.value ("attachment exceeds " ++ toString MAX_ATTACHMENT_SIZE ++ "-byte limit: " ++
          ((ad.get? "path").map strOf).getD "?"))
      else .ret (refOf ad)

def attachmentRefs : List Json → Call (List AttachmentRef)
  | [] => .ret []
  | ad :: rest => do
    let r ← attachmentRef ad
    let rs ← attachmentRefs rest
    return r :: rs

/-- `_norm` of `_attachments_eq`: the sorted pairs of a reference. -/
def attachmentNorm : Json → List (String × String)
  | .obj fields =>
    (fields.map fun kv => (kv.1, strOf kv.2)).insertionSort
      fun a b => a.1 < b.1 ∨ a.1 = b.1 ∧ a.2 ≤ b.2
  | v => [(strOf v, "")]

/-- `_attachments_eq`: equal lengths and equal sets of references. -/
def attachmentsEq (a b : List Json) : Bool :=
  a.length = b.length && a.all (fun x => attachmentNorm x ∈ b.map attachmentNorm) &&
    b.all (fun x => attachmentNorm x ∈ a.map attachmentNorm)

/-! ## `append_history` -/

/-- `open(p, "x")` and write; an existing file is reported as `e`. -/
def writeNewOr (p : MPath) (x : Data) (e : PyErr) : Call Unit := do
  match ← tryWriteNew p x with
  | .error .exists => throw e
  | r => orRaise r

/-- `append_history`: one record per message, never overwritten. -/
def appendHistory (sid : String) (message : Json) : Call String := do
  validateAgentId sid
  require (← isDir (.session sid)) (.value ("session not found: " ++ sid))
  require message.isDict (.value "history message must be a dict")
  requireValid "history validation failed: " (validateMessage message (some sid) none none)
  let mid := textOf message "msg_id"
  validateMsgId mid
  mkdir (.history sid)
  let dest : MPath := ⟨.history sid, jsonName mid⟩
  let tmp : MPath := ⟨.history sid, tmpName mid⟩
  require (!(← fileExists dest)) (.value ("history entry already exists: " ++ mid))
  writeNewOr tmp (.json message) (.value ("history entry already exists: " ++ mid))
  replace tmp dest
  return "history: " ++ mid

/-! ## `advance_cursor` -/

/-- The cursor file after a call at `nowMs`: the same millisecond counts up, any
other starts again at zero. -/
def nextCursor (prev : Option Json) (nowMs : ℕ) : ℕ × ℤ :=
  let part (key : String) : ℤ := ((prev.bind (·.get? key)).bind Json.int?).getD 0
  (nowMs, if (nowMs : ℤ) = part "epoch_ms" then part "seq" + 1 else 0)

/-- `f"{epoch_ms}/{seq:06d}"`. -/
def cursorText (c : ℕ × ℤ) : String := toString c.1 ++ "/" ++ zeroPad SEQ_WIDTH c.2.toNat

/-- `advance_cursor`. The lock is taken on the inode that was opened, which a
concurrent call may have replaced since. -/
def advanceCursor (sid : String) : Call String := do
  validateAgentId sid
  mkdir (.session sid)
  let file : MPath := ⟨.session sid, STREAM_CURSOR_FILE⟩
  let tmp : MPath := ⟨.session sid, ".tmp-stream-cursor"⟩
  let now ← clock
  let nowMs := now / 1000
  let fd ← orRaise (← openFd file)
  flock fd
  let next ← Prog.ensure (do
    let prev ← (do
      if ← fileExists file then
        match ← readBytes file with
        | .ok (.json j) => if j.isDict then return some j else throw .attribute
        | _ => return none
      else return none)
    let next := nextCursor prev nowMs
    write tmp (.json (.obj [("epoch_ms", .int next.1), ("seq", .int next.2)]))
    replace tmp file
    return next) (funlock fd)
  return cursorText next

/-! ## `send` -/

/-- The parameters of `send`. -/
structure SendArgs where
  sessionId : String
  fromId : String
  toId : String
  subject : String
  body : String
  kind : String := "REPORT"
  replyTo : String := ""
  runId : String := ""
  requestId : String := ""
  commandId : String := ""
  traceId : String := ""
  causationId : String := ""
  attachments : Option (List Json) := none
  msgId : Option String := none
  requireAck : Bool := false
  receiptType : String := ""

/-- Every recipient must have an inbox. -/
def checkInboxes (sid : String) : List String → Call Unit
  | [] => .ret ()
  | rid :: rest => do
    let inbox ← agentSubdir sid rid .inbox
    require (← isDir inbox) (.value ("agent not in session: " ++ rid))
    checkInboxes sid rest

/-- The recipients of a send: one, or the sorted roster without the sender. -/
def recipientsOf (a : SendArgs) (roster : List String) : List String :=
  if a.toId = BROADCAST_TO then sortedSet (roster.filter (· ≠ a.fromId)) else [a.toId]

/-- The checks at the head of `send`, before anything is written. -/
def checkSend (a : SendArgs) : Call (List String × List AttachmentRef) := do
  validateAgentId a.sessionId
  require (← isDir (.session a.sessionId)) (.value ("session not found: " ++ a.sessionId))
  let info := (← readSession a.sessionId).getD .null
  require (info ≠ .null) (.value ("session metadata not found or corrupt: " ++ a.sessionId))
  require info.isDict .attribute
  let roster := rosterOf info
  require (a.fromId ∈ roster) (.value ("sender not in roster: " ++ a.fromId))
  let refs ← attachmentRefs (a.attachments.getD [])
  require (a.toId = BROADCAST_TO || a.toId ∈ roster)
    (.value ("recipient not in roster: " ++ a.toId))
  let recipients := recipientsOf a roster
  checkInboxes a.sessionId recipients
  require (a.kind ∈ VALID_KINDS) (.value ("invalid kind: " ++ a.kind))
  require (a.body.utf8ByteSize ≤ MAX_MAILBOX_BODY)
    (.value ("body exceeds " ++ toString MAX_MAILBOX_BODY ++ "-byte limit"))
  return (recipients, refs)

/-- `json.loads(p.read_bytes())`, or `{}` when that fails. -/
def loadOrEmpty (p : MPath) : Call Json := do
  match ← readBytes p with
  | .ok (.json j) => return j
  | _ => return .obj []

/-- The copy of the message in the first inbox that has one. -/
def findInInboxes (sid mid : String) : List String → Option Json → Call (Option Json)
  | [], found => .ret found
  | rid :: rest, found => do
    let inbox ← agentSubdir sid rid .inbox
    let p : MPath := ⟨inbox, jsonName mid⟩
    if (← fileExists p) && found.isNone then
      findInInboxes sid mid rest (some (← loadOrEmpty p))
    else findInInboxes sid mid rest found

/-- The earlier copy of the message: in an inbox, else in the history. -/
def findExisting (sid mid : String) (recipients : List String) : Call (Option Json) := do
  match ← findInInboxes sid mid recipients none with
  | some e => return some e
  | none =>
    let hp : MPath := ⟨.history sid, jsonName mid⟩
    if ← fileExists hp then return some (← loadOrEmpty hp) else return none

/-- `existing.get(key, "") == (value or "")`. -/
def sameText (existing : Json) (key value : String) : Bool :=
  match existing.get? key with
  | none => value = ""
  | some v => v = .str value

/-- The replay-equality check: every field of the protocol. -/
def samePayload (existing : Json) (a : SendArgs) (refs : List AttachmentRef) : Bool :=
  existing.get? "session_id" = some (.str a.sessionId)
    && existing.get? "from" = some (.str a.fromId)
    && existing.get? "to" = some (.str a.toId)
    && existing.get? "subject" = some (.str a.subject)
    && existing.get? "body" = some (.str a.body)
    && existing.get? "kind" = some (.str a.kind)
    && sameText existing "reply_to" a.replyTo
    && sameText existing "run_id" a.runId
    && sameText existing "request_id" a.requestId
    && sameText existing "command_id" a.commandId
    && sameText existing "trace_id" a.traceId
    && sameText existing "causation_id" a.causationId
    && ((existing.get? "require_ack").map Json.truthy).getD false = a.requireAck
    && sameText existing "receipt_type" a.receiptType
    && (match existing.get? "attachments" with
        | none => attachmentsEq [] (refs.map AttachmentRef.toDict)
        | some (.arr atts) => attachmentsEq atts (refs.map AttachmentRef.toDict)
        | some _ => false)

/-- Write the message to the recipients' inboxes that lack it; the number of
inboxes written. -/
def backfill (sid mid : String) (existing : Json) : List String → Call ℕ
  | [] => .ret 0
  | rid :: rest => do
    let inbox ← agentSubdir sid rid .inbox
    let dest : MPath := ⟨inbox, jsonName mid⟩
    if ← fileExists dest then backfill sid mid existing rest
    else do
      let tmp : MPath := ⟨inbox, tmpName mid⟩
      write tmp (.json existing)
      replace tmp dest
      return (← backfill sid mid existing rest) + 1

/-- The history entry of a replay, if it is missing. -/
def backfillHistory (sid mid : String) (existing : Json) : Call Unit := do
  if ← fileExists ⟨.history sid, jsonName mid⟩ then return ()
  else do
    let _ ← appendHistory sid existing
    return ()

/-- The replay of a message that exists already. -/
def replay (a : SendArgs) (mid : String) (recipients : List String) (refs : List AttachmentRef)
    (existing : Json) : Call String := do
  require existing.isDict .attribute
  require (samePayload existing a refs)
    (.value ("msg_id already exists with different payload: " ++ mid))
  let n ← backfill a.sessionId mid existing recipients
  backfillHistory a.sessionId mid existing
  return "sent → " ++ a.toId ++ "/inbox/" ++ mid ++ ".json (idempotent replay, backfilled " ++
    toString n ++ ")"

/-- Write the payload into every recipient's inbox. -/
def publish (sid mid : String) (payload : Json) : List String → Call Unit
  | [] => .ret ()
  | rid :: rest => do
    let inbox ← agentSubdir sid rid .inbox
    let tmp : MPath := ⟨inbox, tmpName mid⟩
    write tmp (.json payload)
    replace tmp ⟨inbox, jsonName mid⟩
    publish sid mid payload rest

/-- The message of a send. -/
def messageOf (a : SendArgs) (mid createdAt : String) (refs : List AttachmentRef) : Message where
  sessionId := a.sessionId
  fromId := a.fromId
  toId := a.toId
  subject := a.subject
  body := a.body
  kind := a.kind
  msgId := mid
  createdAt := createdAt
  replyTo := a.replyTo
  runId := a.runId
  requestId := a.requestId
  commandId := a.commandId
  traceId := a.traceId
  causationId := a.causationId
  attachments := refs
  requireAck := a.requireAck
  receiptType := a.receiptType

/-- What a send of a new message reports. -/
def sentText (a : SendArgs) (mid : String) (recipients : List String) : String :=
  if a.toId = BROADCAST_TO then "broadcast → " ++ toString recipients.length ++ " recipients"
  else "sent → " ++ a.toId ++ "/inbox/" ++ mid ++ ".json"

/-- A message that is new: published bare, stamped with its cursor, recorded. -/
def sendNew (a : SendArgs) (mid : String) (recipients : List String) (refs : List AttachmentRef) :
    Call String := do
  let now ← clock
  let payload := (messageOf a mid (isoFormat now) refs).toDict
  requireValid "send validation failed: " (validateMessage payload (some a.sessionId) none none)
  publish a.sessionId mid payload recipients
  let cursor ← advanceCursor a.sessionId
  let stamped := payload.set "_cursor" (.str cursor)
  publish a.sessionId mid stamped recipients
  let _ ← appendHistory a.sessionId stamped
  return sentText a mid recipients

/-- `gen_msg_id`: sender, compact timestamp, six random characters. -/
def genMsgId (sender : String) : Call String := do
  let now ← clock
  let suffix ← randomText
  return sender ++ "_" ++ String.ofList ((isoFormat now).toList.filter (· ∉ ['-', ':', 'Z'])) ++
    "_" ++ suffix

/-- Whether any of the recipients' inboxes has the message. -/
def inAnyInbox (sid mid : String) : List String → Call Bool
  | [] => .ret false
  | rid :: rest => do
    let inbox ← agentSubdir sid rid .inbox
    if ← fileExists ⟨inbox, jsonName mid⟩ then return true else inAnyInbox sid mid rest

/-- A generated identifier that neither an inbox nor the history has yet. -/
def freshMsgId (a : SendArgs) (recipients : List String) : ℕ → Call String
  | 0 => .hang
  | fuel + 1 => do
    let mid ← genMsgId a.fromId
    if ← inAnyInbox a.sessionId mid recipients then freshMsgId a recipients fuel
    else if ← fileExists ⟨.history a.sessionId, jsonName mid⟩ then freshMsgId a recipients fuel
    else return mid

/-- `MailboxStore.send`. -/
def send (fuel : ℕ) (a : SendArgs) : Call String := do
  let (recipients, refs) ← checkSend a
  match a.msgId with
  | some mid =>
    validateMsgId mid
    match ← findExisting a.sessionId mid recipients with
    | some existing => replay a mid recipients refs existing
    | none => sendNew a mid recipients refs
  | none =>
    let mid ← freshMsgId a recipients fuel
    sendNew a mid recipients refs

end AiMeshChat.Mailbox
