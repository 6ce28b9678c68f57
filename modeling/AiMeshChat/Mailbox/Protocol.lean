import AiMeshChat.Python

/-!
# The mailbox protocol: message schema and validation

`mailbox/protocol.py`. A message is a JSON object; `validateMessage` is the one
check that every writer and reader of a mailbox file runs. It can end in three
ways: the message is accepted, it is rejected with a reason, or the check itself
raises (`msg["kind"] in VALID_KINDS` hashes its operand, and a list or a dict
has no hash).
-/

namespace AiMeshChat.Mailbox

/-- How a check ends when it does not accept. -/
inductive Refusal
  | reject (why : String)
  | typeError (why : String)
  deriving DecidableEq

def PROTOCOL_VERSION : ℤ := 2

def VALID_KINDS : List String :=
  ["TASK", "REPORT", "PROGRESS", "EVIDENCE", "QUESTION", "RESPONSE", "NOTICE", "RECEIPT"]

/-- `REQUIRED_FIELDS`, in the sorted order in which missing ones are reported. -/
def REQUIRED_FIELDS : List String :=
  ["body", "created_at", "from", "kind", "msg_id", "session_id", "subject", "to"]

/-- `KIND_CONDITIONAL_REQUIRED`, each list sorted. -/
def kindConditionalRequired (kind : String) : List String :=
  if kind = "TASK" then ["request_id", "run_id"]
  else if kind = "REPORT" then ["reply_to", "request_id", "run_id"]
  else if kind = "RECEIPT" then ["receipt_type", "reply_to", "request_id", "run_id"]
  else []

/-- `"*"`: every roster member except the sender. -/
def BROADCAST_TO : String := "*"

def DEFAULT_MEDIA_TYPE : String := "application/octet-stream"

/-- `ReceiptType.READ`, the only receipt type. -/
def RECEIPT_READ : String := "READ"

/-! ## Identifiers -/

/-- `AGENT_ID_RE`. -/
def agentIdOk (aid : String) : Bool := dollar (idText 31) aid

/-- `PATH_SAFE_RE`. -/
def pathSafe (s : String) : Bool :=
  dollar (fun cs => cs ≠ [] && cs.all isIdChar && cs.length ≤ 64) s

/-- `SHA256_RE`. -/
def sha256Ok (s : String) : Bool :=
  dollar (fun cs => cs.length = 64 && cs.all (fun c => c.isDigit ||
    ('a' ≤ c && c ≤ 'f') || ('A' ≤ c && c ≤ 'F'))) s

/-- `MailboxStore._validate_msg_id`: the whole text is an identifier of at most
64 characters that starts with a letter or a digit. -/
def msgIdOk (msgId : String) : Bool := idText 63 msgId.toList

/-! ## Attachments -/

/-- `AttachmentRef`. -/
structure AttachmentRef where
  artifactId : String
  sourceHost : String
  remoteRoot : String
  relativePath : String
  size : ℤ
  sha256 : String
  mediaType : String := DEFAULT_MEDIA_TYPE
  deriving DecidableEq

def AttachmentRef.toDict (a : AttachmentRef) : Json :=
  .obj [("artifact_id", .str a.artifactId), ("source_host", .str a.sourceHost),
    ("remote_root", .str a.remoteRoot), ("relative_path", .str a.relativePath),
    ("size", .int a.size), ("sha256", .str a.sha256), ("media_type", .str a.mediaType)]

/-- Whether `sub` occurs in `s`. -/
def contains (sub s : String) : Bool := s.toList.tails.any (sub.toList.isPrefixOf ·)

/-- The four checks of the same kind in `attachment_error`. -/
def attachmentTextError (att : Json) (key : String) : Option String :=
  match att.get? key with
  | some (.str v) =>
    if isBlank v then some s!"attachment {key} must be a non-empty string" else none
  | _ => some s!"attachment {key} must be a non-empty string"

/-- `attachment_error`: the first reason why the reference is invalid. -/
def attachmentError (att : Json) : Option String :=
  if !att.isDict then some "attachment must be an object"
  else
    (["artifact_id", "source_host", "remote_root", "relative_path"].findSome?
      (attachmentTextError att)) <|>
    (match att.get? "size" with
      | some (.int n) => if n < 0 then some "attachment size must be a non-negative integer" else none
      | _ => some "attachment size must be a non-negative integer") <|>
    (match att.get? "sha256" with
      | some (.str s) =>
        if sha256Ok s then none else some "attachment sha256 must be a 64-char hex digest"
      | _ => some "attachment sha256 must be a 64-char hex digest") <|>
    (match att.get? "relative_path" with
      | some (.str rp) =>
        if startsWith "/" rp || contains "\\" rp || contains ".." rp then
          some "attachment relative_path must be a safe relative path"
        else none
      | _ => none) <|>
    (match att.get? "media_type" with
      | none => none
      | some (.str mt) =>
        if isBlank mt then some "attachment media_type must be a non-empty string" else none
      | some _ => some "attachment media_type must be a non-empty string")

/-! ## Messages -/

/-- `Message`: what `send` fills in. -/
structure Message where
  sessionId : String
  fromId : String
  toId : String
  subject : String
  body : String
  kind : String
  msgId : String
  createdAt : String
  replyTo : String := ""
  runId : String := ""
  requestId : String := ""
  commandId : String := ""
  traceId : String := ""
  causationId : String := ""
  attachments : List AttachmentRef := []
  protocolVersion : ℤ := PROTOCOL_VERSION
  requireAck : Bool := false
  receiptType : String := ""

/-- An optional text field: written only when it is not empty. -/
def optText (key value : String) : List (String × Json) :=
  if value = "" then [] else [(key, .str value)]

/-- `Message.to_dict`. -/
def Message.toDict (m : Message) : Json :=
  .obj ([("session_id", .str m.sessionId), ("from", .str m.fromId), ("to", .str m.toId),
    ("subject", .str m.subject), ("body", .str m.body), ("kind", .str m.kind),
    ("msg_id", .str m.msgId), ("created_at", .str m.createdAt),
    ("protocol_version", .int m.protocolVersion), ("require_ack", .bool m.requireAck)]
    ++ optText "receipt_type" m.receiptType ++ optText "reply_to" m.replyTo
    ++ optText "run_id" m.runId ++ optText "request_id" m.requestId
    ++ optText "command_id" m.commandId ++ optText "trace_id" m.traceId
    ++ optText "causation_id" m.causationId
    ++ (if m.attachments = [] then []
        else [("attachments", .arr (m.attachments.map AttachmentRef.toDict))]))

/-- Continue if the check passes, else refuse with the reason. -/
def need (ok : Bool) (why : String) : Except Refusal Unit :=
  if ok then .ok () else .error (.reject why)

/-- `msg["kind"] not in VALID_KINDS`, which raises for a value without a hash. -/
def kindOf (msg : Json) : Except Refusal String :=
  match msg.get? "kind" with
  | some (.str k) => if k ∈ VALID_KINDS then .ok k else .error (.reject s!"invalid kind: {k}")
  | some (.arr _) => .error (.typeError "unhashable type: 'list'")
  | some (.obj _) => .error (.typeError "unhashable type: 'dict'")
  | some v => .error (.reject s!"invalid kind: {strOf v}")
  | none => .error (.reject "invalid kind: None")

/-- A text field of the message that the earlier checks have found to be there. -/
def textOf (msg : Json) (key : String) : String := ((msg.get? key).bind Json.str?).getD ""

/-- The check of `request_id`, `run_id` and `reply_to`: absent and empty values
pass, others must be safe as a path component. -/
def pathComponentCheck (msg : Json) (key : String) : Except Refusal Unit :=
  match msg.get? key with
  | none => .ok ()
  | some (.str v) =>
    need (v = "" || !(v = "." || v = ".." || !pathSafe v))
      s!"invalid {key} (unsafe path component): {reprStr v}"
  | some v => need (!v.truthy) s!"{key} must be string"

/-- The required fields, the kind and the types of the fields. -/
def schemaCheck (msg : Json) : Except Refusal String := do
  need msg.isDict "not a JSON object"
  let missing := REQUIRED_FIELDS.filter (fun key => (msg.get? key).isNone)
  need (missing = []) ("missing fields: " ++ ", ".intercalate missing)
  let kind ← kindOf msg
  ["subject", "body", "session_id", "from", "to", "msg_id", "created_at"].forM fun key =>
    need (((msg.get? key).bind Json.str?).isSome) s!"{key} must be string"
  need (match msg.get? "protocol_version" with | none => true | some v => 1 ≤ v.int?.getD 0)
    "protocol_version must be a positive int"
  need (match msg.get? "require_ack" with | none => true | some v => v matches .bool _)
    "require_ack must be bool"
  need ((msg.getStr "receipt_type").isSome) "receipt_type must be string"
  let rt := textOf msg "receipt_type"
  need (rt = "" || rt = RECEIPT_READ) s!"invalid receipt_type: {rt}"
  need (!isBlank (textOf msg "subject")) "subject must be non-empty"
  need (!isBlank (textOf msg "body")) "body must be non-empty"
  return kind

/-- The fields the kind requires on top, and the rules against receipt loops. -/
def kindCheck (msg : Json) (kind : String) : Except Refusal Unit := do
  let extras := kindConditionalRequired kind
  let missing := extras.filter (fun key => (msg.get? key).isNone)
  need (missing = []) (s!"kind {kind} requires fields: " ++ ", ".intercalate missing)
  extras.forM fun key =>
    need (match msg.get? key with | some (.str v) => !isBlank v | _ => false)
      s!"kind {kind} requires non-empty {key}"
  if kind = "RECEIPT" then do
    need (msg.get? "require_ack" ≠ some (.bool true))
      "RECEIPT must not set require_ack (no receipt loops)"
    need (textOf msg "receipt_type" = RECEIPT_READ)
      ("RECEIPT requires receipt_type=" ++ reprStr RECEIPT_READ)
    need (!isBlank (textOf msg "reply_to")) "RECEIPT requires non-empty reply_to (acked msg_id)"

/-- The session, recipient and file name the caller expects. -/
def expectedCheck (msg : Json) (session agent filename : Option String) :
    Except Refusal Unit := do
  let sid := textOf msg "session_id"
  let dest := textOf msg "to"
  let mid := textOf msg "msg_id"
  need (session.all (sid = ·)) (s!"session_id mismatch: {sid} vs " ++ session.getD "")
  need (agent.all fun a => dest = a || dest = BROADCAST_TO)
    (s!"recipient mismatch: {dest} vs " ++ agent.getD "")
  need (filename.all (mid ++ ".json" = ·)) (s!"msg_id mismatch: {mid} vs " ++ filename.getD "")
  need (!contains "/" mid && !contains "\\" mid) s!"invalid msg_id (path separator): {mid}"

/-- Every attachment reference must be valid. -/
def attachmentsCheck (msg : Json) : Except Refusal Unit :=
  match msg.get? "attachments" with
  | none => .ok ()
  | some (.arr atts) => atts.forM fun att =>
    match attachmentError att with
    | none => .ok ()
    | some err => .error (.reject s!"invalid attachment: {err}")
  | some _ => .error (.reject "attachments must be a list")

/-- `validate_message`: `ok` is `(True, "")`, a rejection is `(False, why)`. -/
def validateMessage (msg : Json) (session agent filename : Option String) :
    Except Refusal Unit := do
  let kind ← schemaCheck msg
  kindCheck msg kind
  expectedCheck msg session agent filename
  ["request_id", "run_id", "reply_to"].forM (pathComponentCheck msg)
  attachmentsCheck msg

theorem need_eq_ok {ok : Bool} {why : String} {u : Unit} :
    need ok why = .ok u ↔ ok = true := by
  cases ok <;> simp [need]

theorem bind_eq_ok {ε α β : Type} {x : Except ε α} {f : α → Except ε β} {b : β} :
    (x >>= f) = .ok b ↔ ∃ a, x = .ok a ∧ f a = .ok b := by
  cases x with
  | error e => simp [bind, Except.bind]
  | ok a => simp [bind, Except.bind]

theorem validateMessage_msgId {msg : Json} {session agent : Option String} {name : String}
    (h : validateMessage msg session agent (some name) = .ok ()) :
    textOf msg "msg_id" ++ ".json" = name := by
  rw [validateMessage, bind_eq_ok] at h
  obtain ⟨kind, _, h⟩ := h
  obtain ⟨_, _, h⟩ := bind_eq_ok.mp h
  obtain ⟨_, he, _⟩ := bind_eq_ok.mp h
  rw [expectedCheck, bind_eq_ok] at he
  obtain ⟨_, _, he⟩ := he
  obtain ⟨_, _, he⟩ := bind_eq_ok.mp he
  obtain ⟨_, he, _⟩ := bind_eq_ok.mp he
  simpa using need_eq_ok.mp he

theorem texts_of_valid {msg : Json} {session agent filename : Option String}
    (h : validateMessage msg session agent filename = .ok ()) :
    (textOf msg "receipt_type" = "" ∨ textOf msg "receipt_type" = RECEIPT_READ) ∧
      textOf msg "subject" ≠ "" ∧ textOf msg "body" ≠ "" := by
  obtain ⟨_, hschema, _⟩ := bind_eq_ok.mp h
  obtain ⟨_, _, hschema⟩ := bind_eq_ok.mp hschema
  obtain ⟨_, _, hschema⟩ := bind_eq_ok.mp hschema
  obtain ⟨_, _, hschema⟩ := bind_eq_ok.mp hschema
  obtain ⟨_, _, hschema⟩ := bind_eq_ok.mp hschema
  obtain ⟨_, _, hschema⟩ := bind_eq_ok.mp hschema
  obtain ⟨_, _, hschema⟩ := bind_eq_ok.mp hschema
  obtain ⟨_, _, hschema⟩ := bind_eq_ok.mp hschema
  obtain ⟨_, hreceipt, hschema⟩ := bind_eq_ok.mp hschema
  obtain ⟨_, hsubject, hschema⟩ := bind_eq_ok.mp hschema
  obtain ⟨_, hbody, _⟩ := bind_eq_ok.mp hschema
  have hblank {text : String} (htext : (!isBlank text) = true) : text ≠ "" := by
    rintro rfl
    cases htext
  have hrt := need_eq_ok.mp hreceipt
  rw [Bool.or_eq_true, decide_eq_true_eq, decide_eq_true_eq] at hrt
  exact ⟨hrt, hblank (need_eq_ok.mp hsubject), hblank (need_eq_ok.mp hbody)⟩

theorem forM_eq_ok {α ε : Type} {f : α → Except ε Unit} {l : List α} (h : l.forM f = .ok ()) :
    ∀ x ∈ l, f x = .ok () := by
  induction l with
  | nil => exact fun x hx => absurd hx List.not_mem_nil
  | cons y l ih =>
    change (f y >>= fun _ => l.forM f) = .ok () at h
    obtain ⟨u, hy, hrest⟩ := bind_eq_ok.mp h
    intro x hx
    rcases List.mem_cons.mp hx with rfl | hx
    · exact hy
    · exact ih hrest x hx

/-- A valid message has a text for the time it was made, and a text for `reply_to` or nothing. -/
theorem reply_of_valid {msg : Json} {session agent filename : Option String}
    (h : validateMessage msg session agent filename = .ok ()) :
    msg.isDict = true ∧ (∃ created, msg.get? "created_at" = some (.str created)) ∧
      ∀ v, msg.get? "reply_to" = some v → v.truthy = true → ∃ s, v = .str s := by
  rw [validateMessage, bind_eq_ok] at h
  obtain ⟨kind, hschema, h⟩ := h
  obtain ⟨_, _, h⟩ := bind_eq_ok.mp h
  obtain ⟨_, _, h⟩ := bind_eq_ok.mp h
  obtain ⟨_, hpaths, _⟩ := bind_eq_ok.mp h
  obtain ⟨_, hdict, hschema⟩ := bind_eq_ok.mp hschema
  obtain ⟨_, _, hschema⟩ := bind_eq_ok.mp hschema
  obtain ⟨_, _, hschema⟩ := bind_eq_ok.mp hschema
  obtain ⟨_, htexts, _⟩ := bind_eq_ok.mp hschema
  refine ⟨need_eq_ok.mp hdict, ?_, fun v hv htruthy => ?_⟩
  · have hcreated := need_eq_ok.mp (forM_eq_ok htexts "created_at" (by decide))
    obtain ⟨text, htext⟩ := Option.isSome_iff_exists.mp hcreated
    obtain ⟨j, hj, hstr⟩ := Option.bind_eq_some_iff.mp htext
    cases j <;> simp only [Json.str?, reduceCtorEq] at hstr
    exact ⟨_, hj⟩
  · have hreply := forM_eq_ok hpaths "reply_to" (by decide)
    unfold pathComponentCheck at hreply
    rw [hv] at hreply
    cases v with
    | str s => exact ⟨s, rfl⟩
    | _ =>
      have hfalsy := need_eq_ok.mp hreply
      rw [htruthy] at hfalsy
      cases hfalsy

/-! ### Refusals -/

/-- The check does not raise `TypeError`. -/
def Untyped {α : Type} (x : Except Refusal α) : Prop := ∀ why, x ≠ .error (.typeError why)

theorem untyped_ok {α : Type} (a : α) : Untyped (.ok a : Except Refusal α) := nofun

theorem untyped_need (ok : Bool) (why : String) : Untyped (need ok why) := by
  cases ok <;> exact nofun

theorem Untyped.bind {α β : Type} {x : Except Refusal α} {f : α → Except Refusal β}
    (hx : Untyped x) (hf : ∀ a, Untyped (f a)) : Untyped (x >>= f) := by
  cases x with
  | error e => exact fun why h => hx why (by cases h; rfl)
  | ok a => exact hf a

theorem untyped_forM {α : Type} {f : α → Except Refusal Unit} (hf : ∀ a, Untyped (f a))
    (l : List α) : Untyped (l.forM f) := by
  induction l with
  | nil => exact untyped_ok ()
  | cons a l ih =>
    exact (hf a).bind (f := fun _ => l.forM f) fun _ => ih

/-- Only a kind without a hash makes `validate_message` raise. -/
theorem untyped_validateMessage {msg : Json} (h : Untyped (kindOf msg))
    (session agent filename : Option String) :
    Untyped (validateMessage msg session agent filename) := by
  have hneed (ok : Bool) (why : String) {β : Type} {f : Unit → Except Refusal β}
      (hf : Untyped (f ())) : Untyped (need ok why >>= f) := (untyped_need ok why).bind fun _ => hf
  refine Untyped.bind ?_ fun kind => Untyped.bind ?_ fun _ => Untyped.bind ?_ fun _ =>
    Untyped.bind (untyped_forM (fun key => ?_) _) fun _ => ?_
  · refine hneed _ _ (hneed _ _ (h.bind fun kind => ?_))
    refine Untyped.bind (untyped_forM (fun key => untyped_need _ _) _) fun _ => ?_
    exact hneed _ _ (hneed _ _ (hneed _ _ (hneed _ _ (hneed _ _ (hneed _ _ (untyped_ok kind))))))
  · refine hneed _ _ ((untyped_forM (fun key => untyped_need _ _) _).bind fun _ => ?_)
    split_ifs
    · exact hneed _ _ (hneed _ _ (untyped_need _ _))
    · exact untyped_ok ()
  · exact hneed _ _ (hneed _ _ (hneed _ _ (untyped_need _ _)))
  · unfold pathComponentCheck
    split <;> first | exact untyped_ok () | exact untyped_need _ _
  · unfold attachmentsCheck
    split
    · exact untyped_ok ()
    · refine untyped_forM (fun att => ?_) _
      split
      · exact untyped_ok ()
      · exact nofun
    · exact nofun

end AiMeshChat.Mailbox
