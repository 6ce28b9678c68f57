import AiMeshChat.Mailbox.NewMessage
import AiMeshChat.Stream.Parties

/-!
# A message that is streamed

What becomes of a message between the inbox of a helper's host and the inbox that the
receiver writes. Three lists of fields lie on the way: the payload of the event, the
fields that the receiver takes over, and the defaults of `Message.from_dict`. The copy
is again a message (`storedMessage_payloadOf`): of the first version, without a request
for an ack, a receipt type, a command and a cause, and addressed to the receiving agent.

What the receiver stores therefore has the other fields of the original
(`copyOf_get?`), and passes the checks of `read` unless it is a receipt (`copyOf_valid`).
-/

namespace AiMeshChat.Stream

open Lib Mailbox

/-! ## The copy -/

/-- The copy of a message that the receiver stores for an agent. -/
def copyOf (m : Message) (agent : String) : Message :=
  { m with
    toId := agent
    protocolVersion := 1
    requireAck := false
    receiptType := ""
    commandId := ""
    causationId := "" }

/-- The message with the cursor that `send` gave it. -/
def cursored (m : Message) (cursor : String) : Json := m.toDict.set "_cursor" (.str cursor)

theorem attachmentRoundTrip_toDict (a : AttachmentRef) :
    attachmentRoundTrip a.toDict = some a.toDict := rfl

theorem attachmentsRoundTrip_toDict (as : List AttachmentRef) :
    attachmentsRoundTrip (some (.arr (as.map AttachmentRef.toDict))) =
      some (as.map AttachmentRef.toDict) := by
  have hdicts : (as.map AttachmentRef.toDict).filter Json.isDict = as.map AttachmentRef.toDict := by
    rw [List.filter_eq_self]
    intro d hd
    obtain ⟨a, _, rfl⟩ := List.mem_map.mp hd
    rfl
  show ((as.map AttachmentRef.toDict).filter Json.isDict).mapM attachmentRoundTrip = _
  rw [hdicts]
  induction as with
  | nil => rfl
  | cons a as ih =>
    have hrest : (as.map AttachmentRef.toDict).filter Json.isDict =
        as.map AttachmentRef.toDict := (List.cons_eq_cons.mp hdicts).2
    rw [List.map_cons, List.mapM_cons, attachmentRoundTrip_toDict, ih hrest]
    rfl

/-! ### The event -/

theorem lookup_map_pair (f : String → Json) (l : List String) (key : String) :
    (l.map fun k => (k, f k)).lookup key = if key ∈ l then some (f key) else none := by
  induction l with
  | nil => rfl
  | cons k l ih =>
    rw [List.map_cons, List.lookup_cons, ih]
    by_cases hk : key = k
    · subst hk
      simp
    · rw [beq_false_of_ne hk]
      simp [hk]

theorem lookup_ifSet (x : Json) (k key : String) :
    (ifSet x k).lookup key = if key = k then (x.get? k).filter Json.truthy else none := by
  unfold ifSet
  cases hx : x.get? k with
  | none => simp
  | some v =>
    by_cases hkey : key = k
    · subst hkey
      cases hv : v.truthy <;> simp [hv, Option.filter]
    · cases hv : v.truthy <;> simp [hkey]

section Event

variable (m : Message) (cursor : String)

theorem cursored_get? {key : String} (h : key ≠ "_cursor") :
    (cursored m cursor).get? key = m.toDict.get? key := Json.get?_set_ne _ _ h

theorem cursored_cursor : (cursored m cursor).get? "_cursor" = some (.str cursor) := by
  have hnone : m.toDict.get? "_cursor" = none := by
    rw [toDict_get?_optional _ (by decide)]
    by_cases hatts : m.attachments = [] <;> simp [lookup_optText, hatts, List.lookup_cons]
  obtain ⟨fields, hfields⟩ : ∃ fields, m.toDict = .obj fields := ⟨_, rfl⟩
  rw [hfields, Json.get?_obj] at hnone
  rw [cursored, hfields, Json.set, hnone]
  show (fields ++ [("_cursor", Json.str cursor)]).lookup "_cursor" = _
  rw [List.lookup_append, hnone]
  rfl

theorem toDict_text {key v : String}
    (h : (key, v) ∈ [("reply_to", m.replyTo), ("run_id", m.runId), ("request_id", m.requestId),
      ("trace_id", m.traceId)]) : m.toDict.get? key = if v = "" then none else some (.str v) := by
  have hkeys : key = "reply_to" ∧ v = m.replyTo ∨ key = "run_id" ∧ v = m.runId ∨
      key = "request_id" ∧ v = m.requestId ∨ key = "trace_id" ∧ v = m.traceId := by
    simpa using h
  rcases hkeys with ⟨rfl, rfl⟩ | ⟨rfl, rfl⟩ | ⟨rfl, rfl⟩ | ⟨rfl, rfl⟩ <;>
  · rw [toDict_get?_optional _ (by decide)]
    by_cases hatts : m.attachments = [] <;> simp [lookup_optText, hatts, List.lookup_cons]

theorem toDict_attachments : m.toDict.get? "attachments" =
    if m.attachments = [] then none
    else some (.arr (m.attachments.map AttachmentRef.toDict)) := by
  rw [toDict_get?_optional _ (by decide)]
  by_cases hatts : m.attachments = [] <;> simp [lookup_optText, hatts]

theorem payload_get? {key : String} (h : key ∈ payloadKeys) :
    (payloadOf (cursored m cursor)).get? key =
      some ((m.toDict.get? key).getD (.str "")) := by
  have hcursor : key ≠ "_cursor" := by
    rintro rfl
    exact absurd h (by decide)
  rw [payloadOf, Json.get?_obj, List.lookup_append, List.lookup_append,
    lookup_map_pair fun k => ((cursored m cursor).get? k).getD (.str ""), if_pos h,
    cursored_get? m cursor hcursor]
  rfl

theorem payload_set {key : String} (h : key ∉ payloadKeys) :
    (payloadOf (cursored m cursor)).get? key =
      if key = "attachments" ∨ key = "trace_id" then (m.toDict.get? key).filter Json.truthy
      else none := by
  rw [payloadOf, Json.get?_obj, List.lookup_append, List.lookup_append,
    lookup_map_pair fun k => ((cursored m cursor).get? k).getD (.str ""), if_neg h, lookup_ifSet,
    lookup_ifSet, cursored_get? m cursor (by decide), cursored_get? m cursor (by decide)]
  by_cases hatts : key = "attachments"
  · subst hatts
    simp
  · by_cases htrace : key = "trace_id"
    · subst htrace
      simp
    · simp [hatts, htrace]

theorem ifSet_payload {key v : String} (h : (key, v) ∈ [("reply_to", m.replyTo),
    ("run_id", m.runId), ("request_id", m.requestId), ("trace_id", m.traceId)]) :
    ifSet (payloadOf (cursored m cursor)) key = optText key v := by
  have htext := toDict_text m h
  have hget : (payloadOf (cursored m cursor)).get? key = some (.str v) ∨
      v = "" ∧ (payloadOf (cursored m cursor)).get? key = none := by
    by_cases hkey : key ∈ payloadKeys
    · rw [payload_get? m cursor hkey, htext]
      by_cases hv : v = "" <;> simp [hv]
    · have htrace : key = "trace_id" := by
        have hkeys : key = "reply_to" ∧ v = m.replyTo ∨ key = "run_id" ∧ v = m.runId ∨
            key = "request_id" ∧ v = m.requestId ∨ key = "trace_id" ∧ v = m.traceId := by
          simpa using h
        rcases hkeys with ⟨rfl, _⟩ | ⟨rfl, _⟩ | ⟨rfl, _⟩ | ⟨rfl, _⟩
        · exact absurd (by decide) hkey
        · exact absurd (by decide) hkey
        · exact absurd (by decide) hkey
        · rfl
      rw [payload_set m cursor hkey, if_pos (.inr htrace), htext]
      by_cases hv : v = ""
      · exact .inr ⟨hv, by simp [hv]⟩
      · exact .inl (by simp [hv, Option.filter, Json.truthy])
  rcases hget with hget | ⟨rfl, hget⟩
  · rw [ifSet, hget, optText]
    by_cases hv : v = "" <;> simp [hv, Json.truthy]
  · rw [ifSet, hget]
    rfl

/-- **The copy is a message again.** -/
theorem storedMessage_payloadOf (agent : String) :
    storedMessage m.sessionId agent (payloadOf (cursored m cursor)) =
      some (copyOf m agent).toDict := by
  have hatts : attachmentsRoundTrip ((payloadOf (cursored m cursor)).get? "attachments") =
      some (m.attachments.map AttachmentRef.toDict) := by
    rw [payload_set m cursor (by decide), if_pos (.inl rfl), toDict_attachments]
    by_cases hnone : m.attachments = []
    · simp [hnone, attachmentsRoundTrip]
    · rw [if_neg hnone]
      have htruthy : (Json.arr (m.attachments.map AttachmentRef.toDict)).truthy = true := by
        simpa [Json.truthy] using hnone
      rw [Option.filter, if_pos htruthy]
      exact attachmentsRoundTrip_toDict m.attachments
  have hcause : ifSet (payloadOf (cursored m cursor)) "causation_id" = [] := by
    rw [ifSet, payload_set m cursor (by decide), if_neg (by decide)]
  have hfield {key : String} (v dflt : String) (hkey : key ∈ payloadKeys)
      (hv : m.toDict.get? key = some (.str v)) :
      ((payloadOf (cursored m cursor)).get? key).getD (.str dflt) = .str v := by
    rw [payload_get? m cursor hkey, hv]
    rfl
  have hreply := ifSet_payload m cursor (show ("reply_to", m.replyTo) ∈ _ by simp)
  have hrun := ifSet_payload m cursor (show ("run_id", m.runId) ∈ _ by simp)
  have hrequest := ifSet_payload m cursor (show ("request_id", m.requestId) ∈ _ by simp)
  have htrace := ifSet_payload m cursor (show ("trace_id", m.traceId) ∈ _ by simp)
  have hfrom := hfield m.fromId "" (show "from" ∈ payloadKeys by decide) rfl
  have hsubject := hfield m.subject "" (show "subject" ∈ payloadKeys by decide) rfl
  have hbody := hfield m.body "" (show "body" ∈ payloadKeys by decide) rfl
  have hkind := hfield m.kind "TASK" (show "kind" ∈ payloadKeys by decide) rfl
  have hmid := hfield m.msgId "" (show "msg_id" ∈ payloadKeys by decide) rfl
  have htime := hfield m.createdAt "" (show "created_at" ∈ payloadKeys by decide) rfl
  rw [storedMessage, hatts]
  show some (Json.obj _) = _
  dsimp only
  rw [hreply, hrun, hrequest, htrace, hcause, hfrom, hsubject, hbody, hkind, hmid, htime]
  have hempty : (if m.attachments.map AttachmentRef.toDict = [] then []
      else [("attachments", Json.arr (m.attachments.map AttachmentRef.toDict))]) =
      if m.attachments = [] then []
      else [("attachments", Json.arr (m.attachments.map AttachmentRef.toDict))] := by
    by_cases hnone : m.attachments = [] <;> simp [hnone]
  have hcleared (key : String) : optText key "" = [] := rfl
  rw [hempty, Message.toDict]
  simp only [copyOf, hcleared, List.append_nil]
  rfl

/-! ### Its fields -/

/-- The fields that a copy has in common with the original. -/
def carriedFields : List String :=
  ["session_id", "from", "subject", "body", "kind", "msg_id", "created_at", "reply_to", "run_id",
    "request_id", "trace_id", "attachments"]

theorem copyOf_text (agent : String) {key v : String} (h : (key, v) ∈ [("reply_to", m.replyTo),
    ("run_id", m.runId), ("request_id", m.requestId), ("trace_id", m.traceId)]) :
    (copyOf m agent).toDict.get? key = m.toDict.get? key := by
  rw [toDict_text m h, toDict_text (copyOf m agent) h]

theorem copyOf_get? (agent : String) {key : String} (h : key ∈ carriedFields) :
    (copyOf m agent).toDict.get? key = m.toDict.get? key := by
  simp only [carriedFields, List.mem_cons, List.not_mem_nil, or_false] at h
  rcases h with rfl | rfl | rfl | rfl | rfl | rfl | rfl | rfl | rfl | rfl | rfl | rfl
  · rfl
  · rfl
  · rfl
  · rfl
  · rfl
  · rfl
  · rfl
  · exact copyOf_text m agent (v := m.replyTo) (by simp)
  · exact copyOf_text m agent (v := m.runId) (by simp)
  · exact copyOf_text m agent (v := m.requestId) (by simp)
  · exact copyOf_text m agent (v := m.traceId) (by simp)
  · rw [toDict_attachments, toDict_attachments]
    rfl

end Event

/-! ### The checks of a reader -/

section Valid

variable {m : Message} {agent : String}

/-- The checks of the fields of a message that `to_dict` wrote. -/
theorem schemaCheck_toDict (m : Message) (hkind : m.kind ∈ VALID_KINDS)
    (hversion : 1 ≤ m.protocolVersion)
    (hreceipt : m.receiptType = "" ∨ m.receiptType = RECEIPT_READ)
    (hsubject : isBlank m.subject = false) (hbody : isBlank m.body = false) :
    schemaCheck m.toDict = .ok m.kind := by
  have hmissing : REQUIRED_FIELDS.filter (fun key => (m.toDict.get? key).isNone) = [] := rfl
  have hk : kindOf m.toDict = .ok m.kind := by
    show (if m.kind ∈ VALID_KINDS then _ else _) = _
    rw [if_pos hkind]
  have htype : m.toDict.getStr "receipt_type" = some m.receiptType ∧
      textOf m.toDict "receipt_type" = m.receiptType := by
    have hget : m.toDict.get? "receipt_type" =
        if m.receiptType = "" then none else some (.str m.receiptType) := by
      rw [toDict_get?_optional _ (by decide)]
      by_cases hatts : m.attachments = [] <;> simp [lookup_optText, hatts, List.lookup_cons]
    rw [Json.getStr, textOf, hget]
    by_cases hempty : m.receiptType = "" <;> simp [hempty, Json.str?]
  have hrt : (m.receiptType = "" || m.receiptType = RECEIPT_READ) = true := by
    simpa using hreceipt
  refine bind_eq_ok.mpr ⟨(), need_eq_ok.mpr rfl, ?_⟩
  refine bind_eq_ok.mpr ⟨(), need_eq_ok.mpr (by rw [hmissing]; rfl), ?_⟩
  refine bind_eq_ok.mpr ⟨m.kind, hk, bind_eq_ok.mpr ⟨(), rfl, ?_⟩⟩
  refine bind_eq_ok.mpr ⟨(), need_eq_ok.mpr (decide_eq_true hversion), ?_⟩
  refine bind_eq_ok.mpr ⟨(), need_eq_ok.mpr rfl, ?_⟩
  refine bind_eq_ok.mpr ⟨(), need_eq_ok.mpr (by rw [htype.1]; rfl), ?_⟩
  refine bind_eq_ok.mpr ⟨(), need_eq_ok.mpr (by rw [htype.2]; exact hrt), ?_⟩
  refine bind_eq_ok.mpr ⟨(), need_eq_ok.mpr ?_, bind_eq_ok.mpr ⟨(), need_eq_ok.mpr ?_, rfl⟩⟩
  · show (!isBlank m.subject) = true
    rw [hsubject]
    rfl
  · show (!isBlank m.body) = true
    rw [hbody]
    rfl

theorem schemaCheck_of_valid {session : Option String}
    (h : validateMessage m.toDict session none none = .ok ()) :
    schemaCheck m.toDict = .ok m.kind ∧ m.kind ∈ VALID_KINDS ∧ isBlank m.subject = false ∧
      isBlank m.body = false := by
  obtain ⟨kind, hall, _⟩ := bind_eq_ok.mp h
  obtain ⟨_, _, hschema⟩ := bind_eq_ok.mp hall
  obtain ⟨_, _, hschema⟩ := bind_eq_ok.mp hschema
  obtain ⟨kind', hkind, hschema⟩ := bind_eq_ok.mp hschema
  obtain ⟨_, _, hschema⟩ := bind_eq_ok.mp hschema
  obtain ⟨_, _, hschema⟩ := bind_eq_ok.mp hschema
  obtain ⟨_, _, hschema⟩ := bind_eq_ok.mp hschema
  obtain ⟨_, _, hschema⟩ := bind_eq_ok.mp hschema
  obtain ⟨_, _, hschema⟩ := bind_eq_ok.mp hschema
  obtain ⟨_, hsubject, hschema⟩ := bind_eq_ok.mp hschema
  obtain ⟨_, hbody, hschema⟩ := bind_eq_ok.mp hschema
  have hk : (if m.kind ∈ VALID_KINDS then Except.ok m.kind else _) = Except.ok kind' := hkind
  have hs : (!isBlank m.subject) = true := need_eq_ok.mp hsubject
  have hb : (!isBlank m.body) = true := need_eq_ok.mp hbody
  by_cases hmem : m.kind ∈ VALID_KINDS
  · rw [if_pos hmem] at hk
    cases hk
    cases hschema
    exact ⟨hall, hmem, by simpa using hs, by simpa using hb⟩
  · rw [if_neg hmem] at hk
    cases hk

theorem kindCheck_copyOf (hkind : m.kind ≠ "RECEIPT") :
    kindCheck (copyOf m agent).toDict m.kind = kindCheck m.toDict m.kind := by
  have hextra : ∀ key ∈ kindConditionalRequired m.kind,
      (copyOf m agent).toDict.get? key = m.toDict.get? key := by
    intro key hkey
    refine copyOf_get? m agent ?_
    unfold kindConditionalRequired at hkey
    rw [if_neg hkind] at hkey
    have hall : ∀ key ∈ ["reply_to", "request_id", "run_id"], key ∈ carriedFields := by decide
    split at hkey
    · exact hall key (List.mem_cons_of_mem _ hkey)
    · split at hkey
      · exact hall key hkey
      · cases hkey
  have hmissing : (kindConditionalRequired m.kind).filter
      (fun key => ((copyOf m agent).toDict.get? key).isNone) =
      (kindConditionalRequired m.kind).filter (fun key => (m.toDict.get? key).isNone) :=
    List.filter_congr fun key hkey => by rw [hextra key hkey]
  simp only [kindCheck, hmissing, if_neg hkind]
  refine bind_congr fun _ => ?_
  refine congrArg (· >>= _) (forM_congr fun key hkey => ?_)
  rw [hextra key hkey]

/-- **The copy passes the checks of a reader**, unless it is a receipt. -/
theorem copyOf_valid (hvalid : validateMessage m.toDict (some m.sessionId) none none = .ok ())
    (hkind : m.kind ≠ "RECEIPT") :
    validateMessage (copyOf m agent).toDict (some m.sessionId) (some agent)
      (some (jsonName m.msgId)) = .ok () := by
  obtain ⟨hall, hvalidKind, hsubject, hbody⟩ := schemaCheck_of_valid hvalid
  have hschema : schemaCheck (copyOf m agent).toDict = .ok m.kind :=
    schemaCheck_toDict (copyOf m agent) hvalidKind (le_refl 1) (.inl rfl) hsubject hbody
  rw [validateMessage, hall] at hvalid
  obtain ⟨_, hextras, hrest⟩ :=
    bind_eq_ok.mp (show (kindCheck m.toDict m.kind >>= _) = _ from hvalid)
  obtain ⟨_, hexpected, hrest⟩ := bind_eq_ok.mp hrest
  obtain ⟨_, hpaths, hatts⟩ := bind_eq_ok.mp hrest
  have hslashes : (!contains "/" m.msgId && !contains "\\" m.msgId) = true := by
    obtain ⟨_, _, hexpected⟩ := bind_eq_ok.mp hexpected
    obtain ⟨_, _, hexpected⟩ := bind_eq_ok.mp hexpected
    obtain ⟨_, _, hexpected⟩ := bind_eq_ok.mp hexpected
    exact need_eq_ok.mp hexpected
  have hpaths' : ["request_id", "run_id", "reply_to"].forM
      (pathComponentCheck (copyOf m agent).toDict) = .ok () := by
    rw [← hpaths]
    refine forM_congr fun key hkey => ?_
    have hall : ∀ key ∈ ["request_id", "run_id", "reply_to"], key ∈ carriedFields := by decide
    rw [pathComponentCheck, pathComponentCheck, copyOf_get? m agent (hall key hkey)]
  rw [validateMessage, hschema]
  show (kindCheck (copyOf m agent).toDict m.kind >>= _) = _
  rw [kindCheck_copyOf hkind, hextras]
  refine bind_eq_ok.mpr ⟨(), rfl, bind_eq_ok.mpr ⟨(), ?_, bind_eq_ok.mpr ⟨(), hpaths', ?_⟩⟩⟩
  · refine bind_eq_ok.mpr ⟨(), need_eq_ok.mpr ?_, bind_eq_ok.mpr ⟨(), need_eq_ok.mpr ?_,
      bind_eq_ok.mpr ⟨(), need_eq_ok.mpr ?_, need_eq_ok.mpr hslashes⟩⟩⟩
    · exact decide_eq_true rfl
    · show (decide (agent = agent) || decide (agent = BROADCAST_TO)) = true
      simp
    · exact decide_eq_true rfl
  · rw [attachmentsCheck, copyOf_get? m agent (by decide)]
    exact hatts

end Valid

/-! ## The receiver -/

section Receiver

open NewMessage Replay

variable {i : ℕ} {s : Disk} {α : Type}

theorem tryWrite_bind_ends {p : MPath} {x : Data} {f : Except OsErr Unit → Call α}
    {Q : Except PyErr α → Disk → Prop} (hd : p.dir ∈ s.dirs)
    (h : ∀ t, (f (.ok ())).Ends world i NoFault (s.write p x t) Q) :
    (tryWrite p x >>= f).Ends world i NoFault s Q := by
  refine Prog.ends_op_bind fun c a s₁ hc hp => ?_
  have hc : c.fault = false := hc
  simp only [world, Disk.perform, hc, hd, not_true_eq_false, if_false, Bool.false_eq_true] at hp
  cases hp
  exact h _

theorem tryReplace_bind_ends {src dst : MPath} {f : Except OsErr Unit → Call α}
    {Q : Except PyErr α → Disk → Prop} {x : MFile} (hs : s.files.get? src = some x)
    (hd : dst.dir ∈ s.dirs)
    (h : (f (.ok ())).Ends world i NoFault { s with files := s.files.move src dst } Q) :
    (tryReplace src dst >>= f).Ends world i NoFault s Q := by
  refine Prog.ends_op_bind fun c a s₁ hc hp => ?_
  have hc : c.fault = false := hc
  have hn : (s.files.get? src).isNone = false := by
    rw [hs]
    rfl
  simp only [world, Disk.perform, hc, hd, hn, not_true_eq_false, if_false, Bool.false_eq_true,
    or_self] at hp
  cases hp
  exact h

/-- The identifier of the event on the disk of the receiver. -/
def Absent (s : Disk) (sid agent mid : String) : Prop :=
  ∀ b ∈ [Box.inbox, .processing, .archive], s.files.get? ⟨.box sid agent b, jsonName mid⟩ = none

theorem isMsgOnDisk_absent_ends {sid agent mid : String} (hsid : agentIdOk sid = true)
    (hagent : agentIdOk agent = true) (bs : List Box)
    (h : ∀ b ∈ bs, s.files.get? ⟨.box sid agent b, jsonName mid⟩ = none) :
    (isMsgOnDisk sid agent (jsonName mid) bs).Ends world i NoFault s fun r s' =>
      r = .ok false ∧ s' = s := by
  induction bs with
  | nil => exact Prog.ends_ret ⟨rfl, rfl⟩
  | cons b bs ih =>
    refine agentSubdir_ready_ends hagent hsid (fileExists_ends ?_)
    rw [h b List.mem_cons_self]
    exact ih fun b' hb' => h b' (List.mem_cons_of_mem _ hb')

theorem writeToInbox_ends {sid agent mid : String} {event y : Json} (hsid : agentIdOk sid = true)
    (hagent : agentIdOk agent = true) (habsent : Absent s sid agent mid)
    (hstored : storedMessage sid agent event = some y) :
    (writeToInbox sid agent mid event).Ends world i NoFault s fun r s' => r = .ok () ∧
      (wireMsgIdOk mid = true → ∃ t n,
        s'.files.get? ⟨.box sid agent .inbox, jsonName mid⟩ = some ⟨.json y, t, n⟩) ∧
      (wireMsgIdOk mid = false → s' = s) := by
  unfold writeToInbox
  cases hwire : wireMsgIdOk mid with
  | false => exact Prog.ends_ret ⟨rfl, fun h => (by cases h), fun _ => rfl⟩
  | true =>
    refine agentSubdir_ready_ends hagent hsid (mkdir_bind_ends fun s₁ hfiles hd _ => ?_)
    refine fileExists_ends ?_
    rw [hfiles, habsent .inbox (by simp), hstored]
    refine tryWrite_bind_ends hd fun t => ?_
    obtain ⟨n, hn⟩ :=
      Files.get?_write_self s₁.files ⟨.box sid agent .inbox, tmpName mid⟩ (.json y) t
    refine tryReplace_bind_ends hn hd (Prog.ends_ret ⟨rfl, fun _ => ⟨t, n, ?_⟩, fun h => ?_⟩)
    · exact (Files.get?_move hn _ _).trans (if_pos rfl)
    · cases h

theorem handleStreamEvent_ends {sid agent mid : String} {seen : List Json} {event y : Json}
    (hsid : agentIdOk sid = true) (hagent : agentIdOk agent = true)
    (hmid : event.get? "msg_id" = some (.str mid)) (hne : mid ≠ "") (hseen : .str mid ∉ seen)
    (habsent : Absent s sid agent mid) (hstored : storedMessage sid agent event = some y) :
    (handleStreamEvent sid agent seen event).Ends world i NoFault s fun r s' =>
      r = .ok (.str mid :: seen) ∧
      (wireMsgIdOk mid = true → ∃ t n,
        s'.files.get? ⟨.box sid agent .inbox, jsonName mid⟩ = some ⟨.json y, t, n⟩) ∧
      (wireMsgIdOk mid = false → s' = s) := by
  have hnew : ¬(!(Json.str mid).truthy || decide (Json.str mid ∈ seen)) = true := by
    simp [Json.truthy, hne, hseen]
  unfold handleStreamEvent
  rw [hmid]
  show (if (!(Json.str mid).truthy || decide (Json.str mid ∈ seen)) = true then _ else _ :
    Call (List Json)).Ends world i NoFault s _
  rw [if_neg hnew]
  refine (isMsgOnDisk_absent_ends hsid hagent _ habsent).bind ?_ fun e s₁ h => by cases h.1
  rintro _ s₁ ⟨hno, rfl⟩
  cases hno
  refine (writeToInbox_ends hsid hagent habsent hstored).bind ?_ fun e s₂ h => by cases h.1
  rintro _ s₂ ⟨_, hwritten⟩
  exact Prog.ends_ret ⟨rfl, hwritten⟩

/-! ## From poll to inbox -/

/-- The client handles the frame of a message, and the receiver what `poll` returns. -/
def passOn (client : SSHStream) (e : StreamEvent) (sid agent : String) (seen : List Json) :
    Call (List Json) :=
  match client.handle (.event e) with
  | some client => handleStreamEvents sid agent seen client.events
  | none => .raise (.type "unhashable type")

theorem handle_new {client : SSHStream} {e : StreamEvent} {mid : String}
    (hmid : e.msgId = .str mid) (hne : mid ≠ "") (hnew : .str mid ∉ client.seenMsgIds) :
    ∃ client', client.handle (.event e) = some client' ∧
      client'.events = client.events ++ [e.payload] := by
  have hhash : e.hashable = true := by rw [StreamEvent.hashable, hmid]
  have htruthy : (Json.str mid).truthy = true := by simp [Json.truthy, hne]
  have hseen : (client.addSeen (.str mid)).events = client.events := by
    unfold SSHStream.addSeen SSHStream.pruneSeenIds
    split <;> rfl
  unfold SSHStream.handle
  simp only [hmid, hhash, htruthy, hnew, decide_false, Bool.and_false, Bool.not_true, if_false,
    if_true, Bool.false_eq_true]
  refine ⟨_, rfl, ?_⟩
  split
  · show (client.addSeen (.str mid)).events ++ _ = _
    rw [hseen]
  · show (client.addSeen (.str mid)).events ++ _ = _
    rw [hseen]

theorem pollMessage_sends {sub : StreamSubscription} {b cursor : String} {m : Message} {p : Poll}
    (hcursor : cursor ≠ "") (hnewer : cursorGt cursor sub.cursor = true)
    (hfits : (lineChars (eventOf sub b cursor (cursored m cursor)).toDict).length ≤
      MAX_LINE_LENGTH) :
    (pollMessage sub b (cursored m cursor) p).head? =
      some (.emit (.event (eventOf sub b cursor (cursored m cursor)))) := by
  have hdict : ¬(!(cursored m cursor).isDict) = true := by
    rw [cursored, Json.isDict_set]
    simp [Message.toDict, Json.isDict]
  have hold : ¬(decide (cursor = "") || !cursorGt cursor sub.cursor) = true := by
    simp [hcursor, hnewer]
  unfold pollMessage
  rw [if_neg hdict, cursored_cursor]
  show (if (decide (cursor = "") || !cursorGt cursor sub.cursor) = true then _ else _ :
    LinkCall Walk).head? = _
  rw [if_neg hold, sendFrame, if_neg (Nat.not_lt.mpr hfits)]
  rfl

/-- **What the receiver stores of a message**: nothing, if the identifier has other characters
than letters, digits, `_` and `-`; else a copy under its own name, with all fields but the
version and those on acks, receipts, commands and causes, which a reader accepts unless it
is a receipt. -/
theorem stream_copy {a : SendArgs} {mid time cursor agent b : String} {sub : StreamSubscription}
    {client : SSHStream} {seen : List Json} (haccept : accepts a mid = true)
    (hmid : msgIdOk mid = true) (hsid : agentIdOk a.sessionId = true)
    (hagent : agentIdOk agent = true) (hcursor : cursor ≠ "")
    (hnewer : cursorGt cursor sub.cursor = true)
    (hfits : (lineChars (eventOf sub b cursor
      (cursored (messageOf a mid time (refsOf a)) cursor)).toDict).length ≤ MAX_LINE_LENGTH)
    (hreturned : client.events = []) (hnew : .str mid ∉ client.seenMsgIds)
    (hseen : .str mid ∉ seen) (habsent : Absent s a.sessionId agent mid) :
    (∀ p, (pollMessage sub b (cursored (messageOf a mid time (refsOf a)) cursor) p).head? =
      some (.emit (.event (eventOf sub b cursor
        (cursored (messageOf a mid time (refsOf a)) cursor))))) ∧
    (passOn client (eventOf sub b cursor (cursored (messageOf a mid time (refsOf a)) cursor))
      a.sessionId agent seen).Ends world i NoFault s fun r s' => (∃ seen', r = .ok seen') ∧
        (wireMsgIdOk mid = true → ∃ y t n,
          s'.files.get? ⟨.box a.sessionId agent .inbox, jsonName mid⟩ = some ⟨.json y, t, n⟩ ∧
          (∀ key ∈ carriedFields, y.get? key =
            (cursored (messageOf a mid time (refsOf a)) cursor).get? key) ∧
          y.get? "to" = some (.str agent) ∧
          (a.kind ≠ "RECEIPT" → validateMessage y (some a.sessionId) (some agent)
            (some (jsonName mid)) = .ok ())) ∧
        (wireMsgIdOk mid = false → s' = s) := by
  refine ⟨fun p => pollMessage_sends hcursor hnewer hfits, ?_⟩
  have hne : mid ≠ "" := by
    rintro rfl
    cases hmid
  have hevent : (payloadOf (cursored (messageOf a mid time (refsOf a)) cursor)).get? "msg_id" =
      some (.str mid) := payload_get? _ _ (by decide)
  have hid : (eventOf sub b cursor (cursored (messageOf a mid time (refsOf a)) cursor)).msgId =
      .str mid := by
    rw [StreamEvent.msgId, eventOf, hevent]
    rfl
  obtain ⟨client', hhandle, hevents⟩ := handle_new hid hne hnew
  have hvalid : validateMessage (messageOf a mid time (refsOf a)).toDict (some a.sessionId) none
      none = .ok () := by
    rw [(sameChecked_createdAt a mid "" time (refsOf a)).validateMessage]
    rw [accepts, Bool.and_eq_true, decide_eq_true_eq] at haccept
    exact haccept.2
  have hstored := storedMessage_payloadOf (messageOf a mid time (refsOf a)) cursor agent
  unfold passOn
  rw [hhandle]
  dsimp only
  rw [hevents, hreturned]
  refine (handleStreamEvent_ends hsid hagent hevent hne hseen habsent hstored).bind ?_
    fun e s₁ h => by cases h.1
  rintro seen' s₁ ⟨_, hyes, hno⟩
  refine Prog.ends_ret ⟨⟨seen', rfl⟩, fun hwire => ?_, hno⟩
  obtain ⟨t, n, hfile⟩ := hyes hwire
  refine ⟨_, t, n, hfile, fun key hkey => ?_, rfl, fun hkind => copyOf_valid hvalid hkind⟩
  have hkey' : key ≠ "_cursor" := by
    rintro rfl
    exact absurd hkey (by decide)
  rw [copyOf_get? _ agent hkey, cursored_get? _ cursor hkey']

end Receiver

/-! ### Four messages -/

/-- A task for the manager. -/
def plainTask : SendArgs :=
  { sessionId := "s", fromId := "w", toId := "m", subject := "a", body := "b", kind := "TASK",
    runId := "r", requestId := "q" }

/-- A task for all. -/
def announcement : SendArgs := { plainTask with toId := BROADCAST_TO }

/-- The receipt for a message that the worker read. -/
def readReceipt : SendArgs :=
  { plainTask with kind := "RECEIPT", replyTo := "x0", receiptType := RECEIPT_READ }

/-- A subscription of the manager that has seen nothing. -/
def newSub : StreamSubscription :=
  { requestId := "q", sessionId := "s", agentId := "m", cursor := "0" }

/-- The receiver's session. -/
def homeSession : Disk := newSession "s" "m" ["w"] 0

/-- The message as it lies in the inbox of the helper's host. -/
def original (a : SendArgs) (mid : String) : Json :=
  cursored (messageOf a mid "t" (NewMessage.refsOf a)) "7/000001"

/-- The receiver's part for a message to the manager. -/
def received (a : SendArgs) (mid : String) : Call (List Json) :=
  passOn { sessionId := "s", agentId := "m" } (eventOf newSub "m" "7/000001" (original a mid)) "s"
    "m" []

/-- All fields of the protocol. -/
def protocolFields : List String :=
  carriedFields ++
    ["to", "protocol_version", "require_ack", "receipt_type", "command_id", "causation_id"]

/-- The inbox of the agent has a copy with all fields of the original, which a reader
accepts. -/
def preserved (s : Disk) (sid agent mid : String) (x : Json) : Bool :=
  match s.files.get? ⟨.box sid agent .inbox, jsonName mid⟩ with
  | some ⟨.json y, _, _⟩ => protocolFields.all (fun key => decide (y.get? key = x.get? key)) &&
      decide (validateMessage y (some sid) (some agent) (some (jsonName mid)) = .ok ())
  | _ => false

/-- The copy of a task. -/
theorem stream_copy_task : ∃ r s', (received plainTask "x1").Runs world 0 Replay.NoFault
    homeSession r s' ∧ ∃ y t n,
      s'.files.get? ⟨.box "s" "m" .inbox, jsonName "x1"⟩ = some ⟨.json y, t, n⟩ ∧
      (∀ key ∈ carriedFields, y.get? key = (original plainTask "x1").get? key) ∧
      y.get? "to" = some (.str "m") ∧
      validateMessage y (some "s") (some "m") (some (jsonName "x1")) = .ok () := by
  obtain ⟨⟨r, s'⟩, hrun⟩ : ∃ x, (received plainTask "x1").exec world 0 {} 40 homeSession = some x :=
    Option.isSome_iff_exists.mp (by decide +kernel)
  have hrun := Prog.runs_of_exec (P := Replay.NoFault) (show Replay.NoFault {} from rfl) hrun
  have habsent : Absent homeSession "s" "m" "x1" := by
    intro b hb
    simp only [List.mem_cons, List.not_mem_nil, or_false] at hb
    rcases hb with rfl | rfl | rfl <;> decide +kernel
  have hcopy := @stream_copy 0 homeSession plainTask "x1" "t" "7/000001" "m" "m" newSub
    { sessionId := "s", agentId := "m" } [] (by decide +kernel) (by decide) (by decide) (by decide)
    (by decide) (by decide +kernel) (by decide +kernel) rfl (by simp) (by simp) habsent
  obtain ⟨_, hends⟩ := hcopy
  obtain ⟨_, hyes, _⟩ := hends r s' hrun
  obtain ⟨y, t, n, hfile, hfields, hto, hvalid⟩ := hyes (by decide)
  exact ⟨r, s', hrun, y, t, n, hfile, hfields, hto, hvalid (by decide)⟩

/-- The store accepts the message for the manager or for all, and a run of the receiver does
not preserve it. -/
def NotPreserved (a : SendArgs) (mid : String) : Prop :=
  NewMessage.accepts a mid = true ∧ msgIdOk mid = true ∧ (a.toId = "m" ∨ a.toId = BROADCAST_TO) ∧
    ¬ (received a mid).Ends world 0 Replay.NoFault homeSession fun _ s' =>
      preserved s' "s" "m" mid (original a mid) = true

/-- A task, a task under an identifier with a dot, a task for all and a receipt are accepted
by the store, and not preserved. -/
theorem streamed_not_preserved : NotPreserved plainTask "x1" ∧ NotPreserved plainTask "x.1" ∧
    NotPreserved announcement "x1" ∧ NotPreserved readReceipt "x1" := by
  have hdiffer (a : SendArgs) (mid : String) (hexec : ((received a mid).exec world 0 {} 40
      homeSession).any (fun x => !preserved x.2 "s" "m" mid (original a mid)) = true) :
      ¬ (received a mid).Ends world 0 Replay.NoFault homeSession fun _ s' =>
        preserved s' "s" "m" mid (original a mid) = true := by
    intro h
    obtain ⟨⟨r, s'⟩, hrun, hno⟩ := (Option.any_eq_true _ _).mp hexec
    have hyes := h r s' (Prog.runs_of_exec (P := Replay.NoFault) (show Replay.NoFault {} from rfl)
      hrun)
    rw [hyes] at hno
    cases hno
  refine ⟨?_, ?_, ?_, ?_⟩
  · exact ⟨by decide +kernel, by decide, .inl rfl, hdiffer _ _ (by decide +kernel)⟩
  · exact ⟨by decide +kernel, by decide, .inl rfl, hdiffer _ _ (by decide +kernel)⟩
  · exact ⟨by decide +kernel, by decide, .inr rfl, hdiffer _ _ (by decide +kernel)⟩
  · exact ⟨by decide +kernel, by decide, .inl rfl, hdiffer _ _ (by decide +kernel)⟩

end AiMeshChat.Stream
