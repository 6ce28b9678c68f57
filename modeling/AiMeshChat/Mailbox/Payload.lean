import AiMeshChat.Mailbox.Store

/-!
# What a repeated send accepts as its earlier copy

`send` writes its message twice, bare and with its `_cursor`, and a repeated send
takes whichever copy it finds. `Copy` is what it then needs of that copy: the
payload is the same, the message is valid, and it carries the identifier. Both
forms are copies (`copy_messageOf`, `Copy.stamp`), since neither the comparison
nor the validation looks at the cursor.
-/

namespace AiMeshChat.Mailbox

/-- A copy that a repeated send accepts and completes from. -/
structure Copy (a : SendArgs) (mid : String) (refs : List AttachmentRef) (x : Json) : Prop where
  dict : x.isDict = true
  same : samePayload x a refs = true
  valid : validateMessage x (some a.sessionId) none none = .ok ()
  msgId : (x.get? "msg_id").bind Json.str? = some mid

theorem lookup_optText (k key v : String) :
    (optText k v).lookup key = if key = k ∧ v ≠ "" then some (.str v) else none := by
  unfold optText
  by_cases hv : v = ""
  · simp [hv]
  · by_cases hk : key = k
    · simp [hv, hk]
    · have : (key == k) = false := by simpa using hk
      simp [hv, hk, List.lookup_cons, this]

theorem attachmentsEq_refl (l : List Json) : attachmentsEq l l = true := by
  simp only [attachmentsEq, decide_true, Bool.true_and, Bool.and_self, List.all_eq_true,
    decide_eq_true_eq]
  exact fun x hx => List.mem_map_of_mem hx

theorem sameText_of_get? {x : Json} {key v : String}
    (h : x.get? key = if v ≠ "" then some (.str v) else none) : sameText x key v = true := by
  by_cases hv : v = ""
  · simp [sameText, h, hv]
  · simp [sameText, h, hv]

theorem toDict_get?_optional (m : Message) {key : String}
    (h : key ∉ ["session_id", "from", "to", "subject", "body", "kind", "msg_id", "created_at",
      "protocol_version", "require_ack"]) :
    m.toDict.get? key = ((((((((optText "receipt_type" m.receiptType).lookup key).or
      ((optText "reply_to" m.replyTo).lookup key)).or ((optText "run_id" m.runId).lookup key)).or
      ((optText "request_id" m.requestId).lookup key)).or
      ((optText "command_id" m.commandId).lookup key)).or
      ((optText "trace_id" m.traceId).lookup key)).or
      ((optText "causation_id" m.causationId).lookup key)).or
      ((if m.attachments = [] then []
        else [("attachments", .arr (m.attachments.map AttachmentRef.toDict))]).lookup key) := by
  simp only [List.mem_cons, List.not_mem_nil, or_false, not_or] at h
  simp only [Message.toDict, Json.get?_obj, List.lookup_append, List.lookup_cons,
    beq_false_of_ne h.1, beq_false_of_ne h.2.1, beq_false_of_ne h.2.2.1, beq_false_of_ne h.2.2.2.1,
    beq_false_of_ne h.2.2.2.2.1, beq_false_of_ne h.2.2.2.2.2.1, beq_false_of_ne h.2.2.2.2.2.2.1,
    beq_false_of_ne h.2.2.2.2.2.2.2.1, beq_false_of_ne h.2.2.2.2.2.2.2.2.1,
    beq_false_of_ne h.2.2.2.2.2.2.2.2.2, List.lookup_nil, Option.none_or]

theorem samePayload_messageOf (a : SendArgs) (mid t : String) (refs : List AttachmentRef) :
    samePayload (messageOf a mid t refs).toDict a refs = true := by
  simp only [samePayload, Bool.and_eq_true, decide_eq_true_eq]
  refine ⟨⟨⟨⟨⟨⟨⟨⟨⟨⟨⟨⟨⟨⟨rfl, rfl⟩, rfl⟩, rfl⟩, rfl⟩, rfl⟩, ?reply⟩, ?run⟩, ?request⟩, ?command⟩, ?trace⟩,
    ?causation⟩, rfl⟩, ?receipt⟩, ?attachments⟩
  case attachments =>
    by_cases hrefs : refs = []
    · subst hrefs
      rw [toDict_get?_optional _ (by decide)]
      simp [lookup_optText, messageOf, attachmentsEq_refl]
    · rw [toDict_get?_optional _ (by decide)]
      simp [lookup_optText, messageOf, hrefs, attachmentsEq_refl]
  all_goals
    refine sameText_of_get? ?_
    rw [toDict_get?_optional _ (by decide)]
    by_cases hrefs : refs = [] <;> simp [lookup_optText, messageOf, hrefs, List.lookup_cons]

theorem forM_congr {ε β : Type} {f g : β → Except ε Unit} {l : List β}
    (h : ∀ b ∈ l, f b = g b) : l.forM f = l.forM g := by
  induction l with
  | nil => rfl
  | cons b l ih =>
    show (f b >>= fun _ => l.forM f) = (g b >>= fun _ => l.forM g)
    rw [h b List.mem_cons_self, ih fun b' hb' => h b' (List.mem_cons_of_mem _ hb')]

section Validation

/-- The fields whose value no check looks at. -/
def uncheckedFields : List String := ["_cursor", "created_at"]

/-- The same message but for its cursor and its time, which is a string in both or
in neither. -/
structure SameChecked (x y : Json) : Prop where
  dict : y.isDict = x.isDict
  fields : ∀ key, key ∉ uncheckedFields → y.get? key = x.get? key
  time : (y.get? "created_at").map (·.str?.isSome) = (x.get? "created_at").map (·.str?.isSome)

variable {x y : Json}

theorem SameChecked.textOf (h : SameChecked x y) {key : String} (hkey : key ∉ uncheckedFields) :
    textOf y key = textOf x key := by
  rw [Mailbox.textOf, Mailbox.textOf, h.fields key hkey]

theorem SameChecked.isNone (h : SameChecked x y) {key : String} (hkey : key ≠ "_cursor") :
    (y.get? key).isNone = (x.get? key).isNone := by
  by_cases htime : key = "created_at"
  · subst htime
    have := congrArg Option.isNone h.time
    simpa using this
  · rw [h.fields key (by simp [uncheckedFields, hkey, htime])]

theorem SameChecked.isStr (h : SameChecked x y) {key : String} (hkey : key ≠ "_cursor") :
    ((y.get? key).bind Json.str?).isSome = ((x.get? key).bind Json.str?).isSome := by
  by_cases htime : key = "created_at"
  · subst htime
    have := h.time
    cases hx : x.get? "created_at" <;> cases hy : y.get? "created_at" <;> simp_all
  · rw [h.fields key (by simp [uncheckedFields, hkey, htime])]

theorem SameChecked.schemaCheck (h : SameChecked x y) : schemaCheck y = schemaCheck x := by
  have hmissing : REQUIRED_FIELDS.filter (fun key => (y.get? key).isNone) =
      REQUIRED_FIELDS.filter (fun key => (x.get? key).isNone) := by
    refine List.filter_congr fun key hkey => h.isNone ?_
    rintro rfl
    exact absurd hkey (by decide)
  have hkind : kindOf y = kindOf x := by rw [kindOf, kindOf, h.fields "kind" (by decide)]
  have htexts : (["subject", "body", "session_id", "from", "to", "msg_id", "created_at"].forM
      fun key => need (((y.get? key).bind Json.str?).isSome) s!"{key} must be string") =
      ["subject", "body", "session_id", "from", "to", "msg_id", "created_at"].forM
      fun key => need (((x.get? key).bind Json.str?).isSome) s!"{key} must be string" := by
    refine forM_congr fun key hkey => ?_
    rw [h.isStr (by rintro rfl; exact absurd hkey (by decide))]
  simp only [Mailbox.schemaCheck, h.dict, hmissing, hkind, htexts, Json.getStr,
    h.fields "protocol_version" (by decide), h.fields "require_ack" (by decide),
    h.fields "receipt_type" (by decide),
    h.textOf (show "receipt_type" ∉ uncheckedFields by decide),
    h.textOf (show "subject" ∉ uncheckedFields by decide),
    h.textOf (show "body" ∉ uncheckedFields by decide)]

theorem SameChecked.kindCheck (h : SameChecked x y) (kind : String) :
    kindCheck y kind = kindCheck x kind := by
  have hextra : ∀ key ∈ kindConditionalRequired kind, y.get? key = x.get? key := by
    intro key hkey
    refine h.fields key fun hun => ?_
    unfold kindConditionalRequired at hkey
    rcases List.mem_cons.mp hun with rfl | hun
    · split_ifs at hkey <;> exact absurd hkey (by decide)
    · obtain rfl := List.mem_singleton.mp hun
      split_ifs at hkey <;> exact absurd hkey (by decide)
  have hmissing : (kindConditionalRequired kind).filter (fun key => (y.get? key).isNone) =
      (kindConditionalRequired kind).filter (fun key => (x.get? key).isNone) :=
    List.filter_congr fun key hkey => by rw [hextra key hkey]
  simp only [Mailbox.kindCheck, hmissing, h.fields "require_ack" (by decide),
    h.textOf (show "receipt_type" ∉ uncheckedFields by decide),
    h.textOf (show "reply_to" ∉ uncheckedFields by decide)]
  refine bind_congr fun _ => ?_
  refine congrArg (· >>= _) (forM_congr fun key hkey => ?_)
  rw [hextra key hkey]

theorem SameChecked.validateMessage (h : SameChecked x y) (session agent filename : Option String) :
    validateMessage y session agent filename = validateMessage x session agent filename := by
  have hpaths : ["request_id", "run_id", "reply_to"].forM (pathComponentCheck y) =
      ["request_id", "run_id", "reply_to"].forM (pathComponentCheck x) := by
    refine forM_congr fun key hkey => ?_
    have hun : key ∉ uncheckedFields := by
      intro hun
      rcases List.mem_cons.mp hun with rfl | hun
      · exact absurd hkey (by decide)
      · obtain rfl := List.mem_singleton.mp hun
        exact absurd hkey (by decide)
    rw [pathComponentCheck, pathComponentCheck, h.fields key hun]
  have hatts : attachmentsCheck y = attachmentsCheck x := by
    rw [attachmentsCheck, attachmentsCheck, h.fields "attachments" (by decide)]
  have hexp : expectedCheck y session agent filename = expectedCheck x session agent filename := by
    simp only [expectedCheck, h.textOf (show "session_id" ∉ uncheckedFields by decide),
      h.textOf (show "to" ∉ uncheckedFields by decide),
      h.textOf (show "msg_id" ∉ uncheckedFields by decide)]
  simp only [Mailbox.validateMessage, h.schemaCheck, h.kindCheck, hexp, hpaths, hatts]

theorem SameChecked.samePayload (h : SameChecked x y) (a : SendArgs) (refs : List AttachmentRef) :
    samePayload y a refs = samePayload x a refs := by
  have hf := h.fields
  simp only [Mailbox.samePayload, sameText, hf "session_id" (by decide), hf "from" (by decide),
    hf "to" (by decide), hf "subject" (by decide), hf "body" (by decide), hf "kind" (by decide),
    hf "reply_to" (by decide), hf "run_id" (by decide), hf "request_id" (by decide),
    hf "command_id" (by decide), hf "trace_id" (by decide), hf "causation_id" (by decide),
    hf "require_ack" (by decide), hf "receipt_type" (by decide), hf "attachments" (by decide)]

theorem sameChecked_set_cursor (x v : Json) : SameChecked x (x.set "_cursor" v) where
  dict := Json.isDict_set x v "_cursor"
  fields key hkey := Json.get?_set_ne x v (by rintro rfl; exact hkey (by decide))
  time := by rw [Json.get?_set_ne x v (by decide)]

theorem sameChecked_createdAt (a : SendArgs) (mid t t' : String) (refs : List AttachmentRef) :
    SameChecked (messageOf a mid t refs).toDict (messageOf a mid t' refs).toDict where
  dict := rfl
  fields key hkey := by
    have hne : (key == "created_at") = false := by
      simp only [uncheckedFields, List.mem_cons, List.not_mem_nil, or_false, not_or] at hkey
      simpa using hkey.2
    simp only [Message.toDict, messageOf, Json.get?_obj, List.lookup_append, List.lookup_cons, hne]
    rfl
  time := rfl

end Validation

theorem Copy.stamp {a : SendArgs} {mid : String} {refs : List AttachmentRef} {x : Json}
    (h : Copy a mid refs x) (v : Json) : Copy a mid refs (x.set "_cursor" v) := by
  have hsame := sameChecked_set_cursor x v
  refine ⟨hsame.dict.trans h.dict, ?_, ?_, ?_⟩
  · rw [hsame.samePayload]; exact h.same
  · rw [hsame.validateMessage]; exact h.valid
  · rw [hsame.fields "msg_id" (by decide)]; exact h.msgId

theorem copy_messageOf {a : SendArgs} {mid t : String} {refs : List AttachmentRef}
    (h : validateMessage (messageOf a mid t refs).toDict (some a.sessionId) none none = .ok ()) :
    Copy a mid refs (messageOf a mid t refs).toDict :=
  ⟨rfl, samePayload_messageOf a mid t refs, h, rfl⟩

end AiMeshChat.Mailbox
