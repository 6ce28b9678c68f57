import AiMeshChat.JsonText
import AiMeshChat.Lib.Argparse
import AiMeshChat.Mailbox.Protocol

/-!
# The command line of the mailbox: `send`

The parser of `mailbox/cli.py` for the sub-command `send`, and `_parse_attachment_args`.
A parser without positional arguments takes everything after the name of the sub-command.
-/

namespace AiMeshChat.Mailbox.Cli

open Lib.Argparse

/-- What the branches of `main` raise, apart from what the store does. -/
inductive CliError
  | value (msg : String)
  | key (name : String)
  | recursion
  deriving DecidableEq

/-- An option with a value, as all but a few are. -/
def opt (flag dest : String) : Opt := { flags := [flag], dest := dest }

/-- The options of `send`. -/
def sendOpts : List Opt :=
  [helpOpt, opt "--session" "session", opt "--from" "from_worker", opt "--to" "to",
    opt "--subject" "subject", opt "--body" "body",
    { opt "--template" "template" with accepts := (· ∈ ["report", "task", "receipt"]) },
    { opt "--kind" "kind" with accepts := (· ∈ VALID_KINDS) },
    opt "--reply-to" "reply_to", opt "--run-id" "run_id", opt "--request-id" "request_id",
    opt "--causation-id" "causation_id", opt "--trace-id" "trace_id", opt "--msg-id" "msg_id",
    { opt "--require-ack" "require_ack" with takesValue := false },
    opt "--receipt-type" "receipt_type", opt "--attachment" "attachment"]

/-- The namespace of `send`. -/
structure SendNs where
  session : String
  fromWorker : String
  toId : String
  subject : String
  body : String
  template : Option String
  kind : String
  replyTo : String
  runId : String
  requestId : String
  causationId : String
  traceId : String
  msgId : Option String
  requireAck : Bool
  receiptType : String
  attachment : List String
  deriving DecidableEq

/-- The namespace that the options make, with its defaults. -/
def SendNs.of (hits : List Hit) : SendNs where
  session := (value? hits "session").getD ""
  fromWorker := (value? hits "from_worker").getD ""
  toId := (value? hits "to").getD ""
  subject := (value? hits "subject").getD ""
  body := (value? hits "body").getD ""
  template := value? hits "template"
  kind := (value? hits "kind").getD "TASK"
  replyTo := (value? hits "reply_to").getD ""
  runId := (value? hits "run_id").getD ""
  requestId := (value? hits "request_id").getD ""
  causationId := (value? hits "causation_id").getD ""
  traceId := (value? hits "trace_id").getD ""
  msgId := value? hits "msg_id"
  requireAck := values hits "require_ack" ≠ []
  receiptType := (value? hits "receipt_type").getD ""
  attachment := values hits "attachment"

/-- The parser of `send`; `none` where it exits. -/
def parseSend : List String → Option SendNs
  | "send" :: rest => (parseArgs sendOpts rest).map SendNs.of
  | _ => none

/-- `d[key]`. -/
def item (d : Json) (key : String) : Except CliError Json :=
  match d.get? key with
  | some v => .ok v
  | none => .error (.key key)

/-- `AttachmentRef.from_dict(d).to_dict()`: the fields may have any values. -/
def refDict (d : Json) : Except CliError Json := do
  let artifactId ← item d "artifact_id"
  let sourceHost ← item d "source_host"
  let remoteRoot ← item d "remote_root"
  let relativePath ← item d "relative_path"
  let size ← item d "size"
  let sha256 ← item d "sha256"
  let mediaType := (d.get? "media_type").getD (.str DEFAULT_MEDIA_TYPE)
  return .obj [("artifact_id", artifactId), ("source_host", sourceHost),
    ("remote_root", remoteRoot), ("relative_path", relativePath), ("size", size),
    ("sha256", sha256), ("media_type", mediaType)]

/-- `type(v).__name__`. -/
def typeName : Json → String
  | .null => "NoneType"
  | .bool _ => "bool"
  | .int _ => "int"
  | .float _ => "float"
  | .str _ => "str"
  | .arr _ => "list"
  | .obj _ => "dict"

/-- `_parse_attachment_args`, with `depth` levels of nesting for `json.loads`. -/
def parseAttachmentArgs (depth : ℕ) : List String → Except CliError (List Json)
  | [] => .ok []
  | text :: rest =>
    match loads depth text.toList with
    | .error .recursion => .error .recursion
    | .error .invalid => .error (.value "--attachment is not valid JSON")
    | .ok d =>
      if !d.isDict then
        .error (.value ("--attachment must be a JSON object, got " ++ typeName d))
      else do
        let r ← refDict d
        let rs ← parseAttachmentArgs depth rest
        return r :: rs

theorem refDict_toDict (r : AttachmentRef) : refDict r.toDict = .ok r.toDict := rfl

/-- `json.loads` reads the dict of a reference back. -/
def RefReadsBack (depth : ℕ) (r : AttachmentRef) : Prop :=
  ∃ d, loads depth (lineChars r.toDict) = .ok d ∧ refDict d = .ok r.toDict

theorem parseAttachmentArgs_iff {depth : ℕ} {refs : List AttachmentRef} :
    parseAttachmentArgs depth (refs.map fun r => String.ofList (lineChars r.toDict)) =
      .ok (refs.map AttachmentRef.toDict) ↔ ∀ r ∈ refs, RefReadsBack depth r := by
  induction refs with
  | nil => exact ⟨fun _ r hr => (List.not_mem_nil hr).elim, fun _ => rfl⟩
  | cons r refs ih =>
    rw [List.forall_mem_cons, ← ih]
    simp only [List.map_cons, parseAttachmentArgs, String.toList_ofList, RefReadsBack]
    constructor
    · intro h
      cases hl : loads depth (lineChars r.toDict) with
      | error e => rw [hl] at h; cases e <;> cases h
      | ok d =>
        rw [hl] at h
        dsimp only at h
        split at h
        · cases h
        · obtain ⟨x, hx, h⟩ := bind_eq_ok.mp h
          obtain ⟨xs, hxs, h⟩ := bind_eq_ok.mp h
          injection h with h
          obtain ⟨rfl, rfl⟩ := List.cons.inj h
          exact ⟨⟨d, rfl, hx⟩, hxs⟩
    · rintro ⟨⟨d, hl, hd⟩, hrest⟩
      have hdict : d.isDict = true := by
        cases d with
        | obj fields => rfl
        | _ => cases hd
      rw [hl]
      simp only [hdict, Bool.not_true, Bool.false_eq_true, if_false, hd, hrest]
      rfl

/-- `json.loads` reads the dict of a reference back unless its size has too many digits. -/
theorem loads_short {depth : ℕ} {r : AttachmentRef} (h : shortInt r.size.natAbs) :
    loads (depth + 1) (lineChars r.toDict) = .ok r.toDict := by
  have hproper : Proper (depth + 1) r.toDict := by
    refine ⟨by simp, ?_⟩
    rw [properFields_iff]
    intro kv hkv
    simp only [List.mem_cons, List.not_mem_nil, or_false] at hkv
    rcases hkv with rfl | rfl | rfl | rfl | rfl | rfl | rfl <;> trivial
  rw [lineChars_eq]
  exact loads_spaced hproper

theorem readsBack_of_short {depth : ℕ} {r : AttachmentRef} (h : shortInt r.size.natAbs) :
    RefReadsBack (depth + 1) r := ⟨_, loads_short h, refDict_toDict r⟩

theorem scanMembers_size {d n : ℕ} {r : AttachmentRef} (h : ¬ shortInt r.size.natAbs) :
    scanMembers (scanValue d) (n + 5) (jsonChars "artifact_id" ++ [':', ' '] ++
      jsonText [',', ' '] [':', ' '] (.str r.artifactId) ++ membersText [',', ' '] [':', ' ']
        [("source_host", .str r.sourceHost), ("remote_root", .str r.remoteRoot),
          ("relative_path", .str r.relativePath), ("size", .int r.size), ("sha256", .str r.sha256),
          ("media_type", .str r.mediaType)] ++ []) = .error .invalid := by
  have hstr (s : String) (rest : List Char) :
      scanValue d (jsonText [',', ' '] [':', ' '] (.str s) ++ rest) = .ok (.str s, rest) := by
    obtain ⟨cs, hcs, hs⟩ := scanString_jsonChars s rest
    refine scanValue_of_scanAtom ?_
    rw [jsonText, hcs, scanAtom, hs]
    simp
  obtain ⟨c, cs, hcs, hc⟩ := toString_cons r.size
  have hsize (rest : List Char) (hrest : numEnd rest = true) :
      scanValue d (jsonText [',', ' '] [':', ' '] (.int r.size) ++ rest) = .error .invalid := by
    have hatom := scanAtom_long r.size h hrest
    rw [hcs, List.cons_append] at hatom
    rw [jsonText, hcs, List.cons_append, scanValue_eq_scanAtom, hatom]
    · rintro rfl
      rcases hc with hc | hc <;> exact absurd hc (by decide)
    · rintro rfl
      rcases hc with hc | hc <;> exact absurd hc (by decide)
  have hstart : startsValue (jsonText [',', ' '] [':', ' '] (.int r.size)) = true := by
    rw [jsonText, hcs]
    rcases hc with hc | rfl
    · have hne {x : Char} (hx : x.isDigit = false) : c ≠ x := by
        rintro rfl
        rw [hx] at hc
        cases hc
      simp [startsValue, isWs, hne]
    · rfl
  rw [scanMembers_more separators rfl (hstr _ _), scanMembers_more separators rfl (hstr _ _),
    scanMembers_more separators rfl (hstr _ _), scanMembers_more separators rfl (hstr _ _),
    scanMembers_error separators hstart (hsize _ rfl)]
  rfl

theorem loads_long {depth : ℕ} {r : AttachmentRef} (hshort : ¬ shortInt r.size.natAbs) :
    loads (depth + 1) (lineChars r.toDict) = .error .invalid := by
  obtain ⟨X, hX, hscan⟩ : ∃ X, lineChars r.toDict = '\x7b' :: '"' :: X ∧
      scanMembers (scanValue depth) ('"' :: X).length ('"' :: X) = .error .invalid := by
    have hlen := length_membersText separators
      [("source_host", .str r.sourceHost), ("remote_root", .str r.remoteRoot),
        ("relative_path", .str r.relativePath), ("size", .int r.size), ("sha256", .str r.sha256),
        ("media_type", .str r.mediaType)]
    obtain ⟨cs, hcs, _⟩ := scanString_jsonChars "artifact_id" ([':', ' '] ++
      jsonText [',', ' '] [':', ' '] (.str r.artifactId) ++ membersText [',', ' '] [':', ' ']
      [("source_host", .str r.sourceHost), ("remote_root", .str r.remoteRoot),
        ("relative_path", .str r.relativePath), ("size", .int r.size), ("sha256", .str r.sha256),
        ("media_type", .str r.mediaType)])
    refine ⟨cs, ?_, ?_⟩
    · rw [lineChars_eq, ← hcs]
      simp only [AttachmentRef.toDict, jsonText, List.append_assoc, List.cons_append]
    · rw [← hcs]
      obtain ⟨n, hn⟩ : ∃ n, (jsonChars "artifact_id" ++ ([':', ' '] ++
          jsonText [',', ' '] [':', ' '] (.str r.artifactId) ++ membersText [',', ' '] [':', ' ']
          [("source_host", .str r.sourceHost), ("remote_root", .str r.remoteRoot),
            ("relative_path", .str r.relativePath), ("size", .int r.size),
            ("sha256", .str r.sha256), ("media_type", .str r.mediaType)])).length = n + 5 := by
        refine ⟨_ - 5, (Nat.sub_add_cancel ?_).symm⟩
        simp only [List.length_append, List.length_cons] at hlen ⊢
        omega
      have hsize := @scanMembers_size depth n r hshort
      rw [List.append_nil] at hsize
      rw [hn]
      simpa only [List.append_assoc] using hsize
  have hbom : ('\x7b' :: '"' :: X).head? ≠ some '\ufeff' := by
    rw [List.head?_cons]
    decide
  have hobj : scanValue (depth + 1) (skipWs ('\x7b' :: '"' :: X)) = .error .invalid := by
    show (scanMembers (scanValue depth) ('"' :: X).length ('"' :: X) >>= _) = _
    rw [hscan]
    rfl
  rw [hX, loads, if_neg hbom, hobj]
  rfl

/-- What `json.loads` reads of the dict of a reference is that dict. -/
theorem loads_toDict {depth : ℕ} {r : AttachmentRef} {d : Json}
    (h : loads (depth + 1) (lineChars r.toDict) = .ok d) : d = r.toDict := by
  by_cases hshort : shortInt r.size.natAbs
  · rw [loads_short hshort] at h
    injection h with h
    exact h.symm
  · rw [loads_long hshort] at h
    cases h

theorem parseAttachmentArgs_toDict {depth : ℕ} {refs : List AttachmentRef} {ds : List Json}
    (h : parseAttachmentArgs (depth + 1) (refs.map fun r => String.ofList (lineChars r.toDict)) =
      .ok ds) : ds = refs.map AttachmentRef.toDict := by
  induction refs generalizing ds with
  | nil =>
    injection h with h
    exact h.symm
  | cons r refs ih =>
    simp only [List.map_cons, parseAttachmentArgs, String.toList_ofList] at h
    cases hl : loads (depth + 1) (lineChars r.toDict) with
    | error e => rw [hl] at h; cases e <;> cases h
    | ok d =>
      have hd := loads_toDict hl
      rw [hl, hd] at h
      obtain ⟨x, hx, h⟩ := bind_eq_ok.mp h
      obtain ⟨xs, hxs, h⟩ := bind_eq_ok.mp h
      injection h with h
      rw [refDict_toDict] at hx
      injection hx with hx
      rw [← h, ih hxs, ← hx]
      rfl

end AiMeshChat.Mailbox.Cli
