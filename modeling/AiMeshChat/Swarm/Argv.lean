import AiMeshChat.Mailbox.Cli
import AiMeshChat.Swarm.Engine

/-!
# Envelopes as command lines

`_build_mailbox_args` writes an envelope as the arguments of `mailbox send`, and the parser
of `mailbox/cli.py` reads them again. Every text is a token of its own. A text such as
`-v` or `---` is therefore taken for an option, and the parser exits: `argv_read_back_iff`
says for which envelopes it does not.
-/

namespace AiMeshChat.Swarm

open Lib Lib.Argparse Mailbox.Cli
open Mailbox (AttachmentRef validateMessage texts_of_valid VALID_KINDS bind_eq_ok)

/-- The names of all options of `send`. -/
def sendFlags : List String := flagsOf sendOpts

/-- The dict of an envelope, without the keys that are internal to the engine. -/
def Envelope.dict (env : Envelope) (createdAt : String) : Json :=
  .obj ([("session_id", .str (env.sessionId.getD "")), ("from", .str env.fromId),
    ("to", .str env.toId), ("subject", .str env.subject), ("body", .str env.body),
    ("kind", .str env.kind), ("reply_to", .str env.replyTo), ("run_id", .str env.runId),
    ("request_id", .str env.requestId), ("trace_id", .str env.traceId),
    ("causation_id", .str env.causationId), ("require_ack", .bool env.requireAck),
    ("receipt_type", .str env.receiptType), ("msg_id", .str env.msgId),
    ("created_at", .str createdAt)] ++
    if env.attachments = [] then [] else [("attachments", .arr env.attachments)])

/-- The texts of an envelope that no check confines to letters and digits. -/
def Envelope.texts (env : Envelope) : List String :=
  [env.sessionId.getD "", env.fromId, env.toId, env.subject, env.body, env.msgId, env.replyTo,
    env.runId, env.requestId, env.traceId, env.causationId]

/-- The namespace has all fields of the envelope. -/
structure Carries (depth : ℕ) (a : SendNs) (env : Envelope) (refs : List AttachmentRef) : Prop where
  session : a.session = env.sessionId.getD ""
  fromWorker : a.fromWorker = env.fromId
  toId : a.toId = env.toId
  subject : a.subject = env.subject
  body : a.body = env.body
  kind : a.kind = env.kind
  msgId : a.msgId = some env.msgId
  replyTo : a.replyTo = env.replyTo
  runId : a.runId = env.runId
  requestId : a.requestId = env.requestId
  traceId : a.traceId = env.traceId
  causationId : a.causationId = env.causationId
  requireAck : a.requireAck = env.requireAck
  receiptType : a.receiptType = env.receiptType
  template : a.template = none
  attachments : parseAttachmentArgs depth a.attachment = .ok (refs.map AttachmentRef.toDict)

/-! ## The command line in pieces -/

/-- An option that is passed if its value is not empty. -/
def optPiece (flag value : String) : List Piece := if value = "" then [] else [(flag, some value)]

/-- The options that an envelope is written as. -/
def Envelope.pieces (env : Envelope) : List Piece :=
  [("--session", some (env.sessionId.getD "")), ("--from", some env.fromId),
    ("--to", some env.toId), ("--subject", some env.subject), ("--body", some env.body),
    ("--kind", some env.kind), ("--msg-id", some env.msgId)] ++
  (if env.requireAck then [("--require-ack", none)] else []) ++
  optPiece "--receipt-type" env.receiptType ++
  env.attachments.map (fun att => ("--attachment", some (dumpsLine att))) ++
  optPiece "--reply-to" env.replyTo ++ optPiece "--run-id" env.runId ++
  optPiece "--request-id" env.requestId ++ optPiece "--trace-id" env.traceId ++
  optPiece "--causation-id" env.causationId

theorem render_append (ps qs : List Piece) : render (ps ++ qs) = render ps ++ render qs := by
  induction ps with
  | nil => rfl
  | cons p ps ih =>
    obtain ⟨flag, v⟩ := p
    cases v with
    | none => rw [List.cons_append, render, render, ih, List.cons_append]
    | some v => rw [List.cons_append, render, render, ih, List.cons_append, List.cons_append]

theorem render_optPiece (flag value : String) : render (optPiece flag value) = optArg flag value := by
  unfold optPiece optArg
  split <;> rfl

theorem buildMailboxArgs_eq (env : Envelope) :
    buildMailboxArgs env = "send" :: render env.pieces := by
  have hack : render (if env.requireAck then [("--require-ack", none)] else []) =
      if env.requireAck then ["--require-ack"] else [] := by
    split <;> rfl
  have hatts (l : List Json) : render (l.map fun att => ("--attachment", some (dumpsLine att))) =
      l.flatMap fun att => ["--attachment", dumpsLine att] := by
    induction l with
    | nil => rfl
    | cons att l ih => rw [List.map_cons, render, ih, List.flatMap_cons]; rfl
  simp only [Envelope.pieces, render_append, render_optPiece, hack, hatts]
  rfl

/-- A piece of the parser of `send` with a value. -/
theorem known_value {flag : String} {o : Opt} (v : String) (h : find sendOpts flag = some o)
    (hflag : classify sendFlags flag = .option flag none) (ho : o.takesValue = true)
    (hhelp : o.help = false) : Piece.Known sendOpts (flag, some v) :=
  ⟨o, h, hflag, ho, hhelp⟩

theorem pieces_known (env : Envelope) : ∀ p ∈ env.pieces, p.Known sendOpts := by
  have hopt {flag : String} (value : String) (h : ∀ v, Piece.Known sendOpts (flag, some v)) :
      ∀ p ∈ optPiece flag value, p.Known sendOpts := by
    intro p hp
    unfold optPiece at hp
    split at hp
    · exact (List.not_mem_nil hp).elim
    · rw [List.mem_singleton.mp hp]
      exact h value
  intro p hp
  simp only [Envelope.pieces, List.mem_append] at hp
  rcases hp with (((((((hp | hp) | hp) | hp) | hp) | hp) | hp) | hp) | hp
  · simp only [List.mem_cons, List.not_mem_nil, or_false] at hp
    rcases hp with rfl | rfl | rfl | rfl | rfl | rfl | rfl
    · exact known_value _ rfl (by decide +kernel) rfl rfl
    · exact known_value _ rfl (by decide +kernel) rfl rfl
    · exact known_value _ rfl (by decide +kernel) rfl rfl
    · exact known_value _ rfl (by decide +kernel) rfl rfl
    · exact known_value _ rfl (by decide +kernel) rfl rfl
    · exact known_value _ rfl (by decide +kernel) rfl rfl
    · exact known_value _ rfl (by decide +kernel) rfl rfl
  · split at hp
    · rw [List.mem_singleton.mp hp]
      exact ⟨_, rfl, by decide +kernel, rfl, rfl⟩
    · exact (List.not_mem_nil hp).elim
  · exact hopt _ (fun v => known_value v rfl (by decide +kernel) rfl rfl) p hp
  · obtain ⟨att, _, rfl⟩ := List.mem_map.mp hp
    exact known_value _ rfl (by decide +kernel) rfl rfl
  · exact hopt _ (fun v => known_value v rfl (by decide +kernel) rfl rfl) p hp
  · exact hopt _ (fun v => known_value v rfl (by decide +kernel) rfl rfl) p hp
  · exact hopt _ (fun v => known_value v rfl (by decide +kernel) rfl rfl) p hp
  · exact hopt _ (fun v => known_value v rfl (by decide +kernel) rfl rfl) p hp
  · exact hopt _ (fun v => known_value v rfl (by decide +kernel) rfl rfl) p hp

/-! ## Which pieces pass -/

theorem passes_value {flag : String} {o : Opt} {v : String} (h : find sendOpts flag = some o)
    (hacc : o.accepts v = true) :
    Piece.passes sendOpts (flag, some v) = isArgument sendFlags v := by
  simp [Piece.passes, h, hacc, sendFlags]

theorem passes_optPiece {flag : String} {o : Opt} {v : String} (h : find sendOpts flag = some o)
    (hacc : o.accepts v = true) :
    (optPiece flag v).all (Piece.passes sendOpts) = isArgument sendFlags v := by
  unfold optPiece
  split
  · next he =>
    subst he
    rfl
  · rw [List.all_cons, passes_value h hacc, List.all_nil, Bool.and_true]

theorem isArgument_kind {kind : String} (h : kind ∈ VALID_KINDS) :
    isArgument sendFlags kind = true := by
  simp only [VALID_KINDS, List.mem_cons, List.not_mem_nil, or_false] at h
  rcases h with rfl | rfl | rfl | rfl | rfl | rfl | rfl | rfl <;> rfl

theorem isArgument_toDict (r : AttachmentRef) :
    isArgument sendFlags (dumpsLine r.toDict) = true := by
  refine isArgument_of_head ?_
  rw [dumpsLine, String.toList_ofList, AttachmentRef.toDict, lineChars]
  simp

theorem pieces_pass {env : Envelope} {refs : List AttachmentRef}
    (hrefs : env.attachments = refs.map AttachmentRef.toDict) (hkind : env.kind ∈ VALID_KINDS)
    (hreceipt : env.receiptType = "" ∨ env.receiptType = "READ") :
    env.pieces.all (Piece.passes sendOpts) = true ↔
      ∀ text ∈ env.texts, isArgument sendFlags text = true := by
  have hatts : (env.attachments.map fun att => ("--attachment", some (dumpsLine att))).all
      (Piece.passes sendOpts) = true := by
    rw [hrefs, List.all_eq_true]
    intro p hp
    obtain ⟨att, hatt, rfl⟩ := List.mem_map.mp hp
    obtain ⟨r, _, rfl⟩ := List.mem_map.mp hatt
    rw [passes_value rfl rfl]
    exact isArgument_toDict r
  have hack : (if env.requireAck then [("--require-ack", none)] else [] : List Piece).all
      (Piece.passes sendOpts) = true := by
    split <;> rfl
  have hreceipt' : isArgument sendFlags env.receiptType = true := by
    rcases hreceipt with he | he <;> rw [he] <;> rfl
  have hkind' : Piece.passes sendOpts ("--kind", some env.kind) = true :=
    (passes_value (o := { opt "--kind" "kind" with accepts := (· ∈ VALID_KINDS) }) rfl
      (decide_eq_true hkind)).trans (isArgument_kind hkind)
  rw [Envelope.pieces]
  simp only [List.all_append, hatts, hack, List.all_cons, List.all_nil, Bool.and_true, hkind',
    Bool.and_eq_true, true_and]
  rw [passes_optPiece rfl rfl, passes_optPiece rfl rfl, passes_optPiece rfl rfl,
    passes_optPiece rfl rfl, passes_optPiece rfl rfl, passes_optPiece rfl rfl,
    passes_value rfl rfl, passes_value rfl rfl, passes_value rfl rfl, passes_value rfl rfl,
    passes_value rfl rfl, passes_value rfl rfl]
  simp only [Envelope.texts, List.forall_mem_cons, hreceipt', List.not_mem_nil, false_implies,
    implies_true, and_true]
  tauto

/-! ## What is read -/

/-- The values of every destination. -/
def Envelope.values (env : Envelope) : List (String × List String) :=
  let opt (v : String) : List String := if v = "" then [] else [v]
  [("session", [env.sessionId.getD ""]), ("from_worker", [env.fromId]), ("to", [env.toId]),
    ("subject", [env.subject]), ("body", [env.body]), ("kind", [env.kind]),
    ("msg_id", [env.msgId]), ("require_ack", if env.requireAck then [""] else []),
    ("receipt_type", opt env.receiptType), ("attachment", env.attachments.map dumpsLine),
    ("reply_to", opt env.replyTo), ("run_id", opt env.runId), ("request_id", opt env.requestId),
    ("trace_id", opt env.traceId), ("causation_id", opt env.causationId)]

theorem lookup_eq_flatMap {l : List (String × List String)} (h : (l.map (·.1)).Nodup)
    (key : String) : (l.flatMap fun x => if x.1 = key then x.2 else []) =
      (l.lookup key).getD [] := by
  induction l with
  | nil => rfl
  | cons x l ih =>
    obtain ⟨hx, hl⟩ := List.nodup_cons.mp h
    rw [List.flatMap_cons, ih hl, List.lookup_cons]
    by_cases hk : x.1 = key
    · have hnone : l.lookup key = none := by
        rw [List.lookup_eq_none_iff]
        intro y hy
        have hne : x.1 ≠ y.1 := by
          intro he
          exact hx (List.mem_map.mpr ⟨y, hy, he.symm⟩)
        simpa [hk] using hne
      rw [if_pos hk, hnone, hk, beq_self_eq_true]
      simp
    · rw [if_neg hk, List.nil_append, beq_false_of_ne (Ne.symm hk)]

theorem values_optPiece {flag : String} {o : Opt} (v dest : String)
    (h : find sendOpts flag = some o) :
    Argparse.values ((optPiece flag v).map (Piece.hit sendOpts)) dest =
      if o.dest = dest then (if v = "" then [] else [v]) else [] := by
  unfold optPiece
  split
  · split <;> rfl
  · simp [Piece.hit, h, values_cons, values_nil]

theorem values_pieces (env : Envelope) (dest : String) :
    Argparse.values (env.pieces.map (Piece.hit sendOpts)) dest =
      (env.values.lookup dest).getD [] := by
  have hack : Argparse.values ((if env.requireAck then [("--require-ack", none)] else []
      : List Piece).map (Piece.hit sendOpts)) dest =
      if "require_ack" = dest then (if env.requireAck then [""] else []) else [] := by
    split
    · show Argparse.values [("require_ack", "")] dest = _
      rw [values_cons, values_nil]
    · split <;> rfl
  have hatts : Argparse.values ((env.attachments.map fun att =>
      ("--attachment", some (dumpsLine att))).map (Piece.hit sendOpts)) dest =
      if "attachment" = dest then env.attachments.map dumpsLine else [] := by
    induction env.attachments with
    | nil => split <;> rfl
    | cons att l ih =>
      have hhit : Piece.hit sendOpts ("--attachment", some (dumpsLine att)) =
          ("attachment", dumpsLine att) := rfl
      rw [List.map_cons, List.map_cons, values_cons, ih, hhit]
      split <;> rfl
  have hcons (d v : String) (hits : List Hit) : Argparse.values ((d, v) :: hits) dest =
      (if d = dest then [v] else []) ++ Argparse.values hits dest := by
    rw [values_cons]
    split <;> rfl
  have hfixed : Argparse.values (([("--session", some (env.sessionId.getD "")),
      ("--from", some env.fromId), ("--to", some env.toId), ("--subject", some env.subject),
      ("--body", some env.body), ("--kind", some env.kind), ("--msg-id", some env.msgId)]
        : List Piece).map (Piece.hit sendOpts)) dest =
      Argparse.values [("session", env.sessionId.getD ""), ("from_worker", env.fromId),
        ("to", env.toId), ("subject", env.subject), ("body", env.body), ("kind", env.kind),
        ("msg_id", env.msgId)] dest := rfl
  have hnodup : (env.values.map (·.1)).Nodup := by
    show ["session", "from_worker", "to", "subject", "body", "kind", "msg_id", "require_ack",
      "receipt_type", "attachment", "reply_to", "run_id", "request_id", "trace_id",
      "causation_id"].Nodup
    decide
  rw [← lookup_eq_flatMap hnodup, Envelope.pieces]
  simp only [List.map_append, values_append, hfixed, hack, hatts, hcons, values_nil]
  rw [values_optPiece _ _ rfl, values_optPiece _ _ rfl, values_optPiece _ _ rfl,
    values_optPiece _ _ rfl, values_optPiece _ _ rfl, values_optPiece _ _ rfl]
  simp only [Envelope.values, List.flatMap_cons, List.flatMap_nil, List.append_assoc,
    List.append_nil, opt]
  rfl

theorem ns_of_pieces (env : Envelope) :
    SendNs.of (env.pieces.map (Piece.hit sendOpts)) =
      { session := env.sessionId.getD "", fromWorker := env.fromId, toId := env.toId,
        subject := env.subject, body := env.body, template := none, kind := env.kind,
        replyTo := env.replyTo, runId := env.runId, requestId := env.requestId,
        causationId := env.causationId, traceId := env.traceId, msgId := some env.msgId,
        requireAck := env.requireAck, receiptType := env.receiptType,
        attachment := env.attachments.map dumpsLine } := by
  have hopt (v : String) : (if v = "" then [] else [v] : List String).getLast?.getD "" = v := by
    split
    · next he => rw [he]; rfl
    · rfl
  have hack : decide ((if env.requireAck then [""] else [] : List String) ≠ []) =
      env.requireAck := by
    cases env.requireAck <;> rfl
  unfold SendNs.of value?
  simp only [values_pieces]
  rw [SendNs.mk.injEq]
  exact ⟨rfl, rfl, rfl, rfl, rfl, rfl, rfl, hopt _, hopt _, hopt _, hopt _, hopt _, rfl, hack,
    hopt _, rfl⟩

theorem parse_pieces (env : Envelope) : parseSend (buildMailboxArgs env) =
    if env.pieces.all (Piece.passes sendOpts) then
      some (SendNs.of (env.pieces.map (Piece.hit sendOpts))) else none := by
  have hrequired : (sendOpts.all fun o => !o.required ||
      (env.pieces.map (Piece.hit sendOpts)).any (·.1 = o.dest)) = true := by
    rfl
  rw [buildMailboxArgs_eq, parseSend, parseArgs, scan_render (pieces_known env)]
  split
  · rw [Option.filter_some, if_pos hrequired]
    rfl
  · rfl

/-! ## Envelopes come back -/

theorem mem_kinds_of_valid {msg : Json} {session agent filename : Option String} {kind : String}
    (h : validateMessage msg session agent filename = .ok ())
    (hkind : msg.get? "kind" = some (.str kind)) : kind ∈ VALID_KINDS := by
  obtain ⟨k, hschema, _⟩ := bind_eq_ok.mp h
  obtain ⟨_, _, hschema⟩ := bind_eq_ok.mp hschema
  obtain ⟨_, _, hschema⟩ := bind_eq_ok.mp hschema
  obtain ⟨k', hk, _⟩ := bind_eq_ok.mp hschema
  rw [Mailbox.kindOf, hkind] at hk
  dsimp only at hk
  split at hk
  · next hin => exact hin
  · cases hk

/-- **A valid envelope is read back exactly if none of its texts looks like an option** and
`json.loads` reads its attachments back. -/
theorem argv_read_back_iff {depth : ℕ} {env : Envelope} {createdAt : String}
    {refs : List AttachmentRef} (hrefs : env.attachments = refs.map AttachmentRef.toDict)
    (hvalid : validateMessage (env.dict createdAt) none none none = .ok ()) :
    (∃ a, parseSend (buildMailboxArgs env) = some a ∧ Carries depth a env refs) ↔
      (∀ text ∈ env.texts, isArgument sendFlags text = true) ∧ ∀ r ∈ refs, RefReadsBack depth r := by
  have hkind : env.kind ∈ VALID_KINDS := mem_kinds_of_valid hvalid rfl
  have hreceipt : env.receiptType = "" ∨ env.receiptType = "READ" :=
    (texts_of_valid hvalid).1
  have htexts : env.attachments.map dumpsLine =
      refs.map fun r => String.ofList (lineChars r.toDict) := by
    rw [hrefs, List.map_map]
    rfl
  rw [parse_pieces, ← pieces_pass hrefs hkind hreceipt]
  constructor
  · rintro ⟨a, ha, hcarries⟩
    split at ha
    · next hpass =>
      refine ⟨hpass, ?_⟩
      injection ha with ha
      have hatts := hcarries.attachments
      rw [← ha, ns_of_pieces] at hatts
      dsimp only at hatts
      rw [htexts] at hatts
      exact parseAttachmentArgs_iff.mp hatts
    · cases ha
  · rintro ⟨hpass, hreads⟩
    rw [if_pos hpass, ns_of_pieces]
    refine ⟨_, rfl, ?_⟩
    refine ⟨rfl, rfl, rfl, rfl, rfl, rfl, rfl, rfl, rfl, rfl, rfl, rfl, rfl, rfl, rfl, ?_⟩
    dsimp only
    rw [htexts]
    exact parseAttachmentArgs_iff.mpr hreads

/-! ### Two bodies -/

/-- A task with a body. -/
def taskOf (body : String) : Envelope :=
  { sessionId := some "s1", msgId := "m1", fromId := "m", toId := "w", subject := "a", body := body,
    runId := "r1", requestId := "q1" }

theorem argv_read_back_iff_task : ∃ a, parseSend (buildMailboxArgs (taskOf "- item")) = some a ∧
    Carries 1 a (taskOf "- item") [] :=
  (@argv_read_back_iff 1 (taskOf "- item") "2026-01-01T00:00:00Z" [] rfl (by decide +kernel)).mpr
    ⟨by decide +kernel, fun _ h => (List.not_mem_nil h).elim⟩

/-- A body that looks like an option is not read back. -/
theorem argv_loses_body : ¬ ∀ (depth : ℕ) (env : Envelope) (createdAt : String)
    (refs : List AttachmentRef), env.attachments = refs.map AttachmentRef.toDict →
    validateMessage (env.dict createdAt) none none none = .ok () →
    ∃ a, parseSend (buildMailboxArgs env) = some a ∧ Carries depth a env refs := by
  intro h
  obtain ⟨a, ha, _⟩ := h 1 (taskOf "-v") "2026-01-01T00:00:00Z" [] rfl (by decide +kernel)
  have hnone : parseSend (buildMailboxArgs (taskOf "-v")) = none := by decide +kernel
  rw [hnone] at ha
  cases ha

end AiMeshChat.Swarm
