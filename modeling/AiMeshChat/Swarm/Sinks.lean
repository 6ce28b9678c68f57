import AiMeshChat.Kernel.Routing
import AiMeshChat.Mailbox.Main
import AiMeshChat.Mailbox.NewMessage
import AiMeshChat.Swarm.Argv

/-!
# Two delivery sinks

A kernel delivers through `LocalDeliverySink`, which calls the store, or through
`EngineDeliverySink`, which makes an envelope of the message, writes it to the outbox and
runs the command line of the mailbox.
-/

namespace AiMeshChat.Swarm

open Lib Lib.Argparse
open Mailbox (AttachmentRef SendArgs Disk agentIdOk msgIdOk)
open Mailbox.Cli
open Mailbox.NewMessage

/-! ## The sinks -/

/-- What `LocalDeliverySink.deliver` passes to `MailboxStore.send`. -/
def localSinkArgs (sessionId targetAgent : String) (envelope : Kernel.Envelope)
    (mid fromId : String) : SendArgs where
  sessionId := sessionId
  fromId := fromId
  toId := targetAgent
  subject := envelope.subject
  body := envelope.body
  kind := envelope.kind
  replyTo := envelope.replyTo
  runId := envelope.runId
  requestId := envelope.requestId
  traceId := envelope.traceId
  causationId := envelope.causationId
  attachments :=
    if envelope.attachments = [] then none
    else some (envelope.attachments.map AttachmentRef.toDict)
  msgId := some mid

/-- `LocalDeliverySink.deliver`. -/
def localSinkDeliver (fuel : ℕ) (sessionId targetAgent : String) (envelope : Kernel.Envelope)
    (mid fromId : String) : Mailbox.Call SendReceipt := do
  let _ ← Mailbox.send fuel (localSinkArgs sessionId targetAgent envelope mid fromId)
  return ⟨.delivered, mid, "", false⟩

/-- The fields of an envelope that `deliver_sink` takes over. -/
def Envelope.ofKernel (envelope : Kernel.Envelope) : Envelope where
  subject := envelope.subject
  body := envelope.body
  kind := envelope.kind
  replyTo := envelope.replyTo
  runId := envelope.runId
  requestId := envelope.requestId
  traceId := envelope.traceId
  causationId := envelope.causationId
  requireAck := envelope.requireAck
  receiptType := envelope.receiptType
  attachments := envelope.attachments.map AttachmentRef.toDict

/-- The operations of the engine on a host: `LocalTransport.mailbox` runs the command line
of the mailbox. -/
def onHost (main : List String → Prog Mailbox.Op Mailbox.Ans String Output) :
    (o : Op) → Prog (Op ⊕ Mailbox.Op) (Sum.elim Ans Mailbox.Ans) String (Ans o)
  | .localMailbox _ args => (main args).inr >>= fun out => .ret (.ok ⟨out.code, out.out, out.err⟩)
  | o => Prog.op (Sum.inl o)

/-- The engine's files and memory beside the mailboxes. -/
abbrev hostWorld : World (Op ⊕ Mailbox.Op) (Sum.elim Ans Mailbox.Ans) (Site × Disk)
    (Choice × Mailbox.Choice) := world.sum Mailbox.world

/-- The disk does not fail, neither for the engine nor for the store. -/
def Quiet (c : Choice × Mailbox.Choice) : Prop := c.1.fault = none ∧ Mailbox.Replay.NoFault c.2

/-! ## What the engine does -/

section Engine

variable {main : List String → Prog Mailbox.Op Mailbox.Ans String Output} {i : ℕ} {α : Type}

theorem onHost_localMailbox (k : Key) (args : List String) :
    onHost main (.localMailbox k args) =
      ((main args).inr >>= fun out => .ret (.ok ⟨out.code, out.out, out.err⟩)) := rfl

theorem call_ends {o : Op} (ho : ∀ k args, o ≠ .localMailbox k args) {f : Ans o → Call α}
    {s : Site} {d : Disk} {Q : Except String α → Site × Disk → Prop}
    (h : ∀ c, c.fault = none → ((f ((s.tick o c).answer c o)).handle (onHost main)).Ends
      hostWorld i Quiet ((s.tick o c).effect c o, d) Q) :
    ((Prog.call o f : Call α).handle (onHost main)).Ends hostWorld i Quiet (s, d) Q := by
  have hon : onHost main o = Prog.op (Sum.inl o) := by
    cases o with
    | localMailbox k args => exact absurd rfl (ho k args)
    | _ => rfl
  rw [Prog.handle_call, hon]
  refine Prog.inl_op_bind_ends fun c a s₁ hc hw => ?_
  cases hw
  exact h c.1 hc.1

theorem writeOutbox_ends {k : Key} {env : Envelope} {f : Except String Unit → Call α} {s : Site}
    {d : Disk} {Q : Except String α → Site × Disk → Prop}
    (h : ∀ s₁, ((f (.ok ())).handle (onHost main)).Ends hostWorld i Quiet (s₁, d) Q) :
    ((attempt (writeOutbox k env) >>= f).handle (onHost main)).Ends hostWorld i Quiet (s, d) Q := by
  refine call_ends (by intro k args h; cases h) fun c hc => ?_
  simp only [Prog.bind]
  split
  · exact h _
  · refine call_ends (by intro k args h; cases h) fun c hc => ?_
    simp only [Site.answer, hc]
    refine call_ends (by intro k args h; cases h) fun c hc => ?_
    refine call_ends (by intro k args h; cases h) fun c hc => ?_
    exact h _

theorem stamp_ends {k : Key} {f : Unit → Call α} {s : Site} {d : Disk}
    {Q : Except String α → Site × Disk → Prop}
    (h : ∀ s₁, ((f ()).handle (onHost main)).Ends hostWorld i Quiet (s₁, d) Q) :
    ((stampOutboxTargetHost k >>= f).handle (onHost main)).Ends hostWorld i Quiet (s, d) Q := by
  refine call_ends (by intro k args h; cases h) fun c hc => ?_
  simp only [Prog.bind]
  split
  · split
    · exact h _
    · refine call_ends (by intro k args h; cases h) fun c hc => ?_
      simp only [Site.answer, hc]
      refine call_ends (by intro k args h; cases h) fun c hc => ?_
      refine call_ends (by intro k args h; cases h) fun c hc => ?_
      exact h _
  · exact h _

theorem writeStatus_ends {k : Key} {kind detail : String} {f : Unit → Call α} {s : Site} {d : Disk}
    {Q : Except String α → Site × Disk → Prop}
    (h : ∀ s₁, ((f ()).handle (onHost main)).Ends hostWorld i Quiet (s₁, d) Q) :
    ((writeStatus k kind detail >>= f).handle (onHost main)).Ends hostWorld i Quiet (s, d) Q := by
  refine call_ends (by intro k args h; cases h) fun c hc => ?_
  refine call_ends (by intro k args h; cases h) fun c hc => ?_
  refine call_ends (by intro k args h; cases h) fun c hc => ?_
  refine call_ends (by intro k args h; cases h) fun c hc => ?_
  refine call_ends (by intro k args h; cases h) fun c hc => ?_
  refine call_ends (by intro k args h; cases h) fun c hc => ?_
  exact h _

theorem localMailbox_ends {k : Key} {args : List String} {f : Except String Answer → Call α}
    {s : Site} {d : Disk} {Q : Output → Disk → Prop} {R : Except String α → Site × Disk → Prop}
    (hmain : (main args).Ends Mailbox.world i Mailbox.Replay.NoFault d
      fun r d' => ∃ out, r = .ok out ∧ Q out d')
    (h : ∀ out d', Q out d' → ((f (.ok ⟨out.code, out.out, out.err⟩)).handle (onHost main)).Ends
      hostWorld i Quiet (s, d') R) :
    ((Prog.call (.localMailbox k args) f : Call α).handle (onHost main)).Ends hostWorld i Quiet
      (s, d) R := by
  rw [Prog.handle_call, onHost_localMailbox, Prog.bind_assoc]
  refine (Prog.ends_inr (s := (s, d)) (fun c hc => hc.2) hmain).bind ?_ ?_
  · rintro out ⟨s₁, d₁⟩ ⟨hs, out', hout, hQ⟩
    injection hout with hout
    rw [← hout] at hQ
    dsimp only at hs hQ
    rw [hs]
    exact h out d₁ hQ
  · rintro e s₁ ⟨_, out, he, _⟩
    cases he

/-- The local delivery of an entry: the command line runs once, and the receipt says how it
ended. -/
theorem sendFirst_ends {cfg : Config} {k : Key} {env : Envelope} {s : Site} {d : Disk}
    {Q : Output → Disk → Prop}
    (hmain : (main (buildMailboxArgs { env with msgId := k.2 })).Ends Mailbox.world i
      Mailbox.Replay.NoFault d fun r d' => ∃ out, r = .ok out ∧ Q out d') :
    ((sendFirst cfg k env none).handle (onHost main)).Ends hostWorld i Quiet (s, d)
      fun r s' => ∃ out receipt, r = .ok receipt ∧ Q out s'.2 ∧
        (receipt.status = .delivered ↔ out.code = 0) := by
  refine localMailbox_ends hmain fun out d' hQ => ?_
  by_cases hcode : out.code = 0
  · simp only [orRaise, Prog.bind, hcode]
    refine call_ends (by intro k args h; cases h) fun c hc => ?_
    refine call_ends (by intro k args h; cases h) fun c hc => ?_
    exact Prog.ends_ret ⟨out, _, rfl, hQ, fun _ => hcode, fun _ => rfl⟩
  · simp only [orRaise, Prog.bind, Prog.ret_bind, ne_eq]
    rw [if_pos hcode]
    refine writeStatus_ends fun s₁ => ?_
    refine stamp_ends fun s₂ => ?_
    exact Prog.ends_ret ⟨out, _, rfl, hQ, fun h => (by cases h), fun h => (hcode h).elim⟩

theorem accept_ends {cfg : Config} {k : Key} {env : Envelope} {s : Site} {d : Disk}
    {Q : Output → Disk → Prop}
    (hmain : (main (buildMailboxArgs { env with msgId := k.2 })).Ends Mailbox.world i
      Mailbox.Replay.NoFault d fun r d' => ∃ out, r = .ok out ∧ Q out d') :
    ((accept cfg k env none).handle (onHost main)).Ends hostWorld i Quiet (s, d)
      fun r s' => ∃ out receipt, r = .ok receipt ∧ Q out s'.2 ∧
        (receipt.status = .delivered ↔ out.code = 0) := by
  refine writeOutbox_ends fun s₁ => ?_
  refine call_ends (by intro k args h; cases h) fun c hc => ?_
  exact @sendFirst_ends main i cfg k env _ d Q hmain

/-- The engine does not know the message. -/
def Unknown (s : Site) (k : Key) : Prop :=
  s.mem.cache k.2 = none ∧ (s.entry k).envelope = none

theorem deliver_ends {cfg : Config} {sessionId : String} {target : Dest} {env : Envelope}
    {s : Site} {d : Disk} {Q : Output → Disk → Prop} (htarget : target.remote? cfg = none)
    (hmid : env.msgId ≠ "") (hnew : Unknown s (deliverKey sessionId env))
    (hmain : (main (buildMailboxArgs env)).Ends Mailbox.world i Mailbox.Replay.NoFault d
      fun r d' => ∃ out, r = .ok out ∧ Q out d') :
    ((deliver cfg sessionId target env).handle (onHost main)).Ends hostWorld i Quiet (s, d)
      fun r s' => ∃ out receipt, r = .ok receipt ∧ Q out s'.2 ∧
        (receipt.status = .delivered ↔ out.code = 0) := by
  unfold deliver
  rw [htarget, if_neg hmid]
  refine call_ends (by intro k args h; cases h) fun c hc => ?_
  have hcache : ((s.tick Op.mem c).answer c Op.mem).cache (deliverKey sessionId env).2 = none :=
    hnew.1
  simp only [Prog.bind, hcache]
  refine call_ends (by intro k args h; cases h) fun c' hc' => ?_
  have hentry : (((((s.tick Op.mem c).effect c Op.mem).tick (Op.look (deliverKey sessionId env)) c').answer
      c' (Op.look (deliverKey sessionId env)) : Entry).envelope).isNone = true := by
    rw [Option.isNone_iff_eq_none]
    exact hnew.2
  simp only [Prog.bind, hentry, if_true]
  exact accept_ends hmain

theorem deliverSink_ends {cfg : Config} {sid target mid fromId : String} {env : Envelope}
    {s : Site} {d : Disk} {Q : Output → Disk → Prop}
    (hlocal : ∀ host, s.mem.hostCache target = some host → (Dest.host host).remote? cfg = none)
    (hmid : mid ≠ "") (hnew : Unknown s (sid, mid))
    (hmain : (main (buildMailboxArgs
      { env with sessionId := some sid, fromId := fromId, toId := target, msgId := mid })).Ends
        Mailbox.world i Mailbox.Replay.NoFault d fun r d' => ∃ out, r = .ok out ∧ Q out d') :
    ((deliverSink cfg sid target env mid fromId).handle (onHost main)).Ends hostWorld i Quiet (s, d)
      fun r s' => ∃ out receipt, r = .ok receipt ∧ Q out s'.2 ∧
        (receipt.status = .delivered ↔ out.code = 0) := by
  refine call_ends (by intro k args h; cases h) fun c hc => ?_
  have hmem : (s.tick Op.mem c).answer c Op.mem = s.mem := rfl
  simp only [Prog.bind, hmem]
  cases hhost : s.mem.hostCache target with
  | none => exact deliver_ends rfl hmid hnew hmain
  | some host => exact deliver_ends (hlocal host hhost) hmid hnew hmain

/-- The target is on this host: the sink caches no host for it, and one that is cached is
this one. -/
structure IsLocal (cfg : Config) (s : Site) (hostAlias : Option String) (target : String) :
    Prop where
  location : hostToCache cfg hostAlias = none
  cached : ∀ host, s.mem.hostCache target = some host → (Dest.host host).remote? cfg = none

/-- **The local delivery of the engine** runs the command line of the mailbox once, for a
message that it does not know; the message is delivered exactly if that exits with 0. -/
theorem sinkDeliver_ends {cfg : Config} {hostAlias : Option String} {sid target mid fromId : String}
    {env : Envelope} {s : Site} {d : Disk} {Q : Output → Disk → Prop}
    (hlocal : IsLocal cfg s hostAlias target) (hmid : mid ≠ "") (hnew : Unknown s (sid, mid))
    (hmain : (main (buildMailboxArgs
      { env with sessionId := some sid, fromId := fromId, toId := target, msgId := mid })).Ends
        Mailbox.world i Mailbox.Replay.NoFault d fun r d' => ∃ out, r = .ok out ∧ Q out d') :
    ((sinkDeliver cfg hostAlias sid target env mid fromId).handle (onHost main)).Ends hostWorld i
      Quiet (s, d) fun r s' => ∃ out receipt, r = .ok receipt ∧ Q out s'.2 ∧
        (receipt.status = .delivered ↔ out.code = 0) := by
  unfold sinkDeliver
  rw [hlocal.location]
  exact deliverSink_ends hlocal.cached hmid hnew hmain

end Engine

/-! ## What the command line does -/

/-- What reaches `MailboxStore.send` by way of the command line. -/
def engineSinkArgs (sessionId targetAgent : String) (envelope : Kernel.Envelope)
    (mid fromId : String) : SendArgs :=
  { localSinkArgs sessionId targetAgent envelope mid fromId with
    requireAck := envelope.requireAck
    receiptType := envelope.receiptType }

/-- The envelope that `deliver_sink` makes. -/
def wireEnvelope (sessionId targetAgent : String) (envelope : Kernel.Envelope)
    (mid fromId : String) : Envelope :=
  { Envelope.ofKernel envelope with
    sessionId := some sessionId, fromId := fromId, toId := targetAgent, msgId := mid }

section Main

variable {sid target mid fromId : String} {envelope : Kernel.Envelope}

theorem isArgument_of_agentId {aid : String} (h : agentIdOk aid = true) :
    isArgument sendFlags aid = true ∧ aid ≠ "" := by
  -- with a final line break or without, the first character is a letter or a digit
  have hhead : ∃ c cs, aid.toList = c :: cs ∧ isAlnum c = true := by
    rw [agentIdOk, dollar, Bool.or_eq_true, Bool.and_eq_true] at h
    cases hcs : aid.toList with
    | nil =>
      rw [hcs] at h
      rcases h with h | ⟨_, h⟩ <;> cases h
    | cons c cs =>
      rw [hcs] at h
      refine ⟨c, cs, rfl, ?_⟩
      rcases h with h | ⟨_, h⟩
      · simp only [idText, Bool.and_eq_true] at h
        exact h.1.1
      · cases cs with
        | nil => cases h
        | cons c' cs =>
          simp only [List.dropLast_cons_cons, idText, Bool.and_eq_true] at h
          exact h.1.1
  obtain ⟨c, cs, hcs, hc⟩ := hhead
  constructor
  · refine isArgument_of_head ?_
    rw [hcs, List.head?_cons]
    rintro hdash
    injection hdash with hdash
    rw [hdash] at hc
    cases hc
  · rintro rfl
    cases hcs

theorem args_of_ns (refs : List Json) (hrefs : refs = envelope.attachments.map AttachmentRef.toDict) :
    (SendNs.of ((wireEnvelope sid target envelope mid fromId).pieces.map (Piece.hit sendOpts))).args
      refs = engineSinkArgs sid target envelope mid fromId := by
  rw [ns_of_pieces, hrefs]
  simp only [SendNs.args, engineSinkArgs, localSinkArgs, List.map_eq_nil_iff]
  rfl

/-- The message comes through the command line and is accepted by the store. -/
def comesThrough (sessionId targetAgent : String) (envelope : Kernel.Envelope)
    (mid fromId : String) : Bool :=
  accepts (engineSinkArgs sessionId targetAgent envelope mid fromId) mid &&
    (wireEnvelope sessionId targetAgent envelope mid fromId).texts.all (isArgument sendFlags)

theorem pieces_of_accepts
    (h : accepts (engineSinkArgs sid target envelope mid fromId) mid = true) :
    (wireEnvelope sid target envelope mid fromId).pieces.all (Piece.passes sendOpts) =
      (wireEnvelope sid target envelope mid fromId).texts.all (isArgument sendFlags) := by
  have hacc := accepted_of_accepts h
  rw [Bool.eq_iff_iff, pieces_pass rfl hacc.kind hacc.receiptType, List.all_eq_true]

theorem attachments_of_accepts {depth : ℕ}
    (h : accepts (engineSinkArgs sid target envelope mid fromId) mid = true) :
    parseAttachmentArgs (depth + 1) (envelope.attachments.map fun r =>
      String.ofList (lineChars r.toDict)) = .ok (envelope.attachments.map AttachmentRef.toDict) := by
  have hatts := (accepted_of_accepts h).attachments
  have hget : (engineSinkArgs sid target envelope mid fromId).attachments.getD [] =
      envelope.attachments.map AttachmentRef.toDict := by
    show (if envelope.attachments = [] then none
      else some (envelope.attachments.map AttachmentRef.toDict)).getD [] = _
    split
    · next hnil => rw [hnil]; rfl
    · rfl
  rw [hget] at hatts
  rw [parseAttachmentArgs_iff]
  intro r hr
  obtain ⟨hpos, hmax⟩ := size_of_attachmentsOk hatts r hr
  refine readsBack_of_short (shortInt_of_lt ?_)
  unfold Mailbox.MAX_ATTACHMENT_SIZE at hmax
  omega

theorem missing_of_accepts (hsid : sid ≠ "") (hfrom : fromId ≠ "") (htarget : target ≠ "")
    (h : accepts (engineSinkArgs sid target envelope mid fromId) mid = true) :
    (SendNs.of ((wireEnvelope sid target envelope mid fromId).pieces.map
      (Piece.hit sendOpts))).missing = [] := by
  have hacc := accepted_of_accepts h
  have hsubject : envelope.subject ≠ "" := hacc.subject
  have hbody : envelope.body ≠ "" := hacc.body
  rw [ns_of_pieces]
  simp [SendNs.missing, wireEnvelope, Envelope.ofKernel, hsid, hfrom, htarget, hsubject, hbody]

variable {str : Mailbox.PyErr → String} {genId : String → Mailbox.Call String} {fuel depth i : ℕ}
  {d : Disk} {roster : List String}

/-- The branch `send` for the command line of an envelope. -/
theorem sendBranch_ends
    (hready : Mailbox.NewMessage.Ready d (engineSinkArgs sid target envelope mid fromId) roster)
    (hids : ∀ aid ∈ roster, agentIdOk aid = true) (hmid : msgIdOk mid = true)
    (hnew : Unused d mid) :
    (sendBranch genId (Mailbox.send fuel) (depth + 1)
      (SendNs.of ((wireEnvelope sid target envelope mid fromId).pieces.map
        (Piece.hit sendOpts)))).Ends Mailbox.world i Mailbox.Replay.NoFault d fun r d' =>
      Settled (engineSinkArgs sid target envelope mid fromId) mid roster r d' := by
  have hsid : sid ≠ "" := (isArgument_of_agentId hready.sid).2
  have hfrom : fromId ≠ "" := (isArgument_of_agentId (hids _ hready.sender)).2
  have htarget : target ≠ "" := by
    rcases hready.recipient with h | h
    · rw [show target = "*" from h]
      decide
    · exact (isArgument_of_agentId (hids _ h)).2
  have hmid' : mid ≠ "" := by
    rintro rfl
    cases hmid
  have htemplate : (SendNs.of ((wireEnvelope sid target envelope mid fromId).pieces.map
      (Piece.hit sendOpts))).template = none := by
    rw [ns_of_pieces]
  have hattachment : (SendNs.of ((wireEnvelope sid target envelope mid fromId).pieces.map
      (Piece.hit sendOpts))).attachment =
        envelope.attachments.map fun r => String.ofList (lineChars r.toDict) := by
    rw [ns_of_pieces]
    exact List.map_map ..
  rw [sendBranch, htemplate]
  dsimp only
  by_cases hmissing : (SendNs.of ((wireEnvelope sid target envelope mid fromId).pieces.map
      (Piece.hit sendOpts))).missing = []
  · rw [if_neg (not_not.mpr hmissing), hattachment]
    cases hparse : parseAttachmentArgs (depth + 1) (envelope.attachments.map fun r =>
        String.ofList (lineChars r.toDict)) with
    | error e =>
      refine Prog.ends_raise (settled_error fun hyes => ?_)
      rw [attachments_of_accepts hyes] at hparse
      cases hparse
    | ok refs =>
      dsimp only
      rw [args_of_ns refs (parseAttachmentArgs_toDict hparse), serviceSend_eq rfl hmid']
      have hnewEnds : (Mailbox.send fuel (engineSinkArgs sid target envelope mid fromId)).Ends
          Mailbox.world i Mailbox.Replay.NoFault d fun r d' =>
            Settled (engineSinkArgs sid target envelope mid fromId) mid roster r d' :=
        send_new_ends hready rfl hmid hnew
      have hsend := hnewEnds.bind
        (Q := fun r d' => Settled (engineSinkArgs sid target envelope mid fromId) mid roster r d')
        (fun detail d' h => Prog.ends_ret (h.map (fun x hx => ⟨(mid, detail), rfl⟩)
          fun e he => by cases he)) fun e d' h => h.map (fun x hx => by cases hx) fun e' he => ⟨e, rfl⟩
      refine Prog.Ends.bind (Prog.ends_mapErr (hsend.mono fun r d' h =>
        show Settled (engineSinkArgs sid target envelope mid fromId) mid roster
            (r.mapError reraise) d' from
          h.map (fun x hx => ⟨x, by rw [hx]; rfl⟩) fun e he => ⟨reraise e, by rw [he]; rfl⟩)) ?_ ?_
      · intro x d' h
        exact Prog.ends_ret (h.map (fun x hx => ⟨_, rfl⟩) fun e he => by cases he)
      · intro e d' h
        exact h.map (fun x hx => by cases hx) fun e' he => ⟨e, rfl⟩
  · rw [if_pos hmissing]
    refine Prog.ends_raise (settled_error fun hyes => ?_)
    exact hmissing (missing_of_accepts hsid hfrom htarget hyes)

/-- **The command line of a new message** exits with 0 and has stored the message if it comes
through, and exits with another code if it does not. -/
theorem mainSend_ends
    (hready : Mailbox.NewMessage.Ready d (engineSinkArgs sid target envelope mid fromId) roster)
    (hids : ∀ aid ∈ roster, agentIdOk aid = true) (hmid : msgIdOk mid = true)
    (hnew : Unused d mid) :
    (mainSend str genId (Mailbox.send fuel) (depth + 1)
      (buildMailboxArgs (wireEnvelope sid target envelope mid fromId)) :
        Prog Mailbox.Op Mailbox.Ans String Output).Ends Mailbox.world i Mailbox.Replay.NoFault d
      fun r d' => ∃ out, r = .ok out ∧
        (comesThrough sid target envelope mid fromId = true → out.code = 0 ∧
          Stored d' (engineSinkArgs sid target envelope mid fromId) mid
            (Mailbox.recipientsOf (engineSinkArgs sid target envelope mid fromId) roster)) ∧
        (comesThrough sid target envelope mid fromId = false → out.code ≠ 0) := by
  rw [mainSend, parse_pieces]
  by_cases hpass : (wireEnvelope sid target envelope mid fromId).pieces.all
      (Piece.passes sendOpts) = true
  · rw [if_pos hpass]
    dsimp only
    refine Prog.Ends.bind (M := fun r d' => ∃ x, r = .ok x ∧
      Settled (engineSinkArgs sid target envelope mid fromId) mid roster x d')
      (Prog.ends_result ((sendBranch_ends hready hids hmid hnew).mono fun r d' h => ⟨r, rfl, h⟩)) ?_ ?_
    · rintro x d' ⟨x', hx, hyes, hno⟩
      injection hx with hx
      subst hx
      refine Prog.ends_ret ⟨_, rfl, fun hthrough => ?_, fun hnot => ?_⟩
      · rw [comesThrough, Bool.and_eq_true] at hthrough
        obtain ⟨⟨out, rfl⟩, hstored⟩ := hyes hthrough.1
        exact ⟨rfl, hstored⟩
      · cases hacc : accepts (engineSinkArgs sid target envelope mid fromId) mid with
        | true =>
          rw [pieces_of_accepts hacc] at hpass
          rw [comesThrough, hacc, hpass] at hnot
          cases hnot
        | false =>
          obtain ⟨e, rfl⟩ := hno hacc
          exact exits_error_code str SEND_EXAMPLE_HINT e
    · rintro e d' ⟨x, hx, _⟩
      cases hx
  · rw [if_neg hpass]
    refine Prog.ends_ret ⟨_, rfl, fun hyes => ?_, fun _ => by decide⟩
    rw [comesThrough, Bool.and_eq_true] at hyes
    rw [pieces_of_accepts hyes.1] at hpass
    exact (hpass hyes.2).elim

end Main

/-! ## Both sinks -/

/-- The two sinks did the same: both delivered, and the target's inbox has the message both
times, with the same fields but for the time and the cursor; or neither delivered. -/
def SameDelivery (sid target mid : String) (r₁ : Except Mailbox.PyErr SendReceipt) (d₁ : Disk)
    (r₂ : Except String SendReceipt) (d₂ : Disk) : Prop :=
  ((∃ receipt, r₁ = .ok receipt) ∧ (∃ receipt, r₂ = .ok receipt ∧ receipt.status = .delivered) ∧
    ∃ x y t n t' n',
      d₁.files.get? ⟨.box sid target .inbox, Mailbox.jsonName mid⟩ = some ⟨.json x, t, n⟩ ∧
      d₂.files.get? ⟨.box sid target .inbox, Mailbox.jsonName mid⟩ = some ⟨.json y, t', n'⟩ ∧
      Mailbox.SameChecked x y) ∨
  ((∃ e, r₁ = .error e) ∧ ∀ receipt, r₂ = .ok receipt → receipt.status ≠ .delivered)

theorem get?_receiptType (a : SendArgs) (mid : String) :
    (untimed a mid).get? "receipt_type" =
      if a.receiptType = "" then none else some (.str a.receiptType) := by
  rw [untimed, Mailbox.toDict_get?_optional _ (by decide)]
  by_cases he : a.receiptType = ""
  · by_cases hrefs : refsOf a = [] <;>
      simp [Mailbox.lookup_optText, Mailbox.messageOf, he, hrefs, List.lookup_cons]
  · simp [Mailbox.lookup_optText, Mailbox.messageOf, he]

section Both

variable {sid target mid fromId : String} {envelope : Kernel.Envelope}

/-- The two messages have the same fields exactly if the envelope has neither of the two that
the local sink leaves out. -/
theorem sameChecked_iff {x y : Json}
    (hx : Mailbox.SameChecked (untimed (localSinkArgs sid target envelope mid fromId) mid) x)
    (hy : Mailbox.SameChecked (untimed (engineSinkArgs sid target envelope mid fromId) mid) y) :
    Mailbox.SameChecked x y ↔ envelope.requireAck = false ∧ envelope.receiptType = "" := by
  constructor
  · intro hxy
    have hack := hxy.fields "require_ack" (by decide)
    rw [hx.fields _ (by decide), hy.fields _ (by decide)] at hack
    have htype := hxy.fields "receipt_type" (by decide)
    rw [hx.fields _ (by decide), hy.fields _ (by decide), get?_receiptType, get?_receiptType] at htype
    have hnone : (localSinkArgs sid target envelope mid fromId).receiptType = "" := rfl
    rw [if_pos hnone] at htype
    refine ⟨?_, ?_⟩
    · have hack' : (some (.bool envelope.requireAck) : Option Json) = some (.bool false) := hack
      injection hack' with hack'
      injection hack'
    · by_contra hne
      have hne' : (engineSinkArgs sid target envelope mid fromId).receiptType ≠ "" := hne
      rw [if_neg hne'] at htype
      cases htype
  · rintro ⟨hack, htype⟩
    have hargs : engineSinkArgs sid target envelope mid fromId =
        localSinkArgs sid target envelope mid fromId := by
      rw [engineSinkArgs, hack, htype]
      rfl
    rw [hargs] at hy
    exact ⟨hy.dict.trans hx.dict.symm, fun key hkey => (hy.fields key hkey).trans (hx.fields key hkey).symm,
      hy.time.trans hx.time.symm⟩

theorem ready_engine {d : Disk} {roster : List String}
    (h : Mailbox.NewMessage.Ready d (localSinkArgs sid target envelope mid fromId) roster) :
    Mailbox.NewMessage.Ready d (engineSinkArgs sid target envelope mid fromId) roster :=
  ⟨h.sid, h.dir, h.info, h.sender, h.recipient, h.boxes, h.cursor⟩

/-- **The two sinks agree exactly if** the store accepts the message without `require_ack` and
`receipt_type` just when it accepts it with them and `argparse` takes all texts for
arguments; and if both fields are unset whenever it does. -/
theorem sinks_agree_iff {cfg : Config} {hostAlias : Option String} {s : Site} {d : Disk}
    {roster : List String} {str : Mailbox.PyErr → String} {genId : String → Mailbox.Call String}
    {fuel depth i : ℕ} {r₁ : Except Mailbox.PyErr SendReceipt} {d₁ : Disk}
    {r₂ : Except String SendReceipt} {s₂ : Site × Disk}
    (hready : Mailbox.NewMessage.Ready d (localSinkArgs sid target envelope mid fromId) roster)
    (hids : ∀ aid ∈ roster, agentIdOk aid = true) (htarget : target ∈ roster)
    (hmid : msgIdOk mid = true) (hnew : Unused d mid)
    (hlocal : IsLocal cfg s hostAlias target) (hunknown : Unknown s (sid, mid))
    (h₁ : (localSinkDeliver fuel sid target envelope mid fromId).Runs Mailbox.world i
      Mailbox.Replay.NoFault d r₁ d₁)
    (h₂ : ((sinkDeliver cfg hostAlias sid target (.ofKernel envelope) mid fromId).handle
      (onHost (mainSend str genId (Mailbox.send fuel) (depth + 1)))).Runs hostWorld i Quiet
        (s, d) r₂ s₂) :
    SameDelivery sid target mid r₁ d₁ r₂ s₂.2 ↔
      accepts (localSinkArgs sid target envelope mid fromId) mid =
          comesThrough sid target envelope mid fromId ∧
        (accepts (localSinkArgs sid target envelope mid fromId) mid = true →
          envelope.requireAck = false ∧ envelope.receiptType = "") := by
  have hmid' : mid ≠ "" := by
    rintro rfl
    cases hmid
  have hbroadcast : target ≠ Mailbox.BROADCAST_TO := by
    rintro rfl
    exact absurd (hids _ htarget) (by decide)
  have hrecipients : ∀ a : SendArgs, a.toId = target → Mailbox.recipientsOf a roster = [target] := by
    intro a ha
    rw [Mailbox.recipientsOf, ha, if_neg hbroadcast]
  -- the local sink
  have hsend : Settled (localSinkArgs sid target envelope mid fromId) mid roster r₁ d₁ := by
    refine Prog.Ends.bind (send_new_ends hready rfl hmid hnew) ?_ ?_ _ _ h₁
    · intro x d' h
      exact Prog.ends_ret (h.map (fun x hx => ⟨_, rfl⟩) fun e he => by cases he)
    · intro e d' h
      exact h.map (fun x hx => by cases hx) fun e' he => ⟨e, rfl⟩
  -- the engine
  obtain ⟨out, receipt, rfl, ⟨hyes, hno⟩, hstatus⟩ := sinkDeliver_ends hlocal hmid' hunknown
    (mainSend_ends (ready_engine hready) hids hmid hnew) _ _ h₂
  rw [hrecipients _ rfl] at hyes
  cases hacc : accepts (localSinkArgs sid target envelope mid fromId) mid with
  | true =>
    obtain ⟨⟨receipt₁, rfl⟩, hstored₁⟩ := hsend.1 hacc
    rw [hrecipients _ rfl] at hstored₁
    obtain ⟨x, t, n, hx, hsame⟩ := hstored₁ target List.mem_cons_self
    cases hthrough : comesThrough sid target envelope mid fromId with
    | true =>
      obtain ⟨hcode, hstored₂⟩ := hyes hthrough
      obtain ⟨y, t', n', hy, hsame'⟩ := hstored₂ target List.mem_cons_self
      rw [← sameChecked_iff hsame hsame']
      constructor
      · rintro (⟨_, _, x', y', _, _, _, _, hx', hy', hxy⟩ | ⟨⟨e, he⟩, _⟩)
        · cases hx.symm.trans hx'
          cases hy.symm.trans hy'
          exact ⟨rfl, fun _ => hxy⟩
        · cases he
      · rintro ⟨_, hxy⟩
        exact .inl ⟨⟨_, rfl⟩, ⟨_, rfl, hstatus.mpr hcode⟩, x, y, t, n, t', n', hx, hy, hxy rfl⟩
    | false =>
      have hcode := hno hthrough
      refine ⟨?_, fun h => by cases h.1⟩
      rintro (⟨_, ⟨receipt', he, hdelivered⟩, _⟩ | ⟨⟨e, he⟩, _⟩)
      · injection he with he
        rw [← he] at hdelivered
        exact (hcode (hstatus.mp hdelivered)).elim
      · cases he
  | false =>
    obtain ⟨e, rfl⟩ := hsend.2 hacc
    cases hthrough : comesThrough sid target envelope mid fromId with
    | true =>
      refine ⟨?_, fun h => by cases h.1⟩
      rintro (⟨⟨x, hx⟩, _⟩ | ⟨_, hnot⟩)
      · cases hx
      · exact (hnot receipt rfl (hstatus.mpr (hyes hthrough).1)).elim
    | false =>
      refine ⟨fun _ => ⟨rfl, fun h => by cases h⟩, fun _ => .inr ⟨⟨e, rfl⟩, ?_⟩⟩
      intro receipt' he hdelivered
      injection he with he
      rw [← he] at hdelivered
      exact hno hthrough (hstatus.mp hdelivered)

end Both

/-! ### A task and a receipt -/

/-- An engine without a repo map. -/
def plainConfig : Config := { hostname := "h", repoMap := RepoMap.empty }

/-- A session with a manager and a worker. -/
def pairSession : Disk := Mailbox.newSession "s" "m" ["w"] 0

/-- A task with its run and its request. -/
def plainTask : Kernel.Envelope :=
  { subject := "a", body := "b", runId := "r", requestId := "q" }

/-- The receipt of a message that was read. -/
def readReceipt : Kernel.Envelope :=
  { subject := "READ x", body := "x", kind := "RECEIPT", replyTo := "x", runId := "r",
    requestId := "q", receiptType := "READ" }

/-- The run of the local sink. -/
def localRun (envelope : Kernel.Envelope) : Option (Except Mailbox.PyErr SendReceipt × Disk) :=
  (localSinkDeliver 1 "s" "w" envelope "x1" "m").exec Mailbox.world 0 {} 60 pairSession

/-- The run of the engine. -/
def engineRun (envelope : Kernel.Envelope) :
    Option (Except String SendReceipt × (Site × Disk)) :=
  ((sinkDeliver plainConfig none "s" "w" (.ofKernel envelope) "x1" "m").handle
    (onHost (mainSend (fun _ => "") (fun _ => .ret "") (Mailbox.send 1) 2))).exec hostWorld 0
      ({}, {}) 80 ({}, pairSession)

theorem pairSession_ready (envelope : Kernel.Envelope) :
    Mailbox.NewMessage.Ready pairSession (localSinkArgs "s" "w" envelope "x1" "m") ["m", "w"] where
  sid := (by decide : agentIdOk "s" = true)
  dir := List.mem_cons_self
  info := by
    refine ⟨_, _, _, rfl, rfl, ?_⟩
    decide +kernel
  sender := List.mem_cons_self
  recipient := .inr (by decide : "w" ∈ ["m", "w"])
  boxes rid hrid := by
    have hw : rid = "w" := List.mem_singleton.mp hrid
    subst hw
    have hinbox : Mailbox.Dir.box "s" "w" .inbox ∈ pairSession.dirs := by decide +kernel
    have hs : agentIdOk "s" = true := by decide
    have hwid : agentIdOk "w" = true := by decide
    first | exact ⟨hs, hwid, hinbox⟩ | exact ⟨hwid, hs, hinbox⟩
  cursor j t n h := by
    have hnone : pairSession.files.get? ⟨.session "s", Mailbox.STREAM_CURSOR_FILE⟩ = none := by
      decide +kernel
    rw [localSinkArgs, hnone] at h
    cases h

theorem pairSession_unused : Unused pairSession "x1" := by
  intro p hp
  have hne : p ≠ ⟨.session "s", "session.json"⟩ := by
    rintro rfl
    rcases hp with hp | hp <;> exact absurd hp (by decide)
  exact Files.get?_write_ne _ _ _ hne

/-- The two runs of a delivery that comes through. -/
theorem sinks_agree_iff_task : ∃ r₁ d₁ r₂ s₂,
    (localSinkDeliver 1 "s" "w" plainTask "x1" "m").Runs Mailbox.world 0 Mailbox.Replay.NoFault
      pairSession r₁ d₁ ∧
    ((sinkDeliver plainConfig none "s" "w" (.ofKernel plainTask) "x1" "m").handle
      (onHost (mainSend (fun _ => "") (fun _ => .ret "") (Mailbox.send 1) 2))).Runs hostWorld 0 Quiet
        ({}, pairSession) r₂ s₂ ∧
    SameDelivery "s" "w" "x1" r₁ d₁ r₂ s₂.2 := by
  obtain ⟨⟨r₁, d₁⟩, hr₁⟩ : ∃ x, localRun plainTask = some x :=
    Option.isSome_iff_exists.mp (by decide +kernel)
  obtain ⟨⟨r₂, s₂⟩, hr₂⟩ : ∃ x, engineRun plainTask = some x :=
    Option.isSome_iff_exists.mp (by decide +kernel)
  have h₁ := Prog.runs_of_exec (P := Mailbox.Replay.NoFault)
    (show Mailbox.Replay.NoFault ({} : Mailbox.Choice) from rfl) hr₁
  have h₂ := Prog.runs_of_exec (P := Quiet) (show Quiet ({}, {}) from ⟨rfl, rfl⟩) hr₂
  have hlocal : IsLocal plainConfig {} none "w" := ⟨rfl, fun host h => by cases h⟩
  refine ⟨r₁, d₁, r₂, s₂, h₁, h₂, ?_⟩
  exact (sinks_agree_iff (pairSession_ready plainTask) (by decide) (by decide) (by decide)
    pairSession_unused hlocal ⟨rfl, rfl⟩ h₁ h₂).mpr ⟨by decide +kernel, fun _ => ⟨rfl, rfl⟩⟩

/-- A receipt is delivered by the engine and refused by the local sink, which does not say
what kind of receipt it is. -/
theorem local_sink_refuses_receipt : ¬ ∀ (sid target mid fromId : String)
    (envelope : Kernel.Envelope) (cfg : Config) (hostAlias : Option String) (s : Site) (d : Disk)
    (roster : List String) (str : Mailbox.PyErr → String) (genId : String → Mailbox.Call String)
    (fuel depth i : ℕ) (r₁ : Except Mailbox.PyErr SendReceipt) (d₁ : Disk)
    (r₂ : Except String SendReceipt) (s₂ : Site × Disk),
    Mailbox.NewMessage.Ready d (localSinkArgs sid target envelope mid fromId) roster →
    (∀ aid ∈ roster, agentIdOk aid = true) → target ∈ roster → msgIdOk mid = true →
    Unused d mid → IsLocal cfg s hostAlias target → Unknown s (sid, mid) →
    (localSinkDeliver fuel sid target envelope mid fromId).Runs Mailbox.world i
      Mailbox.Replay.NoFault d r₁ d₁ →
    ((sinkDeliver cfg hostAlias sid target (.ofKernel envelope) mid fromId).handle
      (onHost (mainSend str genId (Mailbox.send fuel) (depth + 1)))).Runs hostWorld i Quiet
        (s, d) r₂ s₂ →
    SameDelivery sid target mid r₁ d₁ r₂ s₂.2 := by
  intro h
  obtain ⟨⟨r₁, d₁⟩, hr₁, hrefused⟩ : ∃ x, localRun readReceipt = some x ∧
      x.1.toOption.isNone = true := (Option.any_eq_true _ _).mp (by decide +kernel)
  obtain ⟨⟨r₂, s₂⟩, hr₂, hdelivered⟩ : ∃ x, engineRun readReceipt = some x ∧
      (x.1.toOption.map (·.status) == some .delivered) = true :=
    (Option.any_eq_true (fun x : Except String SendReceipt × (Site × Disk) =>
      x.1.toOption.map (·.status) == some .delivered) _).mp (by decide +kernel)
  have h₁ := Prog.runs_of_exec (P := Mailbox.Replay.NoFault)
    (show Mailbox.Replay.NoFault ({} : Mailbox.Choice) from rfl) hr₁
  have h₂ := Prog.runs_of_exec (P := Quiet) (show Quiet ({}, {}) from ⟨rfl, rfl⟩) hr₂
  have hlocal : IsLocal plainConfig {} none "w" := ⟨rfl, fun host h => by cases h⟩
  rcases h "s" "w" "x1" "m" readReceipt plainConfig none {} pairSession ["m", "w"] _ _ 1 1 0
    r₁ d₁ r₂ s₂ (pairSession_ready readReceipt) (by decide) (by decide) (by decide)
    pairSession_unused hlocal ⟨rfl, rfl⟩ h₁ h₂ with ⟨⟨receipt, hok⟩, _⟩ | ⟨_, hnot⟩
  · subst hok
    cases hrefused
  · cases r₂ with
    | error e => cases hdelivered
    | ok receipt =>
      have hstatus := eq_of_beq hdelivered
      injection hstatus with hstatus
      exact hnot receipt rfl hstatus

end AiMeshChat.Swarm
