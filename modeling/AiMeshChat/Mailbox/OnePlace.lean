import AiMeshChat.Lib.History
import AiMeshChat.Mailbox.Keeping
import AiMeshChat.Mailbox.Rejected

/-!
# Every message in one place

Runs of the calls on one mailbox, one after the other on a disk that does not fail. An
account of a run keeps the messages that sends have delivered and those that `clear` has
removed. Every message delivered is in one box or removed, and the messages of `processing`
are those that one claim names, all along a run exactly if no `finalize_from_inbox` of the run
strands a claim (`one_place_iff`).
-/

namespace AiMeshChat.Mailbox.OnePlace

open Lib Replay Holdings Keeping Rejected

/-! ## A send -/

/-- What a send of the message `mid` does to the boxes of the session `sid`, and to the
documents of the sessions. -/
structure Posted (sid mid : String) (s s' : Disk) : Prop where
  others : ∀ sid' agent b name,
    ¬ (sid' = sid ∧ b = .inbox ∧ (name = jsonName mid ∨ name = tmpName mid)) →
      s'.files.get? ⟨.box sid' agent b, name⟩ = s.files.get? ⟨.box sid' agent b, name⟩
  stays : ∀ agent, (s.files.get? ⟨.box sid agent .inbox, jsonName mid⟩).isSome = true →
    (s'.files.get? ⟨.box sid agent .inbox, jsonName mid⟩).isSome = true
  info : ∀ sid', s'.files.get? (sessionPath sid') = s.files.get? (sessionPath sid')

section Send

variable {sid mid : String} {i : ℕ} {s s' : Disk}

theorem posted_of_files (h : s'.files = s.files) : Posted sid mid s s' where
  others _ _ _ _ _ := by rw [h]
  stays _ hin := by rwa [h]
  info _ := by rw [h]

theorem Posted.trans {s₁ s₂ s₃ : Disk} (h : Posted sid mid s₁ s₂) (h' : Posted sid mid s₂ s₃) :
    Posted sid mid s₁ s₃ where
  others _ _ _ _ hne := (h'.others _ _ _ _ hne).trans (h.others _ _ _ _ hne)
  stays agent hin := h'.stays agent (h.stays agent hin)
  info sid' := (h'.info sid').trans (h.info sid')

theorem posted_storeOp {o : Op} (ho : StoreOp sid mid o) {c : Choice} {a : Ans o}
    (h : s.perform i o c = some (a, s')) : Posted sid mid s s' where
  others sid' agent b name hne := by
    refine (stores_storeOp ho h).others _ ?_
    rintro (⟨⟨agent', hd⟩ | hd, hname⟩ | ⟨hd, -⟩)
    · cases hd
      exact hne ⟨rfl, rfl, hname⟩
    · cases hd
    · cases hd
  stays agent hin := by
    by_cases ht : (⟨.box sid agent .inbox, jsonName mid⟩ : MPath) ∈ o.targets
    · cases ho with
      | look ho => cases o <;> simp_all [Op.looks, Op.targets]
      | publish agent' =>
        rcases Disk.perform_replace h with ⟨e, -, rfl⟩ | ⟨-, ⟨f, hf⟩, rfl⟩
        · exact hin
        · have hdst := (List.mem_pair.mp ht).resolve_left fun hp =>
            tmpName_ne_jsonName mid (congrArg Path.name hp).symm
          rw [Files.get?_move hf, if_pos hdst]
          rfl
      | envelope agent' x =>
        exact absurd (congrArg Path.name (List.mem_singleton.mp ht)).symm (tmpName_ne_jsonName mid)
      | _ => simp [Op.targets] at ht
    · rwa [Disk.perform_get? h ht]
  info sid' := by
    refine (stores_storeOp ho h).others _ ?_
    rintro (⟨⟨agent', hd⟩ | hd, -⟩ | ⟨-, he | he⟩)
    · cases hd
    · cases hd
    · exact absurd (show "session.json" = STREAM_CURSOR_FILE from he) (by decide)
    · exact absurd (show "session.json" = ".tmp-stream-cursor" from he) (by decide)

theorem posted_ends {α : Type} {p : Call α} (hp : p.Only (StoreOp sid mid)) :
    p.Ends world i NoFault s fun _ s' => Posted sid mid s s' :=
  hp.ends (I := Posted sid mid) (fun _ => posted_of_files rfl) (fun _ _ _ h h' => h.trans h')
    (fun _ _ _ _ _ ho _ h => posted_storeOp ho h) s

theorem posted_of_history (h : OnlyHistory sid s s') : Posted sid mid s s' where
  others sid' agent b name _ := h ⟨.box sid' agent b, name⟩ nofun
  stays agent hin := by rwa [h ⟨.box sid agent .inbox, jsonName mid⟩ nofun]
  info sid' := h (sessionPath sid') nofun

theorem freshMsgId_rets (a : SendArgs) (rs : List String) (fuel : ℕ) :
    (freshMsgId a rs fuel).Rets fun mid => ∃ stamp suffix, mid = FreshSend.idOf a.fromId stamp suffix := by
  induction fuel with
  | zero => trivial
  | succ fuel ih =>
    have hgen : (genMsgId a.fromId).Rets fun mid => ∃ stamp suffix,
        mid = FreshSend.idOf a.fromId stamp suffix := fun now suffix => ⟨isoFormat now, suffix, rfl⟩
    refine hgen.bind fun mid hmid => Prog.Rets.bind (Prog.rets_true _) fun b _ => ?_
    split
    · exact ih
    · refine Prog.Rets.bind (Prog.rets_true _) fun found _ => ?_
      split
      · exact ih
      · exact hmid

/-- The roster of the session has no identifier that begins with a dot. -/
def PlainRoster (s : Disk) (sid : String) : Prop :=
  ∀ info t n, s.files.get? (sessionPath sid) = some ⟨.json info, t, n⟩ →
    ∀ id ∈ rosterOf info, dotted id = false

theorem send_posted (a : SendArgs) (fuel : ℕ) :
    (send fuel a).Ends world i NoFault s fun _ s' => ∃ mid,
      (PlainRoster s a.sessionId → dotted (jsonName mid) = false) ∧ Posted a.sessionId mid s s' := by
  have hm : PlainRoster s a.sessionId → dotted (jsonName "m") = false := fun _ => by decide
  have hnone : ∃ mid, (PlainRoster s a.sessionId → dotted (jsonName mid) = false) ∧
      Posted a.sessionId mid s s := ⟨"m", hm, posted_of_files rfl⟩
  refine (checkSend_ends a).bind ?_ fun e s₁ h => h.1 ▸ hnone
  rintro ⟨rs, refs⟩ s₁ ⟨rfl, hsender⟩
  dsimp only
  cases a.msgId with
  | some mid =>
    refine require_bind_ends (fun hmid => ?_) hnone
    have hplain : PlainRoster s₁ a.sessionId → dotted (jsonName mid) = false :=
      fun _ => dotted_jsonName hmid
    refine looks_ends (findExisting_only (fun _ ho => ho) _ _ _) (Prog.rets_true _)
      (fun existing s₂ _ hf => ?_) fun e t ht => ⟨mid, hplain, posted_of_files ht⟩
    have hsame : Posted a.sessionId mid s₁ s₂ := posted_of_files hf
    cases existing with
    | some existing =>
      refine require_bind_ends (fun _ => require_bind_ends (fun _ => ?_) ⟨mid, hplain, hsame⟩)
        ⟨mid, hplain, hsame⟩
      refine (posted_ends (backfill_storeOp a.sessionId mid existing rs)).bind ?_
        fun e t ht => ⟨mid, hplain, hsame.trans ht⟩
      intro n s₃ hposted
      refine (backfillHistory_ends a.sessionId mid existing s₃).bind ?_ ?_
      · rintro _ t ⟨honly, -⟩
        exact Prog.ends_ret ⟨mid, hplain, (hsame.trans hposted).trans (posted_of_history honly)⟩
      · rintro e t ⟨honly, -⟩
        exact ⟨mid, hplain, (hsame.trans hposted).trans (posted_of_history honly)⟩
    | none =>
      exact (posted_ends (sendNew_storeOp a mid rs refs)).mono fun r t ht =>
        ⟨mid, hplain, hsame.trans ht⟩
  | none =>
    refine looks_ends (freshMsgId_only (fun _ ho => ho) _ _ _) (freshMsgId_rets _ _ _)
      (fun mid s₂ hid hf => ?_) fun e t ht => ⟨"m", hm, posted_of_files ht⟩
    obtain ⟨stamp, suffix, rfl⟩ := hid
    obtain ⟨info, t, n, hinfo, hmem, -⟩ := hsender _ rfl
    have hplain (hroster : PlainRoster s₁ a.sessionId) :=
      dotted_idOf (hroster info t n hinfo _ hmem) stamp suffix
    exact (posted_ends (sendNew_storeOp a _ rs refs)).mono fun r t ht =>
      ⟨_, hplain, (posted_of_files hf).trans ht⟩

end Send

/-! ## Runs -/

/-- A call on the mailbox. -/
inductive MailCall
  | send (a : SendArgs)
  | read (owner : String) (skipMsgIds : List String) (targetMsgId : Option String)
  | finalize (msgId owner : String)
  | finalizeFromInbox (msgId owner : String)
  | release (msgId owner : String)
  | renewClaim (msgId owner : String)
  | recoverStale
  | check (maxMessages : ℤ)
  | clear (lease : Option PyErr) (pruneStale : Bool)

/-- What is in the mailbox's boxes, with the messages that sends have delivered and those that
`clear` has removed. -/
structure Account where
  disk : Disk
  delivered : Set String
  cleared : Set String

section

variable (sid agent : String)

/-- The call, without what it returns. -/
def MailCall.call (fuel : ℕ) : MailCall → Call Unit
  | .send a => do
    let _ ← Mailbox.send fuel a
    return ()
  | .read owner skip target => do
    let _ ← Mailbox.read fuel ⟨sid, agent, owner, skip, target⟩
    return ()
  | .finalize m owner => do
    let _ ← Mailbox.finalize sid agent m owner
    return ()
  | .finalizeFromInbox m owner => do
    let _ ← Mailbox.finalizeFromInbox sid agent m owner
    return ()
  | .release m owner => do
    let _ ← Mailbox.release sid agent m owner
    return ()
  | .renewClaim m owner => do
    let _ ← Mailbox.renewClaim sid agent m owner
    return ()
  | .recoverStale => do
    let _ ← Mailbox.recoverStale sid agent
    return ()
  | .check n => do
    let _ ← Keeping.check sid agent n
    return ()
  | .clear lease prune => do
    let _ ← Keeping.clear sid agent lease prune
    return ()

/-- The message is in the box. -/
def InBox (s : Disk) (b : Box) (m : String) : Prop :=
  (s.files.get? ⟨.box sid agent b, jsonName m⟩).isSome = true

/-- The messages that the call has brought into the inbox. -/
def Arrived (c : MailCall) (s s' : Disk) : Set String :=
  match c with
  | .send _ => {m | isMessageName (jsonName m) = true ∧ InBox sid agent s' .inbox m ∧
      ¬ InBox sid agent s .inbox m}
  | _ => ∅

/-- The archived messages that the call has removed. -/
def Removed (c : MailCall) (x : Account) (s' : Disk) : Set String :=
  match c with
  | .clear _ _ => {m ∈ x.delivered | InBox sid agent x.disk .archive m ∧
      ∀ b, ¬ InBox sid agent s' b m}
  | _ => ∅

/-- The account after a call that has left the disk `s'`. -/
def Account.next (x : Account) (c : MailCall) (s' : Disk) : Account :=
  ⟨s', x.delivered ∪ Arrived sid agent c x.disk s', x.cleared ∪ Removed sid agent c x s'⟩

/-- One call, alone on a disk that does not fail; a send delivers nothing that was delivered
before. -/
structure Step (x : Account) (c : MailCall) (y : Account) : Prop where
  run : ∃ fuel i r, (c.call sid agent fuel).Runs world i NoFault x.disk r y.disk
  next : y = x.next sid agent c y.disk
  fresh : ∀ m ∈ Arrived sid agent c x.disk y.disk, m ∉ x.delivered

/-- A mailbox as it is set up, in a session of well-formed members. -/
structure Opened (s : Disk) : Prop where
  empty : ∀ b name, s.files.get? ⟨.box sid agent b, name⟩ = none
  roster : ∀ info t n, s.files.get? (sessionPath sid) = some ⟨.json info, t, n⟩ →
    ∀ id ∈ rosterOf info, agentIdOk id = true

/-- The claim file `c` names the message `m`. -/
def Names (s : Disk) (c m : String) : Prop :=
  globMatch ".claim-" ".json" c = true ∧ ∃ f j,
    s.files.get? ⟨.box sid agent .processing, c⟩ = some f ∧ f.data = .json j ∧ claimMsgId j c = m

/-- Every message delivered is in one box or has been removed; a message is in `processing`
if and only if one claim names it; and every claim names one that is. -/
structure Good (x : Account) : Prop where
  place : ∀ m ∈ x.delivered, ((∃! b, InBox sid agent x.disk b m) ∧ m ∉ x.cleared) ∨
    (∀ b, ¬ InBox sid agent x.disk b m) ∧ m ∈ x.cleared
  claimed : ∀ m, dotted (jsonName m) = false →
    (InBox sid agent x.disk .processing m ↔ ∃! c, Names sid agent x.disk c m)
  claims : ∀ c, globMatch ".claim-" ".json" c = true →
    (x.disk.files.get? ⟨.box sid agent .processing, c⟩).isSome = true →
      ∃ m, Names sid agent x.disk c m ∧ InBox sid agent x.disk .processing m

/-- The call is a `finalize_from_inbox` that strands a claim. -/
def MailCall.Strands (s : Disk) : MailCall → Prop
  | .finalizeFromInbox m owner => Keeping.Strands sid agent s m owner
  | _ => False

/-- The holding is one of the messages delivered, without those removed. -/
structure Fits (x : Account) (h : Holding) : Prop where
  delivered : ∀ m, h m ≠ none → m ∈ x.delivered
  somewhere : ∀ m ∈ x.delivered, h m ≠ none ∨ m ∈ x.cleared
  cleared : ∀ m ∈ x.cleared, h m = none ∧ m ∈ x.delivered

/-- The disk shows such a holding. -/
structure Inv (x : Account) : Prop where
  shown : ∃ info h, Shown sid agent info h x.disk ∧ Fits x h
  plain : ∀ m ∈ x.delivered, dotted (jsonName m) = false
  roster : PlainRoster x.disk sid

end

section Invariant

variable {sid agent : String} {x y : Account} {i : ℕ}

theorem Opened.inv {s : Disk} (h : Opened sid agent s) : Inv sid agent ⟨s, ∅, ∅⟩ where
  shown := by
    refine ⟨_, fun _ => none, ⟨⟨⟨nofun, fun b m _ => ?_, fun name _ _ => h.empty .inbox name⟩,
      ⟨fun name f _ hf => ?_, nofun⟩⟩, rfl⟩, fun m hm => absurd rfl hm, nofun, nofun⟩
    · rw [h.empty]
      exact ⟨nofun, nofun⟩
    · rw [h.empty] at hf
      cases hf
  plain := nofun
  roster info t n hinfo id hid := Readable.dotted_of_agentIdOk (h.roster info t n hinfo id hid)

theorem names_shown {h : Holding} {info : Option MFile} {s : Disk} (hs : Shown sid agent info h s)
    {c : String} (hc : globMatch ".claim-" ".json" c = true) {f : MFile}
    (hf : s.files.get? ⟨.box sid agent .processing, c⟩ = some f) :
    ∃ m o, c = claimName (claimKey m o) ∧ h m = some (.held o) ∧ Names sid agent s c m ∧
      ∀ m', Names sid agent s c m' → m' = m := by
  obtain ⟨m, o, j, heq, hdata, hon, hm⟩ :=
    hs.shows.claims.named c f (startsWith_of_globMatch hc) hf
  have hid := hon.claimMsgId (hs.shows.boxes.plain m _ hm) c
  refine ⟨m, o, heq, hm, ⟨hc, f, j, hf, hdata, hid⟩, ?_⟩
  rintro m' ⟨-, f', j', hf', hdata', hid'⟩
  rw [hf] at hf'
  cases hf'
  rw [hdata] at hdata'
  cases hdata'
  rw [← hid', hid]

theorem Inv.good (hx : Inv sid agent x) : Good sid agent x := by
  obtain ⟨⟨info, h, hs, -, hout, hcleared⟩, hplain, -⟩ := hx
  refine ⟨fun m hm => ?_, fun m hm => ?_, fun c hc hf => ?_⟩
  · have hbox (b : Box) := hs.shows.boxes.place b m (hplain m hm)
    cases hspot : h m with
    | none =>
      right
      refine ⟨fun b hb => ?_, (hout m hm).resolve_left fun hne => hne hspot⟩
      have hb := (hbox b).mp hb
      rw [hspot] at hb
      cases hb
    | some spot =>
      left
      refine ⟨⟨spot.box, (hbox _).mpr (by rw [hspot]; rfl), fun b hb => ?_⟩, fun hc => ?_⟩
      · have hb := (hbox b).mp hb
        rw [hspot] at hb
        exact (Option.some.inj hb).symm
      · rw [(hcleared m hc).1] at hspot
        cases hspot
  · constructor
    · intro hproc
      obtain ⟨o, hheld⟩ := hs.shows.at_processing hm hproc
      obtain ⟨f, j, hf, hdata, hon⟩ := hs.shows.claims.held m o hheld
      refine ⟨claimName (claimKey m o),
        ⟨globMatch_of_claimName _, f, j, hf, hdata, hon.claimMsgId hm _⟩, ?_⟩
      rintro c ⟨hc, f', j', hf', hnames⟩
      obtain ⟨m', o', heq, hheld', -, huniq⟩ := names_shown hs hc hf'
      obtain rfl := huniq m ⟨hc, f', j', hf', hnames⟩
      rw [hheld] at hheld'
      cases hheld'
      exact heq
    · rintro ⟨c, hnames, -⟩
      obtain ⟨hc, f, j, hf, -⟩ := id hnames
      obtain ⟨m', o, -, hheld, -, huniq⟩ := names_shown hs hc hf
      obtain rfl := huniq m hnames
      exact hs.shows.isSome_held hheld
  · obtain ⟨f, hf⟩ := Option.isSome_iff_exists.mp hf
    obtain ⟨m, o, -, hheld, hnames, -⟩ := names_shown hs hc hf
    exact ⟨m, hnames, hs.shows.isSome_held hheld⟩

theorem PlainRoster.congr {s s' : Disk} (h : PlainRoster s sid)
    (hinfo : s'.files.get? (sessionPath sid) = s.files.get? (sessionPath sid)) :
    PlainRoster s' sid := by
  intro info t n hf
  rw [hinfo] at hf
  exact h info t n hf

theorem Inv.kept (hx : Inv sid agent x) {t : Disk}
    (ht : ∀ info h, Shown sid agent info h x.disk → Keeping.Kept sid agent info h t) :
    Inv sid agent ⟨t, x.delivered, x.cleared⟩ := by
  obtain ⟨⟨info, h, hs, hfits⟩, hplain, hroster⟩ := hx
  obtain ⟨h', hs', hdom⟩ := ht info h hs
  refine ⟨⟨info, h', hs', fun m hm => ?_, fun m hm => ?_, fun m hm => ?_⟩, hplain,
    hroster.congr (hs'.info.trans hs.info.symm)⟩
  · exact hfits.delivered m fun hnone => hm ((hdom m).mpr hnone)
  · exact (hfits.somewhere m hm).imp_left fun hne hnone => hne ((hdom m).mp hnone)
  · exact ⟨(hdom m).mpr (hfits.cleared m hm).1, (hfits.cleared m hm).2⟩

/-- `clear` removes messages of the archive. -/
theorem Inv.emptied (hx : Inv sid agent x) {t : Disk} {lease : Option PyErr} {prune : Bool}
    (ht : ∀ info h, Shown sid agent info h x.disk → Emptied sid agent info h t) :
    Inv sid agent (x.next sid agent (.clear lease prune) t) := by
  obtain ⟨⟨info, h, hs, hfits⟩, hplain, hroster⟩ := hx
  obtain ⟨h', hs', hnew, hold⟩ := ht info h hs
  have hbox {m : String} (hm : dotted (jsonName m) = false) (b : Box) := hs'.shows.boxes.place b m hm
  refine ⟨⟨info, h', hs', fun m hm => ?_, fun m hm => ?_, fun m hm => ?_⟩, ?_,
    hroster.congr (hs'.info.trans hs.info.symm)⟩
  · exact .inl (hfits.delivered m fun hnone => hm (hnew m hnone))
  · have hm : m ∈ x.delivered := hm.resolve_right nofun
    cases hnone : h' m with
    | some spot => exact .inl nofun
    | none =>
      right
      rcases hold m hnone with hgone | harch
      · exact .inl ((hfits.somewhere m hm).resolve_left fun hne => hne hgone)
      · refine .inr ⟨hm, (hs.shows.boxes.place .archive m (hplain m hm)).mpr (by rw [harch]; rfl),
          fun b hb => ?_⟩
        have hb := (hbox (hplain m hm) b).mp hb
        rw [hnone] at hb
        cases hb
  · rcases hm with hm | ⟨hm, -, hgone⟩
    · exact ⟨hnew m (hfits.cleared m hm).1, .inl (hfits.cleared m hm).2⟩
    · refine ⟨?_, .inl hm⟩
      cases hspot : h' m with
      | none => rfl
      | some spot => exact absurd ((hbox (hplain m hm) spot.box).mpr (by rw [hspot]; rfl)) (hgone _)
  · rintro m (hm | hm)
    · exact hplain m hm
    · cases hm

theorem shown_posted {info : Option MFile} {h : Holding} {s t : Disk} {mid : String}
    (hs : Shown sid agent info h s) (hmid : dotted (jsonName mid) = false) (hp : Posted sid mid s t)
    (hfresh : InBox sid agent t .inbox mid → ¬ InBox sid agent s .inbox mid → h mid = none) :
    ∃ h', Shown sid agent info h' t ∧ ∀ m, h' m = h m ∨
      m = mid ∧ h m = none ∧ h' m = some .inbox ∧ InBox sid agent t .inbox m ∧
        ¬ InBox sid agent s .inbox m := by
  have hinfo := (hp.info sid).trans hs.info
  have hplain (b : Box) {m : String} (hm : dotted (jsonName m) = false) (hne : b = .inbox → m ≠ mid) :
      t.files.get? ⟨.box sid agent b, jsonName m⟩ = s.files.get? ⟨.box sid agent b, jsonName m⟩ := by
    refine hp.others _ _ _ _ ?_
    rintro ⟨-, hb, he | he⟩
    · exact hne hb (jsonName_inj he)
    · rw [he, dotted_tmpName] at hm
      cases hm
  have hhidden {name : String} (hdot : dotted name = true) (htmp : startsWith ".tmp-" name = false)
      (b : Box) : t.files.get? ⟨.box sid agent b, name⟩ = s.files.get? ⟨.box sid agent b, name⟩ := by
    refine hp.others _ _ _ _ ?_
    rintro ⟨-, -, rfl | rfl⟩
    · rw [hmid] at hdot
      cases hdot
    · rw [startsWith_tmpName] at htmp
      cases htmp
  have hclaims : Claiming sid agent t h := by
    refine ⟨fun name f hname hf => ?_, fun m o hm => ?_⟩
    · rw [hhidden (dotted_of_claim hname) (not_tmp_of_claim hname)] at hf
      exact hs.shows.claims.named name f hname hf
    · rw [hhidden (dotted_of_claim (startsWith_claimName _))
        (not_tmp_of_claim (startsWith_claimName _))]
      exact hs.shows.claims.held m o hm
  have hlist : ∀ name, isMessageName name = true → dotted name = true →
      t.files.get? ⟨.box sid agent .inbox, name⟩ = none := by
    intro name hname hdot
    rw [hhidden hdot (not_tmp_of_message hname)]
    exact hs.shows.boxes.hidden name hname hdot
  by_cases hnew : InBox sid agent t .inbox mid ∧ ¬ InBox sid agent s .inbox mid
  · have hnone := hfresh hnew.1 hnew.2
    refine ⟨Function.update h mid (some .inbox), ⟨⟨⟨fun m spot hm => ?_, fun b m hm => ?_, hlist⟩, ?_⟩,
      hinfo⟩, fun m => ?_⟩
    · by_cases he : m = mid
      · rw [he]
        exact hmid
      · rw [Function.update_of_ne he] at hm
        exact hs.shows.boxes.plain m spot hm
    · by_cases he : m = mid
      · rw [he, Function.update_self, Option.map_some]
        by_cases hb : b = .inbox
        · rw [hb]
          exact ⟨fun _ => rfl, fun _ => hnew.1⟩
        · rw [hplain b hmid fun hb' => absurd hb' hb]
          refine (hs.shows.boxes.place b mid hmid).trans ?_
          rw [hnone]
          exact ⟨nofun, fun hb' => absurd (Option.some.inj hb').symm hb⟩
      · rw [hplain b hm fun _ => he, Function.update_of_ne he]
        exact hs.shows.boxes.place b m hm
    · refine hclaims.unclaimed (fun o ho => ?_) nofun
      rw [hnone] at ho
      cases ho
    · by_cases he : m = mid
      · rw [he]
        exact .inr ⟨rfl, hnone, Function.update_self .., hnew⟩
      · exact .inl (Function.update_of_ne he _ _)
  · refine ⟨h, ⟨⟨⟨hs.shows.boxes.plain, fun b m hm => ?_, hlist⟩, hclaims⟩, hinfo⟩, fun m => .inl rfl⟩
    by_cases he : b = .inbox ∧ m = mid
    · obtain ⟨rfl, rfl⟩ := he
      refine Iff.trans ⟨fun hin => ?_, hp.stays agent⟩ (hs.shows.boxes.place .inbox m hm)
      by_contra hno
      exact hnew ⟨hin, hno⟩
    · rw [hplain b hm fun hb hm' => he ⟨hb, hm'⟩]
      exact hs.shows.boxes.place b m hm

theorem Inv.posted (hx : Inv sid agent x) {a : SendArgs} {mid : String} {t : Disk}
    (hmid : PlainRoster x.disk a.sessionId → dotted (jsonName mid) = false)
    (hp : Posted a.sessionId mid x.disk t)
    (hfresh : ∀ m ∈ Arrived sid agent (.send a) x.disk t, m ∉ x.delivered) :
    Inv sid agent (x.next sid agent (.send a) t) := by
  obtain ⟨⟨info, h, hs, hfits⟩, hplain, hroster⟩ := hx
  have hafter : ∃ h', Shown sid agent info h' t ∧ ∀ m, h' m = h m ∨
      h m = none ∧ h' m = some .inbox ∧ m ∈ Arrived sid agent (.send a) x.disk t := by
    by_cases hsid : a.sessionId = sid
    · rw [hsid] at hmid hp
      have hm := hmid hroster
      obtain ⟨h', hs', hcase⟩ := shown_posted hs hm hp fun hin hnot => by
        by_contra hne
        exact hfresh mid ⟨isMessageName_of_plain hm, hin, hnot⟩ (hfits.delivered mid hne)
      refine ⟨h', hs', fun m => (hcase m).imp_right ?_⟩
      rintro ⟨rfl, hnone, hinbox, hin, hnot⟩
      exact ⟨hnone, hinbox, isMessageName_of_plain hm, hin, hnot⟩
    · refine ⟨h, ⟨hs.shows.congr_boxes fun b name _ => ?_, (hp.info sid).trans hs.info⟩,
        fun m => .inl rfl⟩
      exact hp.others _ _ _ _ fun he => hsid he.1.symm
  obtain ⟨h', hs', hcase⟩ := hafter
  have harrived : ∀ m ∈ Arrived sid agent (.send a) x.disk t,
      dotted (jsonName m) = false ∧ h' m = some .inbox := by
    rintro m ⟨hname, hin, -⟩
    have hm : dotted (jsonName m) = false := by
      rw [← Bool.not_eq_true]
      intro hdot
      rw [InBox, hs'.shows.boxes.hidden _ hname hdot] at hin
      cases hin
    exact ⟨hm, hs'.shows.at_inbox hm hin⟩
  refine ⟨⟨info, h', hs', fun m hm => ?_, fun m hm => ?_, fun m hm => ?_⟩, ?_,
    hroster.congr (hp.info sid)⟩
  · rcases hcase m with he | ⟨-, -, hnew⟩
    · rw [he] at hm
      exact .inl (hfits.delivered m hm)
    · exact .inr hnew
  · rcases hm with hm | hm
    · rcases hfits.somewhere m hm with hne | hc
      · left
        rcases hcase m with he | ⟨hnone, -⟩
        · rwa [he]
        · exact absurd hnone hne
      · exact .inr (.inl hc)
    · left
      rw [(harrived m hm).2]
      nofun
  · have hm : m ∈ x.cleared := hm.resolve_right nofun
    obtain ⟨hnone, hdelivered⟩ := hfits.cleared m hm
    refine ⟨?_, .inl hdelivered⟩
    rcases hcase m with he | ⟨-, -, hnew⟩
    · rw [he, hnone]
    · exact absurd hdelivered (hfresh m hnew)
  · rintro m (hm | hm)
    · exact hplain m hm
    · exact (harrived m hm).1

theorem unit_ends {α : Type} {p : Call α} {s : Disk} {Q : Disk → Prop}
    (hp : p.Ends world i NoFault s fun _ t => Q t) :
    (p >>= fun _ => (pure () : Call Unit)).Ends world i NoFault s fun _ t => Q t :=
  hp.bind (fun _ _ ht => Prog.ends_ret ht) fun _ _ ht => ht

/-- **One call** that strands no claim keeps the invariant. -/
theorem Step.inv {c : MailCall} (h : Step sid agent x c y) (hx : Inv sid agent x)
    (hc : ¬ c.Strands sid agent x.disk) : Inv sid agent y := by
  obtain ⟨⟨fuel, i, r, hrun⟩, hnext, hfresh⟩ := h
  rw [hnext]
  have hkept {p : Call Unit} (hdelivered : Arrived sid agent c x.disk y.disk = ∅)
      (hcleared : Removed sid agent c x y.disk = ∅) (hp : p.Runs world i NoFault x.disk r y.disk)
      (hk : ∀ info h, Shown sid agent info h x.disk →
        p.Ends world i NoFault x.disk fun _ t => Keeping.Kept sid agent info h t) :
      Inv sid agent (x.next sid agent c y.disk) := by
    rw [Account.next, hdelivered, hcleared, Set.union_empty, Set.union_empty]
    exact hx.kept fun info h hs => hk info h hs _ _ hp
  cases c with
  | send a =>
    obtain ⟨mid, hmid, hp⟩ := unit_ends (send_posted a fuel) _ _ hrun
    exact hx.posted hmid hp hfresh
  | read owner skip target =>
    exact hkept rfl rfl hrun fun info h hs => unit_ends (read_kept hs rfl rfl fuel)
  | finalize m owner =>
    exact hkept rfl rfl hrun fun info h hs => unit_ends (finalize_kept hs m owner)
  | finalizeFromInbox m owner =>
    exact hkept rfl rfl hrun fun info h hs => unit_ends (finalizeFromInbox_kept hs hc)
  | release m owner =>
    exact hkept rfl rfl hrun fun info h hs => unit_ends (release_kept hs m owner)
  | renewClaim m owner =>
    exact hkept rfl rfl hrun fun info h hs => unit_ends (renewClaim_kept hs m owner)
  | recoverStale => exact hkept rfl rfl hrun fun info h hs => unit_ends (recoverStale_kept hs)
  | check n => exact hkept rfl rfl hrun fun info h hs => unit_ends (check_kept hs n)
  | clear lease prune =>
    exact hx.emptied fun info h hs => unit_ends (clear_emptied hs lease prune) _ _ hrun

theorem Step.not_good {c : MailCall} (h : Step sid agent x c y) (hx : Inv sid agent x)
    (hc : c.Strands sid agent x.disk) : ¬ Good sid agent y := by
  obtain ⟨⟨fuel, i, r, hrun⟩, -, -⟩ := h
  intro hgood
  cases c with
  | finalizeFromInbox m owner =>
    obtain ⟨info, h, hs, -⟩ := hx.shown
    obtain ⟨hgone, name, f, j, hname, hf, hdata, hid⟩ :=
      unit_ends (finalizeFromInbox_strands hs hc) _ _ hrun
    obtain ⟨m', ⟨-, f', j', hf', hdata', hid'⟩, hin⟩ := hgood.claims name hname (by rw [hf]; rfl)
    rw [hf] at hf'
    cases hf'
    rw [hdata] at hdata'
    cases hdata'
    rw [← hid', hid, InBox, hgone] at hin
    cases hin
  | _ => exact hc

/-- **When every message is in one place.**  In a run from a mailbox as it is set up, with sends
of new messages only, every state is good exactly if no `finalize_from_inbox` of the run finds its
message in `processing`, with no claim that is not the caller's. -/
theorem one_place_iff (sid agent : String) (s : Disk) (hs : Opened sid agent s)
    (run : List (MailCall × Account)) (hrun : History.Trail (Step sid agent) ⟨s, ∅, ∅⟩ run) :
    (∀ x ∈ History.visited ⟨s, ∅, ∅⟩ run, Good sid agent x) ↔
      History.Along (fun x c => ¬ c.Strands sid agent x.disk) ⟨s, ∅, ∅⟩ run := by
  refine (History.Trail.along_iff (I := Inv sid agent) (fun x hx => hx.good)
    (fun x c y hx hc hstep => hstep.inv hx hc) (fun x c y hx hc hstep => ?_) hs.inv hrun).symm
  exact hstep.not_good hx (not_not.mp hc)

end Invariant

/-! ### A message that is read and archived -/

/-- Manager `a` and one agent `b`. -/
def twoMembers : Disk := newSession "s" "a" ["b"] 0

/-- The document that a file holds. -/
def documentOf : Data → Option Json
  | .json j => some j
  | .junk => none

theorem twoMembers_opened : Opened "s" "b" twoMembers where
  empty b name := by
    show (Files.empty.write _ _ _).get? _ = none
    rw [Files.get?_write_ne _ _ _ (fun h => by cases congrArg Path.dir h), Files.get?_empty]
  roster info t n hf := by
    have hinfo : (twoMembers.files.get? (sessionPath "s")).map (fun f =>
        (documentOf f.data).all fun j => (rosterOf j).all agentIdOk) = some true := by
      decide +kernel
    rw [hf] at hinfo
    simpa [documentOf] using hinfo

/-- The disk after a call on the mailbox of `b`, if the call alone comes to its end. -/
def after? (c : MailCall) (s : Disk) : Option Disk :=
  (Prog.exec world 0 {} 80 (c.call "s" "b" 2) s).map Prod.snd

theorem step_of_after? {x : Account} {c : MailCall} {t : Disk} (h : after? c x.disk = some t)
    (hfresh : ∀ m ∈ Arrived "s" "b" c x.disk t, m ∉ x.delivered) :
    Step "s" "b" x c (x.next "s" "b" c t) := by
  obtain ⟨⟨r, t'⟩, hexec, rfl⟩ := Option.map_eq_some_iff.mp h
  exact ⟨⟨2, 0, r, Prog.runs_of_exec (c := {}) (show NoFault {} from rfl) hexec⟩, rfl, hfresh⟩

/-- The message is sent and read, and then `last` is called. -/
def threeCalls (last : MailCall) : Option (Disk × Disk × Disk) := do
  let t₁ ← after? (.send notice) twoMembers
  let t₂ ← after? (.read "w" [] none) t₁
  let t₃ ← after? last t₂
  return (t₁, t₂, t₃)

theorem threeCalls_trail {last : MailCall} {t₁ t₂ t₃ : Disk} (h : threeCalls last = some (t₁, t₂, t₃))
    (hlast : ∀ s s', Arrived "s" "b" last s s' = ∅) : ∃ x₁ x₂ x₃ : Account,
    x₁.disk = t₁ ∧ x₂.disk = t₂ ∧ x₃.disk = t₃ ∧
      History.Trail (Step "s" "b") ⟨twoMembers, ∅, ∅⟩
        [(.send notice, x₁), (.read "w" [] none, x₂), (last, x₃)] := by
  simp only [threeCalls, Option.bind_eq_bind, Option.bind_eq_some_iff, Option.pure_def,
    Option.some.injEq, Prod.mk.injEq] at h
  obtain ⟨_, h₁, _, h₂, _, h₃, rfl, rfl, rfl⟩ := h
  have hnew : ∀ {x : Account} {c : MailCall} {t : Disk}, Arrived "s" "b" c x.disk t = ∅ →
      ∀ m ∈ Arrived "s" "b" c x.disk t, m ∉ x.delivered := by
    intro x c t hempty m hm
    rw [hempty] at hm
    cases hm
  exact ⟨_, _, _, rfl, rfl, rfl, step_of_after? h₁ fun _ _ => nofun, step_of_after? h₂ (hnew rfl),
    step_of_after? h₃ (hnew (hlast _ _)), trivial⟩

theorem one_place_finalized : ∃ x₁ x₂ x₃ : Account,
    History.Trail (Step "s" "b") ⟨twoMembers, ∅, ∅⟩
      [(.send notice, x₁), (.read "w" [] none, x₂), (.finalize "m" "w", x₃)] ∧
    ∀ x ∈ History.visited ⟨twoMembers, ∅, ∅⟩
      [(MailCall.send notice, x₁), (.read "w" [] none, x₂), (.finalize "m" "w", x₃)],
      Good "s" "b" x := by
  have hruns : (threeCalls (.finalize "m" "w")).isSome = true := by decide +kernel
  obtain ⟨⟨t₁, t₂, t₃⟩, ht⟩ := Option.isSome_iff_exists.mp hruns
  obtain ⟨x₁, x₂, x₃, -, -, -, hrun⟩ := threeCalls_trail ht fun _ _ => rfl
  refine ⟨x₁, x₂, x₃, hrun, (one_place_iff "s" "b" twoMembers twoMembers_opened _ hrun).mpr ?_⟩
  exact ⟨id, id, id, trivial⟩

/-- `finalize_from_inbox` in place of `finalize` leaves the claim. -/
theorem finalized_claim_remains : ¬ ∀ (sid agent : String) (s : Disk), Opened sid agent s →
    ∀ run, History.Trail (Step sid agent) ⟨s, ∅, ∅⟩ run →
      ∀ x ∈ History.visited ⟨s, ∅, ∅⟩ run, Good sid agent x := by
  intro h
  have hruns : ((threeCalls (.finalizeFromInbox "m" "w")).any fun t =>
      (t.2.2.files.get? ⟨.box "s" "b" .processing, "m.json"⟩).isNone &&
      (t.2.2.files.get? ⟨.box "s" "b" .processing, ".claim-m-w.json"⟩).any fun f =>
        (documentOf f.data).any fun j => claimMsgId j ".claim-m-w.json" = "m") = true := by
    decide +kernel
  obtain ⟨⟨t₁, t₂, t₃⟩, ht⟩ := Option.isSome_iff_exists.mp (Option.isSome_of_any hruns)
  rw [ht, Option.any_some, Bool.and_eq_true] at hruns
  obtain ⟨hgone, hclaim⟩ := hruns
  obtain ⟨x₁, x₂, x₃, -, -, hx₃, hrun⟩ := threeCalls_trail ht fun _ _ => rfl
  have hgood := h "s" "b" twoMembers twoMembers_opened _ hrun x₃ (by simp [History.visited])
  rw [← hx₃] at hgone hclaim
  obtain ⟨m, ⟨-, f, j, hf, hdata, hid⟩, hin⟩ := hgood.claims ".claim-m-w.json" (by decide)
    (Option.isSome_of_any hclaim)
  rw [hf, Option.any_some, hdata, documentOf, Option.any_some] at hclaim
  obtain rfl : m = "m" := hid.symm.trans (of_decide_eq_true hclaim)
  rw [Option.isNone_iff_eq_none] at hgone
  rw [InBox, show jsonName "m" = "m.json" from rfl, hgone] at hin
  cases hin

end AiMeshChat.Mailbox.OnePlace
