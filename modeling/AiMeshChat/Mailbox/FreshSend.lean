import AiMeshChat.Calendar
import AiMeshChat.Mailbox.NewMessage
import AiMeshChat.Mailbox.Recovery

/-!
# A send of a message without a record

What `send` does, step by step and to its end, for an identifier of which the history has
neither a record nor a draft. A message that its check refuses leaves the disk as it is.
One that passes is published and the cursor advanced; then the history takes it if its
identifier is well-formed, and raises if not (`sendNew_total`).

A well-formed identifier is what `send` asks of the caller. Its own identifiers are
well-formed too, unless the sender's ends in a newline (`msgIdOk_generatedId`).
-/

namespace AiMeshChat.Mailbox.FreshSend

open Lib Replay Recovery

variable {i : ℕ} {s : Disk}

/-- The content of the file at a path. -/
def contents (s : Disk) (p : MPath) : Option Data := (s.files.get? p).map File.data

/-- No condition on the states between two operations. -/
abbrev Anywhere : Disk → Prop := fun _ => True

/-! ## The checks -/

variable {a : SendArgs} {sid mid : String} {rs : List String} {P : Choice → Prop} {c : Choice}

theorem checkSend_ready_total {roster : List String} (h : NewMessage.Ready s a roster)
    (hpre : NewMessage.precheck a = true) :
    (checkSend a).Total world i NoFault Anywhere s fun r s' =>
      r = .ok (recipientsOf a roster, NewMessage.refsOf a) ∧ s' = s := by
  obtain ⟨info, t, n, hf, hdict, hroster⟩ := h.info
  simp only [NewMessage.precheck, Bool.and_eq_true] at hpre
  obtain ⟨⟨hatt, hkind⟩, hbody⟩ := hpre
  refine require_total h.sid (isDir_total trivial h.dir (require_total rfl ?_))
  refine (readSession_total trivial h.sid hf).bind ?_ ?_
  · rintro _ s₁ - ⟨⟨⟩, rfl⟩
    have hnull : info ≠ .null := by
      rintro rfl
      cases hdict
    refine require_total (decide_eq_true hnull) (require_total hdict ?_)
    dsimp only [Option.getD_some]
    rw [hroster]
    refine require_total (decide_eq_true h.sender) ?_
    rcases NewMessage.attachmentRefs_eq (a.attachments.getD []) with ⟨-, hrefs⟩ | ⟨hno, -⟩
    · rw [hrefs, Prog.ret_bind]
      have hto : (decide (a.toId = BROADCAST_TO) || decide (a.toId ∈ roster)) = true := by
        rw [Bool.or_eq_true, decide_eq_true_eq, decide_eq_true_eq]
        exact h.recipient
      refine require_total hto ?_
      refine (checkInboxes_total trivial h.boxes).bind ?_ ?_
      · rintro _ s₂ - ⟨-, rfl⟩
        exact require_total hkind (require_total hbody (Prog.total_ret trivial ⟨rfl, rfl⟩))
      · rintro e s₂ - ⟨h, -⟩
        cases h
    · rw [hatt] at hno
      cases hno
  · rintro e s₁ - ⟨h, -⟩
    cases h

theorem checkSend_passed_ends (a : SendArgs)
    (hcursor : ∀ j t n, s.files.get? ⟨.session a.sessionId, STREAM_CURSOR_FILE⟩ =
      some ⟨.json j, t, n⟩ → j.isDict = true) :
    (checkSend a).Ends world i NoFault s fun r s' => s' = s ∧ ∀ x, r = .ok x →
      ∃ roster, NewMessage.Ready s a roster ∧ NewMessage.precheck a = true ∧
        x = (recipientsOf a roster, NewMessage.refsOf a) := by
  refine require_bind_ends (fun hsid => isDir_ends (require_bind_ends (fun hdir => ?_) ⟨rfl, nofun⟩))
    ⟨rfl, nofun⟩
  refine (readSession_ends a.sessionId).bind ?_ (fun e s₁ h => ⟨h.1, nofun⟩)
  rintro info s₁ ⟨rfl, hinfo⟩
  refine require_bind_ends (fun hnull => ?_) ⟨rfl, nofun⟩
  obtain ⟨j, rfl⟩ : ∃ j, info = some j := by
    cases info with
    | none => exact absurd hnull (by decide)
    | some j => exact ⟨j, rfl⟩
  obtain ⟨t, n, hf⟩ := hinfo j rfl
  refine require_bind_ends (fun hdict => require_bind_ends (fun hsender => ?_) ⟨rfl, nofun⟩)
    ⟨rfl, nofun⟩
  rcases NewMessage.attachmentRefs_eq (a.attachments.getD []) with ⟨hatt, hrefs⟩ | ⟨-, e, hrefs⟩
  · rw [hrefs, Prog.ret_bind]
    refine require_bind_ends (fun hto => ?_) ⟨rfl, nofun⟩
    refine (checkInboxes_ends a.sessionId _).bind ?_ (fun e s₃ h => ⟨h.1, nofun⟩)
    rintro _ s₃ ⟨rfl, hready⟩
    refine require_bind_ends (fun hkind => require_bind_ends (fun hbody => ?_) ⟨rfl, nofun⟩)
      ⟨rfl, nofun⟩
    refine Prog.ends_ret ⟨rfl, fun x hx => ?_⟩
    cases hx
    refine ⟨rosterOf j, ?_, ?_, rfl⟩
    · rw [Bool.or_eq_true, decide_eq_true_eq, decide_eq_true_eq] at hto
      exact {
        sid := hsid
        dir := of_decide_eq_true hdir
        info := ⟨j, t, n, hf, hdict, rfl⟩
        sender := of_decide_eq_true hsender
        recipient := hto
        boxes := hready rfl
        cursor := hcursor }
    · rw [NewMessage.precheck, hatt, hkind, hbody]
      rfl
  · rw [hrefs]
    exact Prog.ends_raise ⟨rfl, nofun⟩

/-! ## The envelopes -/

theorem publish_ready_total (payload : Json) (rs : List String) :
    ∀ s : Disk, (∀ rid ∈ rs, Replay.Ready s sid rid) →
      (publish sid mid payload rs).Total world i NoFault Anywhere s fun r s' =>
        r = .ok () ∧ s'.dirs = s.dirs ∧ s'.inoLocks = s.inoLocks ∧
          ∀ p, NewMessage.Outside sid p → s'.files.get? p = s.files.get? p := by
  induction rs with
  | nil =>
    intro s _
    exact Prog.total_ret trivial ⟨rfl, rfl, rfl, fun _ _ => rfl⟩
  | cons rid rest ih =>
    intro s hready
    obtain ⟨hrid, hsid, hdir⟩ := hready rid List.mem_cons_self
    refine agentSubdir_total hrid hsid (write_total trivial hdir fun t => ?_)
    refine replace_total trivial ?_ hdir ?_
    · obtain ⟨n, hn⟩ := Files.get?_write_self s.files ⟨.box sid rid .inbox, tmpName mid⟩
        (.json payload) t
      rw [Disk.write, hn]
      rfl
    · refine (ih (written s sid mid rid (.json payload) t) fun rid' h =>
        hready rid' (List.mem_cons_of_mem _ h)).mono (fun _ h => h) ?_
      rintro r s' - ⟨hr, hdirs, hlocks, hout⟩
      refine ⟨hr, hdirs, hlocks, fun p hp => ?_⟩
      rw [hout p hp, NewMessage.written_other s _ _ (hp rid)]

/-! ## The cursor -/

/-- The document of a cursor. -/
def cursorDoc (c : ℕ × ℤ) : Json := .obj [("epoch_ms", .int c.1), ("seq", .int c.2)]

theorem cursorDoc_nextCursor_ne (j : Json) (nowMs : ℕ) : cursorDoc (nextCursor (some j) nowMs) ≠ j := by
  intro h
  have hms : j.get? "epoch_ms" = some (.int nowMs) := by
    rw [← h]
    rfl
  have hseq : j.get? "seq" = some (.int (nextCursor (some j) nowMs).2) := by
    conv_lhs => rw [← h]
    rfl
  have hnext : (nextCursor (some j) nowMs).2 = ((j.get? "seq").bind Json.int?).getD 0 + 1 := by
    simp only [nextCursor, Option.bind_some, hms, Json.int?, Option.getD_some, if_true]
  rw [hseq] at hnext
  simp only [Option.bind_some, Json.int?, Option.getD_some] at hnext
  omega

/-- The cursor of the session has moved on. -/
def Advanced (sid : String) (s s' : Disk) : Prop :=
  ∃ j, contents s' ⟨.session sid, STREAM_CURSOR_FILE⟩ = some (.json j) ∧
    contents s ⟨.session sid, STREAM_CURSOR_FILE⟩ ≠ some (.json j)

theorem updateCursor_ready_total {sid : String} {nowMs : ℕ} (hdir : Dir.session sid ∈ s.dirs)
    (hcursor : ∀ j t n, s.files.get? ⟨.session sid, STREAM_CURSOR_FILE⟩ = some ⟨.json j, t, n⟩ →
      j.isDict = true) :
    (do
      let prev ← (do
        if ← fileExists ⟨.session sid, STREAM_CURSOR_FILE⟩ then
          match ← readBytes ⟨.session sid, STREAM_CURSOR_FILE⟩ with
          | .ok (.json j) => if j.isDict then return some j else throw .attribute
          | _ => return none
        else return none)
      let next := nextCursor prev nowMs
      write ⟨.session sid, ".tmp-stream-cursor"⟩
        (.json (.obj [("epoch_ms", .int next.1), ("seq", .int next.2)]))
      replace ⟨.session sid, ".tmp-stream-cursor"⟩ ⟨.session sid, STREAM_CURSOR_FILE⟩
      return next : Call (ℕ × ℤ)).Total world i NoFault Anywhere s fun r s' =>
        (∃ next, r = .ok next) ∧ s'.inoLocks = s.inoLocks ∧ NewMessage.OnlyIn (.session sid) s s' ∧
          Advanced sid s s' := by
  refine Prog.Total.bind (M := fun r s' => s' = s ∧ ∃ prev, r = .ok prev ∧ ∀ j,
    contents s ⟨.session sid, STREAM_CURSOR_FILE⟩ = some (.json j) → prev = some j) ?_ ?_ ?_
  · refine fileExists_total trivial ?_
    cases hf : s.files.get? ⟨.session sid, STREAM_CURSOR_FILE⟩ with
    | none =>
      refine Prog.total_ret trivial ⟨rfl, none, rfl, fun j hj => ?_⟩
      rw [contents, hf] at hj
      cases hj
    | some f =>
      obtain ⟨x, t, n⟩ := f
      refine readBytes_total trivial ?_
      rw [hf]
      cases x with
      | junk =>
        refine Prog.total_ret trivial ⟨rfl, none, rfl, fun j hj => ?_⟩
        rw [contents, hf] at hj
        cases hj
      | json j =>
        dsimp only
        rw [if_pos (hcursor j t n hf)]
        refine Prog.total_ret trivial ⟨rfl, some j, rfl, fun j' hj => ?_⟩
        rw [contents, hf] at hj
        cases hj
        rfl
  · rintro prev s₁ - ⟨rfl, prev', hprev', hprev⟩
    cases hprev'
    dsimp only
    obtain ⟨next, hnext⟩ : ∃ next, next = nextCursor prev nowMs := ⟨_, rfl⟩
    rw [← hnext]
    refine write_total trivial hdir fun t => ?_
    obtain ⟨f, hdata, hf, hmove⟩ := get?_write_move s₁.files ⟨.session sid, ".tmp-stream-cursor"⟩
      ⟨.session sid, STREAM_CURSOR_FILE⟩ (.json (cursorDoc next)) t
    refine replace_total trivial (Option.isSome_iff_exists.mpr ⟨f, hf⟩) hdir (Prog.total_ret trivial ?_)
    refine ⟨⟨_, rfl⟩, rfl, ⟨fun _ h => h, fun p hp => ?_⟩, ?_⟩
    · refine (hmove p).trans ?_
      rw [if_neg, if_neg]
      · rintro rfl
        exact hp rfl
      · rintro rfl
        exact hp rfl
    · refine ⟨cursorDoc next, ?_, fun hbefore => ?_⟩
      · refine (congrArg (Option.map File.data) ((hmove _).trans (if_pos rfl))).trans ?_
        rw [← hdata]
        rfl
      · have hsome := hprev _ hbefore
        rw [hsome] at hnext
        exact cursorDoc_nextCursor_ne (cursorDoc next) nowMs (by rw [← hnext])
  · rintro e s₁ - ⟨-, prev, he, -⟩
    cases he

theorem advanceCursor_ready_total {sid : String} (hsid : agentIdOk sid = true)
    (hlocks : s.inoLocks = [])
    (hcursor : ∀ j t n, s.files.get? ⟨.session sid, STREAM_CURSOR_FILE⟩ = some ⟨.json j, t, n⟩ →
      j.isDict = true) :
    (advanceCursor sid).Total world i NoFault Anywhere s fun r s' =>
      (∃ text, r = .ok text) ∧ s'.inoLocks = [] ∧ NewMessage.OnlyIn (.session sid) s s' ∧
        Advanced sid s s' := by
  refine require_total hsid (mkdir_total trivial fun dirs hdirs => ?_)
  have hd : Dir.session sid ∈ dirs := (hdirs _).mpr (.inl rfl)
  have hmore : ∀ d ∈ s.dirs, d ∈ dirs := fun d hd => (hdirs d).mpr (.inr hd)
  refine clock_total trivial fun now => openFd_total trivial hd fun fd s₂ hopen => ?_
  -- the file is there now; it holds what it held, or nothing
  have hs₂ : s₂.inoLocks = [] ∧ s₂.dirs = dirs ∧
      (∀ p : MPath, p.dir ≠ .session sid → s₂.files.get? p = s.files.get? p) ∧
      ∀ j, contents s₂ ⟨.session sid, STREAM_CURSOR_FILE⟩ = some (.json j) ↔
        contents s ⟨.session sid, STREAM_CURSOR_FILE⟩ = some (.json j) := by
    rcases hopen with rfl | ⟨hnone, t, rfl⟩
    · exact ⟨hlocks, rfl, fun _ _ => rfl, fun _ => Iff.rfl⟩
    · refine ⟨hlocks, rfl, fun p hp => Files.get?_write_ne _ _ _ ?_, fun j => ?_⟩
      · rintro rfl
        exact hp rfl
      · obtain ⟨m, hm⟩ := Files.get?_write_self s.files ⟨.session sid, STREAM_CURSOR_FILE⟩ .junk t
        have hnone : s.files.get? ⟨.session sid, STREAM_CURSOR_FILE⟩ = none := hnone
        rw [contents, contents, Disk.write, hm, hnone]
        simp
  obtain ⟨hlocks₂, hdirs₂, hother₂, hsame₂⟩ := hs₂
  have hcursor₂ : ∀ j t n, s₂.files.get? ⟨.session sid, STREAM_CURSOR_FILE⟩ =
      some ⟨.json j, t, n⟩ → j.isDict = true := by
    intro j t n hf
    have hj := (hsame₂ j).mp (by rw [contents, hf]; rfl)
    obtain ⟨⟨x, t', n'⟩, hf', hx⟩ := Option.map_eq_some_iff.mp hj
    cases hx
    exact hcursor j t' n' hf'
  refine flock_total trivial hlocks₂ ?_
  refine Prog.Total.bind (M := fun r s' => (∃ next, r = .ok next) ∧ s'.inoLocks = [] ∧
    NewMessage.OnlyIn (.session sid) s s' ∧ Advanced sid s s') ?_ ?_ ?_
  · refine Prog.Total.ensure (updateCursor_ready_total (by rwa [hdirs₂]) hcursor₂) ?_
    rintro r s₄ - ⟨hr, hlocks₄, honly, j, hnow, hbefore⟩
    refine Prog.total_op_bind trivial fun c _ => ⟨(), _, rfl, Prog.total_ret trivial ⟨rfl, hr, ?_, ?_, ?_⟩⟩
    · show s₄.inoLocks.filter _ = []
      rw [hlocks₄]
      simp
    · refine ⟨fun d hd => honly.1 d ?_, fun p hp => (honly.2 p hp).trans (hother₂ p hp)⟩
      show d ∈ s₂.dirs
      rw [hdirs₂]
      exact hmore d hd
    · exact ⟨j, hnow, fun hs => hbefore ((hsame₂ j).mpr hs)⟩
  · rintro next s' - ⟨-, hlocks', honly, hadv⟩
    exact Prog.total_ret trivial ⟨⟨_, rfl⟩, hlocks', honly, hadv⟩
  · rintro e s' - ⟨⟨next, he⟩, -⟩
    cases he

/-! ## The history -/

/-- The history has neither a record of the message nor a draft of one. -/
structure Unrecorded (s : Disk) (sid mid : String) : Prop where
  record : s.files.get? ⟨.history sid, jsonName mid⟩ = none
  draft : s.files.get? ⟨.history sid, tmpName mid⟩ = none

/-- The history has a record of the message and no draft of one. -/
structure IsRecorded (s : Disk) (sid mid : String) : Prop where
  record : (s.files.get? ⟨.history sid, jsonName mid⟩).isSome = true
  draft : s.files.get? ⟨.history sid, tmpName mid⟩ = none

theorem appendHistory_fresh_total {msg : Json} (hsid : agentIdOk sid = true)
    (hdir : Dir.session sid ∈ s.dirs) (hdict : msg.isDict = true)
    (hvalid : validateMessage msg (some sid) none none = .ok ())
    (hfresh : msgIdOk (textOf msg "msg_id") = true → Unrecorded s sid (textOf msg "msg_id")) :
    (appendHistory sid msg).Total world i NoFault Anywhere s fun r s' =>
      (msgIdOk (textOf msg "msg_id") = true →
        (∃ text, r = .ok text) ∧ IsRecorded s' sid (textOf msg "msg_id")) ∧
      (msgIdOk (textOf msg "msg_id") = false →
        r = .error (.value ("invalid msg_id: " ++ textOf msg "msg_id")) ∧ s' = s) := by
  refine require_total hsid (isDir_total trivial hdir (require_total rfl ?_))
  refine require_total hdict ?_
  rw [hvalid]
  cases hmid : msgIdOk (textOf msg "msg_id") with
  | false =>
    have hraise : validateMsgId (textOf msg "msg_id") =
        .raise (.value ("invalid msg_id: " ++ textOf msg "msg_id")) := by
      rw [validateMsgId, hmid]
      rfl
    dsimp only [requireValid]
    rw [Prog.ret_bind, hraise]
    exact Prog.total_raise trivial ⟨fun h => (by cases h), fun _ => ⟨rfl, rfl⟩⟩
  | true =>
    refine require_total hmid (mkdir_total trivial fun dirs hdirs => ?_)
    have hd : Dir.history sid ∈ dirs := (hdirs _).mpr (.inl rfl)
    refine fileExists_total trivial (require_total ?_ ?_)
    · dsimp only
      rw [(hfresh hmid).record]
      rfl
    · refine Prog.total_op_bind trivial fun c hc => ⟨.ok (), ({ s with dirs := dirs } : Disk).write
        ⟨.history sid, tmpName (textOf msg "msg_id")⟩ (.json msg) c.time, ?_, ?_⟩
      · have hc : c.fault = false := hc
        simp only [world, Disk.perform, hc, Bool.false_eq_true, if_false]
        rw [if_neg (not_not_intro hd), (hfresh hmid).draft]
        rfl
      · obtain ⟨f, -, hf, hmove⟩ := get?_write_move s.files
          ⟨.history sid, tmpName (textOf msg "msg_id")⟩ ⟨.history sid, jsonName (textOf msg "msg_id")⟩
          (.json msg) c.time
        refine replace_total trivial (Option.isSome_iff_exists.mpr ⟨f, hf⟩) hd
          (Prog.total_ret trivial ⟨fun _ => ⟨⟨_, rfl⟩, ?_, ?_⟩, fun h => by cases h⟩)
        · exact Option.isSome_iff_exists.mpr ⟨f, (hmove _).trans (if_pos rfl)⟩
        · refine (hmove _).trans ((if_neg ?_).trans (if_pos rfl))
          intro he
          exact tmpName_ne_jsonName _ (congrArg Path.name he)

/-! ## The send -/

theorem textOf_stamped (a : SendArgs) (mid t cursor : String) (refs : List AttachmentRef) :
    textOf ((messageOf a mid t refs).toDict.set "_cursor" (.str cursor)) "msg_id" = mid :=
  (sameChecked_set_cursor _ _).textOf (by decide)

theorem sendNew_invalid_ends
    (hinvalid : validateMessage (NewMessage.untimed a mid) (some a.sessionId) none none ≠ .ok ()) :
    (sendNew a mid rs (NewMessage.refsOf a)).Ends world i P s fun _ s' => s' = s := by
  refine Prog.ends_op_bind fun c now s₁ _ hw => ?_
  cases hw
  have hcheck := (sameChecked_createdAt a mid "" (isoFormat c.time)
    (NewMessage.refsOf a)).validateMessage (some a.sessionId) none none
  dsimp only
  rw [hcheck]
  cases hwhy : validateMessage (messageOf a mid "" (NewMessage.refsOf a)).toDict (some a.sessionId)
      none none with
  | ok u => exact absurd hwhy hinvalid
  | error why =>
    cases why with
    | reject w => exact Prog.ends_raise rfl
    | typeError w => exact Prog.ends_raise rfl

/-- **A valid message is recorded if its identifier is well-formed.**  If not, the send
raises, and has moved the cursor. -/
theorem sendNew_total {roster : List String} (h : NewMessage.Ready s a roster)
    (hlocks : s.inoLocks = [])
    (hvalid : validateMessage (NewMessage.untimed a mid) (some a.sessionId) none none = .ok ())
    (hfresh : msgIdOk mid = true → Unrecorded s a.sessionId mid) :
    (sendNew a mid (recipientsOf a roster) (NewMessage.refsOf a)).Total world i NoFault Anywhere s
      fun r s' => (msgIdOk mid = true →
          (∃ text, r = .ok text) ∧ IsRecorded s' a.sessionId mid) ∧
        (msgIdOk mid = false → (∃ why, r = .error (.value why)) ∧ Advanced a.sessionId s s') := by
  refine clock_total trivial fun now => ?_
  have hsame := sameChecked_createdAt a mid "" (isoFormat now) (NewMessage.refsOf a)
  have hvalid' : validateMessage (messageOf a mid (isoFormat now) (NewMessage.refsOf a)).toDict
      (some a.sessionId) none none = .ok () :=
    (hsame.validateMessage (some a.sessionId) none none).trans hvalid
  dsimp only
  rw [hvalid']
  refine (publish_ready_total _ _ s h.boxes).bind ?_ fun e s₂ _ hM => by cases hM.1
  rintro _ s₂ - ⟨-, hdirs₂, hlocks₂, hout₂⟩
  have hcursor₂ : s₂.files.get? ⟨.session a.sessionId, STREAM_CURSOR_FILE⟩ =
      s.files.get? ⟨.session a.sessionId, STREAM_CURSOR_FILE⟩ := hout₂ _ fun _ he => by cases he
  refine (advanceCursor_ready_total h.sid (hlocks₂.trans hlocks) ?_).bind ?_ ?_
  · rw [hcursor₂]
    exact h.cursor
  · rintro cursor s₃ - ⟨-, -, ⟨hdirs₃, hout₃⟩, j, hnow, hbefore⟩
    have hboxes : ∀ rid ∈ recipientsOf a roster, Replay.Ready s₃ a.sessionId rid := by
      intro rid hrid
      obtain ⟨h₁, h₂, h₃⟩ := h.boxes rid hrid
      refine ⟨h₁, h₂, hdirs₃ _ ?_⟩
      rw [hdirs₂]
      exact h₃
    refine (publish_ready_total _ _ s₃ hboxes).bind ?_ fun e s₄ _ hM => by cases hM.1
    rintro _ s₄ - ⟨-, hdirs₄, -, hout₄⟩
    have hstamp := sameChecked_set_cursor
      (messageOf a mid (isoFormat now) (NewMessage.refsOf a)).toDict (.str cursor)
    have hmsg := textOf_stamped a mid (isoFormat now) cursor (NewMessage.refsOf a)
    have hhist (name : String) : s₄.files.get? ⟨.history a.sessionId, name⟩ =
        s.files.get? ⟨.history a.sessionId, name⟩ := by
      rw [hout₄ _ (fun _ he => by cases he), hout₃ _ (fun he => by cases he),
        hout₂ _ (fun _ he => by cases he)]
    have hadvanced : Advanced a.sessionId s s₄ := by
      refine ⟨j, ?_, ?_⟩
      · rw [contents, hout₄ _ fun _ he => by cases he]
        exact hnow
      · rwa [contents, hcursor₂] at hbefore
    refine Prog.Total.bind (appendHistory_fresh_total h.sid ?_ ?_ ?_ ?_) ?_ ?_
    · rw [hdirs₄]
      refine hdirs₃ _ ?_
      rw [hdirs₂]
      exact h.dir
    · rw [hstamp.dict]
      rfl
    · rw [hstamp.validateMessage]
      exact hvalid'
    · rw [hmsg]
      exact fun hmid => ⟨(hhist _).trans (hfresh hmid).record, (hhist _).trans (hfresh hmid).draft⟩
    · rw [hmsg]
      rintro _ s₅ - ⟨hok, hbad⟩
      refine Prog.total_ret trivial ⟨fun hmid => ⟨⟨_, rfl⟩, (hok hmid).2⟩, fun hmid => ?_⟩
      cases (hbad hmid).1
    · rw [hmsg]
      rintro e s₅ - ⟨hok, hbad⟩
      refine ⟨fun hmid => ?_, fun hmid => ?_⟩
      · obtain ⟨⟨_, he⟩, -⟩ := hok hmid
        cases he
      · obtain ⟨he, rfl⟩ := hbad hmid
        cases he
        exact ⟨⟨_, rfl⟩, hadvanced⟩
  · rintro e s₃ - ⟨⟨_, he⟩, _⟩
    cases he

/-! ## Generated identifiers -/

/-- The disk does not fail, the clock shows a `datetime`, and the six random characters of
an identifier are letters and digits. -/
structure Clean (c : Choice) : Prop where
  fault : c.fault = false
  time : c.time < END_OF_TIME
  text : c.text.toList.length = 6 ∧ c.text.toList.all isAlnum = true

theorem Clean.noFault (h : Clean c) : NoFault c := h.fault

/-- The identifier that `gen_msg_id` makes at the time `stamp`. -/
def idOf (sender stamp suffix : String) : String :=
  sender ++ "_" ++ String.ofList (stamp.toList.filter (· ∉ ['-', ':', 'Z'])) ++ "_" ++ suffix

def generatedId (sender : String) (c : Choice) : String := idOf sender (isoFormat c.time) c.text

/-- What follows the sender in it. -/
def tailOf (stamp suffix : String) : List Char :=
  '_' :: stamp.toList.filter (· ∉ ['-', ':', 'Z']) ++ '_' :: suffix.toList

theorem idOf_toList (sender stamp suffix : String) :
    (idOf sender stamp suffix).toList = sender.toList ++ tailOf stamp suffix := by
  have hline : "_".toList = ['_'] := rfl
  simp only [idOf, tailOf, String.toList_append, hline, String.toList_ofList, List.append_assoc,
    List.cons_append, List.nil_append]

theorem isIdChar_of_isAlnum {c : Char} (h : isAlnum c = true) : isIdChar c = true := by
  rw [isIdChar, h]
  rfl

theorem isAlnum_of_isDigit {c : Char} (h : c.isDigit = true) : isAlnum c = true := by
  rw [isAlnum, Char.isAlphanum, h, Bool.or_true]

/-- A timestamp as far as its characters go. -/
structure StampLike (stamp : String) : Prop where
  length : stamp.toList.length = 20
  chars : ∀ x ∈ stamp.toList, x.isDigit = true ∨ x ∈ ['-', 'T', ':', 'Z']

theorem tailOf_ok {stamp suffix : String} (hstamp : StampLike stamp)
    (hsuffix : suffix.toList.length = 6 ∧ suffix.toList.all isAlnum = true) :
    (tailOf stamp suffix).all isIdChar = true ∧ (tailOf stamp suffix).length ≤ 28 := by
  have hfilter := List.length_filter_le (· ∉ ['-', ':', 'Z']) stamp.toList
  have hchars : (stamp.toList.filter (· ∉ ['-', ':', 'Z'])).all isIdChar = true := by
    refine List.all_eq_true.mpr fun x hx => ?_
    obtain ⟨hmem, hnot⟩ := List.mem_filter.mp hx
    rcases hstamp.chars x hmem with hdigit | hsep
    · exact isIdChar_of_isAlnum (isAlnum_of_isDigit hdigit)
    · simp only [List.mem_cons, List.not_mem_nil, or_false] at hsep
      rcases hsep with rfl | rfl | rfl | rfl
      · exact absurd hnot (by decide)
      · decide
      · exact absurd hnot (by decide)
      · exact absurd hnot (by decide)
  have htext : suffix.toList.all isIdChar = true :=
    List.all_eq_true.mpr fun x hx => isIdChar_of_isAlnum (List.all_eq_true.mp hsuffix.2 x hx)
  constructor
  · rw [tailOf, List.cons_append, List.all_cons, List.all_append, List.all_cons, hchars, htext]
    decide
  · rw [tailOf, List.cons_append, List.length_cons, List.length_append, List.length_cons, hsuffix.1]
    have hlen := hstamp.length
    omega

/-- Whether a text ends in a newline. -/
def endsInNewline (s : String) : Bool := s.toList.getLast? = some '\n'

theorem msgIdOk_idOf {sender stamp suffix : String} (h : agentIdOk sender = true)
    (hstamp : StampLike stamp)
    (hsuffix : suffix.toList.length = 6 ∧ suffix.toList.all isAlnum = true) :
    msgIdOk (idOf sender stamp suffix) = !endsInNewline sender := by
  obtain ⟨htail, hlen⟩ := tailOf_ok hstamp hsuffix
  have hnewline : isIdChar '\n' = false := by decide
  rw [msgIdOk, idOf_toList]
  generalize tailOf stamp suffix = tail at htail hlen ⊢
  rw [agentIdOk, dollar, Bool.or_eq_true] at h
  rw [endsInNewline]
  rcases h with h | h
  · -- no character of the sender is a newline
    cases hs : sender.toList with
    | nil =>
      rw [hs] at h
      cases h
    | cons x xs =>
      rw [hs] at h
      simp only [idText, Bool.and_eq_true, decide_eq_true_eq] at h
      obtain ⟨⟨hx, hxs⟩, hshort⟩ := h
      have hlast : (x :: xs).getLast? ≠ some '\n' := by
        intro he
        have hmem := List.mem_of_getLast? he
        have hok : isIdChar '\n' = true := by
          rcases List.mem_cons.mp hmem with rfl | hmem
          · exact isIdChar_of_isAlnum hx
          · exact List.all_eq_true.mp hxs _ hmem
        rw [hnewline] at hok
        cases hok
      rw [decide_eq_false hlast, List.cons_append, idText, hx, List.all_append, hxs, htail,
        List.length_append]
      exact decide_eq_true (by omega)
  · simp only [Bool.and_eq_true, decide_eq_true_eq] at h
    obtain ⟨hlast, hinit⟩ := h
    have hsplit := List.dropLast_append_getLast? '\n' hlast
    cases hd : sender.toList.dropLast with
    | nil =>
      rw [hd] at hinit
      cases hinit
    | cons x xs =>
      rw [hd] at hsplit
      rw [decide_eq_true hlast, ← hsplit]
      simp [idText, hnewline]

/-- The identifiers that `send` generates are well-formed, unless the sender's own ends in
a newline. -/
theorem msgIdOk_generatedId {sender : String} (h : agentIdOk sender = true)
    (hc : Clean c) : msgIdOk (generatedId sender c) = !endsInNewline sender :=
  msgIdOk_idOf h ⟨length_isoFormat hc.time, fun _ => mem_isoFormat⟩ hc.text

/-- No recipient's inbox and no record bears the identifier. -/
structure Free (s : Disk) (sid mid : String) (rs : List String) : Prop where
  inboxes : ∀ rid ∈ rs, ¬ InInbox s sid mid rid
  record : s.files.get? ⟨.history sid, jsonName mid⟩ = none

theorem inAnyInbox_ends (sid mid : String) (rs : List String) :
    (inAnyInbox sid mid rs).Ends world i P s fun r s' => s' = s ∧
      (r = .ok false → ∀ rid ∈ rs, ¬ InInbox s sid mid rid) := by
  induction rs with
  | nil => exact Prog.ends_ret ⟨rfl, fun _ _ h => (List.not_mem_nil h).elim⟩
  | cons rid rest ih =>
    refine agentSubdir_bind_ends (fun _ _ => fileExists_ends ?_) fun _ => ⟨rfl, fun h => by cases h⟩
    split
    · exact Prog.ends_ret ⟨rfl, fun h => by cases h⟩
    · next hno =>
      refine ih.mono fun r s' h => ⟨h.1, fun hr rid' hrid' => ?_⟩
      rcases List.mem_cons.mp hrid' with rfl | hrid'
      · exact hno
      · exact h.2 hr rid' hrid'

/-- What `send` generates is free. -/
theorem freshMsgId_ends (a : SendArgs) (rs : List String) (fuel : ℕ) :
    (freshMsgId a rs fuel).Ends world i Clean s fun r s' => s' = s ∧ ∀ mid, r = .ok mid →
      ∃ c, Clean c ∧ mid = generatedId a.fromId c ∧ Free s a.sessionId mid rs := by
  induction fuel with
  | zero => exact Prog.ends_hang
  | succ fuel ih =>
    refine Prog.Ends.bind (M := fun r s' => s' = s ∧ ∃ c, Clean c ∧ r = .ok (generatedId a.fromId c))
      ?_ ?_ ?_
    · refine Prog.ends_op_bind fun c now s₁ hc hw => ?_
      cases hw
      refine Prog.ends_op_bind fun c' suffix s₂ hc' hw' => ?_
      cases hw'
      exact Prog.ends_ret ⟨rfl, { c with text := c'.text }, ⟨hc.fault, hc.time, hc'.text⟩, rfl⟩
    · rintro mid s₁ ⟨rfl, c, hc, hmid⟩
      cases hmid
      refine (inAnyInbox_ends a.sessionId (generatedId a.fromId c) rs).bind ?_
        fun e s₂ h => ⟨h.1, nofun⟩
      rintro b s₂ ⟨rfl, hfree⟩
      cases b with
      | true => exact ih
      | false =>
        refine fileExists_ends ?_
        cases hrec : s₂.files.get? ⟨.history a.sessionId, jsonName (generatedId a.fromId c)⟩ with
        | some f => exact ih
        | none =>
          refine Prog.ends_ret ⟨rfl, fun mid hmid => ?_⟩
          cases hmid
          exact ⟨c, hc, rfl, hfree rfl, hrec⟩
    · rintro e s₁ ⟨-, c, -, he⟩
      cases he

theorem inAnyInbox_total (h : ∀ rid ∈ rs, Replay.Ready s sid rid)
    (hfree : ∀ rid ∈ rs, ¬ InInbox s sid mid rid) :
    (inAnyInbox sid mid rs).Total world i P Anywhere s fun r s' => r = .ok false ∧ s' = s := by
  induction rs with
  | nil => exact Prog.total_ret trivial ⟨rfl, rfl⟩
  | cons rid rest ih =>
    obtain ⟨hrid, hsid, -⟩ := h rid List.mem_cons_self
    refine agentSubdir_total hrid hsid (fileExists_total trivial ?_)
    split
    · next hin => exact absurd hin (hfree rid List.mem_cons_self)
    · exact ih (fun rid' h' => h rid' (List.mem_cons_of_mem _ h'))
        fun rid' h' => hfree rid' (List.mem_cons_of_mem _ h')

theorem freshMsgId_total (h : ∀ rid ∈ rs, Replay.Ready s a.sessionId rid)
    (hfree : Free s a.sessionId (generatedId a.fromId c) rs) :
    (freshMsgId a rs 1).Total world i (fun c' => c' = c) Anywhere s fun r s' =>
      r = .ok (generatedId a.fromId c) ∧ s' = s := by
  refine Prog.Total.bind (M := fun r s' => r = .ok (generatedId a.fromId c) ∧ s' = s) ?_ ?_ ?_
  · refine Prog.total_op_bind trivial fun c₁ hc₁ => ⟨c₁.time, s, rfl, ?_⟩
    refine Prog.total_op_bind trivial fun c₂ hc₂ => ⟨c₂.text, s, rfl, ?_⟩
    cases hc₁
    cases hc₂
    exact Prog.total_ret trivial ⟨rfl, rfl⟩
  · rintro mid s₁ - ⟨hmid, rfl⟩
    cases hmid
    refine (inAnyInbox_total h hfree.inboxes).bind ?_ ?_
    · rintro b s₂ - ⟨hb, rfl⟩
      cases hb
      refine fileExists_total trivial ?_
      rw [hfree.record]
      exact Prog.total_ret trivial ⟨rfl, rfl⟩
    · rintro e s₂ - ⟨he, -⟩
      cases he
  · rintro e s₁ - ⟨he, -⟩
    cases he

end AiMeshChat.Mailbox.FreshSend
