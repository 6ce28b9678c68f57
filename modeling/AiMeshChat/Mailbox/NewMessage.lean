import AiMeshChat.Mailbox.Payload
import AiMeshChat.Mailbox.Replay

/-!
# A send of a new message

What `send` does for an identifier that no file bears, in a session that is set up: it
depends on the message alone. `accepts` collects the checks that look at the message, and
`send_new_ends` says that the send stores the message in every recipient's inbox if they
pass, and raises and stores nothing if not.
-/

namespace AiMeshChat.Mailbox.NewMessage

open Lib Replay

variable {i : ℕ} {s : Disk}

/-- The checks of the attachments of a send. -/
def attachmentsOk (as : List Json) : Bool :=
  as.all fun ad => ad.isDict && (attachmentError ad).isNone &&
    ((ad.get? "size").bind Json.int?).getD 0 ≤ MAX_ATTACHMENT_SIZE

/-- The references of the attachments of a send. -/
def refsOf (a : SendArgs) : List AttachmentRef := (a.attachments.getD []).map refOf

/-- The message of a send, but for its time. -/
def untimed (a : SendArgs) (mid : String) : Json := (messageOf a mid "" (refsOf a)).toDict

/-- The checks of the attachments, the kind and the body. -/
def precheck (a : SendArgs) : Bool :=
  attachmentsOk (a.attachments.getD []) && decide (a.kind ∈ VALID_KINDS) &&
    decide (a.body.utf8ByteSize ≤ MAX_MAILBOX_BODY)

/-- All checks of a send that look at the message. -/
def accepts (a : SendArgs) (mid : String) : Bool :=
  precheck a && decide (validateMessage (untimed a mid) (some a.sessionId) none none = .ok ())

/-- A session as it is set up, its sender and its recipients. -/
structure Ready (s : Disk) (a : SendArgs) (roster : List String) : Prop where
  sid : agentIdOk a.sessionId = true
  dir : .session a.sessionId ∈ s.dirs
  info : ∃ info t n, s.files.get? ⟨.session a.sessionId, "session.json"⟩ = some ⟨.json info, t, n⟩ ∧
    info.isDict = true ∧ rosterOf info = roster
  sender : a.fromId ∈ roster
  recipient : a.toId = BROADCAST_TO ∨ a.toId ∈ roster
  boxes : ∀ rid ∈ recipientsOf a roster, Replay.Ready s a.sessionId rid
  cursor : ∀ j t n, s.files.get? ⟨.session a.sessionId, STREAM_CURSOR_FILE⟩ =
    some ⟨.json j, t, n⟩ → j.isDict = true

/-- No file bears the name of the message or of its temporary file. -/
def Unused (s : Disk) (mid : String) : Prop :=
  ∀ p : MPath, p.name = jsonName mid ∨ p.name = tmpName mid → s.files.get? p = none

/-! ## The checks -/

variable {α : Type} {f : Unit → Call α} {Q : Except PyErr α → Disk → Prop} {sid mid : String}
  {rs roster : List String} {n : ℕ} {a : SendArgs}

theorem check_bind_ends {c : Bool} {e : PyErr} (h : c = true → (f ()).Ends world i NoFault s Q)
    (herr : c = false → Q (.error e) s) : (require c e >>= f).Ends world i NoFault s Q := by
  unfold require
  cases c with
  | true => exact h rfl
  | false => exact Prog.ends_raise (herr rfl)

theorem pass_bind_ends {c : Bool} {e : PyErr} (hc : c = true)
    (h : (f ()).Ends world i NoFault s Q) :
    (require c e >>= f).Ends world i NoFault s Q := by
  rw [hc]
  exact h

theorem attachmentRef_eq (ad : Json) :
    (attachmentsOk [ad] = true ∧ attachmentRef ad = .ret (refOf ad)) ∨
      attachmentsOk [ad] = false ∧ ∃ e, attachmentRef ad = .raise e := by
  unfold attachmentRef attachmentsOk
  cases hd : ad.isDict with
  | false => exact .inr ⟨by simp [hd], _, rfl⟩
  | true =>
    cases he : attachmentError ad with
    | some err => exact .inr ⟨by simp [hd, he], _, rfl⟩
    | none =>
      by_cases hsize : MAX_ATTACHMENT_SIZE < ((ad.get? "size").bind Json.int?).getD 0
      · refine .inr ⟨by simp [hd, he, Int.not_le.mpr hsize], ?_⟩
        simp only [Bool.not_true, Bool.false_eq_true, if_false, if_pos hsize]
        exact ⟨_, rfl⟩
      · refine .inl ⟨by simp [hd, he, Int.not_lt.mp hsize], ?_⟩
        simp only [Bool.not_true, Bool.false_eq_true, if_false, if_neg hsize]

theorem attachmentRefs_eq (as : List Json) :
    (attachmentsOk as = true ∧ attachmentRefs as = .ret (as.map refOf)) ∨
      attachmentsOk as = false ∧ ∃ e, attachmentRefs as = .raise e := by
  induction as with
  | nil => exact .inl ⟨rfl, rfl⟩
  | cons ad as ih =>
    have hcons : attachmentsOk (ad :: as) = (attachmentsOk [ad] && attachmentsOk as) := by
      simp [attachmentsOk]
    rw [hcons, attachmentRefs]
    rcases attachmentRef_eq ad with ⟨hok, had⟩ | ⟨hno, e, had⟩
    · rcases ih with ⟨hoks, has⟩ | ⟨hnos, e, has⟩
      · refine .inl ⟨by rw [hok, hoks]; rfl, ?_⟩
        rw [had, has]
        rfl
      · refine .inr ⟨by rw [hnos, Bool.and_false], e, ?_⟩
        rw [had, has]
        rfl
    · refine .inr ⟨by rw [hno, Bool.false_and], e, ?_⟩
      rw [had]
      rfl

theorem checkInboxes_ready_ends (h : ∀ rid ∈ rs, Replay.Ready s sid rid) :
    (checkInboxes sid rs).Ends world i NoFault s fun r s' => r = .ok () ∧ s' = s := by
  induction rs with
  | nil => exact Prog.ends_ret ⟨rfl, rfl⟩
  | cons rid rest ih =>
    obtain ⟨hrid, hsid, hdir⟩ := h rid List.mem_cons_self
    refine agentSubdir_ready_ends hrid hsid (isDir_ends (pass_bind_ends ?_ ?_))
    · exact decide_eq_true hdir
    · exact ih fun rid' hmem => h rid' (List.mem_cons_of_mem _ hmem)

theorem readSession_ready_ends {info : Json} {t : ℕ} (hsid : agentIdOk sid = true)
    (hf : s.files.get? ⟨.session sid, "session.json"⟩ = some ⟨.json info, t, n⟩) :
    (readSession sid).Ends world i NoFault s fun r s' => r = .ok (some info) ∧ s' = s := by
  refine pass_bind_ends hsid (fileExists_ends ?_)
  rw [hf]
  refine readBytes_ends ?_
  rw [hf]
  exact Prog.ends_ret ⟨rfl, rfl⟩

theorem checkSend_ready_ends (h : Ready s a roster) :
    (checkSend a).Ends world i NoFault s fun r s' => s' = s ∧
      (precheck a = true → r = .ok (recipientsOf a roster, refsOf a)) ∧
      (precheck a = false → ∃ e, r = .error e) := by
  obtain ⟨info, t, n, hf, hdict, hroster⟩ := h.info
  have herror {e : PyErr} (hno : precheck a = false) : s = s ∧
      (precheck a = true → (.error e : Except PyErr (List String × List AttachmentRef)) =
        .ok (recipientsOf a roster, refsOf a)) ∧
      (precheck a = false → ∃ e', (.error e : Except PyErr (List String × List AttachmentRef)) =
        .error e') := by
    refine ⟨rfl, fun hyes => ?_, fun _ => ⟨e, rfl⟩⟩
    rw [hno] at hyes
    cases hyes
  refine pass_bind_ends h.sid (isDir_ends (pass_bind_ends (decide_eq_true h.dir) ?_))
  refine (readSession_ready_ends h.sid hf).bind ?_ fun e s₁ hM => by cases hM.1
  rintro _ s₁ ⟨hsome, rfl⟩
  injection hsome with hsome
  subst hsome
  have hnull : info ≠ .null := by
    intro hnull
    rw [hnull] at hdict
    cases hdict
  refine pass_bind_ends (decide_eq_true hnull) (pass_bind_ends hdict ?_)
  dsimp only [Option.getD_some]
  rw [hroster]
  refine pass_bind_ends (decide_eq_true h.sender) ?_
  rcases attachmentRefs_eq (a.attachments.getD []) with ⟨hok, hrefs⟩ | ⟨hno, e, hrefs⟩
  · rw [hrefs]
    have hrecipient : (decide (a.toId = BROADCAST_TO) || decide (a.toId ∈ roster)) = true := by
      rw [Bool.or_eq_true, decide_eq_true_eq, decide_eq_true_eq]
      exact h.recipient
    refine pass_bind_ends hrecipient ?_
    refine (checkInboxes_ready_ends h.boxes).bind ?_ fun e s₂ hM => by cases hM.1
    rintro _ s₂ ⟨_, rfl⟩
    refine check_bind_ends (fun hkind => check_bind_ends (fun hbody => ?_) fun hbody => ?_)
      fun hkind => ?_
    · refine Prog.ends_ret ⟨rfl, fun _ => rfl, fun hno => ?_⟩
      rw [precheck, hok, hkind, hbody] at hno
      cases hno
    · exact herror (by rw [precheck, hbody, Bool.and_false])
    · exact herror (by rw [precheck, hkind, Bool.and_false, Bool.false_and])
  · rw [hrefs]
    exact Prog.ends_raise (herror (by rw [precheck, hno, Bool.false_and, Bool.false_and]))

/-! ## Nothing is found -/

theorem findInInboxes_unused_ends (h : ∀ rid ∈ rs, Replay.Ready s sid rid) (hnew : Unused s mid) :
    (findInInboxes sid mid rs none).Ends world i NoFault s fun r s' => r = .ok none ∧ s' = s := by
  induction rs with
  | nil => exact Prog.ends_ret ⟨rfl, rfl⟩
  | cons rid rest ih =>
    obtain ⟨hrid, hsid, _⟩ := h rid List.mem_cons_self
    refine agentSubdir_ready_ends hrid hsid (fileExists_ends ?_)
    rw [hnew ⟨.box sid rid .inbox, jsonName mid⟩ (.inl rfl)]
    exact ih fun rid' hmem => h rid' (List.mem_cons_of_mem _ hmem)

theorem findExisting_unused_ends (h : ∀ rid ∈ rs, Replay.Ready s sid rid) (hnew : Unused s mid) :
    (findExisting sid mid rs).Ends world i NoFault s fun r s' => r = .ok none ∧ s' = s := by
  refine (findInInboxes_unused_ends h hnew).bind ?_ fun e s₁ hM => by cases hM.1
  rintro found s₁ ⟨hnone, rfl⟩
  injection hnone with hnone
  subst hnone
  refine fileExists_ends ?_
  rw [hnew ⟨.history sid, jsonName mid⟩ (.inl rfl)]
  exact Prog.ends_ret ⟨rfl, rfl⟩

/-! ## Publishing -/

/-- Files outside the inboxes of the session. -/
def Outside (sid : String) (p : MPath) : Prop := ∀ rid, p.dir ≠ .box sid rid .inbox

/-- The state after every recipient's inbox was written. -/
def Published (sid mid : String) (payload : Json) (rs : List String) (s s' : Disk) : Prop :=
  s'.dirs = s.dirs ∧ (∀ p, Outside sid p → s'.files.get? p = s.files.get? p) ∧
    ∀ rid, (rid ∈ rs → ∃ t n, s'.files.get? ⟨.box sid rid .inbox, jsonName mid⟩ =
        some ⟨.json payload, t, n⟩) ∧
      (rid ∉ rs → s'.files.get? ⟨.box sid rid .inbox, jsonName mid⟩ =
        s.files.get? ⟨.box sid rid .inbox, jsonName mid⟩)

theorem written_self (s : Disk) (sid mid rid : String) (x : Data) (t : ℕ) :
    ∃ n, (written s sid mid rid x t).files.get? ⟨.box sid rid .inbox, jsonName mid⟩ =
      some ⟨x, t, n⟩ := by
  obtain ⟨n, hn⟩ := Files.get?_write s.files ⟨.box sid rid .inbox, tmpName mid⟩ x t
  have htmp := hn ⟨.box sid rid .inbox, tmpName mid⟩
  rw [if_pos rfl] at htmp
  refine ⟨n, (Files.get?_move htmp _ _).trans ?_⟩
  rw [if_pos rfl]

theorem written_other (s : Disk) {rid : String} (x : Data) (t : ℕ) {p : MPath}
    (hp : p.dir ≠ .box sid rid .inbox) :
    (written s sid mid rid x t).files.get? p = s.files.get? p := by
  obtain ⟨f, hf⟩ := written_get? s sid mid rid x t p
  rw [hf, if_neg, if_neg]
  · rintro rfl
    exact hp rfl
  · rintro rfl
    exact hp rfl

theorem publish_ready_ends (payload : Json) (rs : List String) :
    ∀ s : Disk, (∀ rid ∈ rs, Replay.Ready s sid rid) →
      (publish sid mid payload rs).Ends world i NoFault s fun r s' =>
        r = .ok () ∧ Published sid mid payload rs s s' := by
  induction rs with
  | nil =>
    intro s _
    refine Prog.ends_ret ⟨rfl, rfl, fun _ _ => rfl, fun rid => ⟨fun hrid => ?_, fun _ => rfl⟩⟩
    exact (List.not_mem_nil hrid).elim
  | cons rid rest ih =>
    intro s hready
    obtain ⟨hrid, hsid, hdir⟩ := hready rid List.mem_cons_self
    have hrest : ∀ rid' ∈ rest, Replay.Ready s sid rid' :=
      fun rid' h => hready rid' (List.mem_cons_of_mem _ h)
    refine agentSubdir_ready_ends hrid hsid ?_
    refine write_bind_ends hdir fun t => replace_bind_ends ?_ hdir ?_
    · obtain ⟨n, hn⟩ := Files.get?_write_self s.files ⟨.box sid rid .inbox, tmpName mid⟩
        (.json payload) t
      rw [Disk.write, hn]
      rfl
    · refine (ih (written s sid mid rid (.json payload) t) hrest).mono ?_
      rintro r s' ⟨hr, hdirs, hout, hin⟩
      refine ⟨hr, hdirs, fun p hp => ?_, fun rid' => ⟨fun hmem => ?_, fun hmem => ?_⟩⟩
      · rw [hout p hp, written_other s _ _ (hp rid)]
      · by_cases hlater : rid' ∈ rest
        · exact (hin rid').1 hlater
        · rcases List.mem_cons.mp hmem with rfl | hmem
          · obtain ⟨n, hn⟩ := written_self s sid mid rid' (.json payload) t
            exact ⟨t, n, ((hin rid').2 hlater).trans hn⟩
          · exact absurd hmem hlater
      · have hne : rid' ≠ rid := by
          rintro rfl
          exact hmem List.mem_cons_self
        rw [(hin rid').2 (fun h => hmem (List.mem_cons_of_mem _ h)), written_other]
        intro he
        injection he with _ he _
        exact hne he

/-! ## The cursor -/

/-- Only files in the directory `d` differ, and no directory is gone. -/
def OnlyIn (d : Dir) (s s' : Disk) : Prop :=
  (∀ x ∈ s.dirs, x ∈ s'.dirs) ∧ ∀ p : MPath, p.dir ≠ d → s'.files.get? p = s.files.get? p

theorem OnlyIn.trans {d : Dir} {s₁ s₂ s₃ : Disk} (h : OnlyIn d s₁ s₂) (h' : OnlyIn d s₂ s₃) :
    OnlyIn d s₁ s₃ :=
  ⟨fun x hx => h'.1 x (h.1 x hx), fun p hp => (h'.2 p hp).trans (h.2 p hp)⟩

theorem onlyIn_write (s : Disk) (p : MPath) (x : Data) (t : ℕ) : OnlyIn p.dir s (s.write p x t) := by
  refine ⟨fun _ h => h, fun q hq => Files.get?_write_ne _ _ _ ?_⟩
  rintro rfl
  exact hq rfl

theorem onlyIn_move (s : Disk) {src dst : MPath} (h : src.dir = dst.dir) :
    OnlyIn dst.dir s { s with files := s.files.move src dst } := by
  refine ⟨fun _ h => h, fun q hq => Files.get?_move_ne _ ?_ ?_⟩
  · rintro rfl
    exact hq h
  · rintro rfl
    exact hq rfl

theorem mkdir_bind_ends {α : Type} {d : Dir} {f : Unit → Call α} {Q : Except PyErr α → Disk → Prop}
    (h : ∀ s₁, s₁.files = s.files → d ∈ s₁.dirs → (∀ x ∈ s.dirs, x ∈ s₁.dirs) →
      (f ()).Ends world i NoFault s₁ Q) : (mkdir d >>= f).Ends world i NoFault s Q := by
  refine Prog.ends_op_bind fun c a s₁ _ hp => ?_
  simp only [world, Disk.perform, Option.some.injEq, Prod.mk.injEq] at hp
  obtain ⟨_, rfl⟩ := hp
  split
  · next hd => exact h s rfl hd fun _ h => h
  · exact h _ rfl List.mem_cons_self fun _ h => List.mem_cons_of_mem _ h

/-- The file that an `open` leaves: what was there, or a new one. -/
theorem openFd_bind_ends {p : MPath} {f : Except OsErr ℕ → Call α} (hd : p.dir ∈ s.dirs)
    (h : ∀ n s₁, (s₁ = s ∨ ∃ t, s₁ = s.write p .junk t) → (f (.ok n)).Ends world i NoFault s₁ Q) :
    (openFd p >>= f).Ends world i NoFault s Q := by
  refine Prog.ends_op_bind fun c a s₁ _ hp => ?_
  simp only [world, Disk.perform] at hp
  cases hf : s.files.get? p with
  | some x =>
    rw [hf] at hp
    cases hp
    exact h _ _ (.inl rfl)
  | none =>
    rw [hf] at hp
    simp only [hd, not_true_eq_false, if_false, Option.some.injEq, Prod.mk.injEq] at hp
    obtain ⟨rfl, rfl⟩ := hp
    exact h _ _ (.inr ⟨_, rfl⟩)

theorem flock_bind_ends
    (h : ∀ s₁, s₁.files = s.files → s₁.dirs = s.dirs → (f ()).Ends world i NoFault s₁ Q) :
    (flock n >>= f).Ends world i NoFault s Q := by
  refine Prog.ends_op_bind fun c a s₁ _ hp => ?_
  simp only [world, Disk.perform] at hp
  split_ifs at hp
  cases hp
  exact h _ rfl rfl

theorem ensure_funlock_ends {α : Type} {n : ℕ} {p : Call α} {Q : Except PyErr α → Disk → Prop}
    (hp : p.Ends world i NoFault s fun r s' => ∀ s'', s''.files = s'.files → s''.dirs = s'.dirs →
      Q r s'') : (Prog.ensure p (funlock n)).Ends world i NoFault s Q := by
  have hrelease {β : Type} {s₁ : Disk} {q : Call β} {R : Except PyErr β → Disk → Prop}
      (h : ∀ s₂, s₂.files = s₁.files → s₂.dirs = s₁.dirs → q.Ends world i NoFault s₂ R) :
      (funlock n >>= fun _ => q).Ends world i NoFault s₁ R := by
    refine Prog.ends_op_bind fun c a s₂ _ hw => ?_
    cases hw
    exact h _ rfl rfl
  -- after the handler an exception has released the lock, a value has not
  have htry : (p.tryCatch fun e => funlock n >>= fun _ => Prog.raise e).Ends world i NoFault s
      fun r s' => match r with
        | .ok a => ∀ s'', s''.files = s'.files → s''.dirs = s'.dirs → Q (.ok a) s''
        | .error e => Q (.error e) s' := by
    refine hp.tryCatch (fun a s₁ h => h) fun e s₁ h => ?_
    exact hrelease fun s₂ hfiles hdirs => Prog.ends_raise (h s₂ hfiles hdirs)
  refine Prog.Ends.bind htry (fun a s₁ h => ?_) fun e s₁ h => h
  exact hrelease fun s₂ hfiles hdirs => Prog.ends_ret (h s₂ hfiles hdirs)

theorem advanceCursor_ready_ends {sid : String} (hsid : agentIdOk sid = true)
    (hcursor : ∀ j t n, s.files.get? ⟨.session sid, STREAM_CURSOR_FILE⟩ = some ⟨.json j, t, n⟩ →
      j.isDict = true) :
    (advanceCursor sid).Ends world i NoFault s fun r s' =>
      (∃ text, r = .ok text) ∧ OnlyIn (.session sid) s s' := by
  refine pass_bind_ends hsid (mkdir_bind_ends fun s₁ hfiles₁ hd₁ hdirs₁ => ?_)
  refine Prog.ends_op_bind fun c now s₂ _ hw => ?_
  cases hw
  refine openFd_bind_ends hd₁ fun fd s₂ hopen => ?_
  -- the file is there now; it holds what it held, or nothing
  have hs₂ : OnlyIn (.session sid) s s₂ ∧ (Dir.session sid ∈ s₂.dirs) ∧
      ∀ j t n, s₂.files.get? ⟨.session sid, STREAM_CURSOR_FILE⟩ = some ⟨.json j, t, n⟩ →
        j.isDict = true := by
    have hs₁ : OnlyIn (.session sid) s s₁ := ⟨hdirs₁, fun p _ => by rw [hfiles₁]⟩
    rcases hopen with rfl | ⟨t, rfl⟩
    · refine ⟨hs₁, hd₁, ?_⟩
      rw [hfiles₁]
      exact hcursor
    · refine ⟨hs₁.trans (onlyIn_write _ _ _ _), hd₁, fun j t' n hj => ?_⟩
      obtain ⟨m, hm⟩ := Files.get?_write_self s₁.files ⟨.session sid, STREAM_CURSOR_FILE⟩ .junk t
      rw [Disk.write, hm] at hj
      cases hj
  obtain ⟨honly, hd₂, hdict⟩ := hs₂
  refine flock_bind_ends fun s₃ hfiles₃ hdirs₃ => ?_
  rw [← hfiles₃] at hdict
  rw [← hdirs₃] at hd₂
  have honly₃ : OnlyIn (.session sid) s s₃ := by
    unfold OnlyIn at honly ⊢
    rwa [hfiles₃, hdirs₃]
  refine Prog.Ends.bind (M := fun r s' => (∃ next, r = .ok next) ∧ OnlyIn (.session sid) s s')
    (ensure_funlock_ends ?_) ?_ ?_
  · refine Prog.Ends.bind (M := fun r s' => (∃ prev, r = .ok prev) ∧ s' = s₃) ?_ ?_ ?_
    · refine fileExists_ends ?_
      split
      · refine readBytes_ends ?_
        cases hf : s₃.files.get? ⟨.session sid, STREAM_CURSOR_FILE⟩ with
        | none => exact Prog.ends_ret ⟨⟨_, rfl⟩, rfl⟩
        | some x =>
          obtain ⟨x, t, n⟩ := x
          cases x with
          | junk => exact Prog.ends_ret ⟨⟨_, rfl⟩, rfl⟩
          | json j =>
            dsimp only
            rw [if_pos (hdict j t n hf)]
            exact Prog.ends_ret ⟨⟨_, rfl⟩, rfl⟩
      · exact Prog.ends_ret ⟨⟨_, rfl⟩, rfl⟩
    · rintro prev s₄ ⟨_, rfl⟩
      dsimp only
      generalize nextCursor prev (c.time / 1000) = next
      refine write_bind_ends hd₂ fun t => replace_bind_ends ?_ hd₂ (Prog.ends_ret ?_)
      · obtain ⟨n, hn⟩ := Files.get?_write_self s₄.files ⟨.session sid, ".tmp-stream-cursor"⟩
          (.json (.obj [("epoch_ms", .int next.1), ("seq", .int next.2)])) t
        rw [Disk.write, hn]
        rfl
      · intro s'' hfiles'' hdirs''
        have hwrite := onlyIn_write s₄ ⟨.session sid, ".tmp-stream-cursor"⟩
          (.json (.obj [("epoch_ms", .int next.1), ("seq", .int next.2)])) t
        have hend := (honly₃.trans hwrite).trans
          (@onlyIn_move _ ⟨.session sid, ".tmp-stream-cursor"⟩ ⟨.session sid, STREAM_CURSOR_FILE⟩ rfl)
        refine ⟨⟨_, rfl⟩, ?_⟩
        unfold OnlyIn at hend ⊢
        rw [hfiles'', hdirs'']
        exact hend
    · rintro e s₄ ⟨⟨_, he⟩, _⟩
      cases he
  · rintro next s₄ ⟨_, hs₄⟩
    exact Prog.ends_ret ⟨⟨_, rfl⟩, hs₄⟩
  · rintro e s₄ ⟨⟨_, he⟩, _⟩
    cases he

/-! ## The history -/

theorem appendHistory_new_ends {msg : Json} (hsid : agentIdOk sid = true)
    (hdir : Dir.session sid ∈ s.dirs) (hdict : msg.isDict = true)
    (hvalid : validateMessage msg (some sid) none none = .ok ())
    (hmid : msgIdOk (textOf msg "msg_id") = true)
    (hdest : s.files.get? ⟨.history sid, jsonName (textOf msg "msg_id")⟩ = none)
    (htmp : s.files.get? ⟨.history sid, tmpName (textOf msg "msg_id")⟩ = none) :
    (appendHistory sid msg).Ends world i NoFault s fun r s' =>
      (∃ text, r = .ok text) ∧ OnlyHistory sid s s' := by
  refine pass_bind_ends hsid (isDir_ends (pass_bind_ends (decide_eq_true hdir) ?_))
  refine pass_bind_ends hdict ?_
  rw [hvalid]
  refine pass_bind_ends hmid (mkdir_bind_ends fun s₁ hfiles hd _ => ?_)
  refine fileExists_ends ?_
  rw [hfiles, hdest]
  refine pass_bind_ends rfl ?_
  refine Prog.Ends.bind (M := fun r s' => r = .ok () ∧
    ∃ t, s' = s₁.write ⟨.history sid, tmpName (textOf msg "msg_id")⟩ (.json msg) t) ?_ ?_ ?_
  · refine Prog.ends_op_bind fun c a s₂ hc hw => ?_
    have hc : c.fault = false := hc
    simp only [world, Disk.perform, hc, hd, hfiles, htmp, not_true_eq_false, if_false,
      Bool.false_eq_true, Option.isSome_none] at hw
    cases hw
    exact Prog.ends_ret ⟨rfl, _, rfl⟩
  · rintro _ s₂ ⟨_, t, rfl⟩
    refine replace_bind_ends ?_ hd (Prog.ends_ret ⟨⟨_, rfl⟩, fun p hp => ?_⟩)
    · obtain ⟨n, hn⟩ := Files.get?_write_self s₁.files
        ⟨.history sid, tmpName (textOf msg "msg_id")⟩ (.json msg) t
      rw [Disk.write, hn]
      rfl
    · have hwrite := (onlyIn_write s₁ ⟨.history sid, tmpName (textOf msg "msg_id")⟩ (.json msg) t).trans
        (@onlyIn_move _ ⟨.history sid, tmpName (textOf msg "msg_id")⟩
          ⟨.history sid, jsonName (textOf msg "msg_id")⟩ rfl)
      rw [← hfiles]
      exact hwrite.2 p hp
  · rintro e s₂ ⟨he, _⟩
    cases he

/-! ## The send -/

/-- The message of the send lies in every recipient's inbox. -/
def Stored (s : Disk) (a : SendArgs) (mid : String) (rs : List String) : Prop :=
  ∀ rid ∈ rs, ∃ x t n, s.files.get? ⟨.box a.sessionId rid .inbox, jsonName mid⟩ =
    some ⟨.json x, t, n⟩ ∧ SameChecked (untimed a mid) x

theorem sendNew_ready_ends (h : Ready s a roster) (hmid : msgIdOk mid = true)
    (hnew : Unused s mid) :
    (sendNew a mid (recipientsOf a roster) (refsOf a)).Ends world i NoFault s fun r s' =>
      (validateMessage (untimed a mid) (some a.sessionId) none none = .ok () →
        (∃ text, r = .ok text) ∧ Stored s' a mid (recipientsOf a roster)) ∧
      (validateMessage (untimed a mid) (some a.sessionId) none none ≠ .ok () → ∃ e, r = .error e) := by
  refine Prog.ends_op_bind fun c now s₁ _ hw => ?_
  cases hw
  have hsame := sameChecked_createdAt a mid "" (isoFormat c.time) (refsOf a)
  have hcheck := hsame.validateMessage (some a.sessionId) none none
  cases hvalid : validateMessage (untimed a mid) (some a.sessionId) none none with
  | error why =>
    have hcheck' : validateMessage (messageOf a mid (isoFormat c.time) (refsOf a)).toDict
        (some a.sessionId) none none = .error why := hcheck.trans hvalid
    have hraise : ∃ e, (requireValid "send validation failed: " (validateMessage
        (messageOf a mid (isoFormat c.time) (refsOf a)).toDict (some a.sessionId) none none)) =
          .raise e := by
      rw [hcheck']
      cases why with
      | reject w => exact ⟨_, rfl⟩
      | typeError w => exact ⟨_, rfl⟩
    obtain ⟨e, he⟩ := hraise
    dsimp only
    rw [he]
    exact Prog.ends_raise ⟨fun hok => (by cases hok), fun _ => ⟨e, rfl⟩⟩
  | ok u =>
    have hcheck' : validateMessage (messageOf a mid (isoFormat c.time) (refsOf a)).toDict
        (some a.sessionId) none none = .ok () := hcheck.trans hvalid
    dsimp only
    rw [hcheck']
    refine (publish_ready_ends _ _ s h.boxes).bind ?_ fun e s₂ hM => by cases hM.1
    rintro _ s₂ ⟨_, hdirs₂, hout₂, _⟩
    have hcursor₂ : ∀ j t n, s₂.files.get? ⟨.session a.sessionId, STREAM_CURSOR_FILE⟩ =
        some ⟨.json j, t, n⟩ → j.isDict = true := by
      rw [hout₂ _ fun _ he => by cases he]
      exact h.cursor
    have hdir₂ : Dir.session a.sessionId ∈ s₂.dirs := by
      rw [hdirs₂]
      exact h.dir
    refine (advanceCursor_ready_ends h.sid hcursor₂).bind ?_ ?_
    · rintro cursor s₃ ⟨_, hdirs₃, hout₃⟩
      have hboxes : ∀ rid ∈ recipientsOf a roster, Replay.Ready s₃ a.sessionId rid := by
        intro rid hrid
        obtain ⟨h₁, h₂, h₃⟩ := h.boxes rid hrid
        refine ⟨h₁, h₂, hdirs₃ _ ?_⟩
        rw [hdirs₂]
        exact h₃
      refine (publish_ready_ends _ _ s₃ hboxes).bind ?_ fun e s₄ hM => by cases hM.1
      rintro _ s₄ ⟨_, hdirs₄, hout₄, hin₄⟩
      have hstamp := sameChecked_set_cursor
        (messageOf a mid (isoFormat c.time) (refsOf a)).toDict (.str cursor)
      have hmsg : textOf ((messageOf a mid (isoFormat c.time) (refsOf a)).toDict.set "_cursor"
          (.str cursor)) "msg_id" = mid := by
        rw [hstamp.textOf (by decide)]
        rfl
      have hhist {name : String} (hname : name = jsonName mid ∨ name = tmpName mid) :
          s₄.files.get? ⟨.history a.sessionId, name⟩ = none := by
        rw [hout₄ _ (fun _ he => by cases he), hout₃ _ (fun he => by cases he),
          hout₂ _ (fun _ he => by cases he)]
        exact hnew _ hname
      refine Prog.Ends.bind (appendHistory_new_ends h.sid ?_ ?_ ?_ ?_ ?_ ?_) ?_ ?_
      · rw [hdirs₄]
        exact hdirs₃ _ hdir₂
      · rw [hstamp.dict]
        rfl
      · rw [hstamp.validateMessage]
        exact hcheck'
      · rw [hmsg]
        exact hmid
      · rw [hmsg]
        exact hhist (.inl rfl)
      · rw [hmsg]
        exact hhist (.inr rfl)
      · rintro _ s₅ ⟨_, hout₅⟩
        refine Prog.ends_ret ⟨fun _ => ⟨⟨_, rfl⟩, fun rid hrid => ?_⟩, fun hno => (hno rfl).elim⟩
        obtain ⟨t, n, hf⟩ := (hin₄ rid).1 hrid
        refine ⟨_, t, n, (hout₅ _ fun he => by cases he).trans hf, ?_⟩
        exact ⟨hstamp.dict.trans hsame.dict,
          fun key hkey => (hstamp.fields key hkey).trans (hsame.fields key hkey),
          hstamp.time.trans hsame.time⟩
      · rintro e s₅ ⟨⟨_, he⟩, _⟩
        cases he
    · rintro e s₃ ⟨⟨_, he⟩, _⟩
      cases he

/-- How a send of a new message ends: with a value and the message stored if the message is
accepted, with an exception if it is not. -/
def Settled {ε α : Type} (a : SendArgs) (mid : String) (roster : List String) (r : Except ε α)
    (s : Disk) : Prop :=
  (accepts a mid = true → (∃ x, r = .ok x) ∧ Stored s a mid (recipientsOf a roster)) ∧
    (accepts a mid = false → ∃ e, r = .error e)

theorem settled_error {ε : Type} {e : ε}
    (h : accepts a mid ≠ true) : Settled a mid roster (.error e : Except ε α) s :=
  ⟨fun hyes => (h hyes).elim, fun _ => ⟨e, rfl⟩⟩

theorem Settled.map {ε ε' β : Type} {r : Except ε α} {r' : Except ε' β}
    (h : Settled a mid roster r s) (hok : ∀ x, r = .ok x → ∃ y, r' = .ok y)
    (herr : ∀ e, r = .error e → ∃ e', r' = .error e') : Settled a mid roster r' s := by
  refine ⟨fun hyes => ?_, fun hno => ?_⟩
  · obtain ⟨⟨x, hx⟩, hstored⟩ := h.1 hyes
    exact ⟨hok x hx, hstored⟩
  · obtain ⟨e, he⟩ := h.2 hno
    exact herr e he

/-- **A send of a new message** depends on the message alone. -/
theorem send_new_ends {fuel : ℕ} (h : Ready s a roster) (hmsg : a.msgId = some mid)
    (hmid : msgIdOk mid = true) (hnew : Unused s mid) :
    (send fuel a).Ends world i NoFault s fun r s' => Settled a mid roster r s' := by
  have hpre (hno : precheck a = false) : accepts a mid ≠ true := by
    rw [accepts, hno, Bool.false_and]
    decide
  refine (checkSend_ready_ends h).bind ?_ ?_
  · rintro ⟨rs, refs⟩ s₁ ⟨rfl, hok, hno⟩
    have hyes : precheck a = true := by
      cases hp : precheck a with
      | true => rfl
      | false =>
        obtain ⟨e, he⟩ := hno hp
        cases he
    obtain ⟨rfl, rfl⟩ := Prod.mk.inj (Except.ok.inj (hok hyes))
    dsimp only
    rw [hmsg]
    refine pass_bind_ends hmid ?_
    refine (findExisting_unused_ends h.boxes hnew).bind ?_ fun e s₂ hM => by cases hM.1
    rintro _ s₂ ⟨hnone, rfl⟩
    injection hnone with hnone
    subst hnone
    refine (sendNew_ready_ends h hmid hnew).mono fun r s' hQ => ?_
    rw [Settled, accepts, hyes, Bool.true_and, decide_eq_true_eq, decide_eq_false_iff_not]
    exact hQ
  · rintro e s₁ ⟨rfl, hok, _⟩
    cases hp : precheck a with
    | true => cases hok hp
    | false => exact settled_error (hpre hp)

/-! ## What an accepted message has -/

theorem size_nonneg {r : AttachmentRef} (h : attachmentError r.toDict = none) : 0 ≤ r.size := by
  have hsize : r.toDict.get? "size" = some (.int r.size) := rfl
  have hdict : r.toDict.isDict = true := rfl
  unfold attachmentError at h
  rw [hsize] at h
  simp only [hdict, Bool.not_true, Bool.false_eq_true, if_false, Option.orElse_eq_orElse] at h
  by_contra hneg
  simp [hneg] at h

theorem size_of_attachmentsOk {refs : List AttachmentRef}
    (h : attachmentsOk (refs.map AttachmentRef.toDict) = true) :
    ∀ r ∈ refs, 0 ≤ r.size ∧ r.size ≤ MAX_ATTACHMENT_SIZE := by
  intro r hr
  have had := List.all_eq_true.mp h _ (List.mem_map_of_mem hr)
  simp only [Bool.and_eq_true, decide_eq_true_eq, Option.isNone_iff_eq_none] at had
  exact ⟨size_nonneg had.1.2, had.2⟩

/-- What an accepted message has. -/
structure Accepted (a : SendArgs) : Prop where
  attachments : attachmentsOk (a.attachments.getD []) = true
  kind : a.kind ∈ VALID_KINDS
  subject : a.subject ≠ ""
  body : a.body ≠ ""
  receiptType : a.receiptType = "" ∨ a.receiptType = RECEIPT_READ

theorem accepted_of_accepts (h : accepts a mid = true) : Accepted a := by
  rw [accepts, precheck, Bool.and_eq_true, Bool.and_eq_true, Bool.and_eq_true, decide_eq_true_eq,
    decide_eq_true_eq] at h
  obtain ⟨⟨⟨hatts, hkind⟩, _⟩, hvalid⟩ := h
  obtain ⟨hreceipt, hsubject, hbody⟩ := texts_of_valid (of_decide_eq_true hvalid)
  refine ⟨hatts, hkind, hsubject, hbody, ?_⟩
  have htype : textOf (untimed a mid) "receipt_type" = a.receiptType := by
    rw [textOf, untimed, toDict_get?_optional _ (by decide)]
    by_cases he : a.receiptType = ""
    · by_cases hrefs : refsOf a = [] <;>
        simp [lookup_optText, messageOf, he, hrefs, List.lookup_cons]
    · simp [lookup_optText, messageOf, he, Json.str?]
  rwa [htype] at hreceipt

end AiMeshChat.Mailbox.NewMessage
