import AiMeshChat.Lib.Crash
import AiMeshChat.Mailbox.Payload
import AiMeshChat.Mailbox.Replay

/-!
# Crashes of a send

A send that dies between two of its operations leaves behind some of: messages in
some of the inboxes (bare or with their cursor), temporary files, a cursor that
has moved, a draft of the history record. The same send is then repeated.

`Resumable` says what all these disks have in common. It is the crash condition
of the whole of `send`, whether the call finds an earlier copy or not
(`send_total`): from a resumable disk without a leftover history draft the call
returns, through resumable disks only, and the message is delivered. So the send
may be stopped and repeated any number of times.

The exception is the draft. `append_history` creates it exclusively, and a draft
that is there already counts as a record that exists.
-/

namespace AiMeshChat.Mailbox.Recovery

open Lib Replay

/-! ## Operations of a total run -/

section Rules

variable {α : Type} {i : ℕ} {P : Choice → Prop} {I : Disk → Prop} {s : Disk}
  {Q : Except PyErr α → Disk → Prop}

variable {f : Unit → Call α} {p : MPath}

theorem require_total {c : Bool} {e : PyErr} (hc : c = true) (h : (f ()).Total world i P I s Q) :
    (require c e >>= f).Total world i P I s Q := by
  rw [require, if_pos hc]
  exact h

theorem fileExists_total {f : Bool → Call α} (hI : I s)
    (h : (f (s.files.get? p).isSome).Total world i P I s Q) :
    (fileExists p >>= f).Total world i P I s Q :=
  Prog.total_op_bind hI fun _ _ => ⟨_, _, rfl, h⟩

theorem isDir_total {d : Dir} {f : Bool → Call α} (hI : I s) (hd : d ∈ s.dirs)
    (h : (f true).Total world i P I s Q) : (isDir d >>= f).Total world i P I s Q :=
  Prog.total_op_bind hI fun _ _ => ⟨_, _, rfl, by rwa [decide_eq_true hd]⟩

theorem clock_total {f : ℕ → Call α} (hI : I s)
    (h : ∀ now, (f now).Total world i P I s Q) : (clock >>= f).Total world i P I s Q :=
  Prog.total_op_bind hI fun c _ => ⟨_, _, rfl, h c.time⟩

theorem mkdir_total {d : Dir} {f : Unit → Call α} (hI : I s)
    (h : ∀ dirs, (∀ d', d' ∈ dirs ↔ d' = d ∨ d' ∈ s.dirs) →
      (f ()).Total world i P I { s with dirs := dirs } Q) :
    (mkdir d >>= f).Total world i P I s Q := by
  refine Prog.total_op_bind hI fun c _ => ⟨_, _, rfl, ?_⟩
  by_cases hd : d ∈ s.dirs
  · simpa only [if_pos hd] using h s.dirs fun d' => ⟨.inr, fun h => h.elim (fun h => h ▸ hd) id⟩
  · simpa only [if_neg hd] using h (d :: s.dirs) fun d' => List.mem_cons

theorem readBytes_total {p : MPath} {f : Except OsErr Data → Call α} (hI : I s)
    (h : (f (match s.files.get? p with
      | none => .error .notFound
      | some x => .ok x.data)).Total world i NoFault I s Q) :
    (readBytes p >>= f).Total world i NoFault I s Q := by
  refine Prog.total_op_bind hI fun c hc => ⟨_, s, ?_, h⟩
  have hc : c.fault = false := hc
  cases hp : s.files.get? p <;> simp [world, Disk.perform, hc, hp]

theorem tryWrite_total {x : Data} {f : Except OsErr Unit → Call α} (hI : I s) (hd : p.dir ∈ s.dirs)
    (herr : (∃ c, P c ∧ c.fault = true) → (f (.error .other)).Total world i P I s Q)
    (h : ∀ t, (f (.ok ())).Total world i P I (s.write p x t) Q) :
    (tryWrite p x >>= f).Total world i P I s Q := by
  refine Prog.total_op_bind hI fun c hc => ?_
  cases hf : c.fault with
  | true => exact ⟨.error .other, s, by simp [world, Disk.perform, hf], herr ⟨c, hc, hf⟩⟩
  | false => exact ⟨.ok (), s.write p x c.time, by simp [world, Disk.perform, hf, hd], h c.time⟩

theorem write_total {x : Data} (hI : I s) (hd : p.dir ∈ s.dirs)
    (h : ∀ t, (f ()).Total world i NoFault I (s.write p x t) Q) :
    (write p x >>= f).Total world i NoFault I s Q := by
  refine tryWrite_total hI hd ?_ h
  rintro ⟨c, hc, hf⟩
  rw [hc] at hf
  cases hf

theorem tryReplace_total {src dst : MPath} {f : Except OsErr Unit → Call α} (hI : I s)
    (hs : (s.files.get? src).isSome = true) (hd : dst.dir ∈ s.dirs)
    (herr : (∃ c, P c ∧ c.fault = true) → (f (.error .other)).Total world i P I s Q)
    (h : (f (.ok ())).Total world i P I { s with files := s.files.move src dst } Q) :
    (tryReplace src dst >>= f).Total world i P I s Q := by
  have hn : (s.files.get? src).isNone = false := by
    cases hsrc : s.files.get? src with
    | none => rw [hsrc] at hs; cases hs
    | some f => rfl
  refine Prog.total_op_bind hI fun c hc => ?_
  cases hf : c.fault with
  | true => exact ⟨.error .other, s, by simp [world, Disk.perform, hf], herr ⟨c, hc, hf⟩⟩
  | false => exact ⟨.ok (), _, by simp [world, Disk.perform, hf, hd, hn], h⟩

theorem replace_total {src dst : MPath} (hI : I s) (hs : (s.files.get? src).isSome = true)
    (hd : dst.dir ∈ s.dirs)
    (h : (f ()).Total world i NoFault I { s with files := s.files.move src dst } Q) :
    (replace src dst >>= f).Total world i NoFault I s Q := by
  refine tryReplace_total hI hs hd ?_ h
  rintro ⟨c, hc, hf⟩
  rw [hc] at hf
  cases hf

theorem openFd_total {p : MPath} {f : Except OsErr ℕ → Call α} (hI : I s) (hd : p.dir ∈ s.dirs)
    (h : ∀ (fd : ℕ) (s' : Disk),
      (s' = s ∨ s.files.get? p = none ∧ ∃ t, s' = s.write p .junk t) →
      (f (.ok fd)).Total world i P I s' Q) : (openFd p >>= f).Total world i P I s Q := by
  refine Prog.total_op_bind hI fun c _ => ?_
  cases hp : s.files.get? p with
  | some x => exact ⟨.ok x.ino, s, by simp [world, Disk.perform, hp], h _ s (.inl rfl)⟩
  | none =>
    exact ⟨.ok s.files.nextIno, s.write p .junk c.time, by simp [world, Disk.perform, hp, hd],
      h _ _ (.inr ⟨hp, c.time, rfl⟩)⟩

theorem flock_total {n : ℕ} (hI : I s) (hfree : s.inoLocks = [])
    (h : (f ()).Total world i P I { s with inoLocks := [(n, i)] } Q) :
    (flock n >>= f).Total world i P I s Q :=
  Prog.total_op_bind hI fun c _ => ⟨(), { s with inoLocks := [(n, i)] },
    by simp [world, Disk.perform, hfree], h⟩

theorem agentSubdir_total {sid a : String} {b : Box} {f : Dir → Call α}
    (ha : agentIdOk a = true) (hs : agentIdOk sid = true)
    (h : (f (.box sid a b)).Total world i P I s Q) :
    (agentSubdir sid a b >>= f).Total world i P I s Q := by
  rw [agentSubdir_bind]
  exact require_total ha (require_total hs h)

end Rules

/-! ## Copies of a message -/

/-- The identifier of the message a file holds. -/
def msgIdOf : Data → Option String
  | .json x => (x.get? "msg_id").bind Json.str?
  | .junk => none

/-- The messages of a directory that carry the identifier, by file name. -/
def copiesIn (s : Disk) (d : Dir) (mid : String) : List String :=
  (s.files.names d).filter fun name => isMessageName name &&
    (s.files.get? ⟨d, name⟩).any fun f => msgIdOf f.data = some mid

/-- Every recipient has the message in its inbox once, and so has the history. -/
structure Delivered (sid mid : String) (rs : List String) (s : Disk) : Prop where
  inboxes : ∀ rid ∈ rs, copiesIn s (.box sid rid .inbox) mid = [jsonName mid]
  history : copiesIn s (.history sid) mid = [jsonName mid]

/-! ## Disks a send can be resumed from -/

section Send

variable (a : SendArgs) (mid : String) (rs : List String) (refs : List AttachmentRef)

/-- The inbox of a recipient, or the history. -/
def Watched (d : Dir) : Prop :=
  (∃ rid ∈ rs, d = .box a.sessionId rid .inbox) ∨ d = .history a.sessionId

/-- What a file may hold: the message's own file a copy, any other message file
another message, the cursor file an object. -/
structure Fits (p : MPath) (x : Data) : Prop where
  own : Watched a rs p.dir → p.name = jsonName mid → ∃ j, x = .json j ∧ Copy a mid refs j
  other : Watched a rs p.dir → p.name ≠ jsonName mid → isMessageName p.name = true →
    msgIdOf x ≠ some mid
  cursor : p = ⟨.session a.sessionId, STREAM_CURSOR_FILE⟩ → ∀ j, x = .json j → j.isDict = true

/-- The send with its recipients and attachments passes all checks. -/
structure Accepted : Prop where
  msgId : a.msgId = some mid
  msgIdOk : msgIdOk mid = true
  sessionOk : agentIdOk a.sessionId = true
  attachments : attachmentRefs (a.attachments.getD []) = .ret refs
  kind : a.kind ∈ VALID_KINDS
  body : a.body.utf8ByteSize ≤ MAX_MAILBOX_BODY
  valid : ∀ now, validateMessage (messageOf a mid (isoFormat now) refs).toDict
    (some a.sessionId) none none = .ok ()

/-- The session file names the sender and the recipients. -/
def Rostered (f : MFile) : Prop :=
  ∃ info, f.data = .json info ∧ info ≠ .null ∧ info.isDict = true ∧ a.fromId ∈ rosterOf info ∧
    (a.toId = BROADCAST_TO ∨ a.toId ∈ rosterOf info) ∧ rs = recipientsOf a (rosterOf info)

/-- The record of the message in the history, and its draft. -/
def record : MPath := ⟨.history a.sessionId, jsonName mid⟩
def draft : MPath := ⟨.history a.sessionId, tmpName mid⟩

/-- A disk on which the send may have been stopped any number of times. -/
structure Resumable (s : Disk) : Prop where
  session : Dir.session a.sessionId ∈ s.dirs
  roster : ∃ f, s.files.get? ⟨.session a.sessionId, "session.json"⟩ = some f ∧ Rostered a rs f
  ready : ∀ rid ∈ rs, Ready s a.sessionId rid
  fits : ∀ p f, s.files.get? p = some f → Fits a mid rs refs p f.data
  draft : s.files.get? (draft a mid) = none ∨ s.files.get? (record a mid) = none

/-- Only process `i` holds locks of inodes. -/
def LocksOf (i : ℕ) (s : Disk) : Prop := ∀ e ∈ s.inoLocks, e.2 = i

/-- The crash condition of the send. -/
def Stoppable (i : ℕ) (s : Disk) : Prop := Resumable a mid rs refs s ∧ LocksOf i s

variable {a mid rs refs}

/-! ### What keeps a disk resumable -/

variable {p : MPath} {x : Data} {j : Json} {s s' : Disk} {I : Disk → Prop} {l : List String}

theorem Fits.hidden (hm : Mailbox.msgIdOk mid = true)
    (hp : startsWith ".tmp-" p.name = true) : Fits a mid rs refs p x where
  own _ h := absurd h (jsonName_ne_of_dotted hm (startsWith_trans (by decide) hp))
  other _ _ h := by
    simp only [isMessageName, hp, Bool.not_true, Bool.and_false, Bool.false_eq_true] at h
  cursor h := by
    rw [h] at hp
    have hno : startsWith ".tmp-" STREAM_CURSOR_FILE = false := by decide
    rw [hno] at hp
    cases hp

theorem Fits.published (hp : p.name = jsonName mid) (hd : p.dir ≠ .session a.sessionId)
    (hj : Copy a mid refs j) : Fits a mid rs refs p (.json j) where
  own _ _ := ⟨j, rfl, hj⟩
  other _ hne := absurd hp hne
  cursor h := absurd (congrArg Path.dir h) hd

theorem Resumable.change {s s' : Disk} (h : Resumable a mid rs refs s)
    (hdirs : ∀ d ∈ s.dirs, d ∈ s'.dirs)
    (hsession : s'.files.get? ⟨.session a.sessionId, "session.json"⟩ =
      s.files.get? ⟨.session a.sessionId, "session.json"⟩)
    (hfits : ∀ p f, s'.files.get? p = some f →
      s.files.get? p = some f ∨ Fits a mid rs refs p f.data)
    (hdraft : s'.files.get? (Recovery.draft a mid) = none ∨
      s'.files.get? (record a mid) = none) : Resumable a mid rs refs s' where
  session := hdirs _ h.session
  roster := by rw [hsession]; exact h.roster
  ready rid hrid := by
    obtain ⟨h1, h2, h3⟩ := h.ready rid hrid
    exact ⟨h1, h2, hdirs _ h3⟩
  fits p f hf := by
    rcases hfits p f hf with hf | hf
    · exact h.fits p f hf
    · exact hf
  draft := hdraft

theorem Resumable.write (h : Resumable a mid rs refs s) (t : ℕ) (hd : p.dir ≠ .history a.sessionId)
    (hn : p ≠ ⟨.session a.sessionId, "session.json"⟩)
    (hx : Fits a mid rs refs p x) : Resumable a mid rs refs (s.write p x t) := by
  obtain ⟨n, hget⟩ := Files.get?_write s.files p x t
  have hother (q : MPath) (hq : q.dir = .history a.sessionId) :
      (s.write p x t).files.get? q = s.files.get? q := by
    refine Files.get?_write_ne _ _ _ ?_
    rintro rfl
    exact hd hq
  refine h.change (fun _ h => h) (Files.get?_write_ne _ _ _ (Ne.symm hn)) (fun q f hf => ?_) ?_
  · rw [Disk.write, hget] at hf
    split_ifs at hf with hq
    · cases hf
      subst hq
      exact .inr hx
    · exact .inl hf
  · rw [hother _ rfl, hother _ rfl]
    exact h.draft

theorem Resumable.move (h : Resumable a mid rs refs s) {src dst : MPath} {f : MFile}
    (hsrc : s.files.get? src = some f) (hs : src.dir ≠ .history a.sessionId)
    (hd : dst.dir ≠ .history a.sessionId) (hsn : src ≠ ⟨.session a.sessionId, "session.json"⟩)
    (hdn : dst ≠ ⟨.session a.sessionId, "session.json"⟩) (hx : Fits a mid rs refs dst f.data) :
    Resumable a mid rs refs { s with files := s.files.move src dst } := by
  have hother (q : MPath) (hq : q.dir = .history a.sessionId) :
      (s.files.move src dst).get? q = s.files.get? q := by
    refine Files.get?_move_ne _ ?_ ?_
    · rintro rfl; exact hs hq
    · rintro rfl; exact hd hq
  refine h.change (fun _ h => h) (Files.get?_move_ne _ (Ne.symm hsn) (Ne.symm hdn))
    (fun q g hg => ?_) ?_
  · show _ ∨ _
    rw [show ({ s with files := s.files.move src dst } : Disk).files = s.files.move src dst from rfl,
      Files.get?_move hsrc] at hg
    split_ifs at hg with h1 h2
    · cases hg
      subst h1
      exact .inr hx
    · exact .inl hg
  · show (s.files.move src dst).get? _ = none ∨ (s.files.move src dst).get? _ = none
    rw [hother _ rfl, hother _ rfl]
    exact h.draft

theorem Resumable.same_files (h : Resumable a mid rs refs s) (hfiles : s'.files = s.files)
    (hdirs : ∀ d ∈ s.dirs, d ∈ s'.dirs) : Resumable a mid rs refs s' :=
  h.change hdirs (by rw [hfiles]) (fun p f hf => .inl (by rw [← hfiles]; exact hf))
    (by rw [hfiles]; exact h.draft)

/-! ## The checks and the search -/

variable {i : ℕ} {s : Disk}

theorem readSession_total (hI : I s) {sid : String} (hsid : agentIdOk sid = true) {info : Json}
    {t n : ℕ} (hf : s.files.get? ⟨.session sid, "session.json"⟩ = some ⟨.json info, t, n⟩) :
    (readSession sid).Total world i NoFault I s fun r s' => r = .ok (some info) ∧ s' = s := by
  refine require_total hsid (fileExists_total hI ?_)
  rw [hf]
  refine readBytes_total hI ?_
  rw [hf]
  exact Prog.total_ret hI ⟨rfl, rfl⟩

theorem checkInboxes_total (hI : I s) {sid : String} (h : ∀ rid ∈ l, Ready s sid rid) :
    (checkInboxes sid l).Total world i NoFault I s fun r s' => r = .ok () ∧ s' = s := by
  induction l with
  | nil => exact Prog.total_ret hI ⟨rfl, rfl⟩
  | cons rid rest ih =>
    obtain ⟨hrid, hsid, hdir⟩ := h rid List.mem_cons_self
    refine agentSubdir_total hrid hsid (isDir_total hI hdir (require_total rfl ?_))
    exact ih fun rid' hrid' => h rid' (List.mem_cons_of_mem _ hrid')

theorem checkSend_total (hacc : Accepted a mid refs) (hI : I s) (h : Resumable a mid rs refs s) :
    (checkSend a).Total world i NoFault I s fun r s' => r = .ok (rs, refs) ∧ s' = s := by
  obtain ⟨⟨d, t, n⟩, hf, info, rfl, hnull, hdict, hsender, hto, hrs⟩ := h.roster
  refine require_total hacc.sessionOk (isDir_total hI h.session (require_total rfl ?_))
  refine (readSession_total hI hacc.sessionOk hf).bind ?_ ?_
  · rintro _ s₁ - ⟨⟨⟩, rfl⟩
    refine require_total (by simpa using hnull) (require_total hdict ?_)
    refine require_total (by simpa using hsender) ?_
    rw [hacc.attachments, Prog.ret_bind]
    refine require_total (by simpa using hto) ?_
    refine (checkInboxes_total hI (hrs ▸ h.ready)).bind ?_ ?_
    · rintro _ s₂ - ⟨-, rfl⟩
      refine require_total (by simpa using hacc.kind) (require_total (by simpa using hacc.body) ?_)
      exact Prog.total_ret hI ⟨by rw [hrs]; rfl, rfl⟩
    · rintro e s₂ - ⟨h, -⟩
      cases h
  · rintro e s₁ - ⟨h, -⟩
    cases h

theorem loadOrEmpty_total (hI : I s) (h : Resumable a mid rs refs s) (hp : p.name = jsonName mid)
    (hd : Watched a rs p.dir) (hin : (s.files.get? p).isSome = true) :
    (loadOrEmpty p).Total world i NoFault I s fun r s' =>
      (∃ j, r = .ok j ∧ Copy a mid refs j) ∧ s' = s := by
  cases hf : s.files.get? p with
  | none => rw [hf] at hin; cases hin
  | some f =>
    obtain ⟨j, hj, hcopy⟩ := (h.fits p f hf).own hd hp
    refine readBytes_total hI ?_
    simp only [hf, hj]
    exact Prog.total_ret hI ⟨⟨j, rfl, hcopy⟩, rfl⟩

theorem findInInboxes_total (hI : I s) (h : Resumable a mid rs refs s) (hl : ∀ rid ∈ l, rid ∈ rs) :
    ∀ found : Option Json, (∀ j, found = some j → Copy a mid refs j) →
      (findInInboxes a.sessionId mid l found).Total world i NoFault I s fun r s' => s' = s ∧
        ∃ e, r = .ok e ∧ (∀ j, e = some j → Copy a mid refs j) ∧
          (e = none → found = none ∧ ∀ rid ∈ l, ¬ InInbox s a.sessionId mid rid) := by
  induction l with
  | nil =>
    intro found hfound
    exact Prog.total_ret hI ⟨rfl, found, rfl, hfound, fun h => ⟨h, fun rid hrid => by cases hrid⟩⟩
  | cons rid rest ih =>
    intro found hfound
    have hrid := hl rid List.mem_cons_self
    have hrest : ∀ rid' ∈ rest, rid' ∈ rs := fun rid' h => hl rid' (List.mem_cons_of_mem _ h)
    obtain ⟨h1, h2, -⟩ := h.ready rid hrid
    refine agentSubdir_total h1 h2 (fileExists_total hI ?_)
    split
    · next hcond =>
      rw [Bool.and_eq_true] at hcond
      refine (loadOrEmpty_total hI h rfl (.inl ⟨rid, hrid, rfl⟩) hcond.1).bind ?_ ?_
      · rintro j s₁ - ⟨⟨j', hj, hcopy⟩, rfl⟩
        cases hj
        refine (ih hrest (some j) (fun j' hj' => by cases hj'; exact hcopy)).mono (fun _ h => h) ?_
        rintro r s' - ⟨hs, e, hr, hsome, hnone⟩
        exact ⟨hs, e, hr, hsome, fun he => by cases (hnone he).1⟩
      · rintro e s₁ - ⟨⟨j, hj, -⟩, -⟩
        cases hj
    · next hcond =>
      refine (ih hrest found hfound).mono (fun _ h => h) ?_
      rintro r s' - ⟨hs, e, hr, hsome, hnone⟩
      refine ⟨hs, e, hr, hsome, fun he => ⟨(hnone he).1, fun rid' hrid' hin => ?_⟩⟩
      rcases List.mem_cons.mp hrid' with rfl | hrid'
      · rw [InInbox] at hin
        exact hcond (by simp [hin, (hnone he).1])
      · exact (hnone he).2 rid' hrid' hin

theorem findExisting_total (hI : I s) (h : Resumable a mid rs refs s) :
    (findExisting a.sessionId mid rs).Total world i NoFault I s fun r s' => s' = s ∧
      ∃ e, r = .ok e ∧ (∀ j, e = some j → Copy a mid refs j) ∧
        (e = none → s.files.get? (record a mid) = none) := by
  refine (findInInboxes_total hI h (fun _ h => h) none (by simp)).bind ?_ ?_
  · rintro e s₁ - ⟨rfl, e', he, hsome, -⟩
    cases he
    cases e with
    | some j => exact Prog.total_ret hI ⟨rfl, some j, rfl, hsome, fun h => by cases h⟩
    | none =>
      refine fileExists_total hI ?_
      split
      · next hin =>
        refine (loadOrEmpty_total hI h (p := record a mid) rfl (.inr rfl) hin).bind ?_ ?_
        · rintro j s₂ - ⟨⟨j', hj, hcopy⟩, rfl⟩
          cases hj
          refine Prog.total_ret hI ⟨rfl, some j, rfl, fun j' hj' => ?_, fun h => by cases h⟩
          cases hj'
          exact hcopy
        · rintro e s₂ - ⟨⟨j, hj, -⟩, -⟩
          cases hj
      · next hin =>
        refine Prog.total_ret hI ⟨rfl, none, rfl, fun j hj => (by cases hj), fun _ => ?_⟩
        simpa [record] using hin
  · rintro e s₁ - ⟨-, e', he, -⟩
    cases he

/-! ## Writing the inboxes -/

/-- What a part of the send outside the history leaves as it is. -/
structure Steady (a : SendArgs) (mid : String) (s s' : Disk) : Prop where
  inboxes : ∀ rid, InInbox s a.sessionId mid rid → InInbox s' a.sessionId mid rid
  history : ∀ p : MPath, p.dir = .history a.sessionId → s'.files.get? p = s.files.get? p

theorem Steady.refl (s : Disk) : Steady a mid s s := ⟨fun _ h => h, fun _ _ => rfl⟩

theorem Steady.trans {s₁ s₂ s₃ : Disk} (h : Steady a mid s₁ s₂) (h' : Steady a mid s₂ s₃) :
    Steady a mid s₁ s₃ :=
  ⟨fun rid hin => h'.inboxes rid (h.inboxes rid hin),
    fun p hp => (h'.history p hp).trans (h.history p hp)⟩

theorem Steady.written (s : Disk) (rid : String) (x : Data) (t : ℕ) :
    Steady a mid s (written s a.sessionId mid rid x t) :=
  ⟨fun rid' h => written_inInbox s a.sessionId mid rid rid' x t h,
    fun p hp => written_history s a.sessionId mid rid x t p hp⟩

theorem envelope_total {α : Type} {Q : Except PyErr α → Disk → Prop} {rid : String} {j : Json}
    {f : Call α} (hacc : Accepted a mid refs) (h : Stoppable a mid rs refs i s)
    (hrid : rid ∈ rs) (hj : Copy a mid refs j)
    (hf : ∀ t, Stoppable a mid rs refs i (written s a.sessionId mid rid (.json j) t) →
      f.Total world i NoFault (Stoppable a mid rs refs i)
        (written s a.sessionId mid rid (.json j) t) Q) :
    (do
      write ⟨.box a.sessionId rid .inbox, tmpName mid⟩ (.json j)
      replace ⟨.box a.sessionId rid .inbox, tmpName mid⟩ ⟨.box a.sessionId rid .inbox, jsonName mid⟩
      f : Call α).Total world i NoFault (Stoppable a mid rs refs i) s Q := by
  have hdir := (h.1.ready rid hrid).2.2
  refine write_total h hdir fun t => ?_
  have hw : Resumable a mid rs refs (s.write ⟨.box a.sessionId rid .inbox, tmpName mid⟩
      (.json j) t) :=
    h.1.write t (by simp) (by simp) (.hidden hacc.msgIdOk (startsWith_tmpName mid))
  obtain ⟨n, hn⟩ := Files.get?_write_self s.files ⟨.box a.sessionId rid .inbox, tmpName mid⟩
    (.json j) t
  have hm : Stoppable a mid rs refs i (written s a.sessionId mid rid (.json j) t) := by
    refine ⟨hw.move hn (by simp) (by simp) (by simp) (by simp) ?_, h.2⟩
    exact .published rfl (by simp) hj
  refine replace_total ⟨hw, h.2⟩ ?_ hdir (hf t hm)
  rw [Disk.write, hn]
  rfl

theorem publish_total (hacc : Accepted a mid refs) (hj : Copy a mid refs j)
    (hl : ∀ rid ∈ l, rid ∈ rs) : ∀ s, Stoppable a mid rs refs i s →
      (publish a.sessionId mid j l).Total world i NoFault (Stoppable a mid rs refs i) s fun r s' =>
        r = .ok () ∧ s'.inoLocks = s.inoLocks ∧ Steady a mid s s' ∧
          ∀ rid ∈ l, InInbox s' a.sessionId mid rid := by
  induction l with
  | nil => intro s h; exact Prog.total_ret h ⟨rfl, rfl, .refl s, fun _ h => by cases h⟩
  | cons rid rest ih =>
    intro s h
    have hrid := hl rid List.mem_cons_self
    obtain ⟨h1, h2, -⟩ := h.1.ready rid hrid
    refine agentSubdir_total h1 h2 (envelope_total hacc h hrid hj fun t ht => ?_)
    refine (ih (fun rid' h' => hl rid' (List.mem_cons_of_mem _ h')) _ ht).mono (fun _ h => h) ?_
    rintro r s' - ⟨hr, hlocks, hsteady, hall⟩
    refine ⟨hr, hlocks, (Steady.written s rid _ t).trans hsteady, fun rid' hrid' => ?_⟩
    rcases List.mem_cons.mp hrid' with rfl | hrid'
    · exact hsteady.inboxes rid' (written_inInbox_self s a.sessionId mid rid' _ t)
    · exact hall rid' hrid'

theorem backfill_total (hacc : Accepted a mid refs) (hj : Copy a mid refs j)
    (hl : ∀ rid ∈ l, rid ∈ rs) : ∀ s, Stoppable a mid rs refs i s →
      (backfill a.sessionId mid j l).Total world i NoFault (Stoppable a mid rs refs i) s fun r s' =>
        (∃ n, r = .ok n) ∧ s'.inoLocks = s.inoLocks ∧ Steady a mid s s' ∧
          ∀ rid ∈ l, InInbox s' a.sessionId mid rid := by
  induction l with
  | nil => intro s h; exact Prog.total_ret h ⟨⟨0, rfl⟩, rfl, .refl s, fun _ h => by cases h⟩
  | cons rid rest ih =>
    intro s h
    have hrid := hl rid List.mem_cons_self
    have hrest : ∀ rid' ∈ rest, rid' ∈ rs := fun rid' h' => hl rid' (List.mem_cons_of_mem _ h')
    obtain ⟨h1, h2, -⟩ := h.1.ready rid hrid
    refine agentSubdir_total h1 h2 (fileExists_total h ?_)
    split
    · next hin =>
      refine (ih hrest s h).mono (fun _ h => h) ?_
      rintro r s' - ⟨hr, hlocks, hsteady, hall⟩
      refine ⟨hr, hlocks, hsteady, fun rid' hrid' => ?_⟩
      rcases List.mem_cons.mp hrid' with rfl | hrid'
      · exact hsteady.inboxes rid' hin
      · exact hall rid' hrid'
    · refine envelope_total hacc h hrid hj fun t ht => ?_
      refine (ih hrest _ ht).bind ?_ ?_
      · rintro n s' h' ⟨-, hlocks, hsteady, hall⟩
        refine Prog.total_ret h' ⟨⟨_, rfl⟩, hlocks, (Steady.written s rid _ t).trans hsteady, ?_⟩
        intro rid' hrid'
        rcases List.mem_cons.mp hrid' with rfl | hrid'
        · exact hsteady.inboxes rid' (written_inInbox_self s a.sessionId mid rid' _ t)
        · exact hall rid' hrid'
      · rintro e s' - ⟨⟨n, hn⟩, -⟩
        cases hn

/-! ## The cursor -/

theorem Steady.of_session
    (h : ∀ p : MPath, p.dir ≠ .session a.sessionId → s'.files.get? p = s.files.get? p) :
    Steady a mid s s' :=
  ⟨fun rid hin => by rw [InInbox, h _ (by simp)]; exact hin,
    fun p hp => h p (by rw [hp]; simp)⟩

theorem Fits.session {name : String}
    (hx : name = STREAM_CURSOR_FILE → ∀ j, x = .json j → j.isDict = true) :
    Fits a mid rs refs ⟨.session a.sessionId, name⟩ x where
  own h := by rcases h with ⟨rid, -, h⟩ | h <;> cases h
  other h := by rcases h with ⟨rid, -, h⟩ | h <;> cases h
  cursor h := hx (congrArg Path.name h)

theorem openCursor_total {α : Type} {Q : Except PyErr α → Disk → Prop} {f : ℕ → Call α}
    (h : Stoppable a mid rs refs i s)
    (hf : ∀ fd s₁, Stoppable a mid rs refs i s₁ → s₁.inoLocks = s.inoLocks → Steady a mid s s₁ →
      (f fd).Total world i NoFault (Stoppable a mid rs refs i) s₁ Q) :
    (do
      let fd ← orRaise (← openFd ⟨.session a.sessionId, STREAM_CURSOR_FILE⟩)
      f fd : Call α).Total world i NoFault (Stoppable a mid rs refs i) s Q := by
  refine openFd_total h h.1.session ?_
  rintro fd s₁ (rfl | ⟨-, t, rfl⟩)
  · exact hf _ _ h rfl (.refl _)
  · refine hf _ _ ⟨?_, h.2⟩ rfl ?_
    · exact h.1.write _ (by simp) (by simp [STREAM_CURSOR_FILE])
        (.session fun _ j hj => by cases hj)
    · refine .of_session fun p hp => Files.get?_write_ne _ _ _ ?_
      rintro rfl
      exact hp rfl

theorem updateCursor_total {nowMs : ℕ} (hacc : Accepted a mid refs)
    (h : Stoppable a mid rs refs i s) :
    (do
      let prev ← (do
        if ← fileExists ⟨.session a.sessionId, STREAM_CURSOR_FILE⟩ then
          match ← readBytes ⟨.session a.sessionId, STREAM_CURSOR_FILE⟩ with
          | .ok (.json j) => if j.isDict then return some j else throw .attribute
          | _ => return none
        else return none)
      let next := nextCursor prev nowMs
      write ⟨.session a.sessionId, ".tmp-stream-cursor"⟩
        (.json (.obj [("epoch_ms", .int next.1), ("seq", .int next.2)]))
      replace ⟨.session a.sessionId, ".tmp-stream-cursor"⟩
        ⟨.session a.sessionId, STREAM_CURSOR_FILE⟩
      return next : Call (ℕ × ℤ)).Total world i NoFault (Stoppable a mid rs refs i) s fun r s' =>
        ∃ next, r = .ok next ∧ s'.inoLocks = s.inoLocks ∧ Steady a mid s s' := by
  have hdir := h.1.session
  refine Prog.Total.bind (M := fun r s' => (∃ prev, r = .ok prev) ∧ s' = s) ?_ ?_ ?_
  · -- the file holds an object if it holds JSON at all
    refine fileExists_total h ?_
    split
    · refine readBytes_total h ?_
      cases hf : s.files.get? ⟨.session a.sessionId, STREAM_CURSOR_FILE⟩ with
      | none => exact Prog.total_ret h ⟨⟨_, rfl⟩, rfl⟩
      | some f =>
        obtain ⟨d, t, n⟩ := f
        cases d with
        | junk => exact Prog.total_ret h ⟨⟨_, rfl⟩, rfl⟩
        | json j =>
          have hj : j.isDict = true := (h.1.fits _ _ hf).cursor rfl j rfl
          simp only [hj, if_true]
          exact Prog.total_ret h ⟨⟨_, rfl⟩, rfl⟩
    · exact Prog.total_ret h ⟨⟨_, rfl⟩, rfl⟩
  · rintro prev s₁ - ⟨-, rfl⟩
    refine write_total h hdir fun t => ?_
    set x : Data := .json (.obj [("epoch_ms", .int (nextCursor prev nowMs).1),
      ("seq", .int (nextCursor prev nowMs).2)]) with hx
    have hw : Resumable a mid rs refs
        (s₁.write ⟨.session a.sessionId, ".tmp-stream-cursor"⟩ x t) :=
      h.1.write t (by simp) (by simp) (.hidden hacc.msgIdOk (startsWith_append ".tmp-" "stream-cursor"))
    obtain ⟨n, hn⟩ := Files.get?_write_self s₁.files ⟨.session a.sessionId, ".tmp-stream-cursor"⟩ x t
    refine replace_total ⟨hw, h.2⟩ (by rw [Disk.write, hn]; rfl) hdir (Prog.total_ret ⟨?_, h.2⟩ ?_)
    · refine hw.move hn (by simp) (by simp) (by simp) (by simp [STREAM_CURSOR_FILE]) ?_
      refine .session fun _ j hj => ?_
      rw [hx] at hj
      cases hj
      rfl
    · refine ⟨_, rfl, rfl, .of_session fun p hp => ?_⟩
      have hne (name : String) : p ≠ ⟨.session a.sessionId, name⟩ := by
        rintro rfl
        exact hp rfl
      show ((s₁.write _ x t).files.move _ _).get? p = _
      rw [Files.get?_move_ne _ (hne _) (hne _)]
      exact Files.get?_write_ne _ _ _ (hne _)
  · rintro e s₁ - ⟨⟨prev, hp⟩, -⟩
    cases hp

theorem advanceCursor_total (hacc : Accepted a mid refs) (h : Stoppable a mid rs refs i s)
    (hlocks : s.inoLocks = []) :
    (advanceCursor a.sessionId).Total world i NoFault (Stoppable a mid rs refs i) s fun r s' =>
      ∃ cursor, r = .ok cursor ∧ s'.inoLocks = [] ∧ Steady a mid s s' := by
  refine require_total hacc.sessionOk (mkdir_total h fun dirs hdirs => ?_)
  have h₁ : Stoppable a mid rs refs i { s with dirs := dirs } :=
    ⟨h.1.same_files rfl fun d hd => (hdirs d).mpr (.inr hd), h.2⟩
  refine clock_total h₁ fun now => openCursor_total h₁ fun fd s₂ h₂ hlocks₂ hsteady₂ => ?_
  have hfree : s₂.inoLocks = [] := hlocks₂.trans hlocks
  refine flock_total h₂ hfree ?_
  have h₃ : Stoppable a mid rs refs i { s₂ with inoLocks := [(fd, i)] } := by
    refine ⟨h₂.1.same_files rfl fun _ h => h, fun e he => ?_⟩
    rw [List.mem_singleton.mp he]
  refine Prog.Total.bind (M := fun r s' => ∃ next, r = .ok next ∧ s'.inoLocks = [] ∧
    Steady a mid s s') ?_ ?_ ?_
  · refine Prog.Total.ensure (updateCursor_total hacc h₃) ?_
    rintro _ s₄ h₄ ⟨next, rfl, hlocks₄, hsteady₄⟩
    refine Prog.total_op_bind h₄ fun c _ => ⟨(), _, rfl, ?_⟩
    have hnone : s₄.inoLocks.filter (· ≠ (fd, i)) = [] := by rw [hlocks₄]; simp
    have hsteady : Steady a mid s s₄ :=
      ⟨fun rid h => hsteady₄.inboxes rid (hsteady₂.inboxes rid h),
        fun p hp => (hsteady₄.history p hp).trans (hsteady₂.history p hp)⟩
    refine Prog.total_ret ⟨h₄.1.same_files rfl fun _ h => h, ?_⟩
      ⟨rfl, next, rfl, hnone, hsteady.inboxes, hsteady.history⟩
    intro e he
    rw [hnone] at he
    cases he
  · rintro next s' h' ⟨next', -, hnone, hsteady⟩
    exact Prog.total_ret h' ⟨_, rfl, hnone, hsteady⟩
  · rintro e s' - ⟨next, he, -⟩
    cases he

/-! ## The history -/

theorem get?_write_move (fs : Files Dir Data) (src dst : MPath) (x : Data) (t : ℕ) : ∃ f : MFile, f.data = x ∧
      (fs.write src x t).get? src = some f ∧ ∀ p, ((fs.write src x t).move src dst).get? p =
        if p = dst then some f else if p = src then none else fs.get? p := by
  obtain ⟨n, hn⟩ := Files.get?_write fs src x t
  have hsrc := hn src
  rw [if_pos rfl] at hsrc
  refine ⟨_, rfl, hsrc, fun p => ?_⟩
  rw [Files.get?_move hsrc, hn]
  split_ifs <;> rfl

/-- The checks of `append_history` pass on a copy that has no record yet. -/
theorem appendHistory_checks {Q : Except PyErr String → Disk → Prop} (hacc : Accepted a mid refs)
    (h : Stoppable a mid rs refs i s) {j : Json} (hj : Copy a mid refs j)
    (hrec : s.files.get? (record a mid) = none)
    (hQ : ∀ dirs, (draft a mid).dir ∈ dirs →
      Stoppable a mid rs refs i { s with dirs := dirs } →
      (do
        writeNewOr (draft a mid) (.json j) (.value ("history entry already exists: " ++ mid))
        replace (draft a mid) (record a mid)
        return "history: " ++ mid : Call String).Total world i NoFault (Stoppable a mid rs refs i)
          { s with dirs := dirs } Q) :
    (appendHistory a.sessionId j).Total world i NoFault (Stoppable a mid rs refs i) s Q := by
  have hmid : textOf j "msg_id" = mid := by rw [textOf, hj.msgId]; rfl
  refine require_total hacc.sessionOk (isDir_total h h.1.session (require_total rfl ?_))
  refine require_total hj.dict ?_
  rw [hj.valid]
  rw [hmid]
  refine require_total hacc.msgIdOk (mkdir_total h fun dirs hdirs => ?_)
  have h₁ : Stoppable a mid rs refs i { s with dirs := dirs } :=
    ⟨h.1.same_files rfl fun d hd => (hdirs d).mpr (.inr hd), h.2⟩
  refine fileExists_total h₁ (require_total ?_ (hQ dirs ((hdirs _).mpr (.inl rfl)) h₁))
  show (!(s.files.get? (record a mid)).isSome) = true
  rw [hrec]
  rfl

theorem appendHistory_total (hacc : Accepted a mid refs) (h : Stoppable a mid rs refs i s)
    (hj : Copy a mid refs j) (hrec : s.files.get? (record a mid) = none)
    (hdraft : s.files.get? (draft a mid) = none) :
    (appendHistory a.sessionId j).Total world i NoFault (Stoppable a mid rs refs i) s fun r s' =>
      (∃ t, r = .ok t) ∧ (s'.files.get? (record a mid)).isSome = true ∧
      OnlyHistory a.sessionId s s' := by
  refine appendHistory_checks hacc h hj hrec fun dirs hd h₁ => ?_
  have hne : draft a mid ≠ record a mid := fun he =>
    tmpName_ne_jsonName mid (congrArg Path.name he)
  refine Prog.total_op_bind h₁ fun c hc => ⟨.ok (), ({ s with dirs := dirs } : Disk).write
    (draft a mid) (.json j) c.time, ?_, ?_⟩
  · have hc : c.fault = false := hc
    simp only [world, Disk.perform, hc, Bool.false_eq_true, if_false]
    rw [if_neg (not_not_intro hd), if_neg]
    rw [hdraft]
    exact Bool.false_ne_true
  obtain ⟨f, hdata, hf, hmove⟩ :=
    get?_write_move s.files (draft a mid) (record a mid) (.json j) c.time
  -- with the draft there is no record yet, and after the rename no draft any more
  have h₂ : Stoppable a mid rs refs i (({ s with dirs := dirs } : Disk).write (draft a mid)
      (.json j) c.time) := by
    refine ⟨h₁.1.change (fun _ h => h) ?_ (fun p g hg => ?_) (.inr ?_), h₁.2⟩
    · exact Files.get?_write_ne _ _ _ (by simp [draft])
    · by_cases hp : p = draft a mid
      · subst hp
        exact .inr (.hidden hacc.msgIdOk (startsWith_tmpName mid))
      · exact .inl (by rw [← hg]; exact (Files.get?_write_ne _ _ _ hp).symm)
    · exact (Files.get?_write_ne _ _ _ (Ne.symm hne)).trans hrec
  refine replace_total h₂ (by rw [Option.isSome_iff_exists]; exact ⟨f, hf⟩) hd ?_
  refine Prog.total_ret ⟨h₁.1.change (fun _ h => h) ?_ (fun p g hg => ?_) (.inl ?_), h₁.2⟩
    ⟨⟨_, rfl⟩, ?_, fun p hp => ?_⟩
  · exact (hmove _).trans (by rw [if_neg (by simp [record]), if_neg (by simp [draft])])
  · have hg : (if p = record a mid then some f else if p = draft a mid then none
        else s.files.get? p) = some g := (hmove p).symm.trans hg
    split_ifs at hg with h1 h2
    · cases hg
      subst h1
      rw [hdata]
      exact .inr (.published rfl (by simp [record]) hj)
    · exact .inl hg
  · exact (hmove _).trans (by rw [if_neg hne, if_pos rfl])
  · rw [Option.isSome_iff_exists]
    exact ⟨f, (hmove _).trans (if_pos rfl)⟩
  · refine (hmove p).trans ?_
    rw [if_neg, if_neg]
    · rintro rfl; exact hp rfl
    · rintro rfl; exact hp rfl

theorem appendHistory_stuck (hacc : Accepted a mid refs) (h : Stoppable a mid rs refs i s)
    (hj : Copy a mid refs j) (hrec : s.files.get? (record a mid) = none)
    (hdraft : (s.files.get? (draft a mid)).isSome = true) :
    (appendHistory a.sessionId j).Total world i NoFault (Stoppable a mid rs refs i) s fun r _ =>
      r = .error (.value ("history entry already exists: " ++ mid)) := by
  refine appendHistory_checks hacc h hj hrec fun dirs hd h₁ => ?_
  refine Prog.total_op_bind h₁ fun c hc => ⟨.error .exists, { s with dirs := dirs }, ?_, ?_⟩
  · have hc : c.fault = false := hc
    simp only [world, Disk.perform, hc, Bool.false_eq_true, if_false]
    rw [if_neg (not_not_intro hd), if_pos hdraft]
  · exact Prog.total_raise h₁ rfl

/-! ## The whole send -/

theorem isMessageName_jsonName (hm : Mailbox.msgIdOk mid = true) :
    isMessageName (jsonName mid) = true := by
  have hdot := dotted_jsonName hm
  have hno (p : String) (hp : startsWith "." p = true) : startsWith p (jsonName mid) = false := by
    by_contra hs
    rw [dotted, startsWith_trans hp (by simpa using hs)] at hdot
    cases hdot
  have hend : endsWith ".json" (jsonName mid) = true := by
    rw [endsWith, jsonName, String.toList_append]
    simp
  simp only [isMessageName, hend, hno ".sync-conflict-" (by decide), hno ".tmp-" (by decide),
    Bool.not_false, Bool.and_self]

/-- On a resumable disk the only copy in a watched directory is the message's own
file. -/
theorem Resumable.copiesIn (hacc : Accepted a mid refs) (h : Resumable a mid rs refs s) {d : Dir}
    (hd : Watched a rs d) (hin : (s.files.get? ⟨d, jsonName mid⟩).isSome = true) :
    Recovery.copiesIn s d mid = [jsonName mid] := by
  rw [Recovery.copiesIn, ← List.perm_singleton, List.perm_ext_iff_of_nodup ((Files.names_nodup _ _).filter _)
    (List.nodup_singleton _)]
  intro name
  simp only [List.mem_filter, Files.mem_names, List.mem_singleton, Bool.and_eq_true,
    Option.any_eq_true, decide_eq_true_eq]
  constructor
  · rintro ⟨-, hname, f, hf, hid⟩
    by_contra hne
    exact (h.fits _ f hf).other hd hne hname hid
  · rintro rfl
    obtain ⟨f, hf⟩ := Option.isSome_iff_exists.mp hin
    obtain ⟨j, hj, hcopy⟩ := (h.fits _ f hf).own hd rfl
    exact ⟨⟨f, hf⟩, isMessageName_jsonName hacc.msgIdOk, f, hf, by rw [hj]; exact hcopy.msgId⟩

theorem Resumable.delivered (hacc : Accepted a mid refs) (h : Resumable a mid rs refs s)
    (hall : ∀ rid ∈ rs, InInbox s a.sessionId mid rid)
    (hrec : (s.files.get? (record a mid)).isSome = true) : Delivered a.sessionId mid rs s :=
  ⟨fun rid hrid => h.copiesIn hacc (.inl ⟨rid, hrid, rfl⟩) (hall rid hrid),
    h.copiesIn hacc (.inr rfl) hrec⟩

/-- How a send that has written all inboxes goes on to the end `Q`: with the
record that is there, or by appending one. -/
structure Concludes (a : SendArgs) (mid : String) (rs : List String) (refs : List AttachmentRef)
    (i : ℕ) (s : Disk) (Q : Except PyErr String → Disk → Prop) : Prop where
  keep : ∀ s₁, Stoppable a mid rs refs i s₁ → Steady a mid s s₁ →
    (∀ rid ∈ rs, InInbox s₁ a.sessionId mid rid) →
    (s₁.files.get? (record a mid)).isSome = true → ∀ t, Q (.ok t) s₁
  append : ∀ s₁ j, Stoppable a mid rs refs i s₁ → Steady a mid s s₁ →
    (∀ rid ∈ rs, InInbox s₁ a.sessionId mid rid) → Copy a mid refs j →
    s₁.files.get? (record a mid) = none →
    (appendHistory a.sessionId j).Total world i NoFault (Stoppable a mid rs refs i) s₁ fun r s' =>
      (∀ u, r = .ok u → ∀ t, Q (.ok t) s') ∧ ∀ e, r = .error e → Q (.error e) s'

variable {Q : Except PyErr String → Disk → Prop}

theorem replay_total (hacc : Accepted a mid refs) (h : Stoppable a mid rs refs i s)
    (hj : Copy a mid refs j) (hQ : Concludes a mid rs refs i s Q) :
    (replay a mid rs refs j).Total world i NoFault (Stoppable a mid rs refs i) s Q := by
  refine require_total hj.dict (require_total hj.same ?_)
  refine (backfill_total hacc hj (fun _ h => h) s h).bind ?_ ?_
  · rintro n s₁ h₁ ⟨-, -, hsteady, hall⟩
    refine Prog.Total.bind (M := fun r s' => (∀ u, r = .ok u → ∀ t, Q (.ok t) s') ∧
      ∀ e, r = .error e → Q (.error e) s') ?_ (fun u s₂ h₂ hM => Prog.total_ret h₂ (hM.1 u rfl _))
      (fun e s₂ _ hM => hM.2 e rfl)
    refine fileExists_total h₁ ?_
    split
    · next hin =>
      exact Prog.total_ret h₁ ⟨fun _ _ => hQ.keep s₁ h₁ hsteady hall hin, fun e he => by cases he⟩
    · next hin =>
      refine (hQ.append s₁ j h₁ hsteady hall hj (by simpa [record] using hin)).bind ?_ ?_
      · rintro u s₂ h₂ ⟨hok, -⟩
        exact Prog.total_ret h₂ ⟨fun _ _ => hok u rfl, fun e he => by cases he⟩
      · rintro e s₂ - ⟨-, herr⟩
        refine ⟨fun u hu => (by cases hu), fun e' he' => ?_⟩
        cases he'
        exact herr e rfl
  · rintro e s₁ - ⟨⟨n, hn⟩, -⟩
    cases hn

theorem sendNew_total (hacc : Accepted a mid refs) (h : Stoppable a mid rs refs i s)
    (hlocks : s.inoLocks = []) (hrec : s.files.get? (record a mid) = none)
    (hQ : Concludes a mid rs refs i s Q) :
    (sendNew a mid rs refs).Total world i NoFault (Stoppable a mid rs refs i) s Q := by
  refine clock_total h fun now => ?_
  have hcopy := copy_messageOf (hacc.valid now)
  simp only [hacc.valid now]
  refine (publish_total hacc hcopy (fun _ h => h) s h).bind ?_ ?_
  · rintro _ s₁ h₁ ⟨-, hlocks₁, hsteady₁, -⟩
    refine (advanceCursor_total hacc h₁ (hlocks₁.trans hlocks)).bind ?_ ?_
    · rintro cursor s₂ h₂ ⟨-, -, -, hsteady₂⟩
      have hstamped := hcopy.stamp (.str cursor)
      refine (publish_total hacc hstamped (fun _ h => h) s₂ h₂).bind ?_ ?_
      · rintro _ s₃ h₃ ⟨-, -, hsteady₃, hall⟩
        have hsteady := (hsteady₁.trans hsteady₂).trans hsteady₃
        refine (hQ.append s₃ _ h₃ hsteady hall hstamped
          ((hsteady.history _ rfl).trans hrec)).bind ?_ ?_
        · rintro u s₄ h₄ ⟨hok, -⟩
          exact Prog.total_ret h₄ (hok u rfl _)
        · rintro e s₄ - ⟨-, herr⟩
          exact herr e rfl
      · rintro e s₃ - ⟨he, -⟩
        cases he
    · rintro e s₂ - ⟨cursor, he, -⟩
      cases he
  · rintro e s₁ - ⟨he, -⟩
    cases he

theorem send_total (hacc : Accepted a mid refs) (h : Resumable a mid rs refs s)
    (hlocks : s.inoLocks = []) (hQ : Concludes a mid rs refs i s Q) (fuel : ℕ) :
    (send fuel a).Total world i NoFault (Stoppable a mid rs refs i) s Q := by
  have hs : Stoppable a mid rs refs i s := ⟨h, fun e he => by rw [hlocks] at he; cases he⟩
  refine (checkSend_total hacc hs h).bind ?_ ?_
  · rintro _ s₁ - ⟨hr, rfl⟩
    cases hr
    simp only [hacc.msgId]
    refine require_total hacc.msgIdOk ((findExisting_total hs h).bind ?_ ?_)
    · rintro existing s₂ - ⟨rfl, e, he, hsome, hnone⟩
      cases he
      cases existing with
      | some j => exact replay_total hacc hs (hsome j rfl) hQ
      | none => exact sendNew_total hacc hs hlocks (hnone rfl) hQ
    · rintro e s₂ - ⟨-, e', he, -⟩
      cases he
  · rintro e s₁ - ⟨he, -⟩
    cases he

/-! ## Recovery -/

/-- The send has returned and the message is delivered. -/
def Done (a : SendArgs) (mid : String) (rs : List String) (r : Except PyErr String) (s : Disk) :
    Prop := (∃ t, r = .ok t) ∧ Delivered a.sessionId mid rs s

theorem concludes_done (hacc : Accepted a mid refs) (hdraft : s.files.get? (draft a mid) = none) :
    Concludes a mid rs refs i s (Done a mid rs) where
  keep s₁ h₁ _ hall hrec t := ⟨⟨t, rfl⟩, h₁.1.delivered hacc hall hrec⟩
  append s₁ j h₁ hsteady hall hj hrec := by
    refine (appendHistory_total hacc h₁ hj hrec ((hsteady.history _ rfl).trans hdraft)).mono
      (fun _ h => h) ?_
    rintro r s' h' ⟨⟨u, hu⟩, hrec', honly⟩
    refine ⟨fun _ _ t => ⟨⟨t, rfl⟩, h'.1.delivered hacc (fun rid hrid => ?_) hrec'⟩, ?_⟩
    · rw [InInbox, honly.sameMailbox rid]
      exact hall rid hrid
    · intro e he
      rw [hu] at he
      cases he

theorem concludes_stuck (hacc : Accepted a mid refs) (hrec : s.files.get? (record a mid) = none)
    (hdraft : (s.files.get? (draft a mid)).isSome = true) :
    Concludes a mid rs refs i s fun r _ => ∃ e, r = .error e where
  keep s₁ h₁ hsteady _ hrec' t := by
    rw [hsteady.history _ rfl, hrec] at hrec'
    cases hrec'
  append s₁ j h₁ hsteady hall hj hrec₁ := by
    refine (appendHistory_stuck hacc h₁ hj hrec₁ (by rwa [hsteady.history _ rfl])).mono
      (fun _ h => h) ?_
    rintro r s' - rfl
    exact ⟨fun u hu => (by cases hu), fun e he => ⟨e, rfl⟩⟩

/-- **Recovery of a send.**  Let the send be stopped between any two of its
operations, on a disk on which it may have been stopped before, and let it be
repeated. The repeated send returns with the message delivered exactly when no
draft of the history record was left behind. -/
theorem send_recovers_iff (a : SendArgs) (mid : String) (rs : List String)
    (refs : List AttachmentRef) (hacc : Accepted a mid refs) (s : Disk)
    (hs : Resumable a mid rs refs s) (hlocks : s.inoLocks = [])
    (hdraft : s.files.get? (draft a mid) = none) (fuel i j : ℕ) (t : Disk)
    (ht : (send fuel a).Reaches world i NoFault s t) :
    ((send fuel a).Total world j NoFault (fun _ => True) (t.crash i) (Done a mid rs)) ↔
      t.files.get? (draft a mid) = none := by
  have hstop := (send_total hacc hs hlocks (concludes_done hacc hdraft) fuel).reaches ht
  have hcrash : Resumable a mid rs refs (t.crash i) := hstop.1.same_files rfl fun _ h => h
  have hfree : (t.crash i).inoLocks = [] := by
    refine List.filter_eq_nil_iff.mpr fun e he => ?_
    simp [hstop.2 e he]
  constructor
  · intro htotal
    by_contra hleft
    have hrec : t.files.get? (record a mid) = none := hstop.1.draft.resolve_left hleft
    have hstuck := send_total (i := j) hacc hcrash hfree
      (concludes_stuck hacc hrec (Option.isSome_iff_ne_none.mpr hleft)) fuel
    obtain ⟨r, s', hr⟩ := htotal.runs (c := {}) rfl
    obtain ⟨⟨u, hu⟩, -⟩ := htotal.ends r s' hr
    obtain ⟨e, he⟩ := hstuck.ends r s' hr
    rw [hu] at he
    cases he
  · intro hnone
    exact (send_total hacc hcrash hfree (concludes_done hacc hnone) fuel).mono (fun _ _ => trivial)
      fun _ _ _ h => h

end Send

/-! ## Two crashes of a broadcast -/

/-- A broadcast of `a` to `b` and `c`. -/
def announcement : SendArgs := { notice with toId := "*" }

def threeMembers : Disk := newSession "s" "a" ["b", "c"] 0

theorem announcement_accepted : Accepted announcement "m" [] where
  msgId := rfl
  msgIdOk := by decide
  sessionOk := by decide
  attachments := rfl
  kind := by decide
  body := by decide
  valid now := by
    rw [(sameChecked_createdAt announcement "m" "" (isoFormat now) []).validateMessage]
    decide +kernel

theorem threeMembers_resumable : Resumable announcement "m" ["b", "c"] [] threeMembers where
  session := by decide
  roster := ⟨_, rfl, _, rfl, by decide, by decide, by decide, by decide, by decide +kernel⟩
  ready := by unfold Ready; decide +kernel
  fits p f hf := by
    have hp : p = ⟨.session "s", "session.json"⟩ := by
      by_contra hne
      rw [threeMembers, newSession, Files.get?_write_ne _ _ _ hne] at hf
      cases hf
    rw [hp]
    exact .session (a := announcement) fun h => absurd h (by decide)
  draft := .inl rfl

/-- The disk when the first send has died after `n` operations. -/
def stoppedAfter (n : ℕ) : Disk := Prog.after world 0 {} n (send 1 announcement) threeMembers

theorem send_recovers_between_inboxes :
    InInbox (stoppedAfter 12) "s" "m" "b" ∧ ¬ InInbox (stoppedAfter 12) "s" "m" "c" ∧
    (send 1 announcement).Total world 1 NoFault (fun _ => True) ((stoppedAfter 12).crash 0)
      (Done announcement "m" ["b", "c"]) := by
  refine ⟨by unfold InInbox; decide +kernel, by unfold InInbox; decide +kernel, ?_⟩
  refine (send_recovers_iff announcement "m" ["b", "c"] [] announcement_accepted threeMembers
    threeMembers_resumable rfl rfl 1 0 1 (stoppedAfter 12)
    (Prog.reaches_after (show NoFault {} from rfl) 12 _ _)).mpr ?_
  decide +kernel

/-- **A draft of the history record blocks the send for good.**  The first send has
died between writing the draft and renaming it; the second raises. -/
theorem leftover_draft_blocks_send :
    (send 1 announcement).Reaches world 0 NoFault threeMembers (stoppedAfter 30) ∧
    (Prog.exec world 1 {} 20 (send 1 announcement) ((stoppedAfter 30).crash 0)).map (·.1) =
      some (.error (.value "history entry already exists: m")) ∧
    ¬ (send 1 announcement).Total world 1 NoFault (fun _ => True) ((stoppedAfter 30).crash 0)
      (Done announcement "m" ["b", "c"]) := by
  have hexec : (Prog.exec world 1 {} 20 (send 1 announcement) ((stoppedAfter 30).crash 0)).map
      (·.1) = some (.error (.value "history entry already exists: m")) := by decide +kernel
  refine ⟨Prog.reaches_after (show NoFault {} from rfl) 30 _ _, hexec, fun htotal => ?_⟩
  obtain ⟨⟨r, s'⟩, hx, hr⟩ := Option.map_eq_some_iff.mp hexec
  obtain ⟨⟨t, ht⟩, -⟩ := htotal.ends r s' (Prog.runs_of_exec (show NoFault {} from rfl) hx)
  rw [ht] at hr
  cases hr

end AiMeshChat.Mailbox.Recovery
