import AiMeshChat.Mailbox.FreshSend
import AiMeshChat.Mailbox.ReadBack

/-!
# Sends that are refused

Every state that `session_init`, `send`, `read`, `finalize` and `release` leave behind,
one call after the other on a disk that does not fail, has a history record for every
message in a box (`Inv`). So the checks of `append_history` repeat those of `send`, with
one exception: an identifier that `send` has generated itself is checked by nobody before
the envelopes and the cursor are written, and it is malformed if the sender's identifier
ends in a newline.
-/

namespace AiMeshChat.Mailbox.Rejected

open Lib Sessions FreshSend

/-! ## What the consuming half does to the files -/

/-- The operations of `read`, `finalize` and `release` in the mailbox of `agent`: messages
move between its boxes, and hidden files come and go. -/
inductive BoxOp (sid agent : String) : Op → Prop
  | look {o : Op} : o.looks = true → BoxOp sid agent o
  | lock (p : MPath) : BoxOp sid agent (.lock p)
  | unlock (p : MPath) : BoxOp sid agent (.unlock p)
  | create {name : String} (x : Data) : dotted name = true →
      BoxOp sid agent (.writeNew ⟨.box sid agent .processing, name⟩ x)
  | link {name : String} (src : MPath) : dotted name = true →
      BoxOp sid agent (.link src ⟨.box sid agent .processing, name⟩)
  | drop (name : String) : BoxOp sid agent (.unlink ⟨.box sid agent .processing, name⟩)
  | move (b b' : Box) (name : String) (l : Option Lease) :
      BoxOp sid agent (.replace ⟨.box sid agent b, name⟩ ⟨.box sid agent b', name⟩ l)

/-- The role of a call that keeps to `BoxOp`. -/
def boxRole (sid agent : String) : Role Op Ans :=
  ⟨Unit, fun _ o => BoxOp sid agent o, fun _ _ _ => True, fun _ _ _ => ()⟩

variable {sid agent mid : String} {o : Op} {i : ℕ} {c : Choice} {a : Ans o} {s s' : Disk} {α : Type}
  {p : Call α} {P : Choice → Prop}

theorem boxRole_ignores {q : Unit} (h : BoxOp sid agent o) :
    (boxRole sid agent).Ignores q o := ⟨h, fun _ => rfl⟩

theorem finishOp_boxOp (h : FinishOp sid agent o) : BoxOp sid agent o := by
  cases h with
  | look h => exact .look h
  | dropClaim h => exact .drop _
  | archive h => exact .move .processing .archive _ _
  | back h => exact .move .processing .inbox _ _

theorem reader_boxOp (a : ReadArgs) :
    Reader (boxRole a.sessionId a.agentId) () (fun _ => True) a where
  look o ho := boxRole_ignores (.look ho)
  unlink name h := boxRole_ignores (.drop name)
  draft name n now _ :=
    boxRole_ignores (.create _ (dotted_of_tmpClaim (startsWith_tmpClaimName _ n)))
  create name now _ := boxRole_ignores (.create _ (dotted_of_claim (startsWith_claimName _)))
  link name n _ := boxRole_ignores (.link _ (dotted_of_claim (startsWith_claimName _)))
  quarantine name := boxRole_ignores (.move .inbox .corrupt name none)
  reap key := by
    refine (reapExpiredClaim_reapOp _ _ _).keeps fun o ho => boxRole_ignores ?_
    cases ho with
    | look h => exact .look h
    | lock p => exact .lock p
    | unlock p => exact .unlock p
    | dropClaim => exact .drop _
    | back msgId l => exact .move .processing .inbox _ _
  good _ _ _ _ := trivial
  claim name _ := ⟨.move .inbox .processing name none, fun _ => rfl⟩
  claimed name tmp _ _ := boxRole_ignores (.drop tmp)

theorem read_boxOp (fuel : ℕ) (a : ReadArgs) :
    (read fuel a).Only (BoxOp a.sessionId a.agentId) :=
  (read_keeps (reader_boxOp a) fuel).only (fun _ _ _ => trivial) fun _ _ h => h

/-- Files outside the boxes of the agent are as before, and what lies in one of the boxes
lay in one of them. -/
structure Shifted (sid agent : String) (s s' : Disk) : Prop where
  outside : ∀ p : MPath, (∀ b, p.dir ≠ .box sid agent b) → s'.files.get? p = s.files.get? p
  boxes : ∀ b name, dotted name = false →
    (s'.files.get? ⟨.box sid agent b, name⟩).isSome = true →
      ∃ b', (s.files.get? ⟨.box sid agent b', name⟩).isSome = true

theorem Shifted.refl (sid agent : String) (s : Disk) : Shifted sid agent s s :=
  ⟨fun _ _ => rfl, fun b _ _ h => ⟨b, h⟩⟩

theorem Shifted.trans {s₁ s₂ s₃ : Disk} (h : Shifted sid agent s₁ s₂)
    (h' : Shifted sid agent s₂ s₃) : Shifted sid agent s₁ s₃ where
  outside p hp := (h'.outside p hp).trans (h.outside p hp)
  boxes b name hname hf := by
    obtain ⟨b', hf'⟩ := h'.boxes b name hname hf
    exact h.boxes b' name hname hf'

theorem shifted_hidden (h : s.perform i o c = some (a, s'))
    (ho : ∀ p ∈ o.targets, ∃ b, p.dir = .box sid agent b ∧ dotted p.name = true) :
    Shifted sid agent s s' where
  outside p hp := by
    refine Disk.perform_get? h fun ht => ?_
    obtain ⟨b, hb, -⟩ := ho p ht
    exact hp b hb
  boxes b name hname hf := by
    refine ⟨b, ?_⟩
    rwa [Disk.perform_get? h fun ht => ?_] at hf
    obtain ⟨-, -, hd⟩ := ho _ ht
    rw [hname] at hd
    cases hd

theorem shifted_boxOp (ho : BoxOp sid agent o)
    (h : s.perform i o c = some (a, s')) : Shifted sid agent s s' := by
  cases ho with
  | look ho =>
    refine shifted_hidden h fun p hp => ?_
    cases o <;> simp_all [Op.looks, Op.targets]
  | lock p => exact shifted_hidden h fun q hq => by cases hq
  | unlock p => exact shifted_hidden h fun q hq => by cases hq
  | create x hname =>
    refine shifted_hidden h fun p hp => ?_
    obtain rfl := List.mem_singleton.mp hp
    exact ⟨_, rfl, hname⟩
  | link src hname =>
    refine shifted_hidden h fun p hp => ?_
    obtain rfl := List.mem_singleton.mp hp
    exact ⟨_, rfl, hname⟩
  | drop name =>
    rcases Disk.perform_unlink h with rfl | hdel
    · exact .refl _ _ _
    · refine ⟨fun p hp => ?_, fun b name' _ hf => ⟨b, ?_⟩⟩
      · rw [hdel, if_neg]
        rintro rfl
        exact hp _ rfl
      · rw [hdel] at hf
        split_ifs at hf
        · cases hf
        · exact hf
  | move b b' name l =>
    rcases Disk.perform_replace h with ⟨e, -, rfl⟩ | ⟨-, ⟨f, hf⟩, rfl⟩
    · exact .refl _ _ _
    · refine ⟨fun p hp => Files.get?_move_ne _ ?_ ?_, fun b₁ name' _ hin => ?_⟩
      · rintro rfl
        exact hp _ rfl
      · rintro rfl
        exact hp _ rfl
      · rw [Files.get?_move hf] at hin
        split_ifs at hin with hdst hsrc
        · injection hdst with _ hname
          subst hname
          exact ⟨b, by rw [hf]; rfl⟩
        · cases hin
        · exact ⟨b₁, hin⟩

theorem boxOp_ends (hp : p.Only (BoxOp sid agent)) (s : Disk) :
    p.Ends world i P s fun _ s' => Shifted sid agent s s' :=
  hp.ends (I := Shifted sid agent) (.refl sid agent) (fun _ _ _ h h' => h.trans h')
    (fun _ _ _ _ _ ho _ h => shifted_boxOp ho h) s

/-! ## What `send` does to the files -/

/-- The files of the message `mid`, and those of the cursor. -/
def Own (sid mid : String) (p : MPath) : Prop :=
  ((∃ agent, p.dir = .box sid agent .inbox) ∨ p.dir = .history sid) ∧
      (p.name = jsonName mid ∨ p.name = tmpName mid) ∨
    p.dir = .session sid ∧ (p.name = STREAM_CURSOR_FILE ∨ p.name = ".tmp-stream-cursor")

/-- The file of a cursor and its draft hold no other JSON than objects. -/
def CursorOk (s : Disk) : Prop :=
  ∀ sid name, name = STREAM_CURSOR_FILE ∨ name = ".tmp-stream-cursor" →
    ∀ j t n, s.files.get? ⟨.session sid, name⟩ = some ⟨.json j, t, n⟩ → j.isDict = true

/-- Only the files of the message and of the cursor differ. -/
structure Stores (sid mid : String) (s s' : Disk) : Prop where
  others : ∀ p, ¬ Own sid mid p → s'.files.get? p = s.files.get? p
  cursor : CursorOk s → CursorOk s'

theorem Stores.refl (sid mid : String) (s : Disk) : Stores sid mid s s := ⟨fun _ _ => rfl, id⟩

theorem Stores.trans {s₁ s₂ s₃ : Disk} (h : Stores sid mid s₁ s₂)
    (h' : Stores sid mid s₂ s₃) : Stores sid mid s₁ s₃ :=
  ⟨fun p hp => (h'.others p hp).trans (h.others p hp), fun hs => h'.cursor (h.cursor hs)⟩

theorem stores_message {sid mid : String} {i : ℕ} {o : Op} {c : Choice} {a : Ans o} {s s' : Disk}
    (h : s.perform i o c = some (a, s'))
    (ho : ∀ p ∈ o.targets, ((∃ agent, p.dir = .box sid agent .inbox) ∨ p.dir = .history sid) ∧
      (p.name = jsonName mid ∨ p.name = tmpName mid)) : Stores sid mid s s' where
  others p hp := Disk.perform_get? h fun ht => hp (.inl (ho p ht))
  cursor hs sid' name hname j t n hj := by
    rw [Disk.perform_get? h fun ht => ?_] at hj
    · exact hs sid' name hname j t n hj
    · rcases (ho _ ht).1 with ⟨agent, hd⟩ | hd <;> cases hd

theorem stores_cursor {sid mid : String} {i : ℕ} {o : Op} {c : Choice} {a : Ans o} {s s' : Disk}
    (h : s.perform i o c = some (a, s'))
    (ho : ∀ p ∈ o.targets, p.dir = .session sid ∧
      (p.name = STREAM_CURSOR_FILE ∨ p.name = ".tmp-stream-cursor"))
    (hdata : ∀ p ∈ o.targets, ∀ j t n, s'.files.get? p = some ⟨.json j, t, n⟩ → CursorOk s →
      j.isDict = true) : Stores sid mid s s' where
  others p hp := Disk.perform_get? h fun ht => hp (.inr (ho p ht))
  cursor hs sid' name hname j t n hj := by
    by_cases ht : (⟨.session sid', name⟩ : MPath) ∈ o.targets
    · exact hdata _ ht j t n hj hs
    · rw [Disk.perform_get? h ht] at hj
      exact hs sid' name hname j t n hj

theorem stores_storeOp (ho : StoreOp sid mid o)
    (h : s.perform i o c = some (a, s')) : Stores sid mid s s' := by
  cases ho with
  | look ho =>
    refine stores_message h fun p hp => ?_
    cases o <;> simp_all [Op.looks, Op.targets]
  | envelope agent x =>
    refine stores_message h fun p hp => ?_
    obtain rfl := List.mem_singleton.mp hp
    exact ⟨.inl ⟨agent, rfl⟩, .inr rfl⟩
  | publish agent =>
    refine stores_message h fun p hp => ?_
    rcases List.mem_pair.mp hp with rfl | rfl
    · exact ⟨.inl ⟨agent, rfl⟩, .inr rfl⟩
    · exact ⟨.inl ⟨agent, rfl⟩, .inl rfl⟩
  | draft x =>
    refine stores_message h fun p hp => ?_
    obtain rfl := List.mem_singleton.mp hp
    exact ⟨.inr rfl, .inr rfl⟩
  | record =>
    refine stores_message h fun p hp => ?_
    rcases List.mem_pair.mp hp with rfl | rfl
    · exact ⟨.inr rfl, .inr rfl⟩
    · exact ⟨.inr rfl, .inl rfl⟩
  | openCursor =>
    refine stores_cursor h (fun p hp => ?_) fun p hp j t n hj hs => ?_
    · obtain rfl := List.mem_singleton.mp hp
      exact ⟨rfl, .inl rfl⟩
    · obtain rfl := List.mem_singleton.mp hp
      simp only [Disk.perform] at h
      cases hf : s.files.get? ⟨.session sid, STREAM_CURSOR_FILE⟩ with
      | some f =>
        rw [hf] at h
        cases h
        exact hs sid _ (.inl rfl) j t n hj
      | none =>
        rw [hf] at h
        dsimp only at h
        split_ifs at h <;> cases h
        · obtain ⟨m, hm⟩ := Files.get?_write_self s.files ⟨.session sid, STREAM_CURSOR_FILE⟩
            .junk c.time
          rw [Disk.write, hm] at hj
          cases hj
        · rw [hf] at hj
          cases hj
  | cursorDraft hdict =>
    refine stores_cursor h (fun p hp => ?_) fun p hp j t n hj hs => ?_
    · obtain rfl := List.mem_singleton.mp hp
      exact ⟨rfl, .inr rfl⟩
    · obtain rfl := List.mem_singleton.mp hp
      rcases Disk.perform_write h with ⟨e, -, rfl⟩ | ⟨-, f, hf, hget⟩
      · exact hs sid _ (.inr rfl) j t n hj
      · rw [hget, if_pos rfl] at hj
        cases hj
        cases hf
        exact hdict
  | cursor =>
    refine stores_cursor h (fun p hp => ?_) fun p hp j t n hj hs => ?_
    · rcases List.mem_pair.mp hp with rfl | rfl
      · exact ⟨rfl, .inr rfl⟩
      · exact ⟨rfl, .inl rfl⟩
    · -- what lies at either of the two lay at one of them before
      rcases Disk.perform_replace h with ⟨e, -, rfl⟩ | ⟨-, ⟨f, hf⟩, rfl⟩
      · rcases List.mem_pair.mp hp with rfl | rfl
        · exact hs sid _ (.inr rfl) j t n hj
        · exact hs sid _ (.inl rfl) j t n hj
      · rw [Files.get?_move hf] at hj
        rcases List.mem_pair.mp hp with rfl | rfl
        · rw [if_neg (by simp [STREAM_CURSOR_FILE]), if_pos rfl] at hj
          cases hj
        · rw [if_pos rfl] at hj
          cases hj
          exact hs sid _ (.inr rfl) j t n hf

theorem storeOp_ends (hp : p.Only (StoreOp sid mid)) (s : Disk) :
    p.Ends world i P s fun _ s' => Stores sid mid s s' :=
  hp.ends (I := Stores sid mid) (.refl sid mid) (fun _ _ _ h h' => h.trans h')
    (fun _ _ _ _ _ ho _ h => stores_storeOp ho h) s

/-! ## The invariant -/

/-- The members in a session's document are well-formed identifiers. -/
def RosterOk (s : Disk) : Prop :=
  ∀ sid f, s.files.get? (sessionFile sid) = some f → ∃ doc m l n now,
    f.data = .json doc ∧ Wrote doc m l n now ∧ agentIdOk m = true ∧ ∀ y ∈ l, agentIdOk y = true

/-- What holds of the files between two calls. -/
structure Inv (s : Disk) : Prop where
  recorded : ∀ sid agent b mid, msgIdOk mid = true →
    (s.files.get? ⟨.box sid agent b, jsonName mid⟩).isSome = true →
      (s.files.get? ⟨.history sid, jsonName mid⟩).isSome = true
  drafts : ∀ sid mid, msgIdOk mid = true → s.files.get? ⟨.history sid, tmpName mid⟩ = none
  cursor : CursorOk s
  roster : RosterOk s

theorem Inv.congr (h : Inv s) (hfiles : s'.files = s.files) : Inv s' where
  recorded := by rw [hfiles]; exact h.recorded
  drafts := by rw [hfiles]; exact h.drafts
  cursor := by unfold CursorOk; rw [hfiles]; exact h.cursor
  roster := by unfold RosterOk; rw [hfiles]; exact h.roster

theorem noSession_inv : Inv noSession where
  recorded sid agent b mid _ h := by cases h
  drafts sid mid _ := rfl
  cursor sid name _ j t n h := by cases h
  roster sid f h := by cases h

/-- `read`, `finalize` and `release` keep it. -/
theorem Inv.shifted (h : Inv s) (hs : Shifted sid agent s s') : Inv s' where
  recorded sid₁ agent₁ b mid hmid hin := by
    rw [hs.outside ⟨.history sid₁, jsonName mid⟩ fun _ he => by cases he]
    by_cases hbox : sid₁ = sid ∧ agent₁ = agent
    · obtain ⟨rfl, rfl⟩ := hbox
      obtain ⟨b', hin'⟩ := hs.boxes b _ (dotted_jsonName hmid) hin
      exact h.recorded sid₁ agent₁ b' mid hmid hin'
    · refine h.recorded sid₁ agent₁ b mid hmid ?_
      rwa [hs.outside ⟨.box sid₁ agent₁ b, jsonName mid⟩ fun b' he => ?_] at hin
      cases he
      exact hbox ⟨rfl, rfl⟩
  drafts sid₁ mid hmid := (hs.outside _ fun _ he => by cases he).trans (h.drafts sid₁ mid hmid)
  cursor sid₁ name hname j t n hj := by
    rw [hs.outside _ fun _ he => by cases he] at hj
    exact h.cursor sid₁ name hname j t n hj
  roster sid₁ f hf := by
    rw [hs.outside _ fun _ he => by cases he] at hf
    exact h.roster sid₁ f hf

theorem tmpName_inj {a b : String} (h : tmpName a = tmpName b) : a = b := by
  have htext := congrArg String.toList h
  simp only [tmpName, String.toList_append] at htext
  exact String.toList_inj.mp (List.append_cancel_left (List.append_cancel_right htext))

theorem dotted_tmpName (mid : String) : dotted (tmpName mid) = true :=
  startsWith_trans (by decide) (startsWith_tmpName mid)

/-- A send keeps it if it leaves its message recorded. -/
theorem Inv.stores (h : Inv s) (hs : Stores sid mid s s') (hplain : dotted (jsonName mid) = false)
    (hrecord : msgIdOk mid = true → IsRecorded s' sid mid) : Inv s' where
  recorded sid₁ agent b mid₁ hmid hin := by
    -- a path named like another message is not one of the send
    have hname {p : MPath} (hp : p.name = jsonName mid₁) (hown : Own sid mid p) :
        mid₁ = mid ∧ ∀ d, p.dir ≠ .session d := by
      have hvisible := dotted_jsonName hmid
      rcases hown with ⟨hdir, he | he⟩ | ⟨-, he | he⟩
      · refine ⟨jsonName_inj (hp.symm.trans he), fun d hd => ?_⟩
        rcases hdir with ⟨agent, hdir⟩ | hdir <;> rw [hdir] at hd <;> cases hd
      · rw [hp.symm.trans he, dotted_tmpName] at hvisible
        cases hvisible
      · rw [hp.symm.trans he] at hvisible
        exact absurd hvisible (by decide)
      · rw [hp.symm.trans he] at hvisible
        exact absurd hvisible (by decide)
    by_cases hown : Own sid mid ⟨.box sid₁ agent b, jsonName mid₁⟩
    · obtain ⟨rfl, -⟩ := hname rfl hown
      obtain rfl : sid₁ = sid := by
        rcases hown with ⟨⟨agent', hd⟩ | hd, -⟩ | ⟨hd, -⟩ <;> cases hd
        rfl
      exact (hrecord hmid).record
    · rw [hs.others _ hown] at hin
      have hbefore := h.recorded sid₁ agent b mid₁ hmid hin
      by_cases hown' : Own sid mid ⟨.history sid₁, jsonName mid₁⟩
      · obtain ⟨rfl, -⟩ := hname rfl hown'
        obtain rfl : sid₁ = sid := by
          rcases hown' with ⟨⟨agent', hd⟩ | hd, -⟩ | ⟨hd, -⟩ <;> cases hd
          rfl
        exact (hrecord hmid).record
      · rwa [hs.others _ hown']
  drafts sid₁ mid₁ hmid := by
    by_cases hown : Own sid mid ⟨.history sid₁, tmpName mid₁⟩
    · rcases hown with ⟨hd, he | he⟩ | ⟨hd, -⟩
      · have hdot := dotted_tmpName mid₁
        rw [show tmpName mid₁ = jsonName mid from he, hplain] at hdot
        cases hdot
      · obtain rfl := tmpName_inj he
        obtain rfl : sid₁ = sid := by
          rcases hd with ⟨agent', hd⟩ | hd <;> cases hd
          rfl
        exact (hrecord hmid).draft
      · cases hd
    · exact (hs.others _ hown).trans (h.drafts sid₁ mid₁ hmid)
  cursor := hs.cursor h.cursor
  roster sid₁ f hf := by
    rw [hs.others] at hf
    · exact h.roster sid₁ f hf
    · rintro (⟨⟨agent, hd⟩ | hd, -⟩ | ⟨-, he | he⟩)
      · cases hd
      · cases hd
      · exact absurd (show "session.json" = STREAM_CURSOR_FILE from he) (by decide)
      · exact absurd (show "session.json" = ".tmp-stream-cursor" from he) (by decide)

/-- So does `session_init`. -/
theorem Inv.init {a : InitArgs} (h : Inv s) (hlocks : s.inoLocks = []) :
    (sessionInit a).Ends world i Replay.NoFault s fun _ s' => Inv s' := by
  refine (sessionInit_total (P := Replay.NoFault) hlocks).ends.mono ?_
  rintro r t (⟨hv, hsince, -, hout⟩ | ⟨-, -, rfl⟩)
  · have hother {p : MPath} (hp : ∀ d, p.dir ≠ .session d) :
        t.files.get? p = s.files.get? p :=
      hsince.files p (fun he => hp _ (congrArg Path.dir he)) (fun he => hp _ (congrArg Path.dir he))
        fun he => hp _ (congrArg Path.dir he)
    -- the document is the old one, a merge of it, or a new one
    have hroster : Same a.sessionId s t ∨ ∃ doc m l n now, Holds a.sessionId t doc ∧
        Wrote doc m l n now ∧ agentIdOk m = true ∧ ∀ y ∈ l, agentIdOk y = true := by
      have hmerged {doc : Json} (hdoc : stored a.sessionId s = some doc)
          (ht : Holds a.sessionId t (mergedOf doc a)) : ∃ doc m l n now, Holds a.sessionId t doc ∧
            Wrote doc m l n now ∧ agentIdOk m = true ∧ ∀ y ∈ l, agentIdOk y = true := by
        cases hf : s.files.get? (sessionFile a.sessionId) with
        | none =>
          rw [stored, hf] at hdoc
          cases hdoc
        | some f =>
          obtain ⟨doc', m, l, n, now, hdata, hw, hm, hl⟩ := h.roster _ f hf
          have hdoc' := stored_of_data hf hdata (ne_null_of_isDict hw.dict)
          rw [hdoc] at hdoc'
          cases hdoc'
          refine ⟨_, m, _, _, _, ht, hw.mergedOf a, hm, fun y hy => ?_⟩
          rcases List.mem_append.mp (mem_sortedSet.mp hy) with hy | hy
          · exact hl y hy
          · exact a.valid_member hv (.inr hy)
      have hcreated {now : ℕ} (ht : Holds a.sessionId t (metaOf a now)) :
          ∃ doc m l n now, Holds a.sessionId t doc ∧
            Wrote doc m l n now ∧ agentIdOk m = true ∧ ∀ y ∈ l, agentIdOk y = true :=
        ⟨_, _, _, _, _, ht, wrote_metaOf a now, a.valid_member hv (.inl rfl),
          fun y hy => a.valid_member hv (.inr (mem_sortedSet.mp hy))⟩
      cases hout with
      | failed h ht => exact .inl ht
      | malformed hdoc h ht => exact .inl ht
      | reassigned hdoc hre ht => exact .inl ht
      | blocked hdoc hre haid htaken ht => exact .inl ht
      | unchanged hdoc hre hnew ht hboxes => exact .inl ht
      | merged hdoc hre hnew ht hdirs => exact .inr (hmerged hdoc ht)
      | created hs ht hfree hdirs => exact .inr (hcreated ht)
      | interrupted hs ht haid htaken => exact .inr (hcreated ht)
    refine ⟨fun sid agent b mid hmid hin => ?_, fun sid mid hmid => ?_, ?_, fun sid f hf => ?_⟩
    · rw [hother fun _ he => by cases he] at hin ⊢
      exact h.recorded sid agent b mid hmid hin
    · exact (hother fun _ he => by cases he).trans (h.drafts sid mid hmid)
    · intro sid name hname j u n hj
      rw [hsince.files] at hj
      · exact h.cursor sid name hname j u n hj
      all_goals
        rcases hname with rfl | rfl <;> simp [lockFile, draftFile, sessionFile, STREAM_CURSOR_FILE]
    · by_cases hsid : sid = a.sessionId
      · subst hsid
        rcases hroster with hsame | ⟨doc, m, l, n, now, ⟨f', hf', hdata⟩, hw, hm, hl⟩
        · rw [hsame] at hf
          exact h.roster _ f hf
        · rw [hf'] at hf
          cases hf
          exact ⟨doc, m, l, n, now, hdata, hw, hm, hl⟩
      · rw [hsince.files] at hf
        · exact h.roster sid f hf
        all_goals
          intro he
          have hd := congrArg Path.dir he
          cases hd
          exact hsid rfl
  · exact h

/-! ## A replay -/

theorem findInInboxes_some_ends (rs : List String) :
    ∀ found, (findInInboxes sid mid rs found).Ends world i Replay.NoFault s fun r _ =>
      ∀ e, r = .ok (some e) → found = some e ∨ ∃ rid ∈ rs, Replay.InInbox s sid mid rid := by
  induction rs with
  | nil =>
    intro found
    refine Prog.ends_ret fun e he => .inl ?_
    cases he
    rfl
  | cons rid rest ih =>
    intro found
    refine Replay.agentSubdir_bind_ends (fun _ _ => Replay.fileExists_ends ?_) fun _ => nofun
    split
    · next hin =>
      simp only [Bool.and_eq_true] at hin
      exact fun _ _ _ _ _ => .inr ⟨rid, List.mem_cons_self, hin.1⟩
    · refine (ih found).mono fun r s' h e he => (h e he).imp_right ?_
      rintro ⟨rid', hrid', hin⟩
      exact ⟨rid', List.mem_cons_of_mem _ hrid', hin⟩

theorem findExisting_some_ends (rs : List String) :
    (findExisting sid mid rs).Ends world i Replay.NoFault s fun r s' => s' = s ∧
      (r = .ok none → Free s sid mid rs) ∧
      ∀ e, r = .ok (some e) → (∃ rid ∈ rs, Replay.InInbox s sid mid rid) ∨
        (s.files.get? ⟨.history sid, jsonName mid⟩).isSome = true := by
  refine ((Replay.findExisting_ends rs).and (R := fun r _ => ∀ e, r = .ok (some e) →
    (∃ rid ∈ rs, Replay.InInbox s sid mid rid) ∨
      (s.files.get? ⟨.history sid, jsonName mid⟩).isSome = true) ?_).mono ?_
  · refine ((Replay.findInInboxes_ends sid mid rs none).and
      (findInInboxes_some_ends rs none)).bind ?_ fun e s₁ _ x hx => by cases hx
    rintro found s₁ ⟨rfl, hfound⟩
    cases found with
    | some e =>
      refine Prog.ends_ret fun _ _ => .inl ?_
      rcases hfound e rfl with h | h
      · cases h
      · exact h
    | none =>
      refine Replay.fileExists_ends ?_
      split
      · next hrec => exact fun _ _ _ _ _ => .inr hrec
      · exact Prog.ends_ret fun x hx => by cases hx
  · rintro r s' ⟨⟨rfl, hnone⟩, hsome⟩
    refine ⟨rfl, fun hr => ⟨fun rid hrid hin => hnone (.inl ⟨rid, hrid, hin⟩) hr, ?_⟩, hsome⟩
    cases hf : s'.files.get? ⟨.history sid, jsonName mid⟩ with
    | none => rfl
    | some f => exact absurd hr (hnone (.inr (by rw [hf]; rfl)))

theorem replay_inv_ends {i : ℕ} {s : Disk} {a : SendArgs} {mid : String} {rs : List String}
    {refs : List AttachmentRef} {existing : Json} (h : Inv s) (hmid : msgIdOk mid = true)
    (hready : ∀ rid ∈ rs, Replay.Ready s a.sessionId rid)
    (hfound : (∃ rid ∈ rs, Replay.InInbox s a.sessionId mid rid) ∨
      (s.files.get? ⟨.history a.sessionId, jsonName mid⟩).isSome = true) :
    (replay a mid rs refs existing).Ends world i Replay.NoFault s fun r s' =>
      Inv s' ∧ ∀ e, r = .error e → s' = s := by
  have hrec : (s.files.get? ⟨.history a.sessionId, jsonName mid⟩).isSome = true := by
    rcases hfound with ⟨rid, -, hin⟩ | hrec
    · exact h.recorded a.sessionId rid .inbox mid hmid hin
    · exact hrec
  refine Replay.require_bind_ends (fun _ => Replay.require_bind_ends (fun _ => ?_)
    ⟨h, fun _ _ => rfl⟩) ⟨h, fun _ _ => rfl⟩
  refine ((storeOp_ends (backfill_storeOp a.sessionId mid existing rs) s).and
    (Replay.backfill_ends a.sessionId mid existing rs s hready)).bind ?_ ?_
  · rintro n s₁ ⟨hstores, -, -, -, -, hhist⟩
    have hrecorded : IsRecorded s₁ a.sessionId mid := by
      refine ⟨?_, (hhist _ rfl).trans (h.drafts a.sessionId mid hmid)⟩
      rw [hhist _ rfl]
      exact hrec
    have hinv := h.stores hstores (dotted_jsonName hmid) fun _ => hrecorded
    refine (Replay.backfillHistory_ends a.sessionId mid existing s₁).bind ?_ ?_
    · rintro _ s₂ ⟨-, hsame⟩
      obtain ⟨rfl, -⟩ := hsame hrecorded.record
      exact Prog.ends_ret ⟨hinv, nofun⟩
    · rintro e s₂ ⟨-, hsame⟩
      obtain ⟨-, he⟩ := hsame hrecorded.record
      cases he
  · rintro e s₁ ⟨-, ⟨n, he⟩, -⟩
    cases he

/-! ## A send -/

theorem sendNew_storeOp (a : SendArgs) (mid : String) (rs : List String)
    (refs : List AttachmentRef) : (sendNew a mid rs refs).Only (StoreOp a.sessionId mid) := by
  have hφ : ∀ o : Op, o.looks = true → StoreOp a.sessionId mid o := fun _ h => .look h
  refine (look_only hφ rfl).bind fun now => ?_
  -- `refine` would evaluate the check of the message
  apply Prog.Only.bind (requireValid_only _ _)
  intro _
  exact (publish_storeOp _ _ _ _).bind fun _ => (advanceCursor_storeOp _ _).bind fun c =>
    (publish_storeOp _ _ _ _).bind fun _ =>
      (appendHistory_storeOp _ (textOf_stamped a mid _ c refs)).bind fun _ => by simp

/-- The store would accept the message but for the identifier it generates itself. -/
structure Doomed (s : Disk) (a : SendArgs) : Prop where
  msgId : a.msgId = none
  newline : endsInNewline a.fromId = true
  accepted : ∃ roster, NewMessage.Ready s a roster ∧ ∃ c, Clean c ∧
    NewMessage.accepts a (generatedId a.fromId c) = true ∧
    Free s a.sessionId (generatedId a.fromId c) (recipientsOf a roster)

theorem sendNew_inv_ends {a : SendArgs} {roster : List String} (h : Inv s)
    (hlocks : s.inoLocks = []) (hready : NewMessage.Ready s a roster)
    (hplain : dotted (jsonName mid) = false)
    (hrec : s.files.get? ⟨.history a.sessionId, jsonName mid⟩ = none) :
    (sendNew a mid (recipientsOf a roster) (NewMessage.refsOf a)).Ends world i Replay.NoFault s
      fun r s' => Inv s' ∧ ∀ e, r = .error e → s' = s ∨ msgIdOk mid = false ∧
        validateMessage (NewMessage.untimed a mid) (some a.sessionId) none none = .ok () := by
  by_cases hvalid : validateMessage (NewMessage.untimed a mid) (some a.sessionId) none none = .ok ()
  · refine ((storeOp_ends (sendNew_storeOp a mid (recipientsOf a roster) (NewMessage.refsOf a)) s).and
      (sendNew_total hready hlocks hvalid fun hmid =>
        ⟨hrec, h.drafts a.sessionId mid hmid⟩).ends).mono ?_
    rintro r s' ⟨hstores, hok, -⟩
    refine ⟨h.stores hstores hplain fun hmid => (hok hmid).2, fun e he => .inr ⟨?_, hvalid⟩⟩
    by_contra hmid
    obtain ⟨⟨text, hr⟩, -⟩ := hok (eq_true_of_ne_false hmid)
    rw [he] at hr
    cases hr
  · refine (sendNew_invalid_ends hvalid).mono ?_
    rintro r s' rfl
    exact ⟨h, fun _ _ => .inl rfl⟩

theorem dotted_idOf {sender : String} (h : dotted sender = false) (stamp suffix : String) :
    dotted (jsonName (idOf sender stamp suffix)) = false := by
  have htail (x : String) : dotted ("_" ++ x) = false := by
    simp [dotted, startsWith, String.toList_append, List.isPrefixOf]
  rw [jsonName, idOf, String.append_assoc, String.append_assoc, String.append_assoc,
    String.append_assoc]
  exact Readable.dotted_append h (htail _)

theorem dotted_generatedId {sender : String} (h : dotted sender = false) (c : Choice) :
    dotted (jsonName (generatedId sender c)) = false := dotted_idOf h _ _

theorem Inv.sender {a : SendArgs} {roster : List String} (h : Inv s)
    (hready : NewMessage.Ready s a roster) : agentIdOk a.fromId = true := by
  obtain ⟨info, t, n, hf, -, hroster⟩ := hready.info
  obtain ⟨doc, m, l, k, now, hdata, hw, hm, hl⟩ := h.roster a.sessionId _ hf
  cases hdata
  have hmem := hready.sender
  rw [← hroster, hw.rosterOf] at hmem
  rcases List.mem_cons.mp hmem with he | hmem
  · rw [he]
    exact hm
  · exact hl _ hmem

/-- **One send.**  It keeps the invariant, and if it raises it has changed nothing or was
doomed. -/
theorem send_inv_ends (h : Inv s) (hlocks : s.inoLocks = []) (fuel : ℕ)
    (a : SendArgs) : (send fuel a).Ends world i Clean s fun r s' =>
      Inv s' ∧ ∀ e, r = .error e → s' = s ∨ Doomed s a := by
  refine ((checkSend_passed_ends a (h.cursor a.sessionId _ (.inl rfl))).choices
    fun _ hc => hc.noFault).bind ?_ ?_
  · rintro ⟨rs, refs⟩ s₁ ⟨rfl, hpassed⟩
    obtain ⟨roster, hready, hpre, hx⟩ := hpassed _ rfl
    obtain ⟨rfl, rfl⟩ := Prod.mk.inj hx
    dsimp only
    cases hmsg : a.msgId with
    | some mid =>
      refine Replay.require_bind_ends (fun hmid => ?_) ⟨h, fun _ _ => .inl rfl⟩
      refine ((findExisting_some_ends (recipientsOf a roster)).choices
        fun _ hc => hc.noFault).bind ?_ ?_
      · rintro existing s₂ ⟨rfl, hfree, hfound⟩
        cases existing with
        | some existing =>
          refine ((replay_inv_ends h hmid hready.boxes (hfound _ rfl)).choices
            fun _ hc => hc.noFault).mono ?_
          rintro r s' ⟨hinv, herr⟩
          exact ⟨hinv, fun e he => .inl (herr e he)⟩
        | none =>
          refine ((sendNew_inv_ends h hlocks hready (dotted_jsonName hmid) (hfree rfl).record).choices
            fun _ hc => hc.noFault).mono ?_
          rintro r s' ⟨hinv, herr⟩
          refine ⟨hinv, fun e he => .inl ?_⟩
          rcases herr e he with hsame | ⟨hno, -⟩
          · exact hsame
          · rw [hmid] at hno
            cases hno
      · rintro e s₂ ⟨rfl, -⟩
        exact ⟨h, fun _ _ => .inl rfl⟩
    | none =>
      have hsender := h.sender hready
      refine (freshMsgId_ends a (recipientsOf a roster) fuel).bind ?_ ?_
      · rintro mid s₂ ⟨rfl, hfresh⟩
        obtain ⟨c, hc, rfl, hfree⟩ := hfresh mid rfl
        refine ((sendNew_inv_ends h hlocks hready
          (dotted_generatedId (Readable.dotted_of_agentIdOk hsender) c) hfree.record).choices fun _ hc => hc.noFault).mono ?_
        rintro r s' ⟨hinv, herr⟩
        refine ⟨hinv, fun e he => (herr e he).imp_right ?_⟩
        rintro ⟨hbad, hvalid⟩
        rw [msgIdOk_generatedId hsender hc, Bool.not_eq_false'] at hbad
        refine ⟨hmsg, hbad, roster, hready, c, hc, ?_, hfree⟩
        rw [NewMessage.accepts, hpre, decide_eq_true hvalid]
        rfl
      · rintro e s₂ ⟨rfl, -⟩
        exact ⟨h, fun _ _ => .inl rfl⟩
  · rintro e s₁ ⟨rfl, -⟩
    exact ⟨h, fun _ _ => .inl rfl⟩

theorem Doomed.raises {a : SendArgs} (h : Inv s) (hlocks : s.inoLocks = []) (hd : Doomed s a)
    (i : ℕ) : ∃ why s', (send 1 a).Runs world i Clean s (.error (.value why)) s' ∧
      Advanced a.sessionId s s' := by
  obtain ⟨roster, hready, c, hc, hacc, hfree⟩ := hd.accepted
  have hbad : msgIdOk (generatedId a.fromId c) = false := by
    rw [msgIdOk_generatedId (h.sender hready) hc, hd.newline]
    rfl
  rw [NewMessage.accepts, Bool.and_eq_true, decide_eq_true_eq] at hacc
  have htotal : (send 1 a).Total world i (fun c' => c' = c) Anywhere s fun r s' =>
      (∃ why, r = .error (.value why)) ∧ Advanced a.sessionId s s' := by
    refine ((checkSend_ready_total hready hacc.1).choices ?_).bind ?_ ?_
    · rintro _ rfl
      exact hc.noFault
    · rintro ⟨rs, refs⟩ s₁ - ⟨hx, rfl⟩
      cases hx
      dsimp only
      rw [hd.msgId]
      refine (freshMsgId_total hready.boxes hfree).bind ?_ ?_
      · rintro mid s₂ - ⟨hmid, rfl⟩
        cases hmid
        refine ((sendNew_total hready hlocks hacc.2 fun hok => ?_).choices ?_).mono (fun _ h => h) ?_
        · rw [hbad] at hok
          cases hok
        · rintro _ rfl
          exact hc.noFault
        · rintro r s' - ⟨-, hfails⟩
          exact hfails hbad
      · rintro e s₂ - ⟨he, -⟩
        cases he
    · rintro e s₁ - ⟨he, -⟩
      cases he
  obtain ⟨r, s', hrun⟩ := htotal.runs rfl
  obtain ⟨⟨why, rfl⟩, hadv⟩ := htotal.ends r s' hrun
  refine ⟨why, s', hrun.mono ?_, hadv⟩
  rintro _ rfl
  exact hc

/-! ## Runs -/

/-- The states that calls leave behind, one after the other. Each call is a process of its
own, whose locks the kernel drops when it ends. -/
inductive Reached : Disk → Prop
  | start : Reached noSession
  | init {s s' : Disk} {a : InitArgs} {i : ℕ} {r : Except PyErr String} (h : Reached s)
      (hr : (sessionInit a).Runs world i Clean s r s') : Reached (world.crash i s')
  | send {s s' : Disk} {a : SendArgs} {fuel i : ℕ} {r : Except PyErr String} (h : Reached s)
      (hr : (Mailbox.send fuel a).Runs world i Clean s r s') : Reached (world.crash i s')
  | read {s s' : Disk} {a : ReadArgs} {fuel i : ℕ} {r : Except PyErr (Option Json)} (h : Reached s)
      (hr : (Mailbox.read fuel a).Runs world i Clean s r s') : Reached (world.crash i s')
  | finalize {s s' : Disk} {sid agent mid owner : String} {i : ℕ} {r : Except PyErr String}
      (h : Reached s) (hr : (Mailbox.finalize sid agent mid owner).Runs world i Clean s r s') :
      Reached (world.crash i s')
  | release {s s' : Disk} {sid agent mid owner : String} {i : ℕ} {r : Except PyErr String}
      (h : Reached s) (hr : (Mailbox.release sid agent mid owner).Runs world i Clean s r s') :
      Reached (world.crash i s')

theorem locksOf_runs {r : Except PyErr α} (hr : p.Runs world i P s r s')
    (h : Recovery.LocksOf i s) :
    Recovery.LocksOf i s' := by
  induction hr with
  | ret => exact h
  | raise => exact h
  | @call o k c s s₁ s₂ a r _ hw _ ih =>
    refine ih ?_
    cases hflock : o.flocking with
    | false =>
      intro e he
      rw [Disk.perform_inoLocks hw hflock] at he
      exact h e he
    | true =>
      cases o with
      | flock n =>
        simp only [world, Disk.perform] at hw
        split_ifs at hw
        cases hw
        intro e he
        rcases List.mem_cons.mp he with rfl | he
        · rfl
        · exact h e he
      | funlock n =>
        cases hw
        exact fun e he => h e (List.mem_of_mem_filter he)
      | _ => cases hflock

theorem crash_locks {r : Except PyErr α} (hr : p.Runs world i P s r s') (h : s.inoLocks = []) :
    (world.crash i s').inoLocks = [] := by
  have hown : Recovery.LocksOf i s' := by
    refine locksOf_runs hr fun e he => ?_
    rw [h] at he
    cases he
  refine List.filter_eq_nil_iff.mpr fun e he => ?_
  simp [hown e he]

theorem Reached.inv (h : Reached s) : Inv s ∧ s.inoLocks = [] := by
  have hbox {α : Type} {sid agent : String} {p : Call α} (hp : p.Only (BoxOp sid agent)) {i : ℕ}
      {s s' : Disk} {r : Except PyErr α} (hr : p.Runs world i Clean s r s')
      (h : Inv s ∧ s.inoLocks = []) : Inv (world.crash i s') ∧ (world.crash i s').inoLocks = [] :=
    ⟨(h.1.shifted (boxOp_ends hp s r s' hr)).congr rfl, crash_locks hr h.2⟩
  induction h with
  | start => exact ⟨noSession_inv, rfl⟩
  | init _ hr ih =>
    have hinit := ih.1.init ih.2 _ _ (hr.mono fun _ hc => hc.noFault)
    exact ⟨hinit.congr rfl, crash_locks hr ih.2⟩
  | send _ hr ih => exact ⟨(send_inv_ends ih.1 ih.2 _ _ _ _ hr).1.congr rfl, crash_locks hr ih.2⟩
  | read _ hr ih => exact hbox (read_boxOp _ _) hr ih
  | finalize _ hr ih =>
    exact hbox ((finalize_finishOp _ _ _ _).mono fun _ h => finishOp_boxOp h) hr ih
  | release _ hr ih =>
    exact hbox ((release_finishOp _ _ _ _).mono fun _ h => finishOp_boxOp h) hr ih

/-! ## A refused send -/

/-- A `ValueError`; a decoding error is one too. -/
def isValueError : PyErr → Bool
  | .value _ | .json => true
  | _ => false

/-- The committed messages of every inbox, the history records and the stream cursors hold
what they held. -/
structure Unchanged (s s' : Disk) : Prop where
  inboxes : ∀ sid agent name, isMessageName name = true →
    contents s' ⟨.box sid agent .inbox, name⟩ = contents s ⟨.box sid agent .inbox, name⟩
  history : ∀ sid name, contents s' ⟨.history sid, name⟩ = contents s ⟨.history sid, name⟩
  cursor : ∀ sid, contents s' ⟨.session sid, STREAM_CURSOR_FILE⟩ =
    contents s ⟨.session sid, STREAM_CURSOR_FILE⟩

/-- **When a refused send changes nothing.**  On every state that calls leave behind, a send
that raises a `ValueError` leaves the messages, the history and the cursor as they are
exactly if it is not doomed. -/
theorem refused_unchanged_iff (s : Disk) (hs : Reached s) (a : SendArgs) :
    (∀ i fuel e s', (send fuel a).Runs world i Clean s (.error e) s' → isValueError e = true →
      Unchanged s s') ↔ ¬ Doomed s a := by
  obtain ⟨hinv, hlocks⟩ := hs.inv
  constructor
  · intro h hd
    obtain ⟨why, s', hr, j, hnow, hbefore⟩ := hd.raises hinv hlocks 0
    refine hbefore ?_
    rw [← (h 0 1 _ s' hr rfl).cursor a.sessionId]
    exact hnow
  · intro hd i fuel e s' hr _
    rcases (send_inv_ends hinv hlocks fuel a _ _ hr).2 e rfl with rfl | hdoomed
    · exact ⟨fun _ _ _ _ => rfl, fun _ _ => rfl, fun _ => rfl⟩
    · exact absurd hdoomed hd

/-- A session whose manager's name ends in a newline. -/
def newlineManager : InitArgs := ⟨"s", "m\n", ["b"], none, none, none⟩

def letters : Choice := { text := "abcdef" }

theorem letters_clean : Clean letters := ⟨rfl, by decide, by decide⟩

theorem newlineManager_runs :
    (Prog.exec world 0 letters 60 (sessionInit newlineManager) noSession).isSome = true := by
  decide +kernel

/-- The disk with the session. -/
def opened : Disk :=
  world.crash 0 ((Prog.exec world 0 letters 60 (sessionInit newlineManager) noSession).get
    newlineManager_runs).2

theorem opened_reached : Reached opened := by
  refine .init .start ((Prog.runs_exec newlineManager_runs).mono ?_)
  rintro _ rfl
  exact letters_clean

/-- A send of the manager. -/
def fromManager (kind : String) (mid : Option String) : SendArgs :=
  { notice with fromId := "m\n", kind := kind, msgId := mid }

/-- What the run alone of a send from that disk leaves, if it raises a `ValueError`. -/
def refusal (a : SendArgs) : Option Disk :=
  match Prog.exec world 0 letters 80 (send 1 a) opened with
  | some (.error (.value _), s') => some s'
  | _ => none

theorem refusal_runs {a : SendArgs} (h : refusal a = some s') :
    ∃ e, (send 1 a).Runs world 0 Clean opened (.error e) s' ∧ isValueError e = true := by
  unfold refusal at h
  split at h
  · next why t ht =>
    cases h
    refine ⟨.value why, (Prog.runs_of_exec (P := fun c => c = letters) rfl ht).mono ?_, rfl⟩
    rintro _ rfl
    exact letters_clean
  · cases h

theorem refused_unchanged_unknown_kind : ∃ e s',
    (send 1 (fromManager "GOSSIP" (some "n"))).Runs world 0 Clean opened (.error e) s' ∧
      isValueError e = true ∧ Unchanged opened s' := by
  have hrefused : (refusal (fromManager "GOSSIP" (some "n"))).isSome = true := by decide +kernel
  obtain ⟨s', hs'⟩ := Option.isSome_iff_exists.mp hrefused
  obtain ⟨e, hr, he⟩ := refusal_runs hs'
  refine ⟨e, s', hr, he, ?_⟩
  have hnot : ¬ Doomed opened (fromManager "GOSSIP" (some "n")) := by
    intro h
    cases h.msgId
  exact (refused_unchanged_iff opened opened_reached _).mpr hnot 0 1 e s' hr he

/-- The manager's send without an identifier raises, and has moved the cursor. -/
theorem refused_after_writing : ¬ ∀ (s : Disk) (a : SendArgs) (i fuel : ℕ) (e : PyErr) (s' : Disk),
    Reached s → (send fuel a).Runs world i Clean s (.error e) s' → isValueError e = true →
      Unchanged s s' := by
  intro h
  have hafter : ((refusal (fromManager "NOTICE" none)).any fun s' =>
      (contents s' ⟨.session "s", STREAM_CURSOR_FILE⟩).isSome) = true := by
    decide +kernel
  have hbefore : contents opened ⟨.session "s", STREAM_CURSOR_FILE⟩ = none := by
    decide +kernel
  cases hs' : refusal (fromManager "NOTICE" none) with
  | none =>
    rw [hs'] at hafter
    cases hafter
  | some s' =>
    rw [hs', Option.any_some] at hafter
    obtain ⟨e, hr, he⟩ := refusal_runs hs'
    rw [(h opened _ 0 1 e s' opened_reached hr he).cursor "s", hbefore] at hafter
    cases hafter

end AiMeshChat.Mailbox.Rejected
