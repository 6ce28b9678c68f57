import AiMeshChat.Mailbox.Watched

/-!
# What the disk holds while calls run

The invariant of any number of calls, with `session_init` among them (`Good`): a session's
roster only grows, and every message in an inbox or in `processing` can be read by its
recipient, whose roster has the sender. The rosters grow because `session.json` is
written only under the lock of the session, on top of what was read there.

`opKeeps` goes through the operations that a call is allowed. Most of them touch none
of the files that the lock is about (`Central`); for these only the one file that is
written or moved has to be looked at.
-/

namespace AiMeshChat.Mailbox.Readable

open Lib Sessions

/-! ## The invariant -/

/-- `y` is in the roster of the session. -/
def InRoster (s : Disk) (sid y : String) : Prop := ∃ doc, stored sid s = some doc ∧ y ∈ rosterOf doc

/-- The lock file of the session has the inode `fd`. -/
def LockIs (s : Disk) (sid : String) (fd : ℕ) : Prop :=
  ∃ f, s.files.get? (lockFile sid) = some f ∧ f.ino = fd

/-- The lock of the session is held by the call `i`. -/
structure Held (s : Disk) (i : ℕ) (sid : String) (fd : ℕ) : Prop where
  file : LockIs s sid fd
  lock : (fd, i) ∈ s.inoLocks

/-- What is on the disk while the call `i` is in a phase. -/
def Placed (s : Disk) (i : ℕ) : Phase → Prop
  | .idle => True
  | .opened sid fd => LockIs s sid fd
  | .holding sid fd => Held s i sid fd
  | .seen sid fd doc => Held s i sid fd ∧ stored sid s = doc
  | .drafted sid fd doc new => Held s i sid fd ∧ stored sid s = doc ∧ Grows doc new ∧
      ∃ f, s.files.get? (draftFile sid) = some f ∧ f.data = .json new

/-- What `session.json` may hold. -/
structure Kept (x : Data) (doc : Json) : Prop where
  data : x = .json doc
  dict : doc.isDict = true
  truthy : doc.truthy = true
  plain : Plain doc

/-- The invariant: of the locks, of the sessions, of what the calls know and of the files. -/
structure Good (S : SendArgs → Prop) (s : Disk) (q : ℕ → Watch) : Prop where
  alone : ∀ n i j, (n, i) ∈ s.inoLocks → (n, j) ∈ s.inoLocks → i = j
  sessions : ∀ sid f, s.files.get? (sessionFile sid) = some f → ∃ doc, Kept f.data doc
  known : ∀ i sid y, (sid, y) ∈ (q i).known → InRoster s sid y
  sound : ∀ p f, s.files.get? p = some f → Sound S (InRoster s) p f.data
  placed : ∀ i, Placed s i (q i).phase

variable {S : SendArgs → Prop} {s s' : Disk} {q : ℕ → Watch} {i : ℕ}

/-- `session.json` is there and holds a document, or it is not there. -/
theorem Good.session_cases (h : Good S s q) (sid : String) :
    (s.files.get? (sessionFile sid) = none ∧ stored sid s = none) ∨
      ∃ f doc, s.files.get? (sessionFile sid) = some f ∧ Kept f.data doc ∧
        stored sid s = some doc := by
  cases hf : s.files.get? (sessionFile sid) with
  | none => exact .inl ⟨rfl, by rw [stored, hf]⟩
  | some f =>
    obtain ⟨doc, hdoc⟩ := h.sessions sid f hf
    have hnull : doc ≠ .null := by
      rintro rfl
      cases hdoc.truthy
    exact .inr ⟨f, doc, rfl, hdoc, stored_of_data hf hdoc.data hnull⟩

theorem sessionFile_ne_draftFile (sid sid' : String) : sessionFile sid ≠ draftFile sid' := by
  simp [sessionFile, draftFile]

theorem lockFile_ne_draftFile (sid sid' : String) : lockFile sid ≠ draftFile sid' := by
  simp [lockFile, draftFile]

theorem lockFile_ne_sessionFile (sid sid' : String) : lockFile sid ≠ sessionFile sid' := by
  simp [lockFile, sessionFile]

/-! ### Steps that leave the sessions alone -/

/-- The files of a session that its lock is about. -/
def Central (p : MPath) : Prop := ∃ sid, p = sessionFile sid ∨ p = lockFile sid ∨ p = draftFile sid

/-- Nobody moves a lock file, and whoever holds the lock of a session finds its files as
they were. -/
theorem Placed.step {ph : Phase} (h : Placed s i ph)
    (hfile : ∀ sid f, s.files.get? (lockFile sid) = some f → s'.files.get? (lockFile sid) = some f)
    (hlock : ∀ n, (n, i) ∈ s.inoLocks → (n, i) ∈ s'.inoLocks)
    (hrest : ∀ sid fd, Held s i sid fd → stored sid s' = stored sid s ∧
      s'.files.get? (draftFile sid) = s.files.get? (draftFile sid)) : Placed s' i ph := by
  have hopen {sid : String} {fd : ℕ} (hl : LockIs s sid fd) : LockIs s' sid fd := by
    obtain ⟨f, hf, hino⟩ := hl
    exact ⟨f, hfile sid f hf, hino⟩
  have hheld {sid : String} {fd : ℕ} (hl : Held s i sid fd) : Held s' i sid fd :=
    ⟨hopen hl.file, hlock fd hl.lock⟩
  cases ph with
  | idle => trivial
  | opened sid fd => exact hopen h
  | holding sid fd => exact hheld h
  | seen sid fd doc => exact ⟨hheld h.1, (hrest sid fd h.1).1.trans h.2⟩
  | drafted sid fd doc new =>
    obtain ⟨hl, hdoc, hgrows, f, hf, hdata⟩ := h
    obtain ⟨hstored, hdraft⟩ := hrest sid fd hl
    exact ⟨hheld hl, hstored.trans hdoc, hgrows, f, hdraft.trans hf, hdata⟩

/-- The sessions and the locks are as they were. -/
structure Apart (s s' : Disk) : Prop where
  session : ∀ sid, s'.files.get? (sessionFile sid) = s.files.get? (sessionFile sid)
  draft : ∀ sid, s'.files.get? (draftFile sid) = s.files.get? (draftFile sid)
  lockFile : ∀ sid f, s.files.get? (lockFile sid) = some f → s'.files.get? (lockFile sid) = some f
  locks : s'.inoLocks = s.inoLocks

theorem Apart.stored (h : Apart s s') (sid : String) : stored sid s' = stored sid s :=
  stored_congr (h.session sid)

theorem Apart.inRoster (h : Apart s s') {sid y : String} :
    InRoster s' sid y ↔ InRoster s sid y := by
  rw [InRoster, InRoster, h.stored]

theorem Good.apart (h : Good S s q) (hs : Apart s s')
    (hsound : ∀ p f, s'.files.get? p = some f → Sound S (InRoster s) p f.data) : Good S s' q where
  alone := by rw [hs.locks]; exact h.alone
  sessions sid f hf := h.sessions sid f ((hs.session sid).symm.trans hf)
  known i sid y hy := hs.inRoster.mpr (h.known i sid y hy)
  sound p f hf := (hsound p f hf).mono fun _ _ => hs.inRoster.mpr
  placed i := (h.placed i).step hs.lockFile (fun n hn => by rw [hs.locks]; exact hn)
    fun sid _ _ => ⟨hs.stored sid, hs.draft sid⟩

theorem Good.update (h : Good S s q) {w : Watch} (hknown : ∀ sid y, (sid, y) ∈ w.known →
    InRoster s sid y) (hplaced : Placed s i w.phase) : Good S s (Function.update q i w) where
  alone := h.alone
  sessions := h.sessions
  known j sid y hy := by
    by_cases hj : j = i
    · subst hj
      rw [Function.update_self] at hy
      exact hknown sid y hy
    · rw [Function.update_of_ne hj] at hy
      exact h.known j sid y hy
  sound := h.sound
  placed j := by
    by_cases hj : j = i
    · subst hj
      rw [Function.update_self]
      exact hplaced
    · rw [Function.update_of_ne hj]
      exact h.placed j

theorem known_next_eq (w : Watch) {o : Op} (ho : ∀ p, o ≠ .read p) (a : Ans o) :
    (w.next o a).known = w.known := by
  cases o with
  | read p => exact absurd rfl (ho p)
  | fileExists p => cases a <;> rfl
  | openFd p => cases a <;> rfl
  | write p y => cases a <;> rfl
  | replace src dst l => cases a <;> rfl
  | _ => rfl

theorem Good.next (h : Good S s q) {o : Op} {a : Ans o} (ho : ∀ p, o ≠ .read p)
    (hplaced : Placed s i ((q i).next o a).phase) :
    Good S s (Function.update q i ((q i).next o a)) :=
  h.update (fun sid y hy => h.known i sid y (by rwa [known_next_eq _ ho] at hy)) hplaced

theorem Good.idle (h : Good S s q) (hq : (q i).phase = .idle) {o : Op} {a : Ans o}
    (ho : ∀ p, o ≠ .read p) (hopen : ∀ sid, o ≠ .openFd (lockFile sid)) :
    Good S s (Function.update q i ((q i).next o a)) :=
  h.next ho (by rw [(later_next hq hopen a).1]; trivial)

theorem Good.still (h : Good S s q) {w : Watch} (hw : w = q i) :
    Good S s (Function.update q i w) := by
  rw [hw, Function.update_eq_self]
  exact h

/-! ### What files are sound -/

section Sound

variable {ρ : String → String → Prop} {x : Data}

theorem sound_elsewhere {p : MPath} (hbox : ∀ sid agent, p.dir ≠ .box sid agent .inbox ∧
    p.dir ≠ .box sid agent .processing) (hhist : ∀ sid, p.dir ≠ .history sid) : Sound S ρ p x where
  message sid agent mid b _ hb hp := by
    subst hp
    rcases hb with rfl | rfl
    · exact absurd rfl (hbox sid agent).1
    · exact absurd rfl (hbox sid agent).2
  draft sid agent mid _ hp := by subst hp; exact absurd rfl (hbox sid agent).1
  record sid mid _ hp := by rcases hp with rfl | rfl <;> exact absurd rfl (hhist sid)
  plain sid agent name _ hp := by subst hp; exact absurd rfl (hbox sid agent).1
  claim sid agent name _ hp := by subst hp; exact absurd rfl (hbox sid agent).2

theorem sound_session (sid name : String) : Sound S ρ ⟨.session sid, name⟩ x :=
  sound_elsewhere (fun _ _ => ⟨Dir.noConfusion, Dir.noConfusion⟩) fun _ => Dir.noConfusion

variable {name sid agent mid : String} {j : Json}

theorem dotted_of_claimLike (h : claimLike name = true) : dotted name = true := by
  rcases Bool.or_eq_true_iff.mp h with h | h
  · exact dotted_of_claim h
  · exact dotted_of_tmpClaim h

theorem dotted_tmpName (mid : String) : dotted (tmpName mid) = true :=
  startsWith_trans (by decide) (startsWith_tmpName mid)

theorem tmpName_inj {a b : String} (h : tmpName a = tmpName b) : a = b := by
  have := congrArg (between ".tmp-" ".json") h
  rwa [tmpName, tmpName, between_append, between_append] at this

theorem ne_of_dotted {a b : String} (ha : dotted a = true) (hb : dotted b = false) : a ≠ b := by
  rintro rfl
  rw [ha] at hb
  cases hb

theorem path_inj {d d' : Dir} {name' : String}
    (h : (⟨d, name⟩ : MPath) = ⟨d', name'⟩) : d = d' ∧ name = name' :=
  ⟨congrArg Path.dir h, congrArg Path.name h⟩

theorem box_inj {sid' agent' : String} {b b' : Box}
    (h : Dir.box sid agent b = .box sid' agent' b') : sid = sid' ∧ agent = agent' ∧ b = b' := by
  injection h with h₁ h₂ h₃
  exact ⟨h₁, h₂, h₃⟩

theorem sound_claim {key : String} (h : claimLike name = true)
    (hj : IsClaim key j) : Sound S ρ ⟨.box sid agent .processing, name⟩ (.json j) where
  message sid' agent' mid b hm _ hp :=
    absurd (path_inj hp).2 (ne_of_dotted (dotted_of_claimLike h) (dotted_jsonName hm))
  draft sid' agent' mid _ hp := absurd (box_inj (path_inj hp).1).2.2 (by decide)
  record sid' mid _ hp := by
    rcases hp with hp | hp <;> exact absurd (path_inj hp).1 Dir.noConfusion
  plain sid' agent' name' _ hp := absurd (box_inj (path_inj hp).1).2.2 (by decide)
  claim _ _ _ _ _ := ⟨key, j, rfl, hj⟩

theorem sound_envelope (h : msgIdOk mid = true → Fit S sid agent mid j ∧ ρ sid (sender j)) :
    Sound S ρ ⟨.box sid agent .inbox, tmpName mid⟩ (.json j) where
  message sid' agent' mid' b hm _ hp :=
    absurd (path_inj hp).2 (ne_of_dotted (dotted_tmpName mid) (dotted_jsonName hm))
  draft sid' agent' mid' hm hp := by
    obtain ⟨hdir, hname⟩ := path_inj hp
    obtain ⟨rfl, rfl, -⟩ := box_inj hdir
    obtain rfl := tmpName_inj hname
    obtain ⟨hfit, hs⟩ := h hm
    exact ⟨j, rfl, hfit, hs⟩
  record sid' mid' _ hp := by
    rcases hp with hp | hp <;> exact absurd (path_inj hp).1 Dir.noConfusion
  plain sid' agent' name hname hp := by
    have hno : isMessageName (tmpName mid) = false := by
      simp [isMessageName, startsWith_tmpName]
    rw [← (path_inj hp).2, hno] at hname
    cases hname
  claim sid' agent' name _ hp := absurd (box_inj (path_inj hp).1).2.2 (by decide)

theorem sound_publish (hm : dotted (jsonName mid) = false)
    (h : Sound S ρ ⟨.box sid agent .inbox, tmpName mid⟩ x) :
    Sound S ρ ⟨.box sid agent .inbox, jsonName mid⟩ x where
  message sid' agent' mid' b hmid _ hp := by
    obtain ⟨hdir, hname⟩ := path_inj hp
    obtain ⟨rfl, rfl, -⟩ := box_inj hdir
    obtain rfl := jsonName_inj hname
    exact h.draft sid agent mid hmid rfl
  draft sid' agent' mid' _ hp :=
    absurd (path_inj hp).2.symm (ne_of_dotted (dotted_tmpName mid') hm)
  record sid' mid' _ hp := by
    rcases hp with hp | hp <;> exact absurd (path_inj hp).1 Dir.noConfusion
  plain sid' agent' name _ hp := by rw [← (path_inj hp).2]; exact hm
  claim sid' agent' name _ hp := absurd (box_inj (path_inj hp).1).2.2 (by decide)

theorem sound_recordDraft (h : Recorded S sid mid j) :
    Sound S ρ ⟨.history sid, tmpName mid⟩ (.json j) where
  message sid' agent' mid' b _ _ hp := absurd (path_inj hp).1 Dir.noConfusion
  draft sid' agent' mid' _ hp := absurd (path_inj hp).1 Dir.noConfusion
  record sid' mid' hm hp := by
    rcases hp with hp | hp
    · exact absurd (path_inj hp).2 (ne_of_dotted (dotted_tmpName mid) (dotted_jsonName hm))
    · obtain ⟨hdir, hname⟩ := path_inj hp
      injection hdir with hsid
      subst hsid
      obtain rfl := tmpName_inj hname
      exact ⟨j, rfl, h⟩
  plain sid' agent' name _ hp := absurd (path_inj hp).1 Dir.noConfusion
  claim sid' agent' name _ hp := absurd (path_inj hp).1 Dir.noConfusion

theorem sound_record (hm : dotted (jsonName mid) = false)
    (h : Sound S ρ ⟨.history sid, tmpName mid⟩ x) : Sound S ρ ⟨.history sid, jsonName mid⟩ x where
  message sid' agent' mid' b _ _ hp := absurd (path_inj hp).1 Dir.noConfusion
  draft sid' agent' mid' _ hp := absurd (path_inj hp).1 Dir.noConfusion
  record sid' mid' hmid hp := by
    rcases hp with hp | hp
    · obtain ⟨hdir, hname⟩ := path_inj hp
      injection hdir with hsid
      subst hsid
      obtain rfl := jsonName_inj hname
      exact h.record sid mid hmid (.inr rfl)
    · exact absurd (path_inj hp).2.symm (ne_of_dotted (dotted_tmpName mid') hm)
  plain sid' agent' name _ hp := absurd (path_inj hp).1 Dir.noConfusion
  claim sid' agent' name _ hp := absurd (path_inj hp).1 Dir.noConfusion

/-- A message moves between an inbox and `processing`. -/
theorem sound_move {b b' : Box} (hname : dotted name = false) (hb : b = .inbox ∨ b = .processing)
    (h : Sound S ρ ⟨.box sid agent b, name⟩ x) : Sound S ρ ⟨.box sid agent b', name⟩ x where
  message sid' agent' mid _ hm _ hp := by
    obtain ⟨hdir, rfl⟩ := path_inj hp
    obtain ⟨rfl, rfl, -⟩ := box_inj hdir
    exact h.message sid agent mid b hm hb rfl
  draft sid' agent' mid _ hp :=
    absurd (path_inj hp).2.symm (ne_of_dotted (dotted_tmpName mid) hname)
  record sid' mid _ hp := by
    rcases hp with hp | hp <;> exact absurd (path_inj hp).1 Dir.noConfusion
  plain sid' agent' name' _ hp := by rw [← (path_inj hp).2]; exact hname
  claim sid' agent' name' hn hp :=
    absurd (path_inj hp).2.symm (ne_of_dotted (dotted_of_claimLike hn) hname)

end Sound

/-! ### One file is written, moved or removed -/

theorem not_central_box (sid agent : String) (b : Box) (name : String) :
    ¬ Central ⟨.box sid agent b, name⟩ := by
  rintro ⟨sid', h | h | h⟩ <;> exact Dir.noConfusion (path_inj h).1

theorem not_central_history (sid name : String) : ¬ Central ⟨.history sid, name⟩ := by
  rintro ⟨sid', h | h | h⟩ <;> exact Dir.noConfusion (path_inj h).1

variable {sid : String} {fd : ℕ}

theorem not_central_session {name : String}
    (h : name ∉ ["session.json", ".session.lock", ".tmp-session.json"]) :
    ¬ Central ⟨.session sid, name⟩ := by
  simp only [List.mem_cons, List.not_mem_nil, or_false, not_or] at h
  rintro ⟨sid', hp | hp | hp⟩
  · exact h.1 (path_inj hp).2
  · exact h.2.1 (path_inj hp).2
  · exact h.2.2 (path_inj hp).2

theorem apart_of_perform {o : Op} {c : Choice} {a : Ans o} (hw : s.perform i o c = some (a, s'))
    (ht : ∀ p ∈ o.targets, ¬ Central p) (hf : o.flocking = false) : Apart s s' where
  session sid := Disk.perform_get? hw fun hmem => ht _ hmem ⟨sid, .inl rfl⟩
  draft sid := Disk.perform_get? hw fun hmem => ht _ hmem ⟨sid, .inr (.inr rfl)⟩
  lockFile sid _ h :=
    (Disk.perform_get? hw fun hmem => ht _ hmem ⟨sid, .inr (.inl rfl)⟩).trans h
  locks := Disk.perform_inoLocks hw hf

variable {c : Choice} {p src dst : MPath} {x : Data} {a : Except OsErr Unit}

/-- A file comes to `p`. -/
theorem Good.put (h : Good S s q) (hs : Apart s s') {f : MFile}
    (hget : ∀ r, s'.files.get? r = if r = p then some f else s.files.get? r)
    (hf : Sound S (InRoster s) p f.data) : Good S s' q := by
  refine h.apart hs fun r g hg => ?_
  rw [hget] at hg
  split_ifs at hg with hr
  · obtain rfl := Option.some.inj hg
    rw [hr]
    exact hf
  · exact h.sound r g hg

theorem Good.write (h : Good S s q) (hw : s.perform i (.write p x) c = some (a, s'))
    (hp : ¬ Central p) (hx : Sound S (InRoster s) p x) : Good S s' q := by
  rcases Disk.perform_write hw with ⟨e, -, rfl⟩ | ⟨-, f, rfl, hget⟩
  · exact h
  · exact h.put (apart_of_perform hw (by simpa [Op.targets] using hp) rfl) hget hx

theorem Good.writeNew (h : Good S s q) (hw : s.perform i (.writeNew p x) c = some (a, s'))
    (hp : ¬ Central p) (hx : Sound S (InRoster s) p x) : Good S s' q := by
  rcases Disk.perform_writeNew hw with ⟨e, -, rfl⟩ | ⟨-, -, f, rfl, hget⟩
  · exact h
  · exact h.put (apart_of_perform hw (by simpa [Op.targets] using hp) rfl) hget hx

theorem Good.link (h : Good S s q) (hw : s.perform i (.link src dst) c = some (a, s'))
    (hp : ¬ Central dst)
    (hx : ∀ x, Sound S (InRoster s) src x → Sound S (InRoster s) dst x) : Good S s' q := by
  rcases Disk.perform_link hw with ⟨e, -, rfl⟩ | ⟨-, f, hf, -, hget⟩
  · exact h
  · exact h.put (apart_of_perform hw (by simpa [Op.targets] using hp) rfl) hget
      (hx _ (h.sound src f hf))

theorem Good.unlink (h : Good S s q) (hw : s.perform i (.unlink p) c = some (a, s'))
    (hp : ¬ Central p) : Good S s' q := by
  refine h.apart (apart_of_perform hw (by simpa [Op.targets] using hp) rfl) fun r g hg => ?_
  rcases Disk.perform_unlink hw with rfl | hget
  · exact h.sound r g hg
  · rw [hget] at hg
    split_ifs at hg
    exact h.sound r g hg

theorem Good.replace (h : Good S s q) {l : Option Lease}
    (hw : s.perform i (.replace src dst l) c = some (a, s')) (hsrc : ¬ Central src)
    (hdst : ¬ Central dst)
    (hx : ∀ x, Sound S (InRoster s) src x → Sound S (InRoster s) dst x) : Good S s' q := by
  have hs : Apart s s' := by
    refine apart_of_perform hw (fun r hr => ?_) rfl
    rcases List.mem_cons.mp hr with rfl | hr
    · exact hsrc
    · rw [List.mem_singleton.mp hr]
      exact hdst
  rcases Disk.perform_replace hw with ⟨e, -, rfl⟩ | ⟨-, ⟨f, hf⟩, rfl⟩
  · exact h
  · refine h.apart hs fun r g hg => ?_
    rw [Files.get?_move hf] at hg
    split_ifs at hg with hr
    · obtain rfl := Option.some.inj hg
      rw [hr]
      exact hx _ (h.sound src f hf)
    · exact h.sound r g hg

/-! ### What a call reads -/

/-- The disk does not fail at a read of `session.json`. -/
def SessionReads (_ : Disk) (_ : ℕ) (o : Op) (c : Choice) : Prop :=
  match o with
  | .read ⟨.session _, name⟩ => name = "session.json" → c.fault = false
  | _ => True

theorem Good.reading (h : Good S s q) {r : Except OsErr Data}
    (hG : SessionReads s i (.read p) c) (hw : s.perform i (.read p) c = some (r, s')) :
    s' = s ∧ Reading S (q i) p r ∧ (∀ x ∈ seenIn p r, InRoster s x.1 x.2) ∧
      ∀ sid, p = sessionFile sid → docOf r = stored sid s := by
  obtain ⟨rfl, hr⟩ := Disk.perform_read hw
  -- `session.json` is read as it is
  have hdoc : ∀ sid, p = sessionFile sid → docOf r = stored sid s' := by
    rintro sid rfl
    rcases hr with ⟨hfault, -⟩ | ⟨hf, rfl⟩ | ⟨f, hf, rfl⟩
    · rw [hG rfl] at hfault
      cases hfault
    · rw [stored, hf]
      rfl
    · rcases h.session_cases sid with ⟨hno, -⟩ | ⟨f', doc, hf', hkept, hstored⟩
      · rw [hno] at hf
        cases hf
      · obtain rfl := Option.some.inj (hf'.symm.trans hf)
        rw [hstored, hkept.data]
        have hnull : doc ≠ .null := by
          rintro rfl
          cases hkept.truthy
        exact if_neg hnull
  have hseen : ∀ x ∈ seenIn p r, InRoster s' x.1 x.2 := by
    intro x hx
    obtain ⟨d, name⟩ := p
    cases d with
    | session sid =>
      simp only [seenIn] at hx
      split at hx
      · next hname =>
        subst hname
        rw [hdoc sid rfl] at hx
        cases hstored : stored sid s' with
        | none => rw [hstored] at hx; cases hx
        | some doc =>
          rw [hstored] at hx
          obtain ⟨y, hy, rfl⟩ := List.mem_map.mp hx
          exact ⟨doc, hstored, hy⟩
      · cases hx
    | history sid => cases hx
    | box sid agent b =>
      cases b with
      | inbox =>
        rcases hr with ⟨-, rfl⟩ | ⟨-, rfl⟩ | ⟨f, hf, rfl⟩
        · cases hx
        · cases hx
        · cases hdata : f.data with
          | junk => rw [hdata] at hx; cases hx
          | json j =>
            rw [hdata] at hx
            simp only [seenIn] at hx
            split at hx
            · next hname =>
              obtain rfl := List.mem_singleton.mp hx
              obtain ⟨hm, hstem⟩ := eq_jsonName_of_wellNamed hname
              obtain ⟨j', hj', -, hs⟩ := (h.sound _ f hf).message sid agent (stem name) .inbox hm
                (.inl rfl) (by rw [hstem])
              rw [hdata] at hj'
              cases hj'
              exact hs
            · cases hx
      | _ => cases hx
  refine ⟨rfl, ⟨?_, ?_, ?_⟩, hseen, hdoc⟩
  · rintro x rfl
    rcases hr with ⟨-, hx⟩ | ⟨-, hx⟩ | ⟨f, hf, hx⟩
    · cases hx
    · cases hx
    · cases hx
      exact (h.sound p f hf).mono fun _ _ _ => trivial
  · rintro sid y hp hy
    obtain ⟨doc, hstored, hmem⟩ := h.known i sid y hy
    rcases h.session_cases sid with ⟨-, hno⟩ | ⟨f, doc', -, hkept, hstored'⟩
    · rw [hno] at hstored
      cases hstored
    · obtain rfl := Option.some.inj (hstored.symm.trans hstored')
      exact ⟨doc, (hdoc sid hp).trans hstored, hkept.dict, hkept.truthy, hmem⟩
  · rintro sid doc hp hread
    rcases h.session_cases sid with ⟨-, hno⟩ | ⟨f, doc', -, hkept, hstored'⟩
    · rw [hdoc sid hp, hno] at hread
      cases hread
    · rw [hdoc sid hp, hstored'] at hread
      obtain rfl := Option.some.inj hread
      exact hkept.plain

/-! ### Under the lock of a session -/

theorem Disk.perform_openFd {fd : Except OsErr ℕ}
    (hw : s.perform i (.openFd p) c = some (fd, s')) :
    (∃ e, fd = .error e ∧ s' = s) ∨
    (∃ f, s.files.get? p = some f ∧ fd = .ok f.ino ∧ s' = s) ∨
    (s.files.get? p = none ∧ ∃ f : MFile, fd = .ok f.ino ∧
      ∀ r, s'.files.get? r = if r = p then some f else s.files.get? r) := by
  simp only [Disk.perform] at hw
  cases hp : s.files.get? p with
  | some f =>
    rw [hp] at hw
    cases hw
    exact .inr (.inl ⟨f, rfl, rfl, rfl⟩)
  | none =>
    simp only [hp] at hw
    split_ifs at hw <;> cases hw
    · refine .inr (.inr ⟨rfl, ⟨.junk, c.time, s.files.nextIno⟩, rfl, fun r => ?_⟩)
      simp only [Disk.write, Files.write, hp]
      exact Files.get?_put _ _ _ _
    · exact .inl ⟨_, rfl, rfl⟩

theorem Good.held_unique (h : Good S s q) {j : ℕ} {fd' : ℕ} (hi : Held s i sid fd)
    (hj : Held s j sid fd') : i = j := by
  obtain ⟨⟨f, hf, rfl⟩, hlock⟩ := hi
  obtain ⟨⟨f', hf', rfl⟩, hlock'⟩ := hj
  rw [hf] at hf'
  cases hf'
  exact h.alone _ _ _ hlock hlock'

theorem Good.open (h : Good S s q) {fd : Except OsErr ℕ} (hq : (q i).phase = .idle)
    (hw : s.perform i (.openFd (lockFile sid)) c = some (fd, s')) :
    Good S s' (Function.update q i ((q i).next (.openFd (lockFile sid)) fd)) := by
  have hphase (n : ℕ) : ((q i).next (.openFd (lockFile sid)) (.ok n)).phase = .opened sid n := by
    simp [Watch.next, hq, Phase.opens, lockFile]
  rcases Disk.perform_openFd hw with ⟨e, rfl, rfl⟩ | ⟨f, hf, rfl, rfl⟩ | ⟨hno, f, rfl, hget⟩
  · exact h.still rfl
  · refine h.next (fun _ h => by cases h) ?_
    rw [hphase]
    exact ⟨f, hf, rfl⟩
  · -- the file is new, so nobody has opened it before
    have hold (r : MPath) (hr : r ≠ lockFile sid) : s'.files.get? r = s.files.get? r := by
      rw [hget, if_neg hr]
    have hapart : Apart s s' := by
      refine ⟨fun sid' => hold _ (lockFile_ne_sessionFile sid sid').symm,
        fun sid' => hold _ (lockFile_ne_draftFile sid sid').symm, fun sid' g hg => ?_,
        Disk.perform_inoLocks hw rfl⟩
      rw [hget, if_neg]
      · exact hg
      · intro hr
        rw [hr, hno] at hg
        cases hg
    refine (h.put hapart hget (sound_session _ _)).next (fun _ h => by cases h) ?_
    rw [hphase]
    exact ⟨f, by rw [hget, if_pos rfl], rfl⟩

theorem Good.flock (h : Good S s q) (hq : (q i).phase = .idle ∨ ∃ sid, (q i).phase = .opened sid fd)
    {u : Unit} (hw : s.perform i (.flock fd) c = some (u, s')) :
    Good S s' (Function.update q i ((q i).next (.flock fd) u)) := by
  simp only [Disk.perform] at hw
  split_ifs at hw with hfree
  cases hw
  have hnobody (j : ℕ) : (fd, j) ∉ s.inoLocks := by
    intro hj
    rw [Bool.not_eq_true, Option.isSome_eq_false_iff, Option.isNone_iff_eq_none,
      List.lookup_eq_none_iff] at hfree
    simpa using hfree _ hj
  have hgood : Good S { s with inoLocks := (fd, i) :: s.inoLocks } q := by
    refine ⟨fun n j k hj hk => ?_, h.sessions, h.known, h.sound, fun j => ?_⟩
    · rcases List.mem_cons.mp hj with hj | hj <;> rcases List.mem_cons.mp hk with hk | hk
      · rw [Prod.mk.injEq] at hj hk
        rw [hj.2, hk.2]
      · rw [Prod.mk.injEq] at hj
        rw [hj.1] at hk
        exact absurd hk (hnobody k)
      · rw [Prod.mk.injEq] at hk
        rw [hk.1] at hj
        exact absurd hj (hnobody j)
      · exact h.alone n j k hj hk
    · exact (h.placed j).step (fun _ _ hf => hf) (fun n hn => List.mem_cons_of_mem _ hn)
        fun _ _ _ => ⟨rfl, rfl⟩
  refine hgood.next (fun _ h => by cases h) ?_
  have hi := h.placed i
  rcases hq with hq | ⟨sid, hq⟩
  · simp only [Watch.next, hq, Phase.locks]
    trivial
  · rw [hq] at hi
    simp only [Watch.next, hq, Phase.locks]
    exact ⟨hi, List.mem_cons_self⟩

/-- A process that gives up locks, and is idle then. -/
theorem Good.unlocked (h : Good S s q) {locks : List (MPath × ℕ)} {keep : ℕ × ℕ → Bool} {w : Watch}
    (hw : w.phase = .idle) (hknown : ∀ x ∈ w.known, x ∈ (q i).known)
    (hkeep : ∀ n j, j ≠ i → keep (n, j) = true) :
    Good S { s with locks := locks, inoLocks := s.inoLocks.filter keep } (Function.update q i w) := by
  refine ⟨fun n j k hj hk => ?_, h.sessions, fun j sid y hy => ?_, h.sound, fun j => ?_⟩
  · exact h.alone n j k (List.mem_of_mem_filter hj) (List.mem_of_mem_filter hk)
  · by_cases hj : j = i
    · subst hj
      rw [Function.update_self] at hy
      exact h.known j sid y (hknown _ hy)
    · rw [Function.update_of_ne hj] at hy
      exact h.known j sid y hy
  · by_cases hj : j = i
    · subst hj
      rw [Function.update_self, hw]
      trivial
    · rw [Function.update_of_ne hj]
      exact (h.placed j).step (fun _ _ hf => hf)
        (fun n hn => List.mem_filter.mpr ⟨hn, hkeep n j hj⟩) fun _ _ _ => ⟨rfl, rfl⟩

theorem Good.funlock (h : Good S s q) (fd : ℕ) :
    Good S { s with inoLocks := s.inoLocks.filter (· ≠ (fd, i)) }
      (Function.update q i ((q i).next (.funlock fd) ())) :=
  h.unlocked rfl (fun _ h => h) fun _ _ hj => decide_eq_true fun he => hj (congrArg Prod.snd he)

theorem Good.draft (h : Good S s q) {doc : Option Json} {new : Json}
    (hq : (q i).phase = .seen sid fd doc) (hnew : Grows doc new)
    (hw : s.perform i (.write (draftFile sid) (.json new)) c = some (a, s')) :
    Good S s' (Function.update q i ((q i).next (.write (draftFile sid) (.json new)) a)) := by
  have hi := h.placed i
  rw [hq] at hi
  rcases Disk.perform_write hw with ⟨e, rfl, rfl⟩ | ⟨rfl, f, hdata, hget⟩
  · exact h.still rfl
  have hold (r : MPath) (hr : r ≠ draftFile sid) : s'.files.get? r = s.files.get? r := by
    rw [hget, if_neg hr]
  have hlock (sid' : String) : s'.files.get? (lockFile sid') = s.files.get? (lockFile sid') :=
    hold _ (lockFile_ne_draftFile sid' sid)
  have hstored (sid' : String) : stored sid' s' = stored sid' s :=
    stored_congr (hold _ (sessionFile_ne_draftFile sid' sid))
  have hlocks : s'.inoLocks = s.inoLocks := Disk.perform_inoLocks hw rfl
  have hheld : Held s' i sid fd := by
    obtain ⟨⟨⟨g, hg, hino⟩, hmem⟩, -⟩ := hi
    exact ⟨⟨g, (hlock sid).trans hg, hino⟩, by rw [hlocks]; exact hmem⟩
  refine ⟨by rw [hlocks]; exact h.alone, fun sid' g hg => ?_, fun j sid' y hy => ?_,
    fun r g hg => ?_, fun j => ?_⟩
  · rw [hold _ (sessionFile_ne_draftFile sid' sid)] at hg
    exact h.sessions sid' g hg
  · rw [InRoster, hstored]
    by_cases hj : j = i
    · subst hj
      rw [Function.update_self] at hy
      exact h.known j sid' y hy
    · rw [Function.update_of_ne hj] at hy
      exact h.known j sid' y hy
  · rw [hget] at hg
    split_ifs at hg with hr
    · rw [hr]
      exact sound_session _ _
    · exact (h.sound r g hg).mono fun sid' y hy => by rwa [InRoster, hstored]
  · by_cases hj : j = i
    · subst hj
      rw [Function.update_self]
      simp only [Watch.next, hq, Phase.writes, if_true]
      exact ⟨hheld, (hstored sid).trans hi.2, hnew, f, by rw [hget, if_pos rfl], hdata⟩
    · rw [Function.update_of_ne hj]
      refine (h.placed j).step (fun sid' g hg => (hlock sid').trans hg)
        (fun n hn => by rw [hlocks]; exact hn) fun sid' fd' hl => ⟨hstored sid', hold _ ?_⟩
      intro hr
      injection (path_inj hr).1 with hsid
      subst hsid
      exact hj (h.held_unique hl hi.1)

theorem Good.move (h : Good S s q) {doc : Option Json} {new : Json}
    (hq : (q i).phase = .drafted sid fd doc new)
    (hw : s.perform i (.replace (draftFile sid) (sessionFile sid) none) c = some (a, s')) :
    Good S s' (Function.update q i
      ((q i).next (.replace (draftFile sid) (sessionFile sid) none) a)) := by
  have hi := h.placed i
  rw [hq] at hi
  obtain ⟨hheld, hdoc, hgrows, f, hf, hdata⟩ := hi
  rcases Disk.perform_replace hw with ⟨e, rfl, rfl⟩ | ⟨rfl, -, rfl⟩
  · exact h.still rfl
  have hget (r : MPath) : (s.files.move (draftFile sid) (sessionFile sid)).get? r =
      if r = sessionFile sid then some f else if r = draftFile sid then none else s.files.get? r :=
    Files.get?_move hf _ r
  have hold (r : MPath) (hr : r ≠ sessionFile sid) (hr' : r ≠ draftFile sid) :
      (s.files.move (draftFile sid) (sessionFile sid)).get? r = s.files.get? r := by
    rw [hget, if_neg hr, if_neg hr']
  obtain ⟨t, ht⟩ : ∃ t : Disk,
    t = { s with files := s.files.move (draftFile sid) (sessionFile sid) } := ⟨_, rfl⟩
  have hnull : new ≠ .null := by
    rintro rfl
    cases hgrows.truthy
  have hnew : stored sid t = some new :=
    stored_of_data (f := f) (by rw [ht, hget, if_pos rfl]) hdata hnull
  have hother (sid' : String) (hne : sid' ≠ sid) : stored sid' t = stored sid' s := by
    refine stored_congr ?_
    rw [ht]
    refine hold _ (fun hr => ?_) (sessionFile_ne_draftFile sid' sid)
    injection (path_inj hr).1 with hsid
    exact hne hsid
  have hroster (sid' y : String) (hy : InRoster s sid' y) : InRoster t sid' y := by
    obtain ⟨old, hwas, hmem⟩ := hy
    by_cases hsid : sid' = sid
    · subst hsid
      exact ⟨new, hnew, hgrows.roster old (hdoc.symm.trans hwas) y hmem⟩
    · exact ⟨old, (hother sid' hsid).trans hwas, hmem⟩
  have hlock (sid' : String) : t.files.get? (lockFile sid') = s.files.get? (lockFile sid') := by
    rw [ht]
    exact hold _ (lockFile_ne_sessionFile sid' sid) (lockFile_ne_draftFile sid' sid)
  rw [← ht]
  refine ⟨by rw [ht]; exact h.alone, fun sid' g hg => ?_, fun j sid' y hy => ?_,
    fun r g hg => ?_, fun j => ?_⟩
  · by_cases hsid : sid' = sid
    · subst hsid
      rw [ht, hget, if_pos rfl] at hg
      obtain rfl := Option.some.inj hg
      exact ⟨new, hdata, hgrows.dict, hgrows.truthy, hgrows.plain⟩
    · rw [ht, hold _ (fun hr => ?_) (sessionFile_ne_draftFile sid' sid)] at hg
      · exact h.sessions sid' g hg
      · injection (path_inj hr).1 with hsid'
        exact hsid hsid'
  · refine hroster _ _ ?_
    by_cases hj : j = i
    · subst hj
      rw [Function.update_self] at hy
      exact h.known j sid' y hy
    · rw [Function.update_of_ne hj] at hy
      exact h.known j sid' y hy
  · rw [ht, hget] at hg
    split_ifs at hg with hr
    · rw [hr]
      exact sound_session _ _
    · exact (h.sound r g hg).mono hroster
  · by_cases hj : j = i
    · subst hj
      rw [Function.update_self]
      simp only [Watch.next, hq, Phase.moves]
      obtain ⟨⟨g, hg, hino⟩, hmem⟩ := hheld
      exact ⟨⟨g, (hlock sid).trans hg, hino⟩, by rw [ht]; exact hmem⟩
    · rw [Function.update_of_ne hj]
      refine (h.placed j).step (fun sid' g hg => (hlock sid').trans hg)
        (fun n hn => by rw [ht]; exact hn) fun sid' fd' hl => ?_
      have hne : sid' ≠ sid := by
        rintro rfl
        exact hj (h.held_unique hl hheld)
      refine ⟨hother sid' hne, ?_⟩
      rw [ht]
      refine hold _ (sessionFile_ne_draftFile sid sid').symm fun hr => ?_
      injection (path_inj hr).1 with hsid
      exact hne hsid

/-! ## Every step keeps the invariant -/

theorem Good.glance (h : Good S s q) {o : Op} {r : Ans o} (ho : glances o = true)
    (hG : SessionReads s i o c) (hw : s.perform i o c = some (r, s')) :
    (q i).assumes S o r ∧ Good S s' (Function.update q i ((q i).next o r)) := by
  have hsame (hf : o.flocking = false) (hsame : o.targets = []) : Good S s' q := by
    have hget (p : MPath) : s'.files.get? p = s.files.get? p :=
      Disk.perform_get? hw (by rw [hsame]; exact List.not_mem_nil)
    refine h.apart ⟨fun _ => hget _, fun _ => hget _, fun _ _ hf => (hget _).trans hf,
      Disk.perform_inoLocks hw hf⟩ fun p f hp => h.sound p f ((hget p).symm.trans hp)
  have hi := h.placed i
  cases o with
  | read p =>
    obtain ⟨rfl, hreading, hseen, hdoc⟩ := h.reading hG hw
    refine ⟨hreading, h.update (fun sid y hy => ?_) ?_⟩
    · rcases List.mem_append.mp hy with hy | hy
      · exact hseen _ hy
      · exact h.known i sid y hy
    · simp only [Watch.next]
      cases hph : (q i).phase with
      | holding sid fd =>
        rw [hph] at hi
        simp only [Phase.look]
        split
        · next hp => exact ⟨hi, (hdoc sid hp).symm⟩
        · exact hi
      | _ => rw [hph] at hi; exact hi
  | fileExists p =>
    cases hw
    constructor
    · rintro sid y rfl hy
      obtain ⟨doc, hstored, -⟩ := h.known i sid y hy
      rcases h.session_cases sid with ⟨-, hno⟩ | ⟨f, -, hf, -, -⟩
      · rw [hno] at hstored
        cases hstored
      · rw [hf]
        rfl
    · refine h.next (fun _ h => by cases h) ?_
      cases hf : s.files.get? p with
      | some f => exact hi
      | none =>
        simp only [Watch.next, Option.isSome_none, Bool.false_eq_true, if_false]
        cases hph : (q i).phase with
        | holding sid fd =>
          rw [hph] at hi
          simp only [Phase.look]
          split
          · next hp =>
            subst hp
            exact ⟨hi, by rw [stored, hf]⟩
          · exact hi
        | _ => rw [hph] at hi; exact hi
  | _ => first | exact ⟨trivial, (hsame rfl rfl).still rfl⟩ | cases ho

/-- **Every step of a call keeps the invariant.** -/
theorem opKeeps : Pool.OpKeeps world (role S) SessionReads (Good S) := by
  intro s q i o c a s' h hallowed hG hw
  change s.perform i o c = some (a, s') at hw
  cases hallowed with
  | glance ho => exact h.glance ho hG hw
  | flock fd hq => exact ⟨trivial, h.flock hq hw⟩
  | funlock fd =>
    cases hw
    exact ⟨trivial, h.funlock fd⟩
  | cursorFd sid hq =>
    refine ⟨trivial, Good.idle ?_ hq (fun _ h => by cases h) fun sid' h => ?_⟩
    · rcases Disk.perform_openFd hw with ⟨e, -, rfl⟩ | ⟨f, -, -, rfl⟩ | ⟨-, f, -, hget⟩
      · exact h
      · exact h
      · exact h.put (apart_of_perform hw (by
          simpa [Op.targets] using not_central_session (by decide)) rfl) hget (sound_session _ _)
    · injection h with h
      exact absurd (path_inj h).2 (by decide)
  | cursorDraft sid x hq =>
    exact ⟨trivial, Good.idle (h.write hw (not_central_session (by decide)) (sound_session _ _)) hq
      (fun _ h => by cases h) fun _ h => by cases h⟩
  | cursorMove sid hq =>
    exact ⟨trivial, Good.idle (h.replace hw (not_central_session (by decide))
      (not_central_session (by decide)) fun _ _ => sound_session _ _) hq
      (fun _ h => by cases h) fun _ h => by cases h⟩
  | sessionFd sid hq => exact ⟨trivial, h.open hq hw⟩
  | sessionDraft hq hnew => exact ⟨trivial, h.draft hq hnew hw⟩
  | sessionMove hq => exact ⟨trivial, h.move hq hw⟩
  | envelope hq hj =>
    refine ⟨trivial, Good.idle (h.write hw (not_central_box _ _ _ _) (sound_envelope fun hm => ?_))
      hq (fun _ h => by cases h) fun _ h => by cases h⟩
    exact ⟨(hj hm).1, h.known i _ _ (hj hm).2⟩
  | publish sid agent hq hm =>
    exact ⟨trivial, Good.idle (h.replace hw (not_central_box _ _ _ _) (not_central_box _ _ _ _)
      fun _ => sound_publish hm) hq (fun _ h => by cases h) fun _ h => by cases h⟩
  | recordDraft hj =>
    exact ⟨trivial, (h.writeNew hw (not_central_history _ _) (sound_recordDraft hj)).still rfl⟩
  | record sid hq hm =>
    exact ⟨trivial, Good.idle (h.replace hw (not_central_history _ _) (not_central_history _ _)
      fun _ => sound_record hm) hq (fun _ h => by cases h) fun _ h => by cases h⟩
  | claimNew sid agent hname hj =>
    exact ⟨trivial, (h.writeNew hw (not_central_box _ _ _ _) (sound_claim hname hj)).still rfl⟩
  | claimLink sid agent htmp hname =>
    refine ⟨trivial, (h.link hw (not_central_box _ _ _ _) fun x hx => ?_).still rfl⟩
    obtain ⟨key, j, rfl, hj⟩ := hx.claim sid agent _ htmp rfl
    exact sound_claim hname hj
  | drop sid agent name => exact ⟨trivial, (h.unlink hw (not_central_box _ _ _ _)).still rfl⟩
  | claim sid agent hq hname =>
    exact ⟨trivial, Good.idle (h.replace hw (not_central_box _ _ _ _) (not_central_box _ _ _ _)
      fun _ => sound_move hname (.inl rfl)) hq (fun _ h => by cases h) fun _ h => by cases h⟩
  | back sid agent l hq hm =>
    exact ⟨trivial, Good.idle (h.replace hw (not_central_box _ _ _ _) (not_central_box _ _ _ _)
      fun _ => sound_move hm (.inr rfl)) hq (fun _ h => by cases h) fun _ h => by cases h⟩
  | archive sid agent mid hq =>
    refine ⟨trivial, Good.idle (h.replace hw (not_central_box _ _ _ _) (not_central_box _ _ _ _)
      fun _ _ => sound_elsewhere (fun sid' agent' => ⟨fun hd => ?_, fun hd => ?_⟩)
        fun _ => Dir.noConfusion) hq (fun _ h => by cases h) fun _ h => by cases h⟩
    · exact absurd (box_inj hd).2.2 (by decide)
    · exact absurd (box_inj hd).2.2 (by decide)
  | quarantine sid agent hname hq =>
    refine ⟨trivial, Good.idle (h.replace hw (not_central_box _ _ _ _) (not_central_box _ _ _ _)
      fun _ _ => sound_elsewhere (fun sid' agent' => ⟨fun hd => ?_, fun hd => ?_⟩)
        fun _ => Dir.noConfusion) hq (fun _ h => by cases h) fun _ h => by cases h⟩
    · exact absurd (box_inj hd).2.2 (by decide)
    · exact absurd (box_inj hd).2.2 (by decide)

theorem crashKeeps : Pool.CrashKeeps world (role S) (Good S) :=
  fun _ _ _ h => ⟨⟨.idle, []⟩, h.unlocked rfl (fun _ h => absurd h List.not_mem_nil)
    fun _ _ hj => decide_eq_true hj⟩

end AiMeshChat.Mailbox.Readable
