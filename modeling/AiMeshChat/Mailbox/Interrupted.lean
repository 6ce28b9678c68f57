import AiMeshChat.Mailbox.Merging

/-!
# Crashes of `session_init`

A call that dies while it merges leaves either the old `session.json` or the new one
with all directories made. A call that dies while it creates the session may leave a
`session.json` whose members have no directories yet, and the calls that come later find
nothing new to add: they never make them.

`recovers_iff` says that this is all that can go wrong: later calls with the same manager
and agents complete the session exactly if the crash was not between the renaming of
`session.json` and the last inbox.
-/

namespace AiMeshChat.Mailbox.Sessions

open Lib

/-! ## A complete session can be sent to -/

/-- Every member in `session.json` has an inbox. -/
def Complete (sid : String) (s : Disk) : Prop :=
  ∀ doc, stored sid s = some doc → ∀ aid ∈ rosterOf doc, Dir.box sid aid .inbox ∈ s.dirs

/-- The refusal of a recipient without an inbox. -/
def Missing (e : PyErr) : Prop := ∃ rid, e = .value ("agent not in session: " ++ rid)

theorem not_missing_value {msg : String} (h : msg.toList.take 2 ≠ ['a', 'g']) :
    ¬ Missing (.value msg) := by
  rintro ⟨rid, he⟩
  cases he
  exact h (by simp)

theorem not_missing_append {p : String} (x : String) (hp : 2 ≤ p.toList.length)
    (h : p.toList.take 2 ≠ ['a', 'g']) : ¬ Missing (.value (p ++ x)) := by
  refine not_missing_value ?_
  rwa [String.toList_append, List.take_append_of_le_length hp]

section Raises

/-- No call but `checkInboxes` reports a missing inbox. -/
abbrev Silent {α : Type} (p : Call α) : Prop := p.Raises fun e => ¬ Missing e

theorem require_silent {c : Bool} {e : PyErr} (h : ¬ Missing e) : Silent (require c e) := by
  rw [require]
  split
  · trivial
  · exact h

theorem orRaise_silent {α : Type} (r : Except OsErr α) : Silent (orRaise r) := by
  cases r with
  | ok a => trivial
  | error e =>
    rintro ⟨rid, he⟩
    cases he

theorem write_silent (p : MPath) (x : Data) : Silent (write p x) :=
  fun r => orRaise_silent r

theorem replace_silent (src dst : MPath) : Silent (replace src dst) :=
  fun r => orRaise_silent r

theorem validateAgentId_silent (aid : String) : Silent (validateAgentId aid) :=
  require_silent (not_missing_append _ (by decide) (by decide))

theorem validateMsgId_silent (mid : String) : Silent (validateMsgId mid) :=
  require_silent (not_missing_append _ (by decide) (by decide))

theorem agentSubdir_silent (sid aid : String) (b : Box) : Silent (agentSubdir sid aid b) :=
  (validateAgentId_silent aid).bind fun _ => (validateAgentId_silent sid).bind fun _ => trivial

theorem requireValid_silent {what : String} (r : Except Refusal Unit) (hp : 2 ≤ what.toList.length)
    (h : what.toList.take 2 ≠ ['a', 'g']) : Silent (requireValid what r) := by
  cases r with
  | ok u => trivial
  | error e =>
    cases e with
    | reject why => exact not_missing_append why hp h
    | typeError why =>
      rintro ⟨rid, he⟩
      cases he

theorem attachmentRef_silent (ad : Json) : Silent (attachmentRef ad) := by
  rw [attachmentRef]
  split
  · exact not_missing_value (by decide)
  · split
    · exact not_missing_append _ (by decide) (by decide)
    · split
      · rw [String.append_assoc, String.append_assoc]
        exact not_missing_append _ (by decide) (by decide)
      · trivial

theorem attachmentRefs_silent (l : List Json) : Silent (attachmentRefs l) := by
  induction l with
  | nil => trivial
  | cons ad rest ih => exact (attachmentRef_silent ad).bind fun _ => ih.bind fun _ => trivial

theorem writeNewOr_silent {p : MPath} {x : Data} {e : PyErr} (h : ¬ Missing e) :
    Silent (writeNewOr p x e) := by
  refine Prog.raises_op_bind fun r => ?_
  split
  · exact h
  · exact orRaise_silent _

theorem appendHistory_silent (sid : String) (message : Json) :
    Silent (appendHistory sid message) := by
  refine (validateAgentId_silent sid).bind fun _ => Prog.raises_op_bind fun _ => ?_
  refine (require_silent (not_missing_append _ (by decide) (by decide))).bind fun _ => ?_
  refine (require_silent (not_missing_value (by decide))).bind fun _ => ?_
  refine (requireValid_silent _ (by decide) (by decide)).bind fun _ => ?_
  refine (validateMsgId_silent _).bind fun _ => Prog.raises_op_bind fun _ => ?_
  have hexists : ∀ mid, ¬ Missing (.value ("history entry already exists: " ++ mid)) :=
    fun mid => not_missing_append _ (by decide) (by decide)
  refine Prog.raises_op_bind fun _ => (require_silent (hexists _)).bind fun _ => ?_
  exact (writeNewOr_silent (hexists _)).bind fun _ => (replace_silent _ _).bind fun _ => trivial

theorem advanceCursor_silent (sid : String) : Silent (advanceCursor sid) := by
  refine (validateAgentId_silent sid).bind fun _ => Prog.raises_op_bind fun _ => ?_
  refine Prog.raises_op_bind fun _ => Prog.raises_op_bind fun r => ?_
  refine (orRaise_silent r).bind fun fd => Prog.raises_op_bind fun _ => ?_
  refine (Prog.Raises.ensure ?_ (Prog.raises_op _)).bind fun _ => trivial
  refine Prog.Raises.bind ?_ fun prev => (write_silent _ _).bind fun _ =>
    (replace_silent _ _).bind fun _ => trivial
  refine Prog.raises_op_bind fun b => ?_
  cases b with
  | false => trivial
  | true =>
    refine Prog.raises_op_bind fun r => ?_
    split
    · split
      · trivial
      · rintro ⟨rid, he⟩
        cases he
    · trivial

theorem publish_silent (sid mid : String) (payload : Json) (l : List String) :
    Silent (publish sid mid payload l) := by
  induction l with
  | nil => trivial
  | cons rid rest ih =>
    exact (agentSubdir_silent _ _ _).bind fun _ => (write_silent _ _).bind fun _ =>
      (replace_silent _ _).bind fun _ => ih

theorem sendNew_silent (a : SendArgs) (mid : String) (rs : List String)
    (refs : List AttachmentRef) : Silent (sendNew a mid rs refs) :=
  Prog.raises_op_bind fun _ => (requireValid_silent _ (by decide) (by decide)).bind fun _ =>
    (publish_silent _ _ _ _).bind fun _ => (advanceCursor_silent _).bind fun _ =>
      (publish_silent _ _ _ _).bind fun _ => (appendHistory_silent _ _).bind fun _ => trivial

theorem loadOrEmpty_silent (p : MPath) : Silent (loadOrEmpty p) := by
  refine Prog.raises_op_bind fun r => ?_
  split <;> trivial

theorem findInInboxes_silent (sid mid : String) (l : List String) :
    ∀ found : Option Json, Silent (findInInboxes sid mid l found) := by
  induction l with
  | nil => exact fun _ => trivial
  | cons rid rest ih =>
    refine fun found => (agentSubdir_silent _ _ _).bind fun _ => Prog.raises_op_bind fun b => ?_
    split
    · exact (loadOrEmpty_silent _).bind fun _ => ih _
    · exact ih _

theorem findExisting_silent (sid mid : String) (l : List String) :
    Silent (findExisting sid mid l) := by
  refine (findInInboxes_silent sid mid l none).bind fun e => ?_
  cases e with
  | some e => trivial
  | none =>
    refine Prog.raises_op_bind fun b => ?_
    split
    · exact (loadOrEmpty_silent _).bind fun _ => trivial
    · trivial

theorem backfill_silent (sid mid : String) (existing : Json) (l : List String) :
    Silent (backfill sid mid existing l) := by
  induction l with
  | nil => trivial
  | cons rid rest ih =>
    refine (agentSubdir_silent _ _ _).bind fun _ => Prog.raises_op_bind fun b => ?_
    split
    · exact ih
    · exact (write_silent _ _).bind fun _ => (replace_silent _ _).bind fun _ =>
        ih.bind fun _ => trivial

theorem replay_silent (a : SendArgs) (mid : String) (rs : List String)
    (refs : List AttachmentRef) (existing : Json) : Silent (replay a mid rs refs existing) := by
  refine (require_silent fun ⟨rid, he⟩ => by cases he).bind fun _ => ?_
  refine (require_silent (not_missing_append _ (by decide) (by decide))).bind fun _ => ?_
  refine (backfill_silent _ _ _ _).bind fun _ => Prog.Raises.bind ?_ fun _ => trivial
  refine Prog.raises_op_bind fun b => ?_
  split
  · trivial
  · exact (appendHistory_silent _ _).bind fun _ => trivial

theorem inAnyInbox_silent (sid mid : String) (l : List String) :
    Silent (inAnyInbox sid mid l) := by
  induction l with
  | nil => trivial
  | cons rid rest ih =>
    refine (agentSubdir_silent _ _ _).bind fun _ => Prog.raises_op_bind fun b => ?_
    split
    · trivial
    · exact ih

theorem freshMsgId_silent (a : SendArgs) (rs : List String) (fuel : ℕ) :
    Silent (freshMsgId a rs fuel) := by
  induction fuel with
  | zero => trivial
  | succ fuel ih =>
    refine Prog.Raises.bind (fun _ _ => trivial) fun mid => ?_
    refine (inAnyInbox_silent _ _ _).bind fun b => ?_
    split
    · exact ih
    · refine Prog.raises_op_bind fun b => ?_
      split
      · exact ih
      · trivial

end Raises

section Send

variable {i : ℕ} {P : Choice → Prop} {s : Disk}

theorem Silent.ends {α : Type} {p : Call α} (hp : Silent p) :
    p.Ends world i P s fun r _ => ∀ e, r = .error e → ¬ Missing e := fun _ _ h => hp.runs h

theorem require_quiet {α : Type} {c : Bool} {e : PyErr} {f : Unit → Call α} (he : ¬ Missing e)
    (h : c = true → (f ()).Ends world i P s fun r _ => ∀ e, r = .error e → ¬ Missing e) :
    (require c e >>= f).Ends world i P s fun r _ => ∀ e, r = .error e → ¬ Missing e :=
  Replay.require_bind_ends h fun e' he' => by
    cases he'
    exact he

theorem checkInboxes_quiet {sid : String} {l : List String}
    (h : ∀ rid ∈ l, Dir.box sid rid .inbox ∈ s.dirs) :
    (checkInboxes sid l).Ends world i P s fun r _ => ∀ e, r = .error e → ¬ Missing e := by
  induction l with
  | nil => exact Prog.ends_ret fun e he => by cases he
  | cons rid rest ih =>
    rw [checkInboxes, agentSubdir_bind]
    have hid : ∀ x, ¬ Missing (.value ("invalid agent id: " ++ reprStr x)) :=
      fun x => not_missing_append _ (by decide) (by decide)
    refine require_quiet (hid _) fun _ => require_quiet (hid _) fun _ => Replay.isDir_ends ?_
    rw [decide_eq_true (h rid List.mem_cons_self)]
    exact ih fun rid' hrid' => h rid' (List.mem_cons_of_mem _ hrid')

theorem checkSend_quiet {m : SendArgs} {doc : Json} (h : Complete m.sessionId s)
    (hdoc : stored m.sessionId s = some doc)
    (hto : m.toId = BROADCAST_TO ∨ m.toId ∈ rosterOf doc) :
    (checkSend m).Ends world i P s fun r _ => ∀ e, r = .error e → ¬ Missing e := by
  refine require_quiet (not_missing_append _ (by decide) (by decide)) fun hsid => ?_
  refine Replay.isDir_ends (require_quiet (not_missing_append _ (by decide) (by decide))
    fun _ => ?_)
  refine (readSession_any (I := fun _ => True) hsid trivial).ends.bind ?_ ?_
  · rintro info s ⟨rfl, _, ⟨⟩, hinfo⟩
    refine require_quiet (not_missing_append _ (by decide) (by decide)) fun hnull => ?_
    have hinfo' : info.getD .null = doc := by
      rcases hinfo with hinfo | ⟨-, rfl⟩
      · rw [hinfo, hdoc]
        rfl
      · exact absurd hnull (by decide)
    refine require_quiet (fun ⟨_, he⟩ => by cases he) fun _ => ?_
    refine require_quiet (not_missing_append _ (by decide) (by decide)) fun hfrom => ?_
    refine Prog.Ends.bind (M := fun r t => t = s ∧ ∀ e, r = .error e → ¬ Missing e)
      (fun r t hr => ⟨Replay.same_of_pure (attachmentRefs_only _) s _ _ hr,
        (attachmentRefs_silent _).runs hr⟩) ?_ fun e t he => ?_
    · rintro refs s ⟨rfl, -⟩
      refine require_quiet (not_missing_append _ (by decide) (by decide)) fun _ => ?_
      have hall : ∀ rid ∈ recipientsOf m (rosterOf (info.getD .null)),
          Dir.box m.sessionId rid .inbox ∈ s.dirs := by
        intro rid hrid
        rw [hinfo'] at hrid
        refine h doc hdoc rid ?_
        rw [recipientsOf] at hrid
        split at hrid
        · exact List.mem_of_mem_filter (mem_sortedSet.mp hrid)
        · next hone =>
          rw [List.mem_singleton.mp hrid]
          exact hto.resolve_left hone
      refine (checkInboxes_quiet hall).bind (fun _ t _ => ?_) fun e t he e' he' => ?_
      · refine require_quiet (not_missing_append _ (by decide) (by decide)) fun _ => ?_
        refine require_quiet ?_ fun _ => Prog.ends_ret fun e he => by cases he
        rw [String.append_assoc]
        exact not_missing_append _ (by decide) (by decide)
      · cases he'
        exact he _ rfl
    · rintro e' ⟨⟩
      exact he.2 _ rfl
  · rintro e s₁ ⟨-, x, he, -⟩
    cases he

/-- **A send between members of a complete session** is not refused for want of an inbox. -/
theorem send_quiet {m : SendArgs} {doc : Json} {fuel : ℕ} (h : Complete m.sessionId s)
    (hdoc : stored m.sessionId s = some doc)
    (hto : m.toId = BROADCAST_TO ∨ m.toId ∈ rosterOf doc) :
    (send fuel m).Ends world i P s fun r _ => ∀ e, r = .error e → ¬ Missing e := by
  refine (checkSend_quiet h hdoc hto).bind (fun x t _ => Silent.ends ?_) fun e t he e' he' => ?_
  · obtain ⟨rs, refs⟩ := x
    dsimp only
    split
    · refine (validateMsgId_silent _).bind fun _ => (findExisting_silent _ _ _).bind fun e => ?_
      cases e with
      | some e => exact replay_silent _ _ _ _ _
      | none => exact sendNew_silent _ _ _ _
    · exact (freshMsgId_silent _ _ _).bind fun _ => sendNew_silent _ _ _ _
  · cases he'
    exact he _ rfl

end Send

/-! ## Calls that stop -/

/-- The disk that is left when the call is stopped between two of its operations. -/
def Stopped (a : InitArgs) (s t : Disk) : Prop :=
  ∃ i u, (sessionInit a).Reaches world i (fun _ => True) s u ∧ t = u.crash i

/-- The call was stopped after it had put its `session.json` in place and before an agent
it names had an inbox. -/
def InWindow (a : InitArgs) (s t : Disk) : Prop :=
  ¬ Same a.sessionId s t ∧ ∃ aid, (aid = a.managerId ∨ aid ∈ a.agentIds) ∧
    Dir.box a.sessionId aid .inbox ∉ t.dirs

/-- What may happen between two calls: anything that leaves `session.json` and the
directories alone and holds no lock, and calls that stop outside that window. -/
inductive Onward (sid : String) : Disk → Disk → Prop
  | refl (s : Disk) : Onward sid s s
  | other {s t u : Disk} (h : Onward sid s t) (hsame : Same sid t u)
      (hdirs : ∀ d ∈ t.dirs, d ∈ u.dirs) (hlocks : u.inoLocks = []) : Onward sid s u
  | stop {s t u : Disk} {a : InitArgs} (h : Onward sid s t) (hsid : a.sessionId = sid)
      (hstop : Stopped a t u) (hw : ¬ InWindow a t u) : Onward sid s u

/-- Nobody holds a lock, and the session is complete if it is there. -/
structure Settled (sid : String) (s : Disk) : Prop where
  locks : s.inoLocks = []
  wrote : ∀ doc, stored sid s = some doc → ∃ m l n now, m ≠ "" ∧ Wrote doc m l n now
  complete : Complete sid s

/-- The later calls with the same manager and agents that return leave a complete session,
and sends between its members find their inboxes. -/
def Recovers (a : InitArgs) (t : Disk) : Prop :=
  ∀ t' (b : InitArgs) i text u, Onward a.sessionId t t' → b.sessionId = a.sessionId →
    b.managerId = a.managerId → (∀ aid, aid ∈ b.agentIds ↔ aid ∈ a.agentIds) →
    (sessionInit b).Runs world i (fun _ => True) t' (.ok text) u →
      Complete a.sessionId u ∧ ∀ doc (m : SendArgs) fuel j r v, stored a.sessionId u = some doc →
        m.sessionId = a.sessionId → m.fromId ∈ rosterOf doc →
        (m.toId = BROADCAST_TO ∨ m.toId ∈ rosterOf doc) →
        (send fuel m).Runs world j (fun _ => True) u r v →
          ∀ rid, r ≠ .error (.value ("agent not in session: " ++ rid))

variable {a : InitArgs} {s t : Disk}

theorem complete_merged {sid : String} {doc : Json} {m : String} {l : List String} {n : ℤ}
    {now : Json} (hs : Complete sid s) (hdoc : stored sid s = some doc)
    (hw : Wrote doc m l n now) (hdirs : ∀ d ∈ s.dirs, d ∈ t.dirs)
    (ht : stored sid t = some (mergedOf doc a))
    (hadded : ∀ aid ∈ added doc a, HasBoxes sid aid t) : Complete sid t := by
  intro doc' hdoc' aid haid
  rw [ht] at hdoc'
  cases hdoc'
  rw [(hw.mergedOf a).rosterOf, List.mem_cons, mem_sortedSet, List.mem_append] at haid
  by_cases hold : aid ∈ rosterOf doc
  · exact hdirs _ (hs doc hdoc aid hold)
  · rw [hw.rosterOf, List.mem_cons, not_or] at hold
    have hnew : aid ∈ a.agentIds :=
      (haid.resolve_left hold.1).resolve_left hold.2
    refine hadded aid (mem_sortedSet.mpr (List.mem_filter.mpr ⟨hnew, ?_⟩)) .inbox
    rw [hw.agentsOf]
    simpa using hold.2

theorem complete_created {sid : String} {now : ℕ} (ht : stored sid t = some (metaOf a now))
    (h : ∀ aid, aid = a.managerId ∨ aid ∈ a.agentIds → Dir.box sid aid .inbox ∈ t.dirs) :
    Complete sid t := by
  intro doc hdoc aid haid
  rw [ht] at hdoc
  cases hdoc
  rw [(wrote_metaOf a now).rosterOf, List.mem_cons, mem_sortedSet] at haid
  exact h aid haid

theorem Complete.same {sid : String} (h : Complete sid s) (hsame : Same sid s t)
    (hdirs : ∀ d ∈ s.dirs, d ∈ t.dirs) : Complete sid t := by
  intro doc hdoc aid haid
  rw [stored_congr hsame] at hdoc
  exact hdirs _ (h doc hdoc aid haid)

theorem Stopped.stage (h : Stopped a s t) (hlocks : s.inoLocks = []) :
    Since a.sessionId s t ∧ t.inoLocks = [] ∧ Stage True a s t := by
  obtain ⟨i, u, hu, rfl⟩ := h
  obtain ⟨⟨hdirs, hfiles, hboxes⟩, hl, hst⟩ := (sessionInit_total hlocks).reaches hu
  refine ⟨⟨hdirs, hfiles, hboxes⟩, ?_, ?_⟩
  · simp only [Disk.crash, List.filter_eq_nil_iff]
    intro e he
    simp [hl e he]
  · cases hst with
    | same h => exact .same h
    | merged hdoc hre ht hdirs => exact .merged hdoc hre ht hdirs
    | created hv _ ht => exact .created hv (.inl trivial) ht

theorem Settled.stop (hs : Settled a.sessionId s) (h : Stopped a s t) (hw : ¬ InWindow a s t) :
    Settled a.sessionId t := by
  obtain ⟨hst, hlocks, hstage⟩ := h.stage hs.locks
  by_cases hsame : Same a.sessionId s t
  · exact ⟨hlocks, by rw [stored_congr hsame]; exact hs.wrote, hs.complete.same hsame hst.dirs⟩
  · cases hstage with
    | same h => exact (hsame h).elim
    | merged hdoc hre ht hdirs =>
      obtain ⟨m, l, n, now, hne, hwrote⟩ := hs.wrote _ hdoc
      have ht' := ht.stored (ne_null_of_isDict (hwrote.mergedOf a).dict)
      refine ⟨hlocks, fun doc hdoc' => ?_, complete_merged hs.complete hdoc hwrote hst.dirs ht' hdirs⟩
      rw [ht'] at hdoc'
      cases hdoc'
      exact ⟨m, _, _, now, hne, hwrote.mergedOf a⟩
    | created hv _ ht =>
      have ht' := ht.stored nofun
      refine ⟨hlocks, fun doc hdoc' => ?_, complete_created ht' fun aid haid => ?_⟩
      · rw [ht'] at hdoc'
        cases hdoc'
        exact ⟨_, _, _, _, ne_empty_of_agentIdOk (InitArgs.valid_member hv (.inl rfl)),
          wrote_metaOf a _⟩
      · by_contra hno
        exact hw ⟨hsame, aid, haid, hno⟩

theorem Onward.settled {sid : String} (h : Onward sid s t) (hs : Settled sid s) :
    Settled sid t := by
  induction h with
  | refl => exact hs
  | other _ hsame hdirs hlocks ih =>
    exact ⟨hlocks, by rw [stored_congr hsame]; exact ih.wrote, ih.complete.same hsame hdirs⟩
  | stop _ hsid hstop hw ih =>
    subst hsid
    exact ih.stop hstop hw

/-- A call that returns leaves a complete session, if it began with one. -/
theorem Settled.complete_of_ok {text : String} {i : ℕ} (hs : Settled a.sessionId s)
    (h : (sessionInit a).Runs world i (fun _ => True) s (.ok text) t) : Complete a.sessionId t := by
  rcases (sessionInit_total hs.locks).ends _ _ h with ⟨-, hst, -, hout⟩ | ⟨-, ⟨msg, hr⟩, -⟩
  · generalize hr : (Except.ok text : Except PyErr String) = r at hout
    cases hout with
    | failed => cases hr
    | malformed => cases hr
    | reassigned => cases hr
    | blocked => cases hr
    | interrupted => cases hr
    | unchanged hdoc hre hnew hsame _ => exact hs.complete.same hsame hst.dirs
    | merged hdoc hre hnew ht hdirs =>
      obtain ⟨m, l, n, now, -, hwrote⟩ := hs.wrote _ hdoc
      exact complete_merged hs.complete hdoc hwrote hst.dirs
        (ht.stored (ne_null_of_isDict (hwrote.mergedOf a).dict)) hdirs
    | created _ ht _ hdirs =>
      exact complete_created (ht.stored nofun) fun aid haid => hdirs aid haid .inbox
  · cases hr

/-- The same call without the optional tables. -/
def InitArgs.again (a : InitArgs) : InitArgs := ⟨a.sessionId, a.managerId, a.agentIds, none, none, none⟩

theorem again_unchanged {now : ℕ} (hv : a.valid = true) (hlocks : t.inoLocks = [])
    (ht : stored a.sessionId t = some (metaOf a now)) :
    ∃ text u, (sessionInit a.again).Runs world 0 (fun _ => True) t (.ok text) u ∧
      stored a.sessionId u = some (metaOf a now) ∧
      ∀ aid b, Dir.box a.sessionId aid b ∈ u.dirs → Dir.box a.sessionId aid b ∈ t.dirs := by
  have htotal := sessionInit_total (P := Replay.NoFault) (i := 0) (a := a.again) hlocks
  obtain ⟨r, u, hrun⟩ := htotal.runs noFault_default
  have hw := wrote_metaOf a now
  have hadded : added (metaOf a now) a.again = [] := by
    rw [added, hw.agentsOf, List.filter_eq_nil_iff.mpr]
    · rfl
    · intro aid haid
      have haid : aid ∈ a.agentIds := haid
      simpa [mem_sortedSet] using haid
  have hnew : nothingNew (metaOf a now) a.again = true := by
    rw [nothingNew, hadded]
    rfl
  rcases htotal.ends _ _ hrun with ⟨-, -, -, hout⟩ | ⟨hv', -⟩
  · have hdoc : ∀ {doc}, stored a.again.sessionId t = some doc → doc = metaOf a now :=
      fun hdoc => Option.some.inj (hdoc.symm.trans ht)
    cases hout with
    | failed hF => exact (not_faulty hF).elim
    | malformed h hbad =>
      rw [hdoc h, hw.dict, hw.modesOk] at hbad
      simp at hbad
    | reassigned h hre =>
      rw [hdoc h, hw.reassigns (ne_empty_of_agentIdOk (InitArgs.valid_member hv (.inl rfl)))] at hre
      simp [InitArgs.again] at hre
    | blocked h _ haid =>
      rw [hdoc h, hadded] at haid
      cases haid
    | unchanged h _ _ hsame hboxes =>
      exact ⟨_, u, hrun.mono fun _ _ => trivial, (stored_congr hsame).trans ht, hboxes⟩
    | merged h _ hnew' =>
      rw [hdoc h, hnew] at hnew'
      cases hnew'
    | created hs =>
      have hs := hs.resolve_left not_faulty
      rw [show a.again.sessionId = a.sessionId from rfl, ht] at hs
      cases hs
    | interrupted hs =>
      have hs := hs.resolve_left not_faulty
      rw [show a.again.sessionId = a.sessionId from rfl, ht] at hs
      cases hs
  · have : a.again.valid = a.valid := rfl
    rw [this, hv] at hv'
    cases hv'

theorem absent_settled {sid : String} (hlocks : s.inoLocks = [])
    (hnone : s.files.get? (sessionFile sid) = none) : Settled sid s := by
  have hst : stored sid s = none := by rw [stored, hnone]
  refine ⟨hlocks, fun doc h => ?_, fun doc h => ?_⟩
  · rw [hst] at h
    cases h
  · rw [hst] at h
    cases h

theorem InWindow.not_recovers (hs : Settled a.sessionId s) (hstop : Stopped a s t)
    (h : InWindow a s t) : ¬ Recovers a t := by
  intro hrec
  obtain ⟨hchanged, aid, haid, hmissing⟩ := h
  obtain ⟨hst, hlocks, hstage⟩ := hstop.stage hs.locks
  cases hstage with
  | same h => exact hchanged h
  | merged hdoc hre ht hdirs =>
    -- a merge keeps the manager, so everybody it names has an inbox
    obtain ⟨m, l, n, now, hne, hw⟩ := hs.wrote _ hdoc
    have ht' := ht.stored (ne_null_of_isDict (hw.mergedOf a).dict)
    have hcomplete := complete_merged hs.complete hdoc hw hst.dirs ht' hdirs
    rw [hw.reassigns hne, decide_eq_false_iff_not, not_not] at hre
    refine hmissing (hcomplete _ ht' aid ?_)
    rw [(hw.mergedOf a).rosterOf, List.mem_cons, mem_sortedSet, List.mem_append, hre]
    exact haid.imp_right .inr
  | created hv _ ht =>
    have ht' := ht.stored nofun
    obtain ⟨text, u, hrun, hu, hboxes⟩ := again_unchanged hv hlocks ht'
    obtain ⟨hcomplete, -⟩ := hrec t a.again 0 text u (.refl t) rfl rfl (fun _ => Iff.rfl) hrun
    refine hmissing (hboxes _ _ (hcomplete _ hu aid ?_))
    rw [(wrote_metaOf a _).rosterOf, List.mem_cons, mem_sortedSet]
    exact haid

/-- **Later calls complete the session**, exactly if the call did not stop between the
renaming of `session.json` and the last inbox. -/
theorem recovers_iff {s₀ : Disk} (hlocks : s₀.inoLocks = [])
    (hnone : s₀.files.get? (sessionFile a.sessionId) = none) (hs : Onward a.sessionId s₀ s)
    (hstop : Stopped a s t) : Recovers a t ↔ ¬ InWindow a s t := by
  have hsettled := hs.settled (absent_settled hlocks hnone)
  refine ⟨fun hrec hw => hw.not_recovers hsettled hstop hrec, ?_⟩
  intro hw t' b i text u hlater hsid hmanager hagents hrun
  have ht := hlater.settled (hsettled.stop hstop hw)
  rw [← hsid] at ht ⊢
  have hcomplete := ht.complete_of_ok hrun
  refine ⟨hcomplete, fun doc m fuel j r v hdoc hm _ hto hsend rid hr => ?_⟩
  rw [← hm] at hdoc hcomplete
  exact send_quiet hcomplete hdoc hto _ _ hsend _ hr ⟨rid, rfl⟩

/-- A session of two, and its creation stopped after `n` operations. -/
def creation : InitArgs := ⟨"s", "m", ["a"], none, none, none⟩

def creationStopped (n : ℕ) : Disk :=
  (Prog.after world 0 {} n (sessionInit creation) noSession).crash 0

theorem creationStopped_stopped (n : ℕ) : Stopped creation noSession (creationStopped n) :=
  ⟨0, _, Prog.reaches_after trivial n _ _, rfl⟩

theorem recovers_iff_before_rename : Recovers creation (creationStopped 6) :=
  (recovers_iff rfl rfl (.refl noSession) (creationStopped_stopped 6)).mpr
    fun h => h.1 (by decide +kernel)

/-- The call dies when it has renamed `session.json`. -/
theorem creation_stopped_in_window : ¬ ∀ (a : InitArgs) (s₀ s t : Disk), s₀.inoLocks = [] →
    s₀.files.get? (sessionFile a.sessionId) = none → Onward a.sessionId s₀ s → Stopped a s t →
    Recovers a t := by
  intro h
  have hwindow : InWindow creation noSession (creationStopped 7) :=
    ⟨by decide +kernel, "a", .inr (by decide), by decide +kernel⟩
  exact hwindow.not_recovers (absent_settled rfl rfl) (creationStopped_stopped 7)
    (h creation noSession noSession _ rfl rfl (.refl _) (creationStopped_stopped 7))

end AiMeshChat.Mailbox.Sessions
