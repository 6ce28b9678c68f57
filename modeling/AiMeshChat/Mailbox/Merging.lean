import AiMeshChat.Mailbox.Sessions

/-!
# Merging into a session

The calls of `session_init` for one session, one after the other, each run to its end.
The first one that names no malformed identifier creates the session, and every later
one is merged into it: the manager and the time stay, the roster is the union, the
revision counts the writes, and every member has its directories
(`merges_iff`).

The exception is a first call that names an agent `session.json`, which is a
well-formed identifier. The file of that name is written before the directories are
made and is in the way of one of them: the call raises, but the session stays.
-/

namespace AiMeshChat.Mailbox.Sessions

open Lib

/-! ## What `session_init` writes -/

/-- A document with the manager `m`, the roster `l`, the revision `n` and the time `now`. -/
structure Wrote (doc : Json) (m : String) (l : List String) (n : ℤ) (now : Json) : Prop where
  dict : doc.isDict = true
  manager : doc.get? "manager" = some (.str m)
  agents : doc.get? "agents" = some (.arr (l.map .str))
  revision : doc.get? "manifest_revision" = some (.int n)
  createdAt : doc.get? "created_at" = some now
  executionModes : (modesOf doc "execution_modes").isDict = true
  returnModes : (modesOf doc "return_modes").isDict = true

theorem filterMap_str (l : List String) : (l.map Json.str).filterMap Json.str? = l := by
  induction l with
  | nil => rfl
  | cons x rest ih => simp [Json.str?, ih]

namespace Wrote

variable {doc : Json} {m : String} {l : List String} {n : ℤ} {now : Json}

theorem agentsOf (h : Wrote doc m l n now) : Sessions.agentsOf doc = l := by
  rw [Sessions.agentsOf, h.agents]
  exact filterMap_str l

theorem rosterOf (h : Wrote doc m l n now) : Mailbox.rosterOf doc = m :: l := by
  rw [Mailbox.rosterOf, h.agents, Json.getStr, h.manager]
  exact congrArg (m :: ·) (filterMap_str l)

theorem revisionOf (h : Wrote doc m l n now) : Sessions.revisionOf doc = n := by
  rw [Sessions.revisionOf, h.revision]
  rfl

theorem reassigns (h : Wrote doc m l n now) (hm : m ≠ "") (a : InitArgs) :
    reassigns doc a = decide (m ≠ a.managerId) := by
  simp [Sessions.reassigns, managerOf, h.manager, Json.truthy, hm]

theorem modesOk (h : Wrote doc m l n now) (a : InitArgs) : modesOk doc a = true := by
  simp [Sessions.modesOk, h.executionModes, h.returnModes]

theorem set (h : Wrote doc m l n now) {key : String} (v : Json)
    (hkey : key ∉ ["manager", "agents", "manifest_revision", "created_at"])
    (hv : key ∈ ["execution_modes", "return_modes"] → v.isDict = true) :
    Wrote (doc.set key v) m l n now := by
  simp only [List.mem_cons, List.not_mem_nil, or_false, not_or] at hkey
  obtain ⟨h₁, h₂, h₃, h₄⟩ := hkey
  have hmodes : ∀ k ∈ ["execution_modes", "return_modes"], (modesOf doc k).isDict = true →
      (modesOf (doc.set key v) k).isDict = true := by
    intro k hk hdoc
    by_cases hkk : k = key
    · subst hkk
      rw [modesOf, Json.get?_set_self _ _ h.dict]
      exact hv hk
    · rwa [modesOf, Json.get?_set_ne _ _ hkk]
  exact
    { dict := (Json.isDict_set _ _ _).trans h.dict
      manager := (Json.get?_set_ne _ _ (Ne.symm h₁)).trans h.manager
      agents := (Json.get?_set_ne _ _ (Ne.symm h₂)).trans h.agents
      revision := (Json.get?_set_ne _ _ (Ne.symm h₃)).trans h.revision
      createdAt := (Json.get?_set_ne _ _ (Ne.symm h₄)).trans h.createdAt
      executionModes := hmodes _ (by simp) h.executionModes
      returnModes := hmodes _ (by simp) h.returnModes }

theorem setAgents (h : Wrote doc m l n now) (l' : List String) :
    Wrote (doc.set "agents" (.arr (l'.map .str))) m l' n now where
  dict := (Json.isDict_set _ _ _).trans h.dict
  manager := (Json.get?_set_ne _ _ (by decide)).trans h.manager
  agents := Json.get?_set_self _ _ h.dict
  revision := (Json.get?_set_ne _ _ (by decide)).trans h.revision
  createdAt := (Json.get?_set_ne _ _ (by decide)).trans h.createdAt
  executionModes := by
    rw [modesOf, Json.get?_set_ne _ _ (by decide)]
    exact h.executionModes
  returnModes := by
    rw [modesOf, Json.get?_set_ne _ _ (by decide)]
    exact h.returnModes

theorem setRevision (h : Wrote doc m l n now) (n' : ℤ) :
    Wrote (doc.set "manifest_revision" (.int n')) m l n' now where
  dict := (Json.isDict_set _ _ _).trans h.dict
  manager := (Json.get?_set_ne _ _ (by decide)).trans h.manager
  agents := (Json.get?_set_ne _ _ (by decide)).trans h.agents
  revision := Json.get?_set_self _ _ h.dict
  createdAt := (Json.get?_set_ne _ _ (by decide)).trans h.createdAt
  executionModes := by
    rw [modesOf, Json.get?_set_ne _ _ (by decide)]
    exact h.executionModes
  returnModes := by
    rw [modesOf, Json.get?_set_ne _ _ (by decide)]
    exact h.returnModes

end Wrote

theorem isDict_updated {d : Json} (h : d.isDict = true) (modes : List (String × String)) :
    (updated d modes).isDict = true := by
  induction modes generalizing d with
  | nil => exact h
  | cons kv rest ih => exact ih ((Json.isDict_set _ _ _).trans h)

variable {doc : Json} {sid aid : String} {s : Disk} {done : List InitArgs}

theorem Wrote.setModes {m : String} {l : List String} {n : ℤ} {now : Json} (h : Wrote doc m l n now)
    {key : String} (hkey : key ∈ ["execution_modes", "return_modes"])
    (modes : Option (List (String × String))) : Wrote (setModes doc key modes) m l n now := by
  cases modes with
  | none => exact h
  | some modes =>
    refine h.set _ ?_ fun _ => isDict_updated ?_ modes
    · rintro hno
      simp only [List.mem_cons, List.not_mem_nil, or_false] at hkey hno
      rcases hkey with rfl | rfl <;> revert hno <;> decide
    · simp only [List.mem_cons, List.not_mem_nil, or_false] at hkey
      rcases hkey with rfl | rfl
      · exact h.executionModes
      · exact h.returnModes

theorem Wrote.mergedOf {m : String} {l : List String} {n : ℤ} {now : Json} (h : Wrote doc m l n now)
    (a : InitArgs) : Wrote (mergedOf doc a) m (sortedSet (l ++ a.agentIds)) (n + 1) now := by
  have h₁ := (h.setAgents (sortedSet (l ++ a.agentIds))).setRevision (n + 1)
  rw [Sessions.mergedOf, h.agentsOf, h.revisionOf]
  cases a.acl with
  | none => exact (h₁.setModes (by simp) _).setModes (by simp) _
  | some acl =>
    exact ((h₁.set (.obj acl) (by decide) fun _ => rfl).setModes (by simp) _).setModes (by simp) _

theorem wrote_metaOf (a : InitArgs) (now : ℕ) :
    Wrote (metaOf a now) a.managerId (sortedSet a.agentIds) 1 (.str (isoFormat now)) where
  dict := rfl
  manager := rfl
  agents := rfl
  revision := rfl
  createdAt := rfl
  executionModes := by
    cases hacl : a.acl <;> cases hem : a.executionModes <;> cases hrm : a.returnModes <;>
      simp [metaOf, modesOf, modesJson, hacl, hem, hrm, List.lookup_cons, Json.isDict]
  returnModes := by
    cases hacl : a.acl <;> cases hem : a.executionModes <;> cases hrm : a.returnModes <;>
      simp [metaOf, modesOf, modesJson, hacl, hem, hrm, List.lookup_cons, Json.isDict]

/-! ## Sequences of calls -/

/-- A call that has come to its end: its parameters, what it answered, and the disk it left. -/
structure Past where
  args : InitArgs
  result : Except PyErr String
  disk : Disk

/-- The calls are for the session and run one after the other, nobody else moving, on a
disk that does not fail. -/
def Calls (sid : String) : Disk → List Past → Prop
  | _, [] => True
  | s, c :: rest => c.args.sessionId = sid ∧
    (∃ i, (sessionInit c.args).Runs world i Replay.NoFault s c.result c.disk) ∧ Calls sid c.disk rest

/-- The session does not exist. -/
structure Absent (sid : String) (s : Disk) : Prop where
  locks : s.inoLocks = []
  files : ∀ name, s.files.get? ⟨.session sid, name⟩ = none
  boxes : ∀ aid b, Dir.box sid aid b ∉ s.dirs

/-- The call returned. -/
def Past.accepted (c : Past) : List InitArgs :=
  match c.result with
  | .ok _ => [c.args]
  | .error _ => []

/-- What a call does, after the accepted calls `done` and on the disk `s`. -/
structure Merge (sid : String) (done : List InitArgs) (s : Disk) (c : Past) : Prop where
  kept : ∀ doc, stored sid s = some doc → ∃ doc', stored sid c.disk = some doc' ∧
    doc'.get? "manager" = doc.get? "manager" ∧ doc'.get? "created_at" = doc.get? "created_at"
  manager : ∀ first rest, done ++ c.accepted = first :: rest →
    ∃ doc, stored sid c.disk = some doc ∧ doc.get? "manager" = some (.str first.managerId)
  refused : ∀ doc m, stored sid s = some doc → doc.get? "manager" = some (.str m) →
    m ≠ c.args.managerId → (∃ msg, c.result = .error (.value msg)) ∧ Same sid s c.disk
  agents : ∀ doc, stored sid c.disk = some doc → ∀ l : List InitArgs,
    l.Perm (done ++ c.accepted) →
      doc.get? "agents" = some (.arr ((sortedSet (l.flatMap (·.agentIds))).map .str))
  revision : Same sid s c.disk ∨ ∃ doc', stored sid c.disk = some doc' ∧
    doc'.get? "manifest_revision" =
      some (.int (((stored sid s).map revisionOf).getD 0 + 1))
  boxes : ∀ doc, stored sid c.disk = some doc → ∀ aid ∈ rosterOf doc, HasBoxes sid aid c.disk

/-- Every call of the sequence does that. -/
def Merges (sid : String) : List InitArgs → Disk → List Past → Prop
  | _, _, [] => True
  | done, s, c :: rest => Merge sid done s c ∧ Merges sid (done ++ c.accepted) c.disk rest

/-- The first call whose identifiers are well formed. -/
def firstValid (cs : List Past) : Option InitArgs := (cs.map Past.args).find? InitArgs.valid

/-- The call names no agent like the file. -/
def InitArgs.Clean (a : InitArgs) : Prop :=
  a.managerId ≠ "session.json" ∧ "session.json" ∉ a.agentIds

/-! ### One call -/

/-- The disk after the accepted calls `done`. -/
structure After (sid : String) (done : List InitArgs) (s : Disk) : Prop where
  locks : s.inoLocks = []
  free : ∀ aid, agentIdOk aid = true → aid ≠ "session.json" → taken sid aid s = false
  boxes : ∀ b, Dir.box sid "session.json" b ∉ s.dirs
  absent : done = [] → s.files.get? (sessionFile sid) = none
  wrote : ∀ first rest, done = first :: rest → first.managerId ≠ "" ∧
    ∃ doc n now, stored sid s = some doc ∧
      Wrote doc first.managerId (sortedSet (done.flatMap (·.agentIds))) n now ∧
      ∀ aid ∈ rosterOf doc, HasBoxes sid aid s

theorem Absent.after (h : Absent sid s) : After sid [] s where
  locks := h.locks
  free aid _ _ := by rw [taken, h.files]; rfl
  boxes := h.boxes _
  absent _ := h.files _
  wrote _ _ h := by cases h

theorem After.stored_none (h : After sid done s) (hdone : done = []) : stored sid s = none := by
  rw [stored, h.absent hdone]

/-- Hidden files and `session.json` apart, a call leaves the files of the session alone. -/
theorem Since.free {t : Disk} (h : Since sid s t) (haid : agentIdOk aid = true)
    (hne : aid ≠ "session.json") : taken sid aid t = taken sid aid s := by
  obtain ⟨hlock, hdraft⟩ := ne_of_agentIdOk haid
  rw [taken, taken, h.files] <;> simpa [lockFile, draftFile, sessionFile]

theorem ne_null_of_isDict {j : Json} (h : j.isDict = true) : j ≠ .null := by
  rintro rfl
  cases h

theorem ne_empty_of_agentIdOk (h : agentIdOk aid = true) : aid ≠ "" := by
  rintro rfl
  revert h
  decide

/-- A disk on which `session.json` is the same file is one after the same calls. -/
theorem After.same {t : Disk} (h : After sid done s) (hst : Since sid s t)
    (hlocks : t.inoLocks = []) (hsame : Same sid s t) : After sid done t where
  locks := hlocks
  free aid haid hne := (hst.free haid hne).trans (h.free aid haid hne)
  boxes b hb := h.boxes b (hst.boxes b hb)
  absent hdone := hsame.trans (h.absent hdone)
  wrote first rest hdone := by
    obtain ⟨hne, doc, n, now, hdoc, hw, hboxes⟩ := h.wrote first rest hdone
    exact ⟨hne, doc, n, now, (stored_congr hsame).trans hdoc, hw,
      fun aid haid b => hst.dirs _ (hboxes aid haid b)⟩

theorem sortedSet_perm {l l' : List InitArgs} (h : l.Perm l') :
    sortedSet (l.flatMap (·.agentIds)) = sortedSet (l'.flatMap (·.agentIds)) := by
  refine sortedSet_congr fun aid => ?_
  rw [List.mem_flatMap, List.mem_flatMap]
  exact exists_congr fun a => and_congr_left fun _ => h.mem_iff

theorem After.merge {sid : String} {done : List InitArgs} {s : Disk} {c : Past}
    (h : After sid (done ++ c.accepted) c.disk)
    (hkept : ∀ doc, stored sid s = some doc → ∃ doc', stored sid c.disk = some doc' ∧
      doc'.get? "manager" = doc.get? "manager" ∧ doc'.get? "created_at" = doc.get? "created_at")
    (hrefused : ∀ doc m, stored sid s = some doc → doc.get? "manager" = some (.str m) →
      m ≠ c.args.managerId → (∃ msg, c.result = .error (.value msg)) ∧ Same sid s c.disk)
    (hrevision : Same sid s c.disk ∨ ∃ doc', stored sid c.disk = some doc' ∧
      doc'.get? "manifest_revision" =
        some (.int (((stored sid s).map revisionOf).getD 0 + 1))) : Merge sid done s c := by
  have hwrote : ∀ doc, stored sid c.disk = some doc → ∃ m n now,
      Wrote doc m (sortedSet ((done ++ c.accepted).flatMap (·.agentIds))) n now ∧
      ∀ aid ∈ rosterOf doc, HasBoxes sid aid c.disk := by
    intro doc hdoc
    cases hall : done ++ c.accepted with
    | nil =>
      rw [h.stored_none hall] at hdoc
      cases hdoc
    | cons first rest =>
      obtain ⟨-, doc', n, now, hdoc', hw, hboxes⟩ := h.wrote first rest hall
      rw [hdoc] at hdoc'
      cases hdoc'
      rw [← hall]
      exact ⟨_, n, now, hw, hboxes⟩
  refine ⟨hkept, fun first rest hall => ?_, hrefused, fun doc hdoc l hl => ?_, hrevision,
    fun doc hdoc => ?_⟩
  · obtain ⟨-, doc, n, now, hdoc, hw, -⟩ := h.wrote first rest hall
    exact ⟨doc, hdoc, hw.manager⟩
  · obtain ⟨m, n, now, hw, -⟩ := hwrote doc hdoc
    rw [sortedSet_perm hl]
    exact hw.agents
  · obtain ⟨m, n, now, -, hboxes⟩ := hwrote doc hdoc
    exact hboxes

theorem After.found (h : After sid done s) (hdoc : stored sid s = some doc) :
    ∃ first rest n now, done = first :: rest ∧ first.managerId ≠ "" ∧
      Wrote doc first.managerId (sortedSet (done.flatMap (·.agentIds))) n now ∧
      ∀ aid ∈ rosterOf doc, HasBoxes sid aid s := by
  cases hdone : done with
  | nil =>
    rw [h.stored_none hdone] at hdoc
    cases hdoc
  | cons first rest =>
    obtain ⟨hne, doc', n, now, hdoc', hw, hboxes⟩ := h.wrote first rest hdone
    rw [hdoc] at hdoc'
    cases hdoc'
    rw [hdone] at hw
    exact ⟨first, rest, n, now, rfl, hne, hw, hboxes⟩

theorem sortedSet_snoc (done : List InitArgs) (a : InitArgs) :
    sortedSet (sortedSet (done.flatMap (·.agentIds)) ++ a.agentIds) =
      sortedSet ((done ++ [a]).flatMap (·.agentIds)) := by
  refine sortedSet_congr fun aid => ?_
  simp [mem_sortedSet]

/-- A call that leaves `session.json` as it is and does not return. -/
theorem After.refusal {sid : String} {done : List InitArgs} {s : Disk} {c : Past} {e : PyErr}
    (h : After sid done s) (hst : Since sid s c.disk) (hlocks : c.disk.inoLocks = [])
    (hsame : Same sid s c.disk) (hr : c.result = .error e)
    (hvalue : ∀ doc m, stored sid s = some doc → doc.get? "manager" = some (.str m) →
      m ≠ c.args.managerId → ∃ msg, e = .value msg) :
    Merge sid done s c ∧ After sid (done ++ c.accepted) c.disk := by
  have hacc : c.accepted = [] := by rw [Past.accepted, hr]
  have hafter : After sid (done ++ c.accepted) c.disk := by
    rw [hacc, List.append_nil]
    exact h.same hst hlocks hsame
  refine ⟨hafter.merge (fun doc hdoc => ⟨doc, (stored_congr hsame).trans hdoc, rfl, rfl⟩) ?_
    (.inl hsame), hafter⟩
  intro doc m hdoc hm hne
  obtain ⟨msg, rfl⟩ := hvalue doc m hdoc hm hne
  exact ⟨⟨msg, hr⟩, hsame⟩

theorem InitArgs.valid_member {a : InitArgs} (h : a.valid = true)
    (haid : aid = a.managerId ∨ aid ∈ a.agentIds) : agentIdOk aid = true := by
  simp only [InitArgs.valid, Bool.and_eq_true, List.all_eq_true] at h
  rcases haid with rfl | haid
  · exact h.1.2
  · exact h.2 aid haid

theorem After.nil_of_stored (h : After sid done s) (hnone : stored sid s = none) : done = [] := by
  cases hdone : done with
  | nil => rfl
  | cons first rest =>
    obtain ⟨-, doc, n, now, hdoc, -⟩ := h.wrote first rest hdone
    rw [hnone] at hdoc
    cases hdoc

theorem mem_of_nothingNew {a : InitArgs} (h : nothingNew doc a = true)
    (haid : aid ∈ a.agentIds) : aid ∈ agentsOf doc := by
  by_contra hno
  have hmem : aid ∈ added doc a :=
    mem_sortedSet.mpr (List.mem_filter.mpr ⟨haid, by simpa using hno⟩)
  simp only [nothingNew, Bool.and_eq_true, decide_eq_true_eq] at h
  rw [h.1.1.1] at hmem
  cases hmem

section Step

variable {sid : String} {done : List InitArgs} {s : Disk} {c : Past}

theorem After.unchanged {doc : Json} (h : After sid done s) (hst : Since sid s c.disk)
    (hlocks : c.disk.inoLocks = []) (hacc : c.accepted = [c.args])
    (hdoc : stored sid s = some doc) (hre : reassigns doc c.args = false)
    (hnew : nothingNew doc c.args = true) (hsame : Same sid s c.disk) :
    Merge sid done s c ∧ After sid (done ++ c.accepted) c.disk := by
  have ht := h.same hst hlocks hsame
  have hdoc' : stored sid c.disk = some doc := (stored_congr hsame).trans hdoc
  obtain ⟨first, rest, n, now, rfl, hne, hw, hboxes⟩ := ht.found hdoc'
  have hunion : sortedSet ((first :: rest).flatMap (·.agentIds)) =
      sortedSet ((first :: rest ++ c.accepted).flatMap (·.agentIds)) := by
    rw [hacc, ← sortedSet_snoc]
    refine sortedSet_congr fun aid => ?_
    rw [List.mem_append, mem_sortedSet]
    refine ⟨.inl, fun haid => haid.elim id fun haid => ?_⟩
    have hmem := mem_of_nothingNew hnew haid
    rw [hw.agentsOf] at hmem
    exact mem_sortedSet.mp hmem
  have hafter : After sid (first :: rest ++ c.accepted) c.disk :=
    { locks := ht.locks
      free := ht.free
      boxes := ht.boxes
      absent := fun hnil => by cases hnil
      wrote := by
        rintro first' rest' hall
        cases hall
        exact ⟨hne, doc, n, now, hdoc', hunion ▸ hw, hboxes⟩ }
  refine ⟨hafter.merge (fun doc hdoc => ⟨doc, (stored_congr hsame).trans hdoc, rfl, rfl⟩) ?_
    (.inl hsame), hafter⟩
  intro doc₁ m hdoc₁ hm hdiff
  rw [hdoc] at hdoc₁
  cases hdoc₁
  rw [hw.manager] at hm
  cases hm
  rw [hw.reassigns hne, decide_eq_false_iff_not, not_not] at hre
  exact (hdiff hre).elim

theorem After.merged {doc : Json} (h : After sid done s) (hst : Since sid s c.disk)
    (hlocks : c.disk.inoLocks = []) (hacc : c.accepted = [c.args])
    (hdoc : stored sid s = some doc) (hre : reassigns doc c.args = false)
    (hdoc' : stored sid c.disk = some (mergedOf doc c.args))
    (hdirs : ∀ aid ∈ added doc c.args, HasBoxes sid aid c.disk) :
    Merge sid done s c ∧ After sid (done ++ c.accepted) c.disk := by
  obtain ⟨first, rest, n, now, rfl, hne, hw, hboxes⟩ := h.found hdoc
  have hw' := hw.mergedOf c.args
  have hunion := sortedSet_snoc (first :: rest) c.args
  rw [hunion, ← hacc] at hw'
  have hafter : After sid (first :: rest ++ c.accepted) c.disk :=
    { locks := hlocks
      free := fun aid haid hne => (hst.free haid hne).trans (h.free aid haid hne)
      boxes := fun b hb => h.boxes b (hst.boxes b hb)
      absent := fun hnil => by cases hnil
      wrote := by
        rintro first' rest' hall
        cases hall
        refine ⟨hne, _, _, now, hdoc', hw', fun aid haid b => ?_⟩
        rw [hw'.rosterOf, hacc, ← hunion, List.mem_cons, mem_sortedSet, List.mem_append] at haid
        rw [hw.rosterOf] at hboxes
        by_cases hold : aid ∈ first.managerId :: sortedSet ((first :: rest).flatMap (·.agentIds))
        · exact hst.dirs _ (hboxes aid hold b)
        · have hnew : aid ∈ c.args.agentIds := by
            rw [List.mem_cons] at hold
            tauto
          refine hdirs aid (mem_sortedSet.mpr (List.mem_filter.mpr ⟨hnew, ?_⟩)) b
          rw [hw.agentsOf]
          simpa using fun hmem => hold (List.mem_cons_of_mem _ hmem) }
  refine ⟨hafter.merge ?_ ?_ ?_, hafter⟩
  · intro doc₁ hdoc₁
    rw [hdoc] at hdoc₁
    cases hdoc₁
    exact ⟨_, hdoc', hw'.manager.trans hw.manager.symm, hw'.createdAt.trans hw.createdAt.symm⟩
  · intro doc₁ m hdoc₁ hm hdiff
    rw [hdoc] at hdoc₁
    cases hdoc₁
    rw [hw.manager] at hm
    cases hm
    rw [hw.reassigns hne, decide_eq_false_iff_not, not_not] at hre
    exact (hdiff hre).elim
  · refine .inr ⟨_, hdoc', ?_⟩
    rw [hw'.revision, hdoc, Option.map_some, Option.getD_some, hw.revisionOf]

theorem After.created {now : ℕ} (h : After sid done s) (hst : Since sid s c.disk)
    (hlocks : c.disk.inoLocks = []) (hacc : c.accepted = [c.args]) (hv : c.args.valid = true)
    (hnone : stored sid s = none) (hdoc' : stored sid c.disk = some (metaOf c.args now))
    (hdirs : ∀ aid, aid = c.args.managerId ∨ aid ∈ c.args.agentIds → HasBoxes sid aid c.disk) :
    Merge sid done s c ∧ After sid (done ++ c.accepted) c.disk := by
  obtain rfl := h.nil_of_stored hnone
  have hw := wrote_metaOf c.args now
  have hafter : After sid ([] ++ c.accepted) c.disk :=
    { locks := hlocks
      free := fun aid haid hne => (hst.free haid hne).trans (h.free aid haid hne)
      boxes := fun b hb => h.boxes b (hst.boxes b hb)
      absent := fun hnil => by rw [hacc] at hnil; cases hnil
      wrote := by
        rw [hacc]
        rintro first' rest' hall
        cases hall
        have hw' : Wrote (metaOf c.args now) c.args.managerId
            (sortedSet (([] ++ [c.args]).flatMap InitArgs.agentIds)) 1 (.str (isoFormat now)) := by
          simpa using hw
        refine ⟨ne_empty_of_agentIdOk (InitArgs.valid_member hv (.inl rfl)), _, _, _, hdoc', hw',
          fun aid haid => ?_⟩
        rw [hw.rosterOf, List.mem_cons, mem_sortedSet] at haid
        exact hdirs aid haid }
  refine ⟨hafter.merge ?_ ?_ ?_, hafter⟩
  · intro doc hdoc
    rw [hnone] at hdoc
    cases hdoc
  · intro doc m hdoc
    rw [hnone] at hdoc
    cases hdoc
  · refine .inr ⟨_, hdoc', ?_⟩
    rw [hnone]
    exact hw.revision

theorem not_faulty : ¬ Faulty Replay.NoFault := by
  rintro ⟨c, hc, hf⟩
  rw [hc] at hf
  cases hf

/-- **One call**, if it does not create the session with an agent named like the file. -/
theorem After.step (h : After sid done s) (hsid : c.args.sessionId = sid)
    (hrun : ∃ i, (sessionInit c.args).Runs world i Replay.NoFault s c.result c.disk)
    (hclean : done = [] → c.args.valid = true → c.args.Clean) :
    (Merge sid done s c ∧ After sid (done ++ c.accepted) c.disk) ∧
      (done = [] → c.args.valid = true → c.accepted ≠ []) := by
  subst hsid
  obtain ⟨i, hrun⟩ := hrun
  rcases (sessionInit_total h.locks).ends _ _ hrun with
    ⟨hv, hst, hlocks, hout⟩ | ⟨hv, ⟨msg, hr⟩, ht⟩
  · have hreturned : ∀ {text}, c.result = .ok text → c.accepted = [c.args] := fun hr => by
      rw [Past.accepted, hr]
    have hexists : ∀ {doc}, stored c.args.sessionId s = some doc → done = [] →
        c.args.valid = true → c.accepted ≠ [] := fun hdoc hdone => by
      rw [h.stored_none hdone] at hdoc
      cases hdoc
    generalize hr : c.result = r at hout
    cases hout with
    | failed hF => exact (not_faulty hF).elim
    | malformed hdoc hbad =>
      obtain ⟨first, rest, n, now, -, -, hw, -⟩ := h.found hdoc
      rw [hw.dict, hw.modesOk] at hbad
      simp at hbad
    | reassigned hdoc hre hsame =>
      exact ⟨h.refusal hst hlocks hsame hr fun _ _ _ _ _ => ⟨_, rfl⟩, hexists hdoc⟩
    | blocked hdoc hre haid htaken hsame =>
      refine ⟨h.refusal hst hlocks hsame hr fun doc₁ m hdoc₁ hm hdiff => ?_, hexists hdoc⟩
      rw [hdoc] at hdoc₁
      cases hdoc₁
      obtain ⟨first, rest, n, now, -, hne, hw, -⟩ := h.found hdoc
      rw [hw.manager] at hm
      cases hm
      rw [hw.reassigns hne, decide_eq_false_iff_not, not_not] at hre
      exact (hdiff hre).elim
    | unchanged hdoc hre hnew hsame _ =>
      exact ⟨h.unchanged hst hlocks (hreturned hr) hdoc hre hnew hsame, hexists hdoc⟩
    | merged hdoc hre hnew ht hdirs =>
      obtain ⟨first, rest, n, now, -, -, hw, -⟩ := h.found hdoc
      exact ⟨h.merged hst hlocks (hreturned hr) hdoc hre
        (ht.stored (ne_null_of_isDict (hw.mergedOf c.args).dict)) hdirs, hexists hdoc⟩
    | created hs ht hfree hdirs =>
      refine ⟨h.created hst hlocks (hreturned hr) hv (hs.resolve_left not_faulty)
        (ht.stored nofun) hdirs, fun _ _ => ?_⟩
      rw [hreturned hr]
      exact List.cons_ne_nil _ _
    | @interrupted _ aid hs ht haid htaken =>
      obtain ⟨hmanager, hagents⟩ := hclean (h.nil_of_stored (hs.resolve_left not_faulty)) hv
      have hok := InitArgs.valid_member hv haid
      have hne : aid ≠ "session.json" := by
        rintro rfl
        rcases haid with haid | haid
        · exact hmanager haid.symm
        · exact hagents haid
      rw [hst.free hok hne, h.free _ hok hne] at htaken
      cases htaken
  · refine ⟨h.refusal ?_ ?_ ?_ hr fun _ _ _ _ _ => ⟨_, rfl⟩, fun _ hv' => ?_⟩
    · rw [ht]; exact .refl _ s
    · rw [ht]; exact h.locks
    · rw [Same, ht]
    · rw [hv] at hv'
      cases hv'

end Step

/-! ### All calls -/

theorem After.merges {sid : String} {cs : List Past} : ∀ {done : List InitArgs} {s : Disk},
    After sid done s → Calls sid s cs →
      (done = [] → ∀ a, firstValid cs = some a → a.Clean) → Merges sid done s cs := by
  induction cs with
  | nil => intro done s _ _ _; trivial
  | cons c rest ih =>
    intro done s h hcs hclean
    obtain ⟨hsid, hrun, hrest⟩ := hcs
    have hfirst : done = [] → c.args.valid = true → c.args.Clean := fun hdone hv =>
      hclean hdone c.args (by simp [firstValid, hv])
    obtain ⟨⟨hmerge, hafter⟩, haccepts⟩ := h.step hsid hrun hfirst
    refine ⟨hmerge, ih hafter hrest fun hnil a ha => ?_⟩
    obtain ⟨rfl, hacc⟩ := List.append_eq_nil_iff.mp hnil
    -- a call that is not accepted has a malformed identifier
    have hv : c.args.valid = false := Bool.eq_false_iff.mpr fun hv => haccepts rfl hv hacc
    exact hclean rfl a (by simpa [firstValid, hv] using ha)

theorem Absent.not_merge {sid : String} {s : Disk} {c : Past} (h : Absent sid s)
    (hsid : c.args.sessionId = sid)
    (hrun : ∃ i, (sessionInit c.args).Runs world i Replay.NoFault s c.result c.disk)
    (hv : c.args.valid = true) (hclean : ¬ c.args.Clean) : ¬ Merge sid [] s c := by
  intro hmerge
  subst hsid
  obtain ⟨i, hrun⟩ := hrun
  have hnone := h.after.stored_none rfl
  have hnamed : "session.json" = c.args.managerId ∨ "session.json" ∈ c.args.agentIds := by
    by_contra hno
    rw [not_or] at hno
    exact hclean ⟨Ne.symm hno.1, hno.2⟩
  rcases (sessionInit_total h.locks).ends _ _ hrun with ⟨-, hst, -, hout⟩ | ⟨hv', -⟩
  · generalize c.result = r at hout
    have hmissing : ∀ {now}, Holds c.args.sessionId c.disk (metaOf c.args now) → False := by
      intro now ht
      have hmem : "session.json" ∈ rosterOf (metaOf c.args now) := by
        rw [(wrote_metaOf c.args now).rosterOf, List.mem_cons, mem_sortedSet]
        exact hnamed
      exact h.boxes _ _ (hst.boxes _ (hmerge.boxes _ (ht.stored nofun) _ hmem .inbox))
    cases hout with
    | failed hF => exact not_faulty hF
    | malformed hdoc _ _ => rw [hnone] at hdoc; cases hdoc
    | reassigned hdoc _ _ => rw [hnone] at hdoc; cases hdoc
    | blocked hdoc _ _ _ _ => rw [hnone] at hdoc; cases hdoc
    | unchanged hdoc _ _ _ _ => rw [hnone] at hdoc; cases hdoc
    | merged hdoc _ _ _ _ => rw [hnone] at hdoc; cases hdoc
    | created hs ht hfree hdirs => exact hmissing ht
    | interrupted hs ht haid htaken => exact hmissing ht
  · rw [hv] at hv'
    cases hv'

theorem Absent.clean_of_merges {sid : String} {s : Disk} {cs : List Past} (h : Absent sid s)
    (hcs : Calls sid s cs) (hm : Merges sid [] s cs) :
    ∀ a, firstValid cs = some a → a.Clean := by
  induction cs generalizing s with
  | nil => intro a ha; cases ha
  | cons c rest ih =>
    intro a ha
    obtain ⟨hsid, hrun, hrest⟩ := hcs
    cases hv : c.args.valid with
    | true =>
      simp only [firstValid, List.map_cons, List.find?_cons, hv, Option.some.injEq] at ha
      subst ha
      by_contra hclean
      exact h.not_merge hsid hrun hv hclean hm.1
    | false =>
      subst hsid
      obtain ⟨i, hrun⟩ := hrun
      rcases (sessionInit_total h.locks).ends _ _ hrun with ⟨hv', -⟩ | ⟨-, ⟨msg, hr⟩, ht⟩
      · rw [hv] at hv'
        cases hv'
      · have hm' := hm.2
        have hacc : c.accepted = [] := by rw [Past.accepted, hr]
        rw [hacc] at hm'
        rw [ht] at hm' hrest
        exact ih h hrest hm' a (by simpa [firstValid, hv] using ha)

/-- **The calls for one session are merged**, exactly if the first one with well-formed
identifiers names no agent like the file. -/
theorem merges_iff {sid : String} {s : Disk} {cs : List Past} (h : Absent sid s)
    (hcs : Calls sid s cs) :
    Merges sid [] s cs ↔ ∀ a, firstValid cs = some a → a.Clean :=
  ⟨h.clean_of_merges hcs, fun hclean => h.after.merges hcs fun _ => hclean⟩

/-- The calls, run one after the other from a disk. -/
def runCalls : Disk → List InitArgs → List Past
  | _, [] => []
  | s, a :: rest =>
    match Prog.exec world 0 {} 100 (sessionInit a) s with
    | some (r, t) => ⟨a, r, t⟩ :: runCalls t rest
    | none => []

theorem noFault_default : Replay.NoFault {} := rfl

theorem calls_runCalls {sid : String} {as : List InitArgs} (has : ∀ a ∈ as, a.sessionId = sid)
    (s : Disk) : Calls sid s (runCalls s as) := by
  induction as generalizing s with
  | nil => trivial
  | cons a rest ih =>
    rw [runCalls]
    split
    · next r t hexec =>
      exact ⟨has a List.mem_cons_self, ⟨0, Prog.runs_of_exec noFault_default hexec⟩,
        ih (fun b hb => has b (List.mem_cons_of_mem _ hb)) t⟩
    · trivial

/-- A store without a session. -/
def noSession : Disk := ⟨Files.empty, [], [], []⟩

theorem noSession_absent (sid : String) : Absent sid noSession :=
  ⟨rfl, fun _ => rfl, fun _ _ => List.not_mem_nil⟩

/-- A session is created, extended, and asked for another manager. -/
def threeCalls : List InitArgs :=
  [⟨"s", "m", ["b", "a", "b"], none, none, none⟩, ⟨"s", "m", ["c", "a"], some [], none, none⟩,
    ⟨"s", "x", ["d"], none, none, none⟩]

theorem merges_iff_three : (runCalls noSession threeCalls).length = 3 ∧
    (Merges "s" [] noSession (runCalls noSession threeCalls) ↔
      ∀ a, firstValid (runCalls noSession threeCalls) = some a → a.Clean) :=
  ⟨by decide +kernel, merges_iff (noSession_absent "s") (calls_runCalls (by decide +kernel) _)⟩

/-- The session is to be created with an agent named like the file. -/
def unclean : InitArgs := ⟨"s", "m", ["session.json"], none, none, none⟩

theorem agent_named_like_file : ¬ ∀ (sid : String) (s : Disk) (cs : List Past), Absent sid s →
    Calls sid s cs → Merges sid [] s cs := by
  intro h
  have hcs : Calls "s" noSession (runCalls noSession [unclean]) := calls_runCalls (by decide) _
  have hfirst : firstValid (runCalls noSession [unclean]) = some unclean := by decide +kernel
  have hclean := (noSession_absent "s").clean_of_merges hcs (h _ _ _ (noSession_absent "s") hcs)
    unclean hfirst
  exact hclean.2 (by decide)

end AiMeshChat.Mailbox.Sessions
