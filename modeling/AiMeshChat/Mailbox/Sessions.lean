import AiMeshChat.Mailbox.Recovery

/-!
# `MailboxStore.session_init`

`session_init` writes `session.json` and makes the directories of the members, all
under the lock `.session.lock`. A session that does not exist yet is created: the
file comes first and the directories after it. One that does is merged into: the
directories of the new members come first.

The optional tables are written as they are given. The roster and the modes in
`session.json` are what `session_init` wrote there, a list of strings and objects.
-/

namespace AiMeshChat.Mailbox.Sessions

open Lib

def sessionFile (sid : String) : MPath := ⟨.session sid, "session.json"⟩
def draftFile (sid : String) : MPath := ⟨.session sid, ".tmp-session.json"⟩
def lockFile (sid : String) : MPath := ⟨.session sid, ".session.lock"⟩

/-- The parameters of `session_init`. -/
structure InitArgs where
  sessionId : String
  managerId : String
  agentIds : List String
  acl : Option (List (String × Json)) := none
  executionModes : Option (List (String × String)) := none
  returnModes : Option (List (String × String)) := none
  deriving DecidableEq

/-! ## The directories of the members -/

/-- `_ensure_agent_dirs`; a file of that name is in the way. -/
def ensureAgentDirs (sid aid : String) : Call Unit := do
  validateAgentId aid
  validateAgentId sid
  require (!(← fileExists ⟨.session sid, aid⟩)) (.os .exists)
  mkdir (.box sid aid .inbox)
  mkdir (.box sid aid .processing)
  mkdir (.box sid aid .archive)
  mkdir (.box sid aid .corrupt)

/-- `_ensure_agent_dirs`, one agent after the other. -/
def ensureAllDirs (sid : String) : List String → Call Unit
  | [] => .ret ()
  | aid :: rest => do
    ensureAgentDirs sid aid
    ensureAllDirs sid rest

/-! ## `session.json` -/

/-- A table of modes as it is written. -/
def modesJson (modes : List (String × String)) : Json := .obj (modes.map fun kv => (kv.1, .str kv.2))

/-- The metadata of a new session. -/
def metaOf (a : InitArgs) (now : ℕ) : Json :=
  .obj ([("protocol_version", .str "2"), ("session_id", .str a.sessionId),
    ("manager", .str a.managerId), ("agents", .arr ((sortedSet a.agentIds).map .str)),
    ("manifest_revision", .int 1), ("created_at", .str (isoFormat now))] ++
    (a.acl.map fun acl => ("acl", Json.obj acl)).toList ++
    (a.executionModes.map fun modes => ("execution_modes", modesJson modes)).toList ++
    (a.returnModes.map fun modes => ("return_modes", modesJson modes)).toList)

/-- `existing.get("manager", "")`. -/
def managerOf (existing : Json) : Json := (existing.get? "manager").getD (.str "")

/-- `existing.get("agents", [])`. -/
def agentsOf (existing : Json) : List String :=
  match existing.get? "agents" with
  | some (.arr as) => as.filterMap Json.str?
  | _ => []

/-- `int(existing.get("manifest_revision", 0))`. -/
def revisionOf (existing : Json) : ℤ :=
  ((existing.get? "manifest_revision").bind Json.int?).getD 0

/-- The agents that a merge adds. -/
def added (existing : Json) (a : InitArgs) : List String :=
  sortedSet (a.agentIds.filter (· ∉ agentsOf existing))

/-- The session has another manager. -/
def reassigns (existing : Json) (a : InitArgs) : Bool :=
  (managerOf existing).truthy && managerOf existing ≠ .str a.managerId

/-- The merge would change nothing. -/
def nothingNew (existing : Json) (a : InitArgs) : Bool :=
  added existing a = [] && a.acl.isNone && a.executionModes.isNone && a.returnModes.isNone

/-- `existing.get(key, {})`. -/
def modesOf (existing : Json) (key : String) : Json := (existing.get? key).getD (.obj [])

/-- `d.update(modes)`. -/
def updated (d : Json) (modes : List (String × String)) : Json :=
  modes.foldl (fun d kv => d.set kv.1 (.str kv.2)) d

/-- A table of `session.json` with the new modes, if any are given. -/
def setModes (existing : Json) (key : String) : Option (List (String × String)) → Json
  | none => existing
  | some modes => existing.set key (updated (modesOf existing key) modes)

/-- The metadata after a merge. -/
def mergedOf (existing : Json) (a : InitArgs) : Json :=
  let agents := sortedSet (agentsOf existing ++ a.agentIds)
  let existing' := (existing.set "agents" (.arr (agents.map .str))).set "manifest_revision"
    (.int (revisionOf existing + 1))
  let existing' := match a.acl with
    | some acl => existing'.set "acl" (.obj acl)
    | none => existing'
  setModes (setModes existing' "execution_modes" a.executionModes) "return_modes" a.returnModes

/-- The tables of modes can be updated. -/
def modesOk (existing : Json) (a : InitArgs) : Bool :=
  (a.executionModes.isNone || (modesOf existing "execution_modes").isDict) &&
    (a.returnModes.isNone || (modesOf existing "return_modes").isDict)

/-- The metadata is written to a temporary file and renamed. -/
def writeSession (sid : String) (info : Json) : Call Unit := do
  write (draftFile sid) (.json info)
  replace (draftFile sid) (sessionFile sid)

/-! ## `session_init` -/

/-- What is reported for a new session. -/
def createdText (a : InitArgs) : String :=
  "session " ++ a.sessionId ++ " created: manager=" ++ a.managerId ++ ", agents=" ++
    reprOf (.arr ((sortedSet a.agentIds).map .str))

/-- The branch for a session that does not exist. -/
def createSession (a : InitArgs) : Call String := do
  let now ← clock
  writeSession a.sessionId (metaOf a now)
  ensureAllDirs a.sessionId (sortedSet a.agentIds)
  ensureAgentDirs a.sessionId a.managerId
  return createdText a

/-- The refusal of another manager. -/
def reassignText (existing : Json) (a : InitArgs) : String :=
  "session " ++ a.sessionId ++ " already has manager=" ++ reprOf (managerOf existing) ++
    ", cannot reassign to manager=" ++ reprStr a.managerId

/-- The branch for a session that exists. -/
def mergeSession (a : InitArgs) (existing : Json) : Call String := do
  require existing.isDict .attribute
  require (!reassigns existing a) (.value (reassignText existing a))
  if nothingNew existing a then return "session " ++ a.sessionId ++ " ok (merged 0 agents)"
  else do
    ensureAllDirs a.sessionId (added existing a)
    require (modesOk existing a) .attribute
    writeSession a.sessionId (mergedOf existing a)
    if added existing a = [] then return "session " ++ a.sessionId ++ " ok (acl updated)"
    else return "session " ++ a.sessionId ++ " ok (merged " ++
      toString (added existing a).length ++ " agents)"

/-- `validate_agent_id` for every name of the call. -/
def validateAll : List String → Call Unit
  | [] => .ret ()
  | aid :: rest => do
    validateAgentId aid
    validateAll rest

/-- `session_init`. -/
def sessionInit (a : InitArgs) : Call String := do
  validateAgentId a.sessionId
  validateAgentId a.managerId
  validateAll a.agentIds
  mkdir (.session a.sessionId)
  let fd ← orRaise (← openFd (lockFile a.sessionId))
  flock fd
  Prog.ensure (do
    match (← readSession a.sessionId).getD .null with
    | .null => createSession a
    | existing => mergeSession a existing) (funlock fd)

/-! ## What is on the disk -/

/-- The document that `read_session` finds; `null` counts as none. -/
def stored (sid : String) (s : Disk) : Option Json :=
  match s.files.get? (sessionFile sid) with
  | some ⟨.json j, _, _⟩ => if j = .null then none else some j
  | _ => none

/-- A file of the session has the name. -/
def taken (sid aid : String) (s : Disk) : Bool := (s.files.get? ⟨.session sid, aid⟩).isSome

/-- The agent has all its directories. -/
def HasBoxes (sid aid : String) (s : Disk) : Prop := ∀ b, Dir.box sid aid b ∈ s.dirs

/-- The disk fails at some choice. -/
def Faulty (P : Choice → Prop) : Prop := ∃ c, P c ∧ c.fault = true

/-- All identifiers of the call are well formed. -/
def InitArgs.valid (a : InitArgs) : Bool :=
  agentIdOk a.sessionId && agentIdOk a.managerId && a.agentIds.all agentIdOk

variable {sid aid : String} {s t : Disk}

theorem stored_congr (h : t.files.get? (sessionFile sid) = s.files.get? (sessionFile sid)) :
    stored sid t = stored sid s := by
  rw [stored, stored, h]

theorem stored_of_data {f : MFile} {j : Json} (h : s.files.get? (sessionFile sid) = some f)
    (hf : f.data = .json j) (hj : j ≠ .null) : stored sid s = some j := by
  obtain ⟨x, m, n⟩ := f
  subst hf
  rw [stored, h]
  exact if_neg hj

theorem taken_of_stored {doc : Json} (h : stored sid s = some doc) :
    taken sid "session.json" s = true := by
  rw [stored] at h
  rw [taken]
  change (s.files.get? (sessionFile sid)).isSome = true
  cases hf : s.files.get? (sessionFile sid) with
  | none => rw [hf] at h; cases h
  | some f => rfl

theorem stored_ne_null {doc : Json} (h : stored sid s = some doc) : doc ≠ .null := by
  rw [stored] at h
  split at h
  · split_ifs at h with hj
    cases h
    exact hj
  · cases h

theorem ne_of_agentIdOk (h : agentIdOk aid = true) :
    aid ≠ ".session.lock" ∧ aid ≠ ".tmp-session.json" := by
  constructor <;> rintro rfl <;> revert h <;> decide

/-! ### Only directories are made -/

/-- Nothing changed but directories of agents whose names no file has. -/
structure Extends (sid : String) (s t : Disk) : Prop where
  files : t.files = s.files
  locks : t.inoLocks = s.inoLocks
  dirs : ∀ d ∈ s.dirs, d ∈ t.dirs
  boxes : ∀ d ∈ t.dirs, d ∈ s.dirs ∨ ∃ aid b, d = .box sid aid b ∧ taken sid aid s = false

theorem Extends.refl (sid : String) (s : Disk) : Extends sid s s :=
  ⟨rfl, rfl, fun _ h => h, fun _ h => .inl h⟩

theorem taken_congr (h : t.files = s.files) : taken sid aid t = taken sid aid s := by
  rw [taken, taken, h]

theorem Extends.trans {u : Disk} (h : Extends sid s t) (h' : Extends sid t u) :
    Extends sid s u where
  files := h'.files.trans h.files
  locks := h'.locks.trans h.locks
  dirs d hd := h'.dirs d (h.dirs d hd)
  boxes d hd := by
    rcases h'.boxes d hd with hd | ⟨aid, b, rfl, hfree⟩
    · exact h.boxes d hd
    · exact .inr ⟨aid, b, rfl, (taken_congr h.files).symm.trans hfree⟩

theorem Extends.mkdir {b : Box} {dirs : List Dir} (h : Extends sid s t)
    (hfree : taken sid aid s = false) (hdirs : ∀ d, d ∈ dirs ↔ d = .box sid aid b ∨ d ∈ t.dirs) :
    Extends sid s { t with dirs := dirs } where
  files := h.files
  locks := h.locks
  dirs d hd := (hdirs d).mpr (.inr (h.dirs d hd))
  boxes d hd := by
    rcases (hdirs d).mp hd with rfl | hd
    · exact .inr ⟨aid, b, rfl, hfree⟩
    · exact h.boxes d hd

section Dirs

variable {P : Choice → Prop} {i : ℕ} {I : Disk → Prop} {sid : String} {s : Disk}

theorem ensureAgentDirs_total {aid : String} (hsid : agentIdOk sid = true)
    (haid : agentIdOk aid = true) (hI : ∀ t, Extends sid s t → I t) :
    (ensureAgentDirs sid aid).Total world i P I s fun r t => Extends sid s t ∧
      (r = .ok () ∧ taken sid aid s = false ∧ HasBoxes sid aid t ∨
        r = .error (.os .exists) ∧ taken sid aid s = true) := by
  have hs := hI s (.refl sid s)
  refine Recovery.require_total haid (Recovery.require_total hsid
    (Recovery.fileExists_total hs ?_))
  cases ht : taken sid aid s with
  | true =>
    rw [taken] at ht
    rw [ht]
    exact Prog.total_raise hs ⟨.refl sid s, .inr ⟨rfl, rfl⟩⟩
  | false =>
    have hfree := ht
    rw [taken] at ht
    rw [ht]
    refine Recovery.require_total rfl (Recovery.mkdir_total hs fun d₁ h₁ => ?_)
    have e₁ := (Extends.refl sid s).mkdir hfree h₁
    refine Recovery.mkdir_total (hI _ e₁) fun d₂ h₂ => ?_
    have e₂ := e₁.mkdir hfree h₂
    refine Recovery.mkdir_total (hI _ e₂) fun d₃ h₃ => ?_
    have e₃ := e₂.mkdir hfree h₃
    refine Recovery.mkdir_total (f := Prog.ret) (hI _ e₃) fun d₄ h₄ => ?_
    have e₄ := e₃.mkdir hfree h₄
    refine Prog.total_ret (hI _ e₄) ⟨e₄, .inl ⟨rfl, rfl, fun b => ?_⟩⟩
    cases b <;> simp [h₄, h₃, h₂, h₁]

theorem ensureAllDirs_total (hsid : agentIdOk sid = true) {l : List String}
    (hl : ∀ aid ∈ l, agentIdOk aid = true) {t : Disk} (ht : Extends sid s t)
    (hI : ∀ t, Extends sid s t → I t) :
    (ensureAllDirs sid l).Total world i P I t fun r u => Extends sid s u ∧ Extends sid t u ∧
      (r = .ok () ∧ (∀ aid ∈ l, taken sid aid s = false ∧ HasBoxes sid aid u) ∨
        ∃ aid ∈ l, r = .error (.os .exists) ∧ taken sid aid s = true) := by
  induction l generalizing t with
  | nil => exact Prog.total_ret (hI t ht) ⟨ht, .refl sid t, .inl ⟨rfl, by simp⟩⟩
  | cons aid rest ih =>
    refine (ensureAgentDirs_total hsid (hl aid List.mem_cons_self)
      fun u hu => hI u (ht.trans hu)).bind ?_ ?_
    · rintro _ u - ⟨hu, ⟨-, hfree, hboxes⟩ | ⟨hr, -⟩⟩
      · refine (ih (fun x hx => hl x (List.mem_cons_of_mem _ hx)) (ht.trans hu)).mono
          (fun _ h => h) ?_
        rintro r v - ⟨hv, huv, ⟨hr, hall⟩ | ⟨x, hx, hr⟩⟩
        · refine ⟨hv, hu.trans huv, .inl ⟨hr, fun x hx => ?_⟩⟩
          rcases List.mem_cons.mp hx with rfl | hx
          · exact ⟨(taken_congr ht.files).symm.trans hfree, fun b => huv.dirs _ (hboxes b)⟩
          · exact hall x hx
        · exact ⟨hv, hu.trans huv, .inr ⟨x, List.mem_cons_of_mem _ hx, hr⟩⟩
      · cases hr
    · rintro e u - ⟨hu, ⟨hr, -⟩ | ⟨hr, htaken⟩⟩
      · cases hr
      · exact ⟨ht.trans hu, hu, .inr ⟨aid, List.mem_cons_self, hr,
          (taken_congr ht.files).symm.trans htaken⟩⟩

end Dirs

/-! ### `session.json` is written -/

/-- Nothing changed but the draft and perhaps `session.json`. -/
structure Beside (sid : String) (s t : Disk) : Prop where
  dirs : t.dirs = s.dirs
  locks : t.inoLocks = s.inoLocks
  files : ∀ p, p ≠ draftFile sid → p ≠ sessionFile sid → t.files.get? p = s.files.get? p

/-- `session.json` is the same file. -/
def Same (sid : String) (s t : Disk) : Prop :=
  t.files.get? (sessionFile sid) = s.files.get? (sessionFile sid)

instance (sid : String) (s t : Disk) : Decidable (Same sid s t) :=
  inferInstanceAs (Decidable (_ = _))

/-- `session.json` holds the document. -/
def Holds (sid : String) (s : Disk) (j : Json) : Prop :=
  ∃ f, s.files.get? (sessionFile sid) = some f ∧ f.data = .json j

theorem draftFile_ne (sid : String) : draftFile sid ≠ sessionFile sid := by
  simp [draftFile, sessionFile]

variable {sid : String} {s t : Disk} {j : Json}

theorem writeSession_total {P : Choice → Prop} {i : ℕ} {I : Disk → Prop} {info : Json}
    (hd : Dir.session sid ∈ s.dirs)
    (hI : ∀ t, Beside sid s t → Same sid s t ∨ Holds sid t info → I t) :
    (writeSession sid info).Total world i P I s fun r t => Beside sid s t ∧
      (r = .ok () ∧ Holds sid t info ∨ Faulty P ∧ (∃ e, r = .error e) ∧ Same sid s t) := by
  have hs : I s := hI s ⟨rfl, rfl, fun _ _ _ => rfl⟩ (.inl rfl)
  refine Recovery.tryWrite_total hs hd (fun hf => ?_) fun m => ?_
  · exact Prog.total_raise hs ⟨⟨rfl, rfl, fun _ _ _ => rfl⟩, .inr ⟨hf, ⟨_, rfl⟩, rfl⟩⟩
  obtain ⟨f, hf, hsrc, hmove⟩ :=
    Recovery.get?_write_move s.files (draftFile sid) (sessionFile sid) (.json info) m
  have hb : Beside sid s (s.write (draftFile sid) (.json info) m) :=
    ⟨rfl, rfl, fun p hp _ => Files.get?_write_ne _ _ _ hp⟩
  have hsame : Same sid s (s.write (draftFile sid) (.json info) m) :=
    Files.get?_write_ne _ _ _ (draftFile_ne sid).symm
  refine Recovery.tryReplace_total (f := fun r => orRaise r) (hI _ hb (.inl hsame)) ?_ hd
    (fun hf => ?_) ?_
  · rw [Disk.write, hsrc]
    rfl
  · exact Prog.total_raise (hI _ hb (.inl hsame)) ⟨hb, .inr ⟨hf, ⟨_, rfl⟩, hsame⟩⟩
  · have hb' : Beside sid s { s.write (draftFile sid) (.json info) m with
        files := (s.write (draftFile sid) (.json info) m).files.move (draftFile sid)
          (sessionFile sid) } :=
      ⟨rfl, rfl, fun p hp hp' => by
        rw [Disk.write, hmove, if_neg hp', if_neg hp]⟩
    have hheld : Holds sid { s.write (draftFile sid) (.json info) m with
        files := (s.write (draftFile sid) (.json info) m).files.move (draftFile sid)
          (sessionFile sid) } info :=
      ⟨f, by rw [Disk.write, hmove, if_pos rfl], hf⟩
    exact Prog.total_ret (hI _ hb' (.inr hheld)) ⟨hb', .inl ⟨rfl, hheld⟩⟩

theorem Holds.stored (h : Holds sid s j) (hj : j ≠ .null) : stored sid s = some j := by
  obtain ⟨f, hf, hdata⟩ := h
  exact stored_of_data hf hdata hj

/-! ### A call from its beginning -/

/-- What every point of a call keeps of the disk the call began with. -/
structure Since (sid : String) (s t : Disk) : Prop where
  dirs : ∀ d ∈ s.dirs, d ∈ t.dirs
  files : ∀ p, p ≠ lockFile sid → p ≠ draftFile sid → p ≠ sessionFile sid →
    t.files.get? p = s.files.get? p
  boxes : ∀ b, Dir.box sid "session.json" b ∈ t.dirs → Dir.box sid "session.json" b ∈ s.dirs

theorem Since.refl (sid : String) (s : Disk) : Since sid s s :=
  ⟨fun _ h => h, fun _ _ _ _ => rfl, fun _ h => h⟩

theorem Since.trans {u : Disk} (h : Since sid s t) (h' : Since sid t u) : Since sid s u where
  dirs d hd := h'.dirs d (h.dirs d hd)
  files p h₁ h₂ h₃ := (h'.files p h₁ h₂ h₃).trans (h.files p h₁ h₂ h₃)
  boxes b hb := h.boxes b (h'.boxes b hb)

theorem Beside.since (h : Beside sid s t) : Since sid s t where
  dirs d hd := by rwa [h.dirs]
  files p _ h₂ h₃ := h.files p h₂ h₃
  boxes b hb := by rwa [h.dirs] at hb

/-- While `session.json` is there, no directory of its name is made. -/
theorem Extends.since (h : Extends sid s t)
    (ht : taken sid "session.json" s = true) : Since sid s t where
  dirs := h.dirs
  files p _ _ _ := by rw [h.files]
  boxes b hb := by
    rcases h.boxes _ hb with hb | ⟨aid, b', hd, hfree⟩
    · exact hb
    · cases hd
      rw [ht] at hfree
      cases hfree

/-- How far a call has got, as far as `session.json` tells. -/
inductive Stage (F : Prop) (a : InitArgs) (s t : Disk) : Prop
  | same (h : Same a.sessionId s t)
  | merged {doc : Json} (hdoc : stored a.sessionId s = some doc) (hre : reassigns doc a = false)
      (ht : Holds a.sessionId t (mergedOf doc a))
      (hdirs : ∀ aid ∈ added doc a, HasBoxes a.sessionId aid t)
  | created {now : ℕ} (hv : a.valid = true) (hs : F ∨ stored a.sessionId s = none)
      (ht : Holds a.sessionId t (metaOf a now))

/-- How a call with well-formed identifiers ends. -/
inductive Outcome (F : Prop) (a : InitArgs) (s t : Disk) : Except PyErr String → Prop
  | failed {e : PyErr} (h : F) (ht : Same a.sessionId s t) : Outcome F a s t (.error e)
  | malformed {doc : Json} {e : PyErr} (hdoc : stored a.sessionId s = some doc)
      (h : doc.isDict = false ∨ modesOk doc a = false) (ht : Same a.sessionId s t) :
      Outcome F a s t (.error e)
  | reassigned {doc : Json} (hdoc : stored a.sessionId s = some doc)
      (hre : reassigns doc a = true) (ht : Same a.sessionId s t) :
      Outcome F a s t (.error (.value (reassignText doc a)))
  | blocked {doc : Json} {aid : String} (hdoc : stored a.sessionId s = some doc)
      (hre : reassigns doc a = false) (haid : aid ∈ added doc a)
      (htaken : taken a.sessionId aid t = true) (ht : Same a.sessionId s t) :
      Outcome F a s t (.error (.os .exists))
  | unchanged {doc : Json} {text : String} (hdoc : stored a.sessionId s = some doc)
      (hre : reassigns doc a = false) (hnew : nothingNew doc a = true)
      (ht : Same a.sessionId s t)
      (hboxes : ∀ aid b, Dir.box a.sessionId aid b ∈ t.dirs → Dir.box a.sessionId aid b ∈ s.dirs) :
      Outcome F a s t (.ok text)
  | merged {doc : Json} {text : String} (hdoc : stored a.sessionId s = some doc)
      (hre : reassigns doc a = false) (hnew : nothingNew doc a = false)
      (ht : Holds a.sessionId t (mergedOf doc a))
      (hdirs : ∀ aid ∈ added doc a, HasBoxes a.sessionId aid t) : Outcome F a s t (.ok text)
  | created {now : ℕ} (hs : F ∨ stored a.sessionId s = none)
      (ht : Holds a.sessionId t (metaOf a now))
      (hfree : ∀ aid, aid = a.managerId ∨ aid ∈ a.agentIds → taken a.sessionId aid t = false)
      (hdirs : ∀ aid, aid = a.managerId ∨ aid ∈ a.agentIds → HasBoxes a.sessionId aid t) :
      Outcome F a s t (.ok (createdText a))
  | interrupted {now : ℕ} {aid : String} (hs : F ∨ stored a.sessionId s = none)
      (ht : Holds a.sessionId t (metaOf a now)) (haid : aid = a.managerId ∨ aid ∈ a.agentIds)
      (htaken : taken a.sessionId aid t = true) : Outcome F a s t (.error (.os .exists))

/-- What holds between any two operations of a call. -/
structure Midway (i : ℕ) (F : Prop) (a : InitArgs) (s t : Disk) : Prop where
  since : Since a.sessionId s t
  locks : Recovery.LocksOf i t
  stage : Stage F a s t

/-- What holds at the end of a call that began with well-formed identifiers. -/
structure Ended (F : Prop) (a : InitArgs) (s : Disk) (locks : List (ℕ × ℕ))
    (r : Except PyErr String) (t : Disk) : Prop where
  since : Since a.sessionId s t
  locks : t.inoLocks = locks
  outcome : Outcome F a s t r

theorem Stage.unlocked {F : Prop} {a : InitArgs} {locks : List (ℕ × ℕ)}
    (h : Stage F a s t) : Stage F a s { t with inoLocks := locks } := by
  cases h with
  | same h => exact .same h
  | merged hdoc hre ht hdirs => exact .merged hdoc hre ht hdirs
  | created hv hs ht => exact .created hv hs ht

theorem Outcome.unlocked {F : Prop} {a : InitArgs} {locks : List (ℕ × ℕ)} {r : Except PyErr String}
    (h : Outcome F a s t r) : Outcome F a s { t with inoLocks := locks } r := by
  cases h with
  | failed h ht => exact .failed h ht
  | malformed hdoc h ht => exact .malformed hdoc h ht
  | reassigned hdoc hre ht => exact .reassigned hdoc hre ht
  | blocked hdoc hre haid htaken ht => exact .blocked hdoc hre haid htaken ht
  | unchanged hdoc hre hnew ht hboxes => exact .unchanged hdoc hre hnew ht hboxes
  | merged hdoc hre hnew ht hdirs => exact .merged hdoc hre hnew ht hdirs
  | created hs ht hfree hdirs => exact .created hs ht hfree hdirs
  | interrupted hs ht haid htaken => exact .interrupted hs ht haid htaken

theorem Holds.congr (h : Holds sid s j) (hf : t.files = s.files) : Holds sid t j := by
  rw [Holds, hf]
  exact h

theorem Holds.taken (h : Holds sid s j) : taken sid "session.json" s = true := by
  obtain ⟨f, hf, -⟩ := h
  rw [Sessions.taken]
  change (s.files.get? (sessionFile sid)).isSome = true
  rw [hf]
  rfl

section Branches

variable {P : Choice → Prop} {i : ℕ} {a : InitArgs} {s t : Disk}

theorem createSession_total (hv : a.valid = true) (h : Since a.sessionId s t)
    (hsame : Same a.sessionId s t) (hlocks : Recovery.LocksOf i t)
    (hd : Dir.session a.sessionId ∈ t.dirs) (hnone : Faulty P ∨ stored a.sessionId s = none) :
    (createSession a).Total world i P (Midway i (Faulty P) a s) t
      (Ended (Faulty P) a s t.inoLocks) := by
  have hvalid := hv
  simp only [InitArgs.valid, Bool.and_eq_true, List.all_eq_true] at hv
  obtain ⟨⟨hsid, hmanager⟩, hagents⟩ := hv
  have hagents' : ∀ aid ∈ sortedSet a.agentIds, agentIdOk aid = true :=
    fun aid haid => hagents aid (mem_sortedSet.mp haid)
  refine Recovery.clock_total ⟨h, hlocks, .same hsame⟩ fun now => ?_
  have hmid : ∀ u, Beside a.sessionId t u → Same a.sessionId t u ∨ Holds a.sessionId u (metaOf a now)
      → Midway i (Faulty P) a s u := by
    intro u hu hsu
    refine ⟨h.trans hu.since, fun e he => hlocks e (hu.locks ▸ he), ?_⟩
    rcases hsu with hsu | hsu
    · exact .same (hsu.trans hsame)
    · exact .created hvalid hnone hsu
  refine (writeSession_total hd hmid).bind ?_ ?_
  · rintro _ u hu ⟨hb, ⟨-, hheld⟩ | ⟨-, ⟨e, he⟩, -⟩⟩
    · have hI : ∀ v, Extends a.sessionId u v → Midway i (Faulty P) a s v := fun v hv =>
        ⟨hu.since.trans (hv.since hheld.taken), fun e he => hu.locks e (hv.locks ▸ he),
          .created hvalid hnone (hheld.congr hv.files)⟩
      have hended : ∀ v r, Extends a.sessionId u v → Outcome (Faulty P) a s v r →
          Ended (Faulty P) a s t.inoLocks r v := fun v r hv hr =>
        ⟨hu.since.trans (hv.since hheld.taken), hv.locks.trans hb.locks, hr⟩
      refine (ensureAllDirs_total hsid hagents' (.refl _ u) hI).bind ?_ ?_
      · rintro _ v - ⟨hv, -, ⟨-, hall⟩ | ⟨aid, -, hr, -⟩⟩
        · refine (ensureAgentDirs_total hsid hmanager fun w hw => hI w (hv.trans hw)).bind ?_ ?_
          · rintro _ w hw ⟨hvw, ⟨-, hfree, hboxes⟩ | ⟨hr, -⟩⟩
            · have huw := hv.trans hvw
              refine Prog.total_ret hw (hended w _ huw (.created hnone (hheld.congr huw.files) ?_ ?_))
              · rintro aid (rfl | haid)
                · exact (taken_congr hvw.files).trans hfree
                · exact (taken_congr huw.files).trans (hall aid (mem_sortedSet.mpr haid)).1
              · rintro aid (rfl | haid) b
                · exact hboxes b
                · exact hvw.dirs _ ((hall aid (mem_sortedSet.mpr haid)).2 b)
            · cases hr
          · rintro e w - ⟨hvw, ⟨hr, -⟩ | ⟨hr, htaken⟩⟩
            · cases hr
            · cases hr
              have huw := hv.trans hvw
              exact hended w _ huw (.interrupted hnone (hheld.congr huw.files) (.inl rfl)
                ((taken_congr hvw.files).trans htaken))
        · cases hr
      · rintro e v - ⟨hv, -, ⟨hr, -⟩ | ⟨aid, haid, hr, htaken⟩⟩
        · cases hr
        · cases hr
          exact hended v _ hv (.interrupted hnone (hheld.congr hv.files)
            (.inr (mem_sortedSet.mp haid)) ((taken_congr hv.files).trans htaken))
    · cases he
  · rintro e u hu ⟨hb, ⟨hr, -⟩ | ⟨hf, -, hsu⟩⟩
    · cases hr
    · exact ⟨hu.since, hb.locks, .failed hf (hsu.trans hsame)⟩

theorem mergeSession_total {doc : Json} (hv : a.valid = true) (h : Since a.sessionId s t)
    (hsame : Same a.sessionId s t) (hlocks : Recovery.LocksOf i t)
    (hd : Dir.session a.sessionId ∈ t.dirs) (hdoc : stored a.sessionId s = some doc)
    (hboxes : ∀ aid b, Dir.box a.sessionId aid b ∈ t.dirs → Dir.box a.sessionId aid b ∈ s.dirs) :
    (mergeSession a doc).Total world i P (Midway i (Faulty P) a s) t
      (Ended (Faulty P) a s t.inoLocks) := by
  simp only [InitArgs.valid, Bool.and_eq_true, List.all_eq_true] at hv
  obtain ⟨⟨hsid, -⟩, hagents⟩ := hv
  have hadded : ∀ aid ∈ added doc a, agentIdOk aid = true := fun aid haid =>
    hagents aid (List.mem_of_mem_filter (mem_sortedSet.mp haid))
  have hmid : Midway i (Faulty P) a s t := ⟨h, hlocks, .same hsame⟩
  have htaken : taken a.sessionId "session.json" t = true :=
    taken_of_stored ((stored_congr hsame).trans hdoc)
  rw [mergeSession]
  cases hdict : doc.isDict with
  | false => exact Prog.total_raise hmid ⟨h, rfl, .malformed hdoc (.inl hdict) hsame⟩
  | true =>
  refine Recovery.require_total rfl ?_
  cases hre : reassigns doc a with
  | true => exact Prog.total_raise hmid ⟨h, rfl, .reassigned hdoc hre hsame⟩
  | false =>
  refine Recovery.require_total rfl ?_
  cases hnew : nothingNew doc a with
  | true => exact Prog.total_ret hmid ⟨h, rfl, .unchanged hdoc hre hnew hsame hboxes⟩
  | false =>
  rw [if_neg Bool.false_ne_true]
  have hsame' : ∀ u, Extends a.sessionId t u → Same a.sessionId s u := fun u hu => by
    rw [Same, hu.files]
    exact hsame
  have hI : ∀ u, Extends a.sessionId t u → Midway i (Faulty P) a s u := fun u hu =>
    ⟨h.trans (hu.since htaken), fun e he => hlocks e (hu.locks ▸ he), .same (hsame' u hu)⟩
  refine (ensureAllDirs_total hsid hadded (.refl _ t) hI).bind ?_ ?_
  · rintro _ u hu ⟨htu, -, ⟨-, hall⟩ | ⟨aid, -, hr, -⟩⟩
    · cases hmodes : modesOk doc a with
      | false =>
        exact Prog.total_raise hu
          ⟨hu.since, htu.locks, .malformed hdoc (.inr hmodes) (hsame' u htu)⟩
      | true =>
      refine Recovery.require_total rfl ?_
      have hstage : ∀ v, Beside a.sessionId u v → Holds a.sessionId v (mergedOf doc a) →
          ∀ aid ∈ added doc a, HasBoxes a.sessionId aid v := fun v hv _ aid haid b => by
        rw [hv.dirs]
        exact (hall aid haid).2 b
      refine (writeSession_total (htu.dirs _ hd) fun v hv hsv => ?_).bind ?_ ?_
      · refine ⟨hu.since.trans hv.since, fun e he => hu.locks e (hv.locks ▸ he), ?_⟩
        rcases hsv with hsv | hsv
        · exact .same (hsv.trans (hsame' u htu))
        · exact .merged hdoc hre hsv (hstage v hv hsv)
      · rintro _ v hmv ⟨hv, ⟨-, hheld⟩ | ⟨-, ⟨e, he⟩, -⟩⟩
        · have hended : ∀ text, Ended (Faulty P) a s t.inoLocks (.ok text) v := fun text =>
            ⟨hmv.since, hv.locks.trans htu.locks,
              .merged hdoc hre hnew hheld (hstage v hv hheld)⟩
          by_cases hadd : added doc a = []
          · rw [if_pos hadd]
            exact Prog.total_ret hmv (hended _)
          · rw [if_neg hadd]
            exact Prog.total_ret hmv (hended _)
        · cases he
      · rintro e v hmv ⟨hv, ⟨hr, -⟩ | ⟨hf, -, hsv⟩⟩
        · cases hr
        · exact ⟨hmv.since, hv.locks.trans htu.locks, .failed hf (hsv.trans (hsame' u htu))⟩
    · cases hr
  · rintro e u hu ⟨htu, -, ⟨hr, -⟩ | ⟨aid, haid, hr, htk⟩⟩
    · cases hr
    · cases hr
      exact ⟨hu.since, htu.locks, .blocked hdoc hre haid ((taken_congr htu.files).trans htk)
        (hsame' u htu)⟩

/-! ### The whole call -/

/-- What `read_session` answers: the document, unless the disk fails. -/
theorem readSession_any {I : Disk → Prop} {sid : String} (hsid : agentIdOk sid = true) (hI : I t) :
    (readSession sid).Total world i P I t fun r u => u = t ∧ ∃ x, r = .ok x ∧
      (x.getD .null = (stored sid t).getD .null ∨ Faulty P ∧ x = none) := by
  refine Recovery.require_total hsid (Recovery.fileExists_total hI ?_)
  cases hf : t.files.get? ⟨.session sid, "session.json"⟩ with
  | none =>
    refine Prog.total_ret hI ⟨rfl, none, rfl, .inl ?_⟩
    rw [stored, sessionFile, hf]
  | some f =>
    obtain ⟨x, m, n⟩ := f
    refine Prog.total_op_bind hI fun c hc => ?_
    cases hfault : c.fault with
    | true =>
      exact ⟨.error .other, t, by simp [world, Disk.perform, hfault],
        Prog.total_ret hI ⟨rfl, none, rfl, .inr ⟨⟨c, hc, hfault⟩, rfl⟩⟩⟩
    | false =>
      refine ⟨.ok x, t, by simp [world, Disk.perform, hfault, hf], ?_⟩
      cases x with
      | json j =>
        refine Prog.total_ret hI ⟨rfl, some j, rfl, .inl ?_⟩
        rw [stored, sessionFile, hf]
        by_cases hj : j = .null
        · simp [hj]
        · simp [hj]
      | junk =>
        refine Prog.total_ret hI ⟨rfl, none, rfl, .inl ?_⟩
        rw [stored, sessionFile, hf]

theorem validateAll_total {I : Disk → Prop} {l : List String} (hI : I t) :
    (validateAll l).Total world i P I t fun r u => u = t ∧
      (r = .ok () ∧ l.all agentIdOk = true ∨
        (∃ msg, r = .error (.value msg)) ∧ l.all agentIdOk = false) := by
  induction l with
  | nil => exact Prog.total_ret hI ⟨rfl, .inl ⟨rfl, rfl⟩⟩
  | cons aid rest ih =>
    rw [validateAll, validateAgentId]
    cases haid : agentIdOk aid with
    | false => exact Prog.total_raise hI ⟨rfl, .inr ⟨⟨_, rfl⟩, by simp [haid]⟩⟩
    | true =>
      refine Recovery.require_total rfl (ih.mono (fun _ h => h) ?_)
      rintro r u - ⟨hu, hr⟩
      simpa [haid, hu] using hr

theorem underLock_total {fd : ℕ} (hv : a.valid = true) (h : Since a.sessionId s t)
    (hsame : Same a.sessionId s t) (hfree : t.inoLocks = [])
    (hd : Dir.session a.sessionId ∈ t.dirs)
    (hboxes : ∀ aid b, Dir.box a.sessionId aid b ∈ t.dirs → Dir.box a.sessionId aid b ∈ s.dirs) :
    (do
      flock fd
      Prog.ensure (do
        match (← readSession a.sessionId).getD .null with
        | .null => createSession a
        | existing => mergeSession a existing) (funlock fd) : Call String).Total world i P
      (Midway i (Faulty P) a s) t (Ended (Faulty P) a s []) := by
  have hsid : agentIdOk a.sessionId = true := by
    simp only [InitArgs.valid, Bool.and_eq_true] at hv
    exact hv.1.1
  have hmid : ∀ u, Since a.sessionId s u → Recovery.LocksOf i u → Same a.sessionId s u →
      Midway i (Faulty P) a s u := fun u hu hl hsu => ⟨hu, hl, .same hsu⟩
  have hnil : Recovery.LocksOf i t := fun e he => by
    rw [hfree] at he
    cases he
  refine Recovery.flock_total (hmid t h hnil hsame) hfree ?_
  have h' : Since a.sessionId s { t with inoLocks := [(fd, i)] } :=
    h.trans ⟨fun _ h => h, fun _ _ _ _ => rfl, fun _ h => h⟩
  have hlocks : Recovery.LocksOf i { t with inoLocks := [(fd, i)] } := fun e he => by
    rw [List.mem_singleton.mp he]
  refine Prog.Total.ensure (M := Ended (Faulty P) a s [(fd, i)]) ?_ ?_
  · refine (readSession_any hsid (hmid _ h' hlocks hsame)).bind ?_ ?_
    · rintro x _ - ⟨rfl, _, ⟨⟩, hx⟩
      have hst : stored a.sessionId { t with inoLocks := [(fd, i)] } = stored a.sessionId s :=
        stored_congr hsame
      rw [hst] at hx
      cases hdoc : stored a.sessionId s with
      | none =>
        have hnull : x.getD .null = .null := by
          rcases hx with hx | ⟨-, rfl⟩
          · rw [hx, hdoc]; rfl
          · rfl
        simp only [hnull]
        exact createSession_total hv h' hsame hlocks hd (.inr hdoc)
      | some doc =>
        have hne : doc ≠ .null := stored_ne_null hdoc
        rcases hx with hx | ⟨hf, rfl⟩
        · rw [hdoc] at hx
          simp only [hx, Option.getD_some]
          cases doc
          case null => exact (hne rfl).elim
          all_goals exact mergeSession_total hv h' hsame hlocks hd hdoc hboxes
        · exact createSession_total hv h' hsame hlocks hd (.inl hf)
    · rintro e u - ⟨-, x, hr, -⟩
      cases hr
  · rintro r u hu ⟨hsince, hul, hout⟩
    have hnone : u.inoLocks.filter (· ≠ (fd, i)) = [] := by
      rw [hul]
      simp
    have hend : Since a.sessionId s { u with inoLocks := u.inoLocks.filter (· ≠ (fd, i)) } :=
      hsince.trans ⟨fun _ h => h, fun _ _ _ _ => rfl, fun _ h => h⟩
    refine Prog.total_op_bind (f := Prog.ret) hu fun c _ => ⟨(), _, rfl, ?_⟩
    refine Prog.total_ret ⟨hend, fun e he => ?_, hu.stage.unlocked⟩
      ⟨rfl, hend, hnone, hout.unlocked⟩
    exact hu.locks e (List.mem_of_mem_filter he)

/-- **A call, from its beginning to its end**, if nobody else holds the lock. -/
theorem sessionInit_total (hfree : s.inoLocks = []) :
    (sessionInit a).Total world i P (Midway i (Faulty P) a s) s fun r t =>
      a.valid = true ∧ Ended (Faulty P) a s [] r t ∨
        a.valid = false ∧ (∃ msg, r = .error (.value msg)) ∧ t = s := by
  have hnil : ∀ t : Disk, t.inoLocks = [] → Recovery.LocksOf i t := fun t ht e he => by
    rw [ht] at he
    cases he
  have hs : Midway i (Faulty P) a s s := ⟨.refl _ s, hnil s hfree, .same rfl⟩
  rw [sessionInit, validateAgentId, validateAgentId]
  cases hsid : agentIdOk a.sessionId with
  | false =>
    exact Prog.total_raise hs (.inr ⟨by simp [InitArgs.valid, hsid], ⟨_, rfl⟩, rfl⟩)
  | true =>
  refine Recovery.require_total rfl ?_
  cases hmanager : agentIdOk a.managerId with
  | false =>
    exact Prog.total_raise hs (.inr ⟨by simp [InitArgs.valid, hmanager], ⟨_, rfl⟩, rfl⟩)
  | true =>
  refine Recovery.require_total rfl ((validateAll_total hs).bind ?_ ?_)
  · rintro _ s - ⟨rfl, ⟨-, hagents⟩ | ⟨⟨msg, hr⟩, -⟩⟩
    · have hv : a.valid = true := by simp [InitArgs.valid, hsid, hmanager, hagents]
      refine Recovery.mkdir_total hs fun dirs hdirs => ?_
      have hboxes : ∀ aid b, Dir.box a.sessionId aid b ∈ dirs → Dir.box a.sessionId aid b ∈ s.dirs := by
        intro aid b hb
        rcases (hdirs _).mp hb with hb | hb
        · cases hb
        · exact hb
      have h₁ : Since a.sessionId s { s with dirs := dirs } :=
        ⟨fun d hd => (hdirs d).mpr (.inr hd), fun _ _ _ _ => rfl, hboxes _⟩
      have hd : Dir.session a.sessionId ∈ dirs := (hdirs _).mpr (.inl rfl)
      refine Recovery.openFd_total ⟨h₁, hnil _ hfree, .same rfl⟩ hd fun fd t ht => ?_
      refine (?_ : Prog.Total world i P _ _ _ _).mono (fun _ h => h) fun r u _ hr => .inl ⟨hv, hr⟩
      rcases ht with rfl | ⟨-, m, rfl⟩
      · exact underLock_total hv h₁ rfl hfree hd hboxes
      · have h₂ : Since a.sessionId s (Disk.write { s with dirs := dirs } (lockFile a.sessionId)
            .junk m) :=
          h₁.trans ⟨fun _ h => h, fun p hp _ _ => Files.get?_write_ne _ _ _ hp, fun _ h => h⟩
        exact underLock_total hv h₂ (Files.get?_write_ne _ _ _ (by simp [sessionFile, lockFile]))
          hfree hd hboxes
    · cases hr
  · rintro e s - ⟨rfl, ⟨hr, -⟩ | ⟨hr, hagents⟩⟩
    · cases hr
    · obtain ⟨msg, hr⟩ := hr
      cases hr
      exact .inr ⟨by simp [InitArgs.valid, hagents], ⟨_, rfl⟩, rfl⟩

end Branches

end AiMeshChat.Mailbox.Sessions
