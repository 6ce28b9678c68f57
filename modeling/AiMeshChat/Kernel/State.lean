import AiMeshChat.Mailbox.Store
import Mathlib.Logic.Function.Basic

/-!
# The swarm kernel: sessions, rosters, access lists and locations

`swarm/kernel.py` with the types of `swarm/model.py`, and `MailboxStore.session_init`.
A kernel keeps everything in memory and writes it to two files of the session's
directory: `session.json`, which the mailbox store owns, and `swarm-meta.json`, which is
rewritten under a lock. A new kernel is loaded from these two files alone.

The files are kept as records, since only the functions below write them; a field that
the readers give a default is optional. The name of a session's directory is taken to be
the `session_id` in it, which is how `session_init` writes it. An agent has a directory
beside the two files, so an agent of the same name as one of them cannot get one.

An access list is a value: no caller hands one ACL object to two calls. `agent_cards`,
`capabilities` of a location and the callbacks of a subscription decide nothing here and
are left out.
-/

namespace AiMeshChat.Kernel

open Mailbox

/-- The exceptions of a kernel call. -/
inductive PyErr
  | value (msg : String)
  | permission (msg : String)
  | os
  deriving DecidableEq

/-- A Python dict with text keys. The order of its keys is never used. -/
abbrev Dict (α : Type) := String → Option α

namespace Dict

variable {α : Type}

def empty : Dict α := fun _ => none

/-- `d[key] = v`. -/
def set (d : Dict α) (key : String) (v : α) : Dict α := Function.update d key (some v)

/-- `d.pop(key, None)`. -/
def pop (d : Dict α) (key : String) : Dict α := Function.update d key none

/-- `d.update(e)`. -/
def update (d e : Dict α) : Dict α := fun key => (e key).or (d key)

end Dict

/-! ## Locations -/

/-- How an agent is executed. -/
inductive ExecutionMode
  | mailboxWorker
  | localOmpMcp
  deriving DecidableEq

def ExecutionMode.value : ExecutionMode → String
  | .mailboxWorker => "mailbox-worker"
  | .localOmpMcp => "local-omp-mcp"

/-- How results flow back from worker to manager. -/
inductive ReturnMode
  | managerPull
  | bidirectional
  deriving DecidableEq

def ReturnMode.value : ReturnMode → String
  | .managerPull => "manager-pull"
  | .bidirectional => "bidirectional"

/-- `AgentLocation`. -/
structure AgentLocation where
  agentId : String
  hostAlias : String
  backend : String
  executionMode : Option ExecutionMode := none
  mailboxRoot : String := ""
  returnMode : Option ReturnMode := none
  deriving DecidableEq

/-- An entry of the routing table in `swarm-meta.json`: the keys that may be missing are
those that are written only when they are set. -/
structure RouteEntry where
  agentId : String
  hostAlias : String
  backend : String
  executionMode : Option ExecutionMode
  mailboxRoot : Option String
  returnMode : Option ReturnMode
  deriving DecidableEq

/-- The entry that `_persist_routing` writes for a location. -/
def AgentLocation.entry (loc : AgentLocation) : RouteEntry where
  agentId := loc.agentId
  hostAlias := loc.hostAlias
  backend := loc.backend
  executionMode := loc.executionMode
  mailboxRoot := if loc.mailboxRoot = "" then none else some loc.mailboxRoot
  returnMode := loc.returnMode

/-- The location that a kernel loads from an entry. -/
def RouteEntry.location (r : RouteEntry) : AgentLocation where
  agentId := r.agentId
  hostAlias := r.hostAlias
  backend := r.backend
  executionMode := r.executionMode
  mailboxRoot := r.mailboxRoot.getD ""
  returnMode := r.returnMode

@[simp] theorem AgentLocation.entry_location (loc : AgentLocation) : loc.entry.location = loc := by
  obtain ⟨aid, host, backend, em, root, rm⟩ := loc
  by_cases hroot : root = "" <;> simp [entry, RouteEntry.location, hroot]

/-! ## Access lists -/

/-- `ACL`. -/
structure Acl where
  authority : String := ""
  allowedSenders : List String := []
  roomMembers : List String := []
  policy : String := "open"
  deriving DecidableEq

/-- An `acl` object in a file: each of its keys may be missing. -/
structure AclData where
  authority : Option String
  allowedSenders : Option (List String)
  roomMembers : Option (List String)
  policy : Option String
  deriving DecidableEq

/-- The object that is written for an access list. -/
def Acl.data (acl : Acl) : AclData :=
  ⟨some acl.authority, some acl.allowedSenders, some acl.roomMembers, some acl.policy⟩

/-- A dict is truthy if it has a key. -/
def AclData.truthy (d : AclData) : Bool :=
  d.authority.isSome || d.allowedSenders.isSome || d.roomMembers.isSome || d.policy.isSome

/-- The access list that is read from an object, with the defaults of the loader. -/
def AclData.read (d : AclData) (manager : String) (members : List String) : Acl where
  authority := d.authority.getD manager
  allowedSenders := d.allowedSenders.getD members
  roomMembers := d.roomMembers.getD members
  policy := d.policy.getD "open"

@[simp] theorem Acl.data_truthy (acl : Acl) : acl.data.truthy = true := rfl

@[simp] theorem Acl.data_read (acl : Acl) (manager : String) (members : List String) :
    acl.data.read manager members = acl := rfl

/-- `Channel`. -/
structure Channel where
  channelId : String
  members : List String
  acl : Option Acl := none
  deriving DecidableEq

/-- `Session`; its channels are kept by the kernel. -/
structure Session where
  sessionId : String
  managerId : String
  roster : List String
  acl : Acl
  createdAt : String
  executionModes : Dict String
  returnModes : Dict String

/-! ## The files -/

/-- `session.json`. -/
structure Manifest where
  manager : Option String
  agents : List String
  acl : Option AclData := none
  createdAt : String := ""
  executionModes : Option (Dict String) := none
  returnModes : Option (Dict String) := none
  manifestRevision : ℕ := 0

/-- A channel in `swarm-meta.json`. -/
structure ChannelData where
  channelId : String
  members : List String
  deriving DecidableEq

/-- What a channel is stored as. -/
def Channel.data (c : Channel) : ChannelData := ⟨c.channelId, c.members⟩

/-- `swarm-meta.json`. -/
structure SwarmMeta where
  acl : Option AclData := none
  channels : Dict ChannelData := Dict.empty
  routing : Dict RouteEntry := Dict.empty
  registrationTokens : Dict String := Dict.empty

/-- The directory of a session: its two files, if they are there and can be read, and
the directories in it. -/
structure SessionDir where
  manifest : Option Manifest := none
  swarmMeta : Option SwarmMeta := none
  dirs : List String := []

def SESSION_FILE : String := "session.json"
def META_FILE : String := "swarm-meta.json"

/-- A name that one of the two files has. -/
def SessionDir.isFile (d : SessionDir) (name : String) : Bool :=
  name = SESSION_FILE && d.manifest.isSome || name = META_FILE && d.swarmMeta.isSome

/-- The directory of a session; one that does not exist is empty. -/
abbrev Disk := String → SessionDir

/-- `_ensure_agent_dirs`, for one agent after the other; a file in the way ends it. -/
def ensureAgentDirs (d : SessionDir) : List String → Except PyErr Unit × SessionDir
  | [] => (.ok (), d)
  | aid :: rest =>
    if d.isFile aid then (.error .os, d)
    else ensureAgentDirs { d with dirs := aid :: d.dirs.erase aid } rest

/-- `session.json` is written to a temporary file and renamed. -/
def writeManifest (d : SessionDir) (m : Manifest) : Except PyErr Unit × SessionDir :=
  if SESSION_FILE ∈ d.dirs then (.error .os, d) else (.ok (), { d with manifest := some m })

/-- `_persist_meta`: `swarm-meta.json` is read, changed and written under its lock. -/
def persistMeta (d : SessionDir) (f : SwarmMeta → SwarmMeta) : Except PyErr Unit × SessionDir :=
  if META_FILE ∈ d.dirs then (.error .os, d)
  else (.ok (), { d with swarmMeta := some (f (d.swarmMeta.getD {})) })

/-! ## `MailboxStore.session_init` -/

/-- `validate_agent_id`. -/
def validateAgentId (aid : String) : Except PyErr Unit :=
  if agentIdOk aid then .ok () else .error (.value ("invalid agent id: " ++ reprStr aid))

theorem forM_eq_ok {ε α : Type} {f : α → Except ε Unit} {l : List α} :
    l.forM f = .ok () ↔ ∀ x ∈ l, f x = .ok () := by
  induction l with
  | nil => exact ⟨fun _ _ h => (List.not_mem_nil h).elim, fun _ => rfl⟩
  | cons x rest ih =>
    have hcons : (x :: rest).forM f = f x >>= fun _ => rest.forM f := rfl
    rw [hcons, bind_eq_ok, List.forall_mem_cons, ← ih]
    exact ⟨fun ⟨_, hx, hrest⟩ => ⟨hx, hrest⟩, fun ⟨hx, hrest⟩ => ⟨(), hx, hrest⟩⟩

/-- The arguments of `session_init`. -/
structure InitArgs where
  sessionId : String
  managerId : String
  agentIds : List String
  acl : Option AclData := none
  executionModes : Option (Dict String) := none
  returnModes : Option (Dict String) := none

/-- A table of modes with the new ones, if any are given. -/
def mergeModes (old new : Option (Dict String)) : Option (Dict String) :=
  match new with
  | none => old
  | some e => some ((old.getD Dict.empty).update e)

/-- The manifest after a merge; `agents` and the revision always change with it. -/
def Manifest.merge (m : Manifest) (a : InitArgs) : Manifest where
  manager := m.manager
  agents := sortedSet (m.agents ++ a.agentIds)
  acl := a.acl.or m.acl
  createdAt := m.createdAt
  executionModes := mergeModes m.executionModes a.executionModes
  returnModes := mergeModes m.returnModes a.returnModes
  manifestRevision := m.manifestRevision + 1

/-- The agents that a merge adds. -/
def Manifest.added (m : Manifest) (a : InitArgs) : List String :=
  sortedSet (a.agentIds.filter (· ∉ m.agents))

/-- `session_init` for a session that exists. -/
def mergeSession (d : SessionDir) (m : Manifest) (a : InitArgs) :
    Except PyErr String × SessionDir :=
  let old := m.manager.getD ""
  let added := m.added a
  if old ≠ "" && old ≠ a.managerId then
    (.error (.value ("session " ++ a.sessionId ++ " already has manager=" ++ reprStr old ++
      ", cannot reassign to manager=" ++ reprStr a.managerId)), d)
  else if added = [] && a.acl.isNone && a.executionModes.isNone && a.returnModes.isNone then
    (.ok ("session " ++ a.sessionId ++ " ok (merged 0 agents)"), d)
  else
    match ensureAgentDirs d added with
    | (.error e, d) => (.error e, d)
    | (.ok (), d) =>
      match writeManifest d (m.merge a) with
      | (.error e, d) => (.error e, d)
      | (.ok (), d) =>
        (.ok (if added = [] then "session " ++ a.sessionId ++ " ok (acl updated)"
          else "session " ++ a.sessionId ++ " ok (merged " ++ toString added.length ++
            " agents)"), d)

/-- `session.json` of a new session. -/
def InitArgs.manifest (a : InitArgs) (now : String) : Manifest where
  manager := some a.managerId
  agents := sortedSet a.agentIds
  acl := a.acl
  createdAt := now
  executionModes := a.executionModes
  returnModes := a.returnModes
  manifestRevision := 1

/-- What `session_init` reports for a new session. -/
def InitArgs.createdText (a : InitArgs) : String :=
  "session " ++ a.sessionId ++ " created: manager=" ++ a.managerId ++ ", agents=" ++
    reprOf (.arr ((sortedSet a.agentIds).map .str))

/-- `session_init` for a session that does not exist. -/
def freshSession (d : SessionDir) (a : InitArgs) (now : String) :
    Except PyErr String × SessionDir :=
  match writeManifest d (a.manifest now) with
  | (.error e, d) => (.error e, d)
  | (.ok (), d) =>
    match ensureAgentDirs d (sortedSet a.agentIds ++ [a.managerId]) with
    | (.error e, d) => (.error e, d)
    | (.ok (), d) => (.ok a.createdText, d)

/-- The identifiers are checked before anything is written. -/
def InitArgs.validate (a : InitArgs) : Except PyErr Unit := do
  validateAgentId a.sessionId
  validateAgentId a.managerId
  a.agentIds.forM validateAgentId

/-- `session_init`, at the time `now`. -/
def sessionInit (disk : Disk) (a : InitArgs) (now : String) : Except PyErr String × Disk :=
  match a.validate with
  | .error e => (.error e, disk)
  | .ok () =>
    let d := disk a.sessionId
    let out := match d.manifest with
      | some m => mergeSession d m a
      | none => freshSession d a now
    (out.1, Function.update disk a.sessionId out.2)

/-! ## The kernel -/

/-- What a kernel keeps in memory. Tables with the key `(session_id, agent_id)` take the
two one after the other. -/
structure Mem where
  sessions : Dict Session := Dict.empty
  routing : String → Dict AgentLocation := fun _ => Dict.empty
  channels : String → Dict Channel := fun _ => Dict.empty
  topicSubscriptions : String → String → List String := fun _ _ => []
  registrationTokens : String → Dict String := fun _ => Dict.empty

/-- A kernel and the disk. -/
structure State where
  mem : Mem
  disk : Disk

/-- The access list of a loaded session: that of `session.json`; that of
`swarm-meta.json`, if the former has none; else one that is open to all members. -/
def loadAcl (m : Manifest) (swarmMeta : Option SwarmMeta) (manager : String)
    (members : List String) : Acl :=
  let own : Acl := match m.acl with
    | some d => d.read manager members
    | none => ⟨manager, members, members, "open"⟩
  match (swarmMeta.bind (·.acl)).filter (·.truthy) with
  | some d => if (m.acl.map (·.truthy)).getD false then own else d.read manager members
  | none => own

/-- A session as it is loaded. -/
def loadSession (sid : String) (m : Manifest) (swarmMeta : Option SwarmMeta) : Session :=
  let manager := m.manager.getD ""
  let members := sortedSet (m.agents ++ if manager = "" then [] else [manager])
  { sessionId := sid
    managerId := manager
    roster := members
    acl := loadAcl m swarmMeta manager members
    createdAt := m.createdAt
    executionModes := m.executionModes.getD Dict.empty
    returnModes := m.returnModes.getD Dict.empty }

/-- What is loaded of `swarm-meta.json` for a session that has a `session.json`. -/
def SessionDir.meta? (d : SessionDir) : Option SwarmMeta :=
  if d.manifest.isSome then d.swarmMeta else none

/-- `_load_persisted_sessions`. -/
def load (disk : Disk) : Mem where
  sessions sid := (disk sid).manifest.map fun m => loadSession sid m (disk sid).swarmMeta
  routing sid aid := ((disk sid).meta?.bind (·.routing aid)).map RouteEntry.location
  channels sid cid := ((disk sid).meta?.bind (·.channels cid)).map fun c => ⟨c.channelId, c.members, none⟩
  registrationTokens sid aid := (disk sid).meta?.bind (·.registrationTokens aid)

/-- `_require_session`. -/
def requireSession (k : Mem) (sid : String) : Except PyErr Session :=
  match k.sessions sid with
  | some s => .ok s
  | none => .error (.value ("session not found: " ++ sid))

/-- `l` with the manager in it; a set has no order that anything depends on. -/
def withManager (l : List String) (manager : String) : List String :=
  if manager ∈ l then l else l.dedup ++ [manager]

/-- The access list of a new session: the manager is always in both lists. -/
def initialAcl (manager : String) (members : List String) (acl : Option Acl) : Acl :=
  let acl := acl.getD ⟨manager, members, members, "open"⟩
  { acl with
    allowedSenders := withManager acl.allowedSenders manager
    roomMembers := withManager acl.roomMembers manager }

/-- The arguments of `create_session`. -/
structure CreateArgs where
  sessionId : String
  managerId : String
  roster : List String
  acl : Option Acl := none
  executionModes : Option (Dict String) := none
  returnModes : Option (Dict String) := none

/-- The checks at the head of `create_session`. -/
def CreateArgs.check (a : CreateArgs) (k : Mem) : Except PyErr Unit := do
  validateAgentId a.sessionId
  validateAgentId a.managerId
  a.roster.forM validateAgentId
  if (k.sessions a.sessionId).isSome then
    .error (.value ("session already exists: " ++ a.sessionId))
  else .ok ()

def CreateArgs.members (a : CreateArgs) : List String := sortedSet (a.managerId :: a.roster)

/-- The session that `create_session` makes. -/
def CreateArgs.session (a : CreateArgs) (now : String) : Session where
  sessionId := a.sessionId
  managerId := a.managerId
  roster := a.members
  acl := initialAcl a.managerId a.members a.acl
  createdAt := now
  executionModes := a.executionModes.getD Dict.empty
  returnModes := a.returnModes.getD Dict.empty

/-- The call of `session_init` in `create_session`. -/
def CreateArgs.init (a : CreateArgs) (now : String) : InitArgs where
  sessionId := a.sessionId
  managerId := a.managerId
  agentIds := a.members.filter (· ≠ a.managerId)
  acl := some (a.session now).acl.data
  executionModes := a.executionModes
  returnModes := a.returnModes

/-- The kernel after a session was made. -/
def Mem.addSession (k : Mem) (s : Session) : Mem :=
  { k with
    sessions := k.sessions.set s.sessionId s
    channels := Function.update k.channels s.sessionId Dict.empty }

/-- `create_session`. -/
def createSession (st : State) (a : CreateArgs) (now : String) : Except PyErr Session × State :=
  match a.check st.mem with
  | .error e => (.error e, st)
  | .ok () =>
    let s := a.session now
    match sessionInit st.disk (a.init now) now with
    | (.error e, disk) => (.error e, { st with disk := disk })
    | (.ok _, disk) =>
      match persistMeta (disk a.sessionId) fun m => { m with acl := some s.acl.data } with
      | (.error e, d) => (.error e, { st with disk := Function.update disk a.sessionId d })
      | (.ok (), d) => (.ok s, ⟨st.mem.addSession s, Function.update disk a.sessionId d⟩)

/-! ## Registering -/

/-- The routing table that `_persist_routing` writes: every location of the session that
the kernel remembers is put over what the file has, then `deleted` is taken out. -/
def routingAfter (known : Dict AgentLocation) (deleted : Option String)
    (routing : Dict RouteEntry) : Dict RouteEntry :=
  let merged := routing.update fun aid => (known aid).map AgentLocation.entry
  match deleted with
  | some aid => merged.pop aid
  | none => merged

/-- `_persist_routing`. -/
def persistRouting (k : Mem) (disk : Disk) (sid : String) (deleted : Option String) :
    Except PyErr Unit × Disk :=
  let out := persistMeta (disk sid) fun m =>
    { m with routing := routingAfter (k.routing sid) deleted m.routing }
  (out.1, Function.update disk sid out.2)

/-- The kernel with another location of an agent, or none. -/
def Mem.setLocation (k : Mem) (sid aid : String) (loc : Option AgentLocation) : Mem :=
  { k with routing := Function.update k.routing sid (Function.update (k.routing sid) aid loc) }

/-- The checks of `register`: the session, the roster and the token. -/
def checkRegister (k : Mem) (loc : AgentLocation) (sid token : String) :
    Except PyErr Session := do
  let s ← requireSession k sid
  if loc.agentId ∉ s.roster then .error (.value ("agent not in roster: " ++ loc.agentId))
  else
    let expected := (k.registrationTokens sid loc.agentId).getD ""
    if expected ≠ "" && token ≠ expected then
      .error (.permission ("registration token mismatch for agent " ++ loc.agentId))
    else .ok s

/-- The token that `register` asks for; an empty one asks for none. -/
def expectedToken (k : Mem) (sid aid : String) : String := (k.registrationTokens sid aid).getD ""

theorem requireSession_eq_ok {k : Mem} {sid : String} {s : Session} :
    requireSession k sid = .ok s ↔ k.sessions sid = some s := by
  unfold requireSession
  cases k.sessions sid <;> simp

theorem checkRegister_eq_ok {k : Mem} {loc : AgentLocation} {sid token : String} {s : Session} :
    checkRegister k loc sid token = .ok s ↔ k.sessions sid = some s ∧ loc.agentId ∈ s.roster ∧
      (expectedToken k sid loc.agentId = "" ∨ token = expectedToken k sid loc.agentId) := by
  unfold checkRegister expectedToken
  rw [bind_eq_ok]
  constructor
  · rintro ⟨s', hs, h⟩
    split at h
    · cases h
    · next hin =>
      dsimp only at h
      split at h
      · cases h
      · next htoken =>
        injection h with h
        subst h
        refine ⟨requireSession_eq_ok.mp hs, not_not.mp hin, ?_⟩
        simp only [Bool.and_eq_true, decide_eq_true_eq, not_and, not_not] at htoken
        by_cases he : (k.registrationTokens sid loc.agentId).getD "" = ""
        · exact .inl he
        · exact .inr (htoken he)
  · rintro ⟨hs, hin, htoken⟩
    refine ⟨s, requireSession_eq_ok.mpr hs, ?_⟩
    rw [if_neg (not_not.mpr hin)]
    dsimp only
    rw [if_neg]
    simp only [Bool.and_eq_true, decide_eq_true_eq, not_and, not_not]
    intro hne
    exact htoken.resolve_left hne

/-- The modes of a location that are written to `session.json`. -/
def modeUpdate (aid : String) (value : Option String) : Option (Dict String) :=
  value.map fun v => Dict.empty.set aid v

/-- The session after its modes were updated. -/
def Session.withModes (s : Session) (loc : AgentLocation) : Session :=
  { s with
    executionModes := match loc.executionMode with
      | some m => s.executionModes.set loc.agentId m.value
      | none => s.executionModes
    returnModes := match loc.returnMode with
      | some m => s.returnModes.set loc.agentId m.value
      | none => s.returnModes }

/-- The call of `session_init` in `register`. -/
def modesInit (sid : String) (s : Session) (loc : AgentLocation) : InitArgs where
  sessionId := sid
  managerId := s.managerId
  agentIds := []
  executionModes := modeUpdate loc.agentId (loc.executionMode.map ExecutionMode.value)
  returnModes := modeUpdate loc.agentId (loc.returnMode.map ReturnMode.value)

/-- `register`. -/
def register (st : State) (loc : AgentLocation) (sid token now : String) :
    Except PyErr AgentLocation × State :=
  match checkRegister st.mem loc sid token with
  | .error e => (.error e, st)
  | .ok s =>
    let k := st.mem.setLocation sid loc.agentId (some loc)
    match persistRouting k st.disk sid none with
    | (.error e, disk) => (.error e, ⟨k, disk⟩)
    | (.ok (), disk) =>
      let k := { k with sessions := k.sessions.set sid (s.withModes loc) }
      if loc.executionMode.isNone && loc.returnMode.isNone then (.ok loc, ⟨k, disk⟩)
      else
        match sessionInit disk (modesInit sid s loc) now with
        | (.error e, disk) => (.error e, ⟨k, disk⟩)
        | (.ok _, disk) => (.ok loc, ⟨k, disk⟩)

/-- `unregister`. -/
def unregister (st : State) (sid aid : String) : Except PyErr Unit × State :=
  match requireSession st.mem sid with
  | .error e => (.error e, st)
  | .ok _ =>
    let k := st.mem.setLocation sid aid none
    let (r, disk) := persistRouting k st.disk sid (some aid)
    (r, ⟨k, disk⟩)

/-- The session, if the agent is in its roster. -/
def requireMember (k : Mem) (sid aid : String) : Except PyErr Session := do
  let s ← requireSession k sid
  if aid ∈ s.roster then .ok s else .error (.value ("agent not in roster: " ++ aid))

/-- `set_registration_token`. -/
def setRegistrationToken (st : State) (sid aid token : String) : Except PyErr Unit × State :=
  match requireMember st.mem sid aid with
  | .error e => (.error e, st)
  | .ok _ =>
    let tokens := (st.mem.registrationTokens sid).set aid token
    let k := { st.mem with
      registrationTokens := Function.update st.mem.registrationTokens sid tokens }
    let (r, d) := persistMeta (st.disk sid) fun m =>
      { m with registrationTokens := m.registrationTokens.set aid token }
    (r, ⟨k, Function.update st.disk sid d⟩)

/-! ## Channels and topics -/

/-- The checks of `create_channel`. -/
def checkCreateChannel (k : Mem) (sid channelId : String) (members : List String) :
    Except PyErr Unit := do
  let s ← requireSession k sid
  members.forM fun mid =>
    if mid ∈ s.roster then .ok () else .error (.value ("channel member not in roster: " ++ mid))
  if (k.channels sid channelId).isSome then
    .error (.value ("channel already exists: " ++ channelId))
  else .ok ()

/-- `create_channel` and `_persist_channels`. -/
def createChannel (st : State) (sid channelId : String) (members : List String)
    (acl : Option Acl) : Except PyErr Channel × State :=
  match checkCreateChannel st.mem sid channelId members with
  | .error e => (.error e, st)
  | .ok () =>
    let c : Channel := ⟨channelId, members, acl⟩
    let known := (st.mem.channels sid).set channelId c
    let k := { st.mem with channels := Function.update st.mem.channels sid known }
    let (r, d) := persistMeta (st.disk sid) fun m =>
      { m with
        channels := m.channels.update fun cid => (known cid).map Channel.data }
    (r.map fun _ => c, ⟨k, Function.update st.disk sid d⟩)

/-- `subscribe`: what it does to the topics, which route notices. -/
def subscribe (k : Mem) (sid aid : String) (topics : List String) : Except PyErr Unit × Mem :=
  match requireSession k sid with
  | .error e => (.error e, k)
  | .ok _ =>
    let old := k.topicSubscriptions sid
    let new (topic : String) := if topic ∈ topics then (old topic).insert aid else old topic
    (.ok (), { k with
      topicSubscriptions := Function.update k.topicSubscriptions sid new })

/-- `get_location`. -/
def getLocation (k : Mem) (sid aid : String) : Option AgentLocation := k.routing sid aid

end AiMeshChat.Kernel
