import AiMeshChat.Kernel.Restart

/-!
# The hub of the gateway

`AgentGateway.hub_register` and `hub_send` of `gateway/service.py`. A peer stands for an
agent of a session on another host. Registering one also makes it a member of the
session: the roster and the access list in `session.json` and the kernel in memory are
changed, and the agent's location is registered.

What goes to `session.json` is not merged into the access list that is there but replaces
it. So `registration_keeps_rights` has a condition: nobody had any right but the hub, the
agent called `manager` and the peer's own agent.
-/

namespace AiMeshChat.Hub

open Kernel
open Mailbox (agentIdOk bind_eq_ok)

inductive PeerStatus
  | online
  | offline
  | unknown
  deriving DecidableEq

/-- `_HubPeer`, without the time of its registration. -/
structure HubPeer where
  peerId : String
  sessionId : String
  agentId : String
  hostAlias : String
  mailboxRoot : String := ""
  status : PeerStatus := .online
  deriving DecidableEq

inductive GatewayError
  | protocol (msg : String)
  | notFound (msg : String)
  | os
  deriving DecidableEq

/-- The gateway: its kernel and its peers, each with what is on the disk. -/
structure Gateway where
  kernel : Mem
  disk : Disk
  peers : Dict HubPeer
  peersFile : Dict HubPeer

/-- The parameters of `hub.register`; a missing one is empty. -/
structure RegisterParams where
  peerId : String
  sessionId : String
  agentId : String
  hostAlias : String
  mailboxRoot : String := ""
  now : String := ""

def RegisterParams.complete (p : RegisterParams) : Bool :=
  p.peerId ≠ "" && p.sessionId ≠ "" && p.agentId ≠ "" && p.hostAlias ≠ ""

def RegisterParams.peer (p : RegisterParams) : HubPeer :=
  { peerId := p.peerId, sessionId := p.sessionId, agentId := p.agentId, hostAlias := p.hostAlias,
    mailboxRoot := p.mailboxRoot }

/-! ## `hub_register` -/

/-- The manager of the session, or the hub itself. -/
def authorityOf : Option Manifest → String
  | some m => m.manager.getD "hub"
  | none => "hub"

/-- The access list that is written to `session.json`. -/
def hubAcl (authority agentId : String) : Acl :=
  ⟨authority, ["hub", "manager", agentId], ["hub", "manager", agentId], "open"⟩

/-- The session that is made for a peer. -/
def RegisterParams.create (p : RegisterParams) (authority : String) : CreateArgs where
  sessionId := p.sessionId
  managerId := authority
  roster := [p.agentId, "manager"]

/-- The session is made in the kernel, unless it is there; a `ValueError` is passed over. -/
def materialize (st : State) (p : RegisterParams) (authority : String) :
    Except PyErr Unit × State :=
  if (st.mem.sessions p.sessionId).isSome then (.ok (), st)
  else
    match createSession st (p.create authority) p.now with
    | (.error (.value _), st) => (.ok (), st)
    | (.error e, st) => (.error e, st)
    | (.ok _, st) => (.ok (), st)

/-- The call of `session_init` for a session that was on the disk before. -/
def mergeInit (p : RegisterParams) (authority : String) : InitArgs where
  sessionId := p.sessionId
  managerId := authority
  agentIds := [p.agentId, "manager"]
  acl := some (hubAcl authority p.agentId).data

/-- A session with the manager in its roster and in both lists. -/
def admitManager (s : Session) : Session :=
  { s with
    roster := if "manager" ∈ s.roster then s.roster else s.roster ++ ["manager"]
    acl := { s.acl with
      allowedSenders := withManager s.acl.allowedSenders "manager"
      roomMembers := withManager s.acl.roomMembers "manager" } }

def Mem.admitManager (k : Mem) (sid : String) : Mem :=
  match k.sessions sid with
  | some s => { k with sessions := k.sessions.set sid (Hub.admitManager s) }
  | none => k

/-- The location that is registered for a peer. -/
def RegisterParams.location (p : RegisterParams) : AgentLocation :=
  { agentId := p.agentId, hostAlias := p.hostAlias, backend := "cli",
    executionMode := some .mailboxWorker }

/-- The part of `hub_register` whose exceptions are only logged. -/
def registerRouting (st : State) (p : RegisterParams) : State :=
  if !agentIdOk p.sessionId then st
  else
    let persisted := (st.disk p.sessionId).manifest
    let authority := authorityOf persisted
    match materialize st p authority with
    | (.error _, st) => st
    | (.ok (), st) =>
      let disk := if persisted.isSome then (sessionInit st.disk (mergeInit p authority) p.now).2
        else st.disk
      (register ⟨Mem.admitManager st.mem p.sessionId, disk⟩ p.location p.sessionId "" p.now).2

/-- `hub_register`. -/
def hubRegister (g : Gateway) (p : RegisterParams) : Except GatewayError HubPeer × Gateway :=
  if !p.complete then
    (.error (.protocol "hub.register requires peer_id/session_id/agent_id/host_alias"), g)
  else
    let st := registerRouting ⟨g.kernel, g.disk⟩ p
    let peers := g.peers.set p.peerId p.peer
    (.ok p.peer, ⟨st.mem, st.disk, peers, peers⟩)

/-! ## `hub_send` and a restart -/

/-- A `ValueError` and a `PermissionError` of the kernel are reported; others pass. -/
def sendError : PyErr → GatewayError
  | .value msg => .notFound ("hub_send failed: " ++ msg)
  | .permission msg => .notFound ("hub_send failed: " ++ msg)
  | .os => .os

/-- `hub_send`. -/
def hubSend (g : Gateway) (sink : Deliver → Except PyErr SinkReceipt) (peerId sender : String)
    (env : Envelope) (f : Fresh) : Except GatewayError Sent :=
  match g.peers peerId with
  | none => .error (.notFound ("unknown peer: " ++ peerId))
  | some peer =>
    if peer.status = .offline then .error (.notFound ("peer " ++ peerId ++ " is offline"))
    else
      match (send g.kernel sink peer.sessionId sender { kind := .direct, agentId := peer.agentId }
          env f).1 with
      | .ok out => .ok out
      | .error e => .error (sendError e)

/-- The gateway after it was started again. -/
def restart (g : Gateway) : Gateway where
  kernel := load g.disk
  disk := g.disk
  peers := fun pid => (g.peersFile pid).filter (·.peerId ≠ "")
  peersFile := g.peersFile

/-! ## Rights -/

/-- The access list that a restarted kernel has for a session. -/
def storedAcl (disk : Disk) (sid : String) : Option Acl := ((load disk).sessions sid).map (·.acl)

/-- The access list in memory. -/
def liveAcl (k : Mem) (sid : String) : Option Acl := (k.sessions sid).map (·.acl)

/-- Nobody loses a right, and nothing is opened. -/
def Grows (before after : Option Acl) : Prop :=
  ∀ a, before = some a → ∃ a', after = some a' ∧ (∀ x ∈ a.allowedSenders, x ∈ a'.allowedSenders) ∧
    (∀ x ∈ a.roomMembers, x ∈ a'.roomMembers) ∧ (a.policy ≠ "open" → a'.policy ≠ "open")

/-- After a restart, the manager of the session can send to each of its peers. -/
def PeersReachable (g : Gateway) (sid : String) : Prop :=
  ∀ pid peer, g.peers pid = some peer → peer.sessionId = sid →
    ∀ m, (g.disk sid).manifest = some m →
    ∀ (sink : Deliver → Except PyErr SinkReceipt) (env : Envelope) (f : Fresh),
      (∀ d, ∃ r, sink d = .ok r) →
        ∃ out, hubSend (restart g) sink pid (m.manager.getD "") env f = .ok out

/-- Every registration of the run takes no right away, and leaves all peers of the session
reachable. -/
def RightsKept (sid : String) : Gateway → List RegisterParams → Prop
  | _, [] => True
  | g, p :: ps =>
    let g' := (hubRegister g p).2
    Grows (storedAcl g.disk sid) (storedAcl g'.disk sid) ∧
      Grows (liveAcl g.kernel sid) (liveAcl g'.kernel sid) ∧
      ((hubRegister g p).1.isOk → PeersReachable g' sid) ∧ RightsKept sid g' ps

/-- The agents that the access list of a registration names. -/
def RegisterParams.named (p : RegisterParams) : List String := ["hub", "manager", p.agentId]

/-- A registration that takes no right away: the session is the hub's, the agent's and
`manager`'s alone, and open. -/
structure Harmless (g : Gateway) (p : RegisterParams) : Prop where
  agent : agentIdOk p.agentId = true ∧ p.agentId ≠ SESSION_FILE ∧ p.agentId ≠ META_FILE
  noDir : META_FILE ∉ (g.disk p.sessionId).dirs
  manager : ∀ m, (g.disk p.sessionId).manifest = some m → ∃ x ∈ p.named, m.manager = some x
  acl : ∀ a, storedAcl g.disk p.sessionId = some a → (∀ x ∈ a.allowedSenders, x ∈ p.named) ∧
    (∀ x ∈ a.roomMembers, x ∈ p.named) ∧ a.policy = "open"
  peers : ∀ pid peer, pid ≠ p.peerId → g.peers pid = some peer → peer.sessionId = p.sessionId →
    peer.agentId ∈ p.named

/-- Every registration of the run that concerns the session is harmless. -/
def AllHarmless (sid : String) : Gateway → List RegisterParams → Prop
  | _, [] => True
  | g, p :: ps => (p.complete = true → p.sessionId = sid → Harmless g p) ∧
      AllHarmless sid (hubRegister g p).2 ps

/-! ## Other sessions -/

variable {sid : String} {m : Manifest} {a : InitArgs} {disk : Disk} {p : RegisterParams}
  {g : Gateway}

theorem sessionInit_other (disk : Disk) (a : InitArgs) (now : String)
    (h : sid ≠ a.sessionId) : (sessionInit disk a now).2 sid = disk sid := by
  unfold sessionInit
  split
  · rfl
  · exact Function.update_of_ne h _ _

theorem createSession_other (st : State) (a : CreateArgs) (now : String)
    (h : sid ≠ a.sessionId) : (createSession st a now).2.disk sid = st.disk sid ∧
      (createSession st a now).2.mem.sessions sid = st.mem.sessions sid := by
  unfold createSession
  split
  · exact ⟨rfl, rfl⟩
  · have hinit := sessionInit_other st.disk (a.init now) now h
    dsimp only
    split
    · next hs => rw [hs] at hinit; exact ⟨hinit, rfl⟩
    · next hs =>
      rw [hs] at hinit
      split
      · exact ⟨(Function.update_of_ne h _ _).trans hinit, rfl⟩
      · exact ⟨(Function.update_of_ne h _ _).trans hinit, Function.update_of_ne h _ _⟩

theorem register_other (st : State) (loc : AgentLocation) (token now : String) {sid' : String}
    (h : sid' ≠ sid) : (register st loc sid token now).2.disk sid' = st.disk sid' ∧
      (register st loc sid token now).2.mem.sessions sid' = st.mem.sessions sid' := by
  have hpersist (k : Mem) : (persistRouting k st.disk sid none).2 sid' = st.disk sid' :=
    Function.update_of_ne h _ _
  unfold register
  split
  · exact ⟨rfl, rfl⟩
  · next s _ =>
    have hp := hpersist (st.mem.setLocation sid loc.agentId (some loc))
    dsimp only
    split
    · next hs => rw [hs] at hp; exact ⟨hp, rfl⟩
    · next disk hs =>
      rw [hs] at hp
      have hsessions : (st.mem.sessions.set sid (s.withModes loc)) sid' = st.mem.sessions sid' :=
        Function.update_of_ne h _ _
      split
      · exact ⟨hp, hsessions⟩
      · have hinit := sessionInit_other disk (modesInit sid s loc) now h
        split
        · next hq => rw [hq] at hinit; exact ⟨hinit.trans hp, hsessions⟩
        · next hq => rw [hq] at hinit; exact ⟨hinit.trans hp, hsessions⟩

theorem materialize_other (st : State) (p : RegisterParams) (authority : String)
    (h : sid ≠ p.sessionId) : (materialize st p authority).2.disk sid = st.disk sid ∧
      (materialize st p authority).2.mem.sessions sid = st.mem.sessions sid := by
  unfold materialize
  split
  · exact ⟨rfl, rfl⟩
  · have hcreate := createSession_other st (p.create authority) p.now h
    split
    · next hs => rw [hs] at hcreate; exact hcreate
    · next hs => rw [hs] at hcreate; exact hcreate
    · next hs => rw [hs] at hcreate; exact hcreate

theorem admitManager_other (k : Mem) {sid' : String} (h : sid' ≠ sid) :
    (Mem.admitManager k sid).sessions sid' = k.sessions sid' := by
  unfold Mem.admitManager
  split
  · exact Function.update_of_ne h _ _
  · rfl

theorem registerRouting_other (st : State) (p : RegisterParams)
    (h : sid ≠ p.sessionId) : (registerRouting st p).disk sid = st.disk sid ∧
      (registerRouting st p).mem.sessions sid = st.mem.sessions sid := by
  unfold registerRouting
  split
  · exact ⟨rfl, rfl⟩
  · have hmaterialize := materialize_other st p (authorityOf (st.disk p.sessionId).manifest) h
    dsimp only
    split
    · next hs => rw [hs] at hmaterialize; exact hmaterialize
    · next st' hs =>
      rw [hs] at hmaterialize
      obtain ⟨hdisk, hmem⟩ := hmaterialize
      have hregister := register_other ⟨Mem.admitManager st'.mem p.sessionId,
        if (st.disk p.sessionId).manifest.isSome then (sessionInit st'.disk
          (mergeInit p (authorityOf (st.disk p.sessionId).manifest)) p.now).2 else st'.disk⟩
        p.location "" p.now h
      refine ⟨hregister.1.trans ?_, hregister.2.trans ?_⟩
      · dsimp only
        split
        · exact (sessionInit_other _ _ _ h).trans hdisk
        · exact hdisk
      · exact (admitManager_other _ h).trans hmem


/-! ## The session itself -/

/-- The directory of a session that exists; no agent has the name of one of its files. -/
structure Existing (d : SessionDir) (m : Manifest) : Prop where
  manifest : d.manifest = some m
  noFile : SESSION_FILE ∉ d.dirs ∧ META_FILE ∉ d.dirs

/-- `session_init` merges into a session what names no file. -/
theorem sessionInit_merge {disk : Disk} {a : InitArgs} {m : Manifest} (now : String)
    (h : Existing (disk a.sessionId) m) (hids : a.validate = .ok ())
    (hmanager : m.manager = some a.managerId) (hacl : a.acl.isSome)
    (hagents : SESSION_FILE ∉ a.agentIds ∧ META_FILE ∉ a.agentIds) :
    ∃ d text, sessionInit disk a now = (.ok text, Function.update disk a.sessionId d) ∧
      Existing d (m.merge a) := by
  have hadded (name : String) (hname : name ∉ a.agentIds) : name ∉ m.added a := by
    intro hin
    exact hname (List.mem_of_mem_filter (Mailbox.mem_sortedSet.mp hin))
  obtain ⟨dirs, hdirs, hin⟩ := @ensureAgentDirs_clean _ (disk a.sessionId)
    ⟨hadded _ hagents.1, hadded _ hagents.2⟩
  have hfile : SESSION_FILE ∉ dirs :=
    fun he => h.noFile.1 (hin _ (hadded _ hagents.1) he)
  have hmeta : META_FILE ∉ dirs :=
    fun he => h.noFile.2 (hin _ (hadded _ hagents.2) he)
  have hsame : ¬ (m.manager.getD "" ≠ "" && m.manager.getD "" ≠ a.managerId) = true := by
    simp [hmanager]
  have hwork : ¬ (m.added a = [] && a.acl.isNone && a.executionModes.isNone &&
      a.returnModes.isNone) = true := by
    obtain ⟨acl, hs⟩ := Option.isSome_iff_exists.mp hacl
    simp [hs]
  have hmerge : ∃ text, mergeSession (disk a.sessionId) m a =
      (.ok text, { disk a.sessionId with manifest := some (m.merge a), dirs := dirs }) := by
    unfold mergeSession
    dsimp only
    rw [if_neg hsame, if_neg hwork, hdirs]
    dsimp only
    rw [writeManifest, if_neg hfile]
    exact ⟨_, rfl⟩
  obtain ⟨text, hmerge⟩ := hmerge
  refine ⟨{ disk a.sessionId with manifest := some (m.merge a), dirs := dirs }, text, ?_,
    rfl, hfile, hmeta⟩
  unfold sessionInit
  rw [hids]
  dsimp only
  rw [h.manifest]
  dsimp only
  rw [hmerge]

/-- `session_init` without agents and access list leaves the access list alone. -/
theorem mergeSession_modes {d : SessionDir} (h : Existing d m) (hagents : a.agentIds = [])
    (hacl : a.acl = none) :
    ∃ m', Existing (mergeSession d m a).2 m' ∧ m'.manager = m.manager ∧ m'.acl = m.acl := by
  have hadded : m.added a = [] := by
    rw [Manifest.added, hagents]
    rfl
  unfold mergeSession
  simp only [hadded, ensureAgentDirs, writeManifest, if_neg h.noFile.1]
  split
  · exact ⟨m, h, rfl, rfl⟩
  · split
    · exact ⟨m, h, rfl, rfl⟩
    · refine ⟨m.merge a, ⟨rfl, h.noFile⟩, rfl, ?_⟩
      rw [Manifest.merge, hacl]
      rfl

theorem sessionInit_modes (now : String) (h : Existing (disk a.sessionId) m)
    (hagents : a.agentIds = []) (hacl : a.acl = none) :
    ∃ m', Existing ((sessionInit disk a now).2 a.sessionId) m' ∧ m'.manager = m.manager ∧
      m'.acl = m.acl := by
  unfold sessionInit
  split
  · exact ⟨m, h, rfl, rfl⟩
  · dsimp only
    rw [h.manifest, Function.update_self]
    exact mergeSession_modes h hagents hacl

theorem register_existing {st : State} {m : Manifest} (loc : AgentLocation)
    (sid token now : String) (h : Existing (st.disk sid) m) :
    ∃ m', Existing ((register st loc sid token now).2.disk sid) m' ∧ m'.manager = m.manager ∧
      m'.acl = m.acl := by
  unfold register
  split
  · exact ⟨m, h, rfl, rfl⟩
  · next s _ =>
    have hpersist : Existing ((persistRouting (st.mem.setLocation sid loc.agentId (some loc))
        st.disk sid none).2 sid) m := by
      rw [persistRouting, persistMeta, if_neg h.noFile.2]
      dsimp only
      rw [Function.update_self]
      exact ⟨h.manifest, h.noFile⟩
    dsimp only
    split
    · next hs => rw [hs] at hpersist; exact ⟨m, hpersist, rfl, rfl⟩
    · next disk hs =>
      rw [hs] at hpersist
      split
      · exact ⟨m, hpersist, rfl, rfl⟩
      · have hinit := sessionInit_modes (a := modesInit sid s loc) now hpersist rfl rfl
        split
        · next hq => rw [hq] at hinit; exact hinit
        · next hq => rw [hq] at hinit; exact hinit


theorem validateAgentId_eq_ok {aid : String} : validateAgentId aid = .ok () ↔ agentIdOk aid := by
  unfold validateAgentId
  split
  · next h => exact ⟨fun _ => h, fun _ => rfl⟩
  · next h => exact ⟨fun he => (by cases he), fun he => absurd he h⟩

theorem validate_eq_ok (hsession : agentIdOk a.sessionId) (hmanager : agentIdOk a.managerId)
    (hagents : ∀ x ∈ a.agentIds, agentIdOk x) : a.validate = .ok () := by
  have hall : a.agentIds.forM validateAgentId = .ok () :=
    forM_eq_ok.mpr fun x hx => validateAgentId_eq_ok.mpr (hagents x hx)
  unfold InitArgs.validate
  rw [validateAgentId_eq_ok.mpr hsession, validateAgentId_eq_ok.mpr hmanager, hall]
  rfl

/-- What makes a registration of an agent work: its own id and those of the session and of
its manager are valid, and none is the name of a file. -/
structure Writable (p : RegisterParams) (authority : String) : Prop where
  session : agentIdOk p.sessionId = true
  manager : agentIdOk authority = true
  agent : agentIdOk p.agentId = true ∧ p.agentId ≠ SESSION_FILE ∧ p.agentId ≠ META_FILE
  named : authority ∈ p.named

theorem agents_noFile
    (h : agentIdOk p.agentId = true ∧ p.agentId ≠ SESSION_FILE ∧ p.agentId ≠ META_FILE) :
    SESSION_FILE ∉ [p.agentId, "manager"] ∧ META_FILE ∉ [p.agentId, "manager"] := by
  have hsession : SESSION_FILE ≠ "manager" := by decide
  have hmeta : META_FILE ≠ "manager" := by decide
  simp [hsession, hmeta, h.2.1.symm, h.2.2.symm]

theorem agents_valid (h : agentIdOk p.agentId = true) :
    ∀ x ∈ [p.agentId, "manager"], agentIdOk x := by
  intro x hx
  rcases List.mem_cons.mp hx with rfl | hx
  · exact h
  · rw [List.mem_singleton.mp hx]
    decide

theorem materialize_existing {st : State} {authority : String} (hw : Writable p authority)
    (h : Existing (st.disk p.sessionId) m) (hmanager : m.manager = some authority) :
    ∃ st' m', materialize st p authority = (.ok (), st') ∧ Existing (st'.disk p.sessionId) m' ∧
      m'.manager = some authority := by
  unfold materialize
  cases hs : st.mem.sessions p.sessionId with
  | some s => exact ⟨st, m, rfl, h, hmanager⟩
  | none =>
    have hcheck : (p.create authority).check st.mem = .ok () := by
      have hall : (p.create authority).roster.forM validateAgentId = .ok () :=
        forM_eq_ok.mpr fun x hx => validateAgentId_eq_ok.mpr (agents_valid hw.agent.1 x hx)
      have hnew : ¬ (st.mem.sessions (p.create authority).sessionId).isSome = true := by
        show ¬ (st.mem.sessions p.sessionId).isSome = true
        rw [hs]
        exact Bool.false_ne_true
      refine bind_eq_ok.mpr ⟨(), validateAgentId_eq_ok.mpr hw.session, ?_⟩
      refine bind_eq_ok.mpr ⟨(), validateAgentId_eq_ok.mpr hw.manager, ?_⟩
      exact bind_eq_ok.mpr ⟨(), hall, if_neg hnew⟩
    have hin (x : String) (hx : x ∈ ((p.create authority).init p.now).agentIds) :
        x ∈ [p.agentId, "manager"] := by
      obtain ⟨hmem, hne⟩ := List.mem_filter.mp hx
      rcases List.mem_cons.mp (Mailbox.mem_sortedSet.mp hmem) with rfl | hmem
      · simp [RegisterParams.create] at hne
      · exact hmem
    obtain ⟨d, text, hinit, hd⟩ := @sessionInit_merge st.disk ((p.create authority).init p.now) m
      p.now h (validate_eq_ok hw.session hw.manager fun x hx => agents_valid hw.agent.1 x (hin x hx))
      hmanager rfl ⟨fun hf => (agents_noFile hw.agent).1 (hin _ hf),
        fun hf => (agents_noFile hw.agent).2 (hin _ hf)⟩
    have hsid : ((p.create authority).init p.now).sessionId = p.sessionId := rfl
    have hsid' : (p.create authority).sessionId = p.sessionId := rfl
    rw [hsid] at hinit
    simp only [createSession, hcheck, hinit, hsid', Function.update_self, persistMeta,
      if_neg hd.noFile.2]
    refine ⟨_, m.merge ((p.create authority).init p.now), rfl, ?_, hmanager⟩
    dsimp only
    rw [Function.update_self]
    exact ⟨hd.manifest, hd.noFile⟩

theorem registerRouting_existing {st : State} {p : RegisterParams} {authority : String}
    {m : Manifest} (hw : Writable p authority) (h : Existing (st.disk p.sessionId) m)
    (hmanager : m.manager = some authority) :
    ∃ m', Existing ((registerRouting st p).disk p.sessionId) m' ∧ m'.manager = some authority ∧
      m'.acl = some (hubAcl authority p.agentId).data := by
  have hauthority : authorityOf (st.disk p.sessionId).manifest = authority := by
    rw [h.manifest]
    show m.manager.getD "hub" = authority
    rw [hmanager]
    rfl
  have hsome : (st.disk p.sessionId).manifest.isSome = true := by
    rw [h.manifest]
    rfl
  obtain ⟨st', m', hmaterialize, h', hmanager'⟩ := materialize_existing hw h hmanager
  obtain ⟨d, text, hinit, hd⟩ := @sessionInit_merge st'.disk (mergeInit p authority) m' p.now h'
    (validate_eq_ok hw.session hw.manager (agents_valid hw.agent.1)) hmanager' rfl
    (agents_noFile hw.agent)
  have hexisting : Existing ((sessionInit st'.disk (mergeInit p authority) p.now).2 p.sessionId)
      (m'.merge (mergeInit p authority)) := by
    rw [hinit]
    show Existing (Function.update st'.disk p.sessionId d p.sessionId) _
    rw [Function.update_self]
    exact hd
  unfold registerRouting
  simp only [hw.session, Bool.not_true, hauthority, hmaterialize, hsome, if_true,
    Bool.false_eq_true, if_false]
  obtain ⟨m₂, hm₂, hmanager₂, hacl₂⟩ := @register_existing
    ⟨Mem.admitManager st'.mem p.sessionId, (sessionInit st'.disk (mergeInit p authority) p.now).2⟩
    _ p.location p.sessionId "" p.now hexisting
  refine ⟨m₂, hm₂, hmanager₂.trans hmanager', hacl₂⟩

theorem registerRouting_live (st : State) (p : RegisterParams) (sid : String) :
    Grows (liveAcl st.mem sid) (liveAcl (registerRouting st p).mem sid) := by
  have hrefl (a : Option Acl) : Grows a a :=
    fun a' ha => ⟨a', ha, fun _ hx => hx, fun _ hx => hx, id⟩
  by_cases he : sid = p.sessionId
  swap
  · rw [liveAcl, liveAcl, (registerRouting_other st p he).2]
    exact hrefl _
  · subst he
    cases hs : st.mem.sessions p.sessionId with
    | none =>
      intro a ha
      rw [liveAcl, hs] at ha
      cases ha
    | some s =>
      unfold registerRouting
      split
      · exact hrefl _
      · have hmaterialize (authority : String) : materialize st p authority = (.ok (), st) := by
          simp [materialize, hs]
        simp only [hmaterialize]
        have hadmit : (Mem.admitManager st.mem p.sessionId).sessions p.sessionId =
            some (admitManager s) := by
          simp [Mem.admitManager, hs, Dict.set]
        intro a ha
        rw [liveAcl, hs] at ha
        injection ha with ha
        subst ha
        obtain ⟨s', hs', _, hacl⟩ := (register_sameLists ⟨Mem.admitManager st.mem p.sessionId, _⟩
          p.location p.sessionId "" p.now).symm.session hadmit
        refine ⟨s'.acl, ?_, ?_⟩
        · rw [liveAcl, hs']
          rfl
        · rw [← hacl]
          exact ⟨fun x hx => mem_withManager.mpr (.inl hx),
            fun x hx => mem_withManager.mpr (.inl hx), id⟩


/-! ## Runs -/

theorem storedAcl_congr {disk' : Disk} (h : disk sid = disk' sid) :
    storedAcl disk sid = storedAcl disk' sid := by
  simp only [storedAcl, load, h]

theorem storedAcl_eq {acl : Acl} (hm : (disk sid).manifest = some m)
    (hacl : m.acl = some acl.data) :
    storedAcl disk sid = some acl := by
  unfold storedAcl load
  simp only [hm, Option.map_some, loadSession, loadAcl, hacl]
  split <;> simp

/-- What is there for every peer of the session. -/
structure Ready (g : Gateway) (sid pid : String) (peer : HubPeer) : Prop where
  key : peer.peerId = pid ∧ pid ≠ ""
  online : peer.status ≠ .offline
  member : ∀ a, storedAcl g.disk sid = some a → peer.agentId ∈ a.roomMembers
  manager : ∀ a m, storedAcl g.disk sid = some a → (g.disk sid).manifest = some m →
    m.manager.getD "" ∈ a.allowedSenders

/-- What holds of an existing session between two calls. -/
structure Open (g : Gateway) (sid : String) : Prop where
  id : agentIdOk sid = true
  existing : (g.disk sid).manifest.isSome ∧ SESSION_FILE ∉ (g.disk sid).dirs
  ready : ∀ pid peer, g.peers pid = some peer → peer.sessionId = sid → Ready g sid pid peer

theorem direct_ok {k : Mem} {s : Session} {sid sender recipient : String}
    {sink : Deliver → Except PyErr SinkReceipt} {env : Envelope} {f : Fresh}
    (hs : k.sessions sid = some s) (hsender : sender ∈ s.acl.allowedSenders)
    (hrecipient : recipient ∈ s.acl.roomMembers) (hsink : ∀ d, ∃ r, sink d = .ok r) :
    ∃ out, (send k sink sid sender { kind := .direct, agentId := recipient } env f).1 =
      .ok out := by
  have hroute : route k sid sender { kind := .direct, agentId := recipient } = .ok [recipient] := by
    refine bind_eq_ok.mpr ⟨s, requireSession_eq_ok.mpr hs, ?_⟩
    refine bind_eq_ok.mpr ⟨(), ?_, rfl⟩
    rw [checkDirect, if_neg (not_not.mpr hsender), if_neg (not_not.mpr hrecipient)]
  obtain ⟨r, hr⟩ := hsink ⟨sid, recipient, ensureTraceId env f.traceId, f.msgId 0, f.createdAt,
    sender⟩
  refine ⟨_, bind_eq_ok.mpr ⟨_, hroute, bind_eq_ok.mpr ⟨[r], ?_, rfl⟩⟩⟩
  show (deliveries sid sender env f [recipient]).mapM sink = _
  simp only [deliveries, List.zipIdx, List.map, List.mapM_cons, List.mapM_nil, hr]
  rfl

theorem reachable (h : Open g sid) (hfile : g.peersFile = g.peers) : PeersReachable g sid := by
  intro pid peer hpeer hsid m hm sink env f hsink
  obtain ⟨⟨hkey, hne⟩, honline, hmember, hmanager⟩ := h.ready pid peer hpeer hsid
  have hload : (load g.disk).sessions sid = some (loadSession sid m (g.disk sid).swarmMeta) := by
    simp [load, hm]
  have hstored : storedAcl g.disk sid = some (loadSession sid m (g.disk sid).swarmMeta).acl := by
    rw [storedAcl, hload]
    rfl
  obtain ⟨out, hout⟩ := @direct_ok (load g.disk) _ sid (m.manager.getD "") peer.agentId sink env f
    hload (hmanager _ m hstored hm) (hmember _ hstored) hsink
  have hrestart : (restart g).peers pid = some peer := by
    show (g.peersFile pid).filter (·.peerId ≠ "") = some peer
    rw [hfile, hpeer, Option.filter_some, if_pos]
    rw [hkey]
    exact decide_eq_true hne
  refine ⟨out, ?_⟩
  have hkernel : (restart g).kernel = load g.disk := rfl
  unfold hubSend
  rw [hrestart, hkernel]
  dsimp only
  rw [if_neg honline, hsid, hout]

theorem hubRegister_incomplete (g : Gateway) (h : p.complete = false) :
    (hubRegister g p).2 = g ∧ ¬ (hubRegister g p).1.isOk := by
  simp [hubRegister, h, Except.isOk, Except.toBool]

theorem hubRegister_complete (g : Gateway) (h : p.complete = true) :
    (hubRegister g p).2 = ⟨(registerRouting ⟨g.kernel, g.disk⟩ p).mem,
      (registerRouting ⟨g.kernel, g.disk⟩ p).disk, g.peers.set p.peerId p.peer,
      g.peers.set p.peerId p.peer⟩ := by
  simp [hubRegister, h]

theorem Open.other (h : Open g sid) (p : RegisterParams)
    (hsid : p.sessionId ≠ sid) : Open (hubRegister g p).2 sid ∧
      (hubRegister g p).2.disk sid = g.disk sid := by
  cases hcomplete : p.complete with
  | false =>
    rw [(hubRegister_incomplete g hcomplete).1]
    exact ⟨h, rfl⟩
  | true =>
    rw [hubRegister_complete g hcomplete]
    have hdisk : (registerRouting ⟨g.kernel, g.disk⟩ p).disk sid = g.disk sid :=
      (registerRouting_other ⟨g.kernel, g.disk⟩ p (Ne.symm hsid)).1
    have hstored : storedAcl (registerRouting ⟨g.kernel, g.disk⟩ p).disk sid =
        storedAcl g.disk sid := storedAcl_congr hdisk
    refine ⟨⟨h.id, ?_, ?_⟩, hdisk⟩
    · dsimp only
      rw [hdisk]
      exact h.existing
    · intro pid peer hpeer hpeerSid
      dsimp only at hpeer
      by_cases he : pid = p.peerId
      · subst he
        rw [Dict.set, Function.update_self] at hpeer
        injection hpeer with hpeer
        rw [← hpeer] at hpeerSid
        exact absurd hpeerSid hsid
      · rw [Dict.set, Function.update_of_ne he] at hpeer
        have hready := h.ready pid peer hpeer hpeerSid
        refine ⟨hready.key, hready.online, fun a ha => ?_, fun a m ha hm => ?_⟩
        · exact hready.member a (hstored ▸ ha)
        · exact hready.manager a m (hstored ▸ ha) (hdisk ▸ hm)

theorem Open.own (h : Open g p.sessionId) (hcomplete : p.complete = true) (hp : Harmless g p) :
    Open (hubRegister g p).2 p.sessionId ∧
      Grows (storedAcl g.disk p.sessionId) (storedAcl (hubRegister g p).2.disk p.sessionId) := by
  obtain ⟨hsome, hfile⟩ := h.existing
  obtain ⟨m, hmanifest⟩ := Option.isSome_iff_exists.mp hsome
  have hm : Existing (g.disk p.sessionId) m := ⟨hmanifest, hfile, hp.noDir⟩
  obtain ⟨authority, hnamed, hmanager⟩ := hp.manager m hmanifest
  have hauthority : agentIdOk authority = true := by
    rcases List.mem_cons.mp hnamed with rfl | hin
    · decide
    · rcases List.mem_cons.mp hin with rfl | hin
      · decide
      · rw [List.mem_singleton.mp hin]
        exact hp.agent.1
  obtain ⟨m', hm', hmanager', hacl'⟩ :=
    @registerRouting_existing ⟨g.kernel, g.disk⟩ p authority m ⟨h.id, hauthority, hp.agent, hnamed⟩
      hm hmanager
  have hstored : storedAcl (registerRouting ⟨g.kernel, g.disk⟩ p).disk p.sessionId =
      some (hubAcl authority p.agentId) := storedAcl_eq hm'.manifest hacl'
  have hpeerId : p.peerId ≠ "" := by
    intro he
    simp [RegisterParams.complete, he] at hcomplete
  rw [hubRegister_complete g hcomplete]
  -- every peer whose agent the new list names is ready
  have hready (pid : String) (peer : HubPeer) (hkey : peer.peerId = pid ∧ pid ≠ "")
      (honline : peer.status ≠ .offline) (hmember : peer.agentId ∈ p.named) (g' : Gateway)
      (hg : g'.disk = (registerRouting ⟨g.kernel, g.disk⟩ p).disk) :
      Ready g' p.sessionId pid peer := by
    refine ⟨hkey, honline, fun a ha => ?_, fun a m₂ ha hm₂ => ?_⟩
    · rw [hg, hstored] at ha
      injection ha with ha
      rw [← ha]
      exact hmember
    · rw [hg, hstored] at ha
      injection ha with ha
      rw [hg, hm'.manifest] at hm₂
      injection hm₂ with hm₂
      rw [← ha, ← hm₂, hmanager']
      exact hnamed
  have hexisting : ((registerRouting ⟨g.kernel, g.disk⟩ p).disk p.sessionId).manifest.isSome := by
    rw [hm'.manifest]
    rfl
  refine ⟨⟨h.id, ⟨hexisting, hm'.noFile.1⟩, fun pid peer hpeer hsid => ?_⟩, fun a ha => ?_⟩
  · dsimp only at hpeer
    by_cases he : pid = p.peerId
    · subst he
      rw [Dict.set, Function.update_self] at hpeer
      injection hpeer with hpeer
      subst hpeer
      have honline : p.peer.status ≠ .offline := fun hs => by cases hs
      exact hready _ _ ⟨rfl, hpeerId⟩ honline (by simp [RegisterParams.named, RegisterParams.peer])
        _ rfl
    · rw [Dict.set, Function.update_of_ne he] at hpeer
      have hold := h.ready pid peer hpeer hsid
      exact hready _ _ hold.key hold.online (hp.peers pid peer he hpeer hsid) _ rfl
  · dsimp only
    rw [hstored]
    obtain ⟨hsenders, hmembers, hpolicy⟩ := hp.acl a ha
    exact ⟨_, rfl, hsenders, hmembers, fun hne => absurd hpolicy hne⟩

/-- **Registering peers takes no right away** if every registration on the session is
harmless: who was in a list stays in it, and every peer of the session can still be sent to
by its manager after a restart. -/
theorem registration_keeps_rights {sid : String} {g : Gateway} (hid : agentIdOk sid = true)
    (hexisting : (g.disk sid).manifest.isSome ∧ SESSION_FILE ∉ (g.disk sid).dirs)
    (hpeers : ∀ pid peer, g.peers pid = some peer → peer.sessionId ≠ sid)
    (calls : List RegisterParams) (hcalls : AllHarmless sid g calls) : RightsKept sid g calls := by
  have hopen : Open g sid :=
    ⟨hid, hexisting, fun pid peer hpeer hsid => absurd hsid (hpeers pid peer hpeer)⟩
  clear hid hexisting hpeers
  -- the induction is on the calls; what is open before a call is open after it
  induction calls generalizing g with
  | nil => trivial
  | cons p calls ih =>
    obtain ⟨hp, hcalls⟩ := hcalls
    have hrefl (a : Option Acl) : Grows a a :=
      fun a' ha => ⟨a', ha, fun _ hx => hx, fun _ hx => hx, id⟩
    have hstep : Open (hubRegister g p).2 sid ∧
        Grows (storedAcl g.disk sid) (storedAcl (hubRegister g p).2.disk sid) := by
      by_cases hsid : p.sessionId = sid
      · subst hsid
        cases hcomplete : p.complete with
        | true => exact hopen.own hcomplete (hp hcomplete rfl)
        | false =>
          rw [(hubRegister_incomplete g hcomplete).1]
          exact ⟨hopen, hrefl _⟩
      · obtain ⟨hother, hdisk⟩ := hopen.other p hsid
        refine ⟨hother, ?_⟩
        rw [storedAcl_congr hdisk]
        exact hrefl _
    cases hcomplete : p.complete with
    | false =>
      obtain ⟨hsame, hfailed⟩ := hubRegister_incomplete g hcomplete
      refine ⟨hstep.2, ?_, fun hok => absurd hok hfailed, ih hcalls hstep.1⟩
      rw [hsame]
      exact hrefl _
    | true =>
      have hg := hubRegister_complete g hcomplete
      refine ⟨hstep.2, ?_, fun _ => reachable hstep.1 (by rw [hg]), ih hcalls hstep.1⟩
      rw [hg]
      exact registerRouting_live ⟨g.kernel, g.disk⟩ p sid

/-- A gateway without peers and a session of its own. -/
def gatewayOf (a : CreateArgs) : Gateway :=
  let st := (createSession State.start a "").2
  ⟨st.mem, st.disk, Dict.empty, Dict.empty⟩

/-- The peer `w` on another host, for the session `s1`. -/
def remotePeer : RegisterParams :=
  { peerId := "p1", sessionId := "s1", agentId := "w", hostAlias := "box" }

/-- A session of the hub and one of an own manager. -/
def hubSession : CreateArgs := { sessionId := "s1", managerId := "hub", roster := ["w"] }

def ownSession : CreateArgs := { sessionId := "s1", managerId := "mgr", roster := ["w1"] }

theorem harmless_remotePeer : Harmless (gatewayOf hubSession) remotePeer where
  agent := by decide
  noDir := by decide +kernel
  manager := by
    intro m hm
    have hmanager : ((gatewayOf hubSession).disk "s1").manifest.map (·.manager) =
        some (some "hub") := by decide +kernel
    have hm' : ((gatewayOf hubSession).disk "s1").manifest = some m := hm
    rw [hm', Option.map_some] at hmanager
    exact ⟨"hub", List.mem_cons_self, Option.some.inj hmanager⟩
  acl := by
    have hstored : storedAcl (gatewayOf hubSession).disk "s1" =
        some ⟨"hub", ["hub", "w"], ["hub", "w"], "open"⟩ := by decide +kernel
    intro a ha
    have ha' : storedAcl (gatewayOf hubSession).disk "s1" = some a := ha
    rw [hstored] at ha'
    injection ha' with ha'
    subst ha'
    exact ⟨by decide, by decide, rfl⟩
  peers := fun _ _ _ h => (Option.some_ne_none _ h.symm).elim

theorem registration_keeps_rights_hub :
    RightsKept "s1" (gatewayOf hubSession) [remotePeer] :=
  registration_keeps_rights (by decide) ⟨by decide +kernel, by decide +kernel⟩
    (fun _ _ h => (Option.some_ne_none _ h.symm).elim) [remotePeer]
    ⟨fun _ _ => harmless_remotePeer, trivial⟩

/-- The manager of a session is not in the list that a registration writes. -/
theorem registration_drops_manager : ¬ ∀ (sid : String) (g : Gateway), agentIdOk sid = true →
    (g.disk sid).manifest.isSome ∧ SESSION_FILE ∉ (g.disk sid).dirs →
    (∀ pid peer, g.peers pid = some peer → peer.sessionId ≠ sid) →
    ∀ calls : List RegisterParams, RightsKept sid g calls := by
  intro h
  have hkept := h "s1" (gatewayOf ownSession) (by decide) ⟨by decide +kernel, by decide +kernel⟩
    (fun _ _ h => (Option.some_ne_none _ h.symm).elim) [remotePeer]
  have hbefore : storedAcl (gatewayOf ownSession).disk "s1" =
      some ⟨"mgr", ["mgr", "w1"], ["mgr", "w1"], "open"⟩ := by decide +kernel
  have hafter : storedAcl (hubRegister (gatewayOf ownSession) remotePeer).2.disk "s1" =
      some ⟨"mgr", ["hub", "manager", "w"], ["hub", "manager", "w"], "open"⟩ := by decide +kernel
  obtain ⟨a, ha, hsenders, _⟩ := hkept.1 _ hbefore
  rw [hafter] at ha
  injection ha with ha
  subst ha
  exact absurd (hsenders "mgr" List.mem_cons_self) (by decide)

end AiMeshChat.Hub
