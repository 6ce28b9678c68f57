import AiMeshChat.Kernel.Roster
import AiMeshChat.Kernel.SharedRoot
import Mathlib.Data.List.Sort

/-!
# A kernel after a restart

A new kernel is loaded from `session.json` and `swarm-meta.json`. Every call that changes
what a kernel decides also writes these files, so the new kernel decides as the old one.

The exception is an agent of the name of one of the files. `create_session` writes
`session.json` before it makes the directories of the agents, and it raises when a file is
in the place of a directory; the session is then on the disk but not in memory, and a new
kernel has it.
-/

namespace AiMeshChat.Kernel

open Mailbox

/-- The two kernels decide alike: who is reached by what is not a notice, which token a
registration asks for, and where an agent is. -/
structure SameDecisions (k k' : Mem) : Prop where
  route : ∀ sid sender target, target.kind ≠ .notice →
    route k' sid sender target = route k sid sender target
  token : ∀ sid aid, expectedToken k' sid aid = expectedToken k sid aid
  location : ∀ sid aid, getLocation k' sid aid = getLocation k sid aid

/-- A session that is made has no agent of the name of a file. -/
def Call.Clean (k : Mem) : Call → Prop
  | .createSession a _ => a.check k = .ok () → SESSION_FILE ∉ a.members ∧ META_FILE ∉ a.members
  | _ => True

/-- Every call of the run is clean. -/
def AllClean : State → List Call → Prop
  | _, [] => True
  | st, c :: calls => c.Clean st.mem ∧ AllClean (c.run st) calls

/-! ## What is on the disk -/

/-- What a kernel knows of one session. -/
structure Slice where
  session : Option Session
  routing : Dict AgentLocation
  channels : Dict Channel
  tokens : Dict String

def Mem.slice (k : Mem) (sid : String) : Slice :=
  ⟨k.sessions sid, k.routing sid, k.channels sid, k.registrationTokens sid⟩

/-- `session.json` holds what decides in the session. -/
def Stored (s : Session) (d : SessionDir) : Prop :=
  ∃ m, d.manifest = some m ∧ m.acl = some s.acl.data ∧
    (loadSession s.sessionId m none).roster = s.roster ∧ META_FILE ∉ d.dirs

/-- The directory of a session holds all that the kernel decides by. -/
structure Slice.Kept (x : Slice) (d : SessionDir) : Prop where
  session : ∀ s, x.session = some s → Stored s d
  absent : x.session = none → d = {}
  routing : ∀ aid, (d.swarmMeta.getD {}).routing aid = (x.routing aid).map AgentLocation.entry
  channels : ∀ cid, (d.swarmMeta.getD {}).channels cid = (x.channels cid).map Channel.data
  tokens : (d.swarmMeta.getD {}).registrationTokens = x.tokens

/-- The disk holds all that the kernel decides by. -/
def Persisted (st : State) : Prop := ∀ sid, (st.mem.slice sid).Kept (st.disk sid)

variable {d : SessionDir} {st : State} {sid : String} {k : Mem} {s : Session} {a : InitArgs}

/-- What is loaded of `swarm-meta.json` is what it holds. -/
theorem Slice.Kept.bind_meta? {x : Slice} (h : x.Kept d) {α : Type} (f : SwarmMeta → Option α)
    (hf : f {} = none) : d.meta?.bind f = f (d.swarmMeta.getD {}) := by
  have hmeta : d.meta? = d.swarmMeta := by
    unfold SessionDir.meta?
    cases hs : x.session with
    | none => rw [h.absent hs]; rfl
    | some s =>
      obtain ⟨m, hm, _⟩ := h.session s hs
      rw [hm]
      rfl
  rw [hmeta]
  cases d.swarmMeta with
  | none => exact hf.symm
  | some m => rfl

theorem Persisted.loaded (h : Persisted st) (sid : String) :
    ((load st.disk).sessions sid).map Session.lists =
      (st.mem.sessions sid).map Session.lists := by
  cases hs : st.mem.sessions sid with
  | none =>
    have hempty : st.disk sid = {} := (h sid).absent hs
    simp [load, hempty]
  | some s =>
    obtain ⟨m, hm, hacl, hroster, _⟩ := (h sid).session s hs
    have hload : (loadSession sid m (st.disk sid).swarmMeta).acl = s.acl := by
      simp only [loadSession, loadAcl, hacl]
      split <;> simp
    have hsame : (loadSession sid m (st.disk sid).swarmMeta).roster = s.roster := hroster
    simp only [load, hm, Option.map_some, Session.lists, hload, hsame]

/-- **A kernel decides by what is on its disk.** -/
theorem Persisted.sameDecisions (h : Persisted st) : SameDecisions st.mem (load st.disk) := by
  constructor
  · intro sid sender target hkind
    have hlists := h.loaded sid
    have hchannels (cid : String) : (load st.disk).channels sid cid =
        (st.mem.channels sid cid).map fun c => ⟨c.channelId, c.members, none⟩ := by
      have hdata : (((st.disk sid).swarmMeta.getD {}).channels cid) =
          (st.mem.channels sid cid).map Channel.data := (h sid).channels cid
      simp only [load, (h sid).bind_meta? (fun m => m.channels cid) rfl, hdata, Option.map_map]
      rfl
    unfold route requireSession requireChannel
    rw [hchannels]
    cases hs : st.mem.sessions sid with
    | none =>
      rw [hs, Option.map_none, Option.map_eq_none_iff] at hlists
      rw [hlists]
      rfl
    | some s =>
      rw [hs, Option.map_some, Option.map_eq_some_iff] at hlists
      obtain ⟨s', hs', heq⟩ := hlists
      injection heq with hroster hacl
      rw [hs']
      cases hk : target.kind with
      | notice => exact absurd hk hkind
      | direct => simp only [bind, Except.bind, checkDirect, hacl]
      | broadcast => simp only [bind, Except.bind, checkBroadcast, hacl, hroster]
      | channel =>
        cases st.mem.channels sid target.channelId with
        | none => rfl
        | some c => rfl
  · intro sid aid
    have htokens : ((st.disk sid).swarmMeta.getD {}).registrationTokens =
        st.mem.registrationTokens sid := (h sid).tokens
    simp only [expectedToken, load, (h sid).bind_meta? (fun m => m.registrationTokens aid) rfl,
      htokens]
  · intro sid aid
    have hentry : ((st.disk sid).swarmMeta.getD {}).routing aid =
        (st.mem.routing sid aid).map AgentLocation.entry := (h sid).routing aid
    simp only [getLocation, load, (h sid).bind_meta? (fun m => m.routing aid) rfl, hentry,
      Option.map_map]
    cases st.mem.routing sid aid with
    | none => rfl
    | some loc => simp

theorem persisted_start : Persisted .start := fun _ =>
  ⟨fun s hs => (Option.some_ne_none s hs.symm).elim, fun _ => rfl, fun _ => rfl, fun _ => rfl, rfl⟩

/-! ## What the calls write -/

theorem Persisted.update (h : Persisted st)
    (hother : ∀ sid', sid' ≠ sid → k.slice sid' = st.mem.slice sid')
    (hd : (k.slice sid).Kept d) : Persisted ⟨k, Function.update st.disk sid d⟩ := by
  intro sid'
  show (k.slice sid').Kept (Function.update st.disk sid d sid')
  by_cases he : sid' = sid
  · subst he
    rwa [Function.update_self]
  · rw [Function.update_of_ne he, hother sid' he]
    exact h sid'

theorem Stored.persistMeta (h : Stored s d) (f : SwarmMeta → SwarmMeta) :
    persistMeta d f = (.ok (), { d with swarmMeta := some (f (d.swarmMeta.getD {})) }) ∧
      Stored s { d with swarmMeta := some (f (d.swarmMeta.getD {})) } := by
  obtain ⟨m, hm, hacl, hroster, hdirs⟩ := h
  refine ⟨?_, m, hm, hacl, hroster, hdirs⟩
  rw [Kernel.persistMeta, if_neg hdirs]

theorem Persisted.setLocation (h : Persisted st) (hs : st.mem.sessions sid = some s) (aid : String)
    (loc : Option AgentLocation) :
    ∃ disk, persistRouting (st.mem.setLocation sid aid loc) st.disk sid
        (if loc.isSome then none else some aid) = (.ok (), disk) ∧
      Persisted ⟨st.mem.setLocation sid aid loc, disk⟩ := by
  obtain ⟨hpersist, hstored⟩ := Stored.persistMeta ((h sid).session s hs) fun m =>
    { m with
      routing := routingAfter ((st.mem.setLocation sid aid loc).routing sid)
        (if loc.isSome then none else some aid) m.routing }
  refine ⟨_, by rw [persistRouting, hpersist], ?_⟩
  have hknown : (st.mem.setLocation sid aid loc).routing sid =
      Function.update (st.mem.routing sid) aid loc := Function.update_self ..
  refine h.update (fun sid' he => ?_) ?_
  · simp only [Mem.slice, Mem.setLocation, Function.update_of_ne he]
  · refine ⟨fun s' hs' => ?_, fun hnone => ?_, fun aid' => ?_, (h sid).channels, (h sid).tokens⟩
    · have hsame : s' = s := Option.some.inj (hs'.symm.trans hs)
      rw [hsame]
      exact hstored
    · exact (Option.some_ne_none s (hs.symm.trans hnone)).elim
    · show routingAfter _ _ ((st.disk sid).swarmMeta.getD {}).routing aid' =
        ((st.mem.setLocation sid aid loc).routing sid aid').map AgentLocation.entry
      have hold : ((st.disk sid).swarmMeta.getD {}).routing aid' =
          (st.mem.routing sid aid').map AgentLocation.entry := (h sid).routing aid'
      rw [hknown, routingAfter_change]
      by_cases he : aid' = aid
      · subst he
        rw [Function.update_self, Function.update_self]
      · rw [Function.update_of_ne he, Function.update_of_ne he, Dict.update, hold, Option.or_self]

theorem Stored.mergeModes (h : Stored s d) {m : Manifest} (hm : d.manifest = some m)
    (hagents : a.agentIds = []) (hacl : a.acl = none) :
    Stored s (mergeSession d m a).2 ∧ (mergeSession d m a).2.swarmMeta = d.swarmMeta := by
  refine ⟨?_, mergeSession_swarmMeta d m a⟩
  obtain ⟨m', hm', hacl', hroster, hdirs⟩ := h
  have hsame : m' = m := Option.some.inj (hm'.symm.trans hm)
  subst hsame
  have hadded : m'.added a = [] := by
    rw [Manifest.added, hagents]
    rfl
  have hkept : Stored s d := ⟨m', hm, hacl', hroster, hdirs⟩
  have hmerged : Stored s { d with manifest := some (m'.merge a) } := by
    refine ⟨_, rfl, ?_, ?_, hdirs⟩
    · rw [Manifest.merge, hacl]
      exact hacl'
    · rw [← hroster]
      refine sortedSet_congr fun x => ?_
      simp only [Manifest.merge, hagents, List.append_nil, List.mem_append, mem_sortedSet]
  unfold mergeSession
  simp only [hadded, ensureAgentDirs, writeManifest]
  split
  · exact hkept
  · split
    · exact hkept
    · split
      · next hw =>
        split at hw
        · injection hw with _ hw
          rw [← hw]
          exact hkept
        · cases hw
      · next hw =>
        split at hw
        · cases hw
        · injection hw with _ hw
          rw [← hw]
          exact hmerged

/-- `session_init` with modes alone keeps what decides. -/
theorem Persisted.initModes (h : Persisted st) (hs : st.mem.sessions a.sessionId = some s)
    (hagents : a.agentIds = []) (hacl : a.acl = none)
    (now : String) : Persisted ⟨st.mem, (sessionInit st.disk a now).2⟩ := by
  unfold sessionInit
  split
  · exact h
  · refine h.update (fun _ _ => rfl) ?_
    have hstored : Stored s (st.disk a.sessionId) := (h a.sessionId).session s hs
    have ⟨m, hm, _⟩ := hstored
    obtain ⟨hmerged, hmeta⟩ := Stored.mergeModes hstored hm hagents hacl
    rw [hm]
    dsimp only
    refine ⟨fun s' hs' => ?_, fun hnone => ?_, ?_, ?_, ?_⟩
    · have hsame : s' = s := Option.some.inj (hs'.symm.trans hs)
      rw [hsame]
      exact hmerged
    · exact (Option.some_ne_none s (hs.symm.trans hnone)).elim
    · rw [hmeta]
      exact (h a.sessionId).routing
    · rw [hmeta]
      exact (h a.sessionId).channels
    · rw [hmeta]
      exact (h a.sessionId).tokens

/-! ## One call -/

theorem Persisted.register (h : Persisted st) (loc : AgentLocation)
    (sid token now : String) : Persisted (register st loc sid token now).2 := by
  unfold Kernel.register
  cases hcheck : checkRegister st.mem loc sid token with
  | error e => exact h
  | ok s =>
    obtain ⟨hs, _⟩ := checkRegister_eq_ok.mp hcheck
    obtain ⟨disk, hpersist, hkept⟩ := h.setLocation hs loc.agentId (some loc)
    rw [Option.isSome_some, if_pos rfl] at hpersist
    simp only [hpersist]
    -- the modes change nothing that decides
    have hmodes : Persisted ⟨{ st.mem.setLocation sid loc.agentId (some loc) with
        sessions := st.mem.sessions.set sid (s.withModes loc) }, disk⟩ := by
      have hdisk : disk = Function.update disk sid (disk sid) := (Function.update_eq_self _ _).symm
      rw [hdisk]
      refine Persisted.update hkept (fun sid' he => ?_) ?_
      · simp only [Mem.slice, Dict.set, Function.update_of_ne he]
        rfl
      · have hold := hkept sid
        refine ⟨fun s' hs' => ?_, fun hnone => ?_, hold.routing, hold.channels, hold.tokens⟩
        · have hsame : s' = s.withModes loc := by
            simpa [Mem.slice, Dict.set] using hs'.symm
          rw [hsame]
          exact hold.session s hs
        · simp [Mem.slice, Dict.set] at hnone
    split
    · exact hmodes
    · have hinit := hmodes.initModes (a := modesInit sid s loc) (s := s.withModes loc)
        (Function.update_self ..) rfl rfl now
      split
      · next hq => rw [hq] at hinit; exact hinit
      · next hq => rw [hq] at hinit; exact hinit

theorem Persisted.unregister (h : Persisted st) (sid aid : String) :
    Persisted (unregister st sid aid).2 := by
  unfold Kernel.unregister
  cases hreq : requireSession st.mem sid with
  | error e => exact h
  | ok s =>
    obtain ⟨disk, hpersist, hkept⟩ := h.setLocation (requireSession_eq_ok.mp hreq) aid none
    have hpersist' : persistRouting (st.mem.setLocation sid aid none) st.disk sid (some aid) =
        (.ok (), disk) := hpersist
    simp only [hpersist']
    exact hkept

theorem requireMember_eq_ok {aid : String}
    (h : requireMember k sid aid = .ok s) : k.sessions sid = some s := by
  obtain ⟨s', hs, h⟩ := bind_eq_ok.mp h
  split at h
  · injection h with h
    subst h
    exact requireSession_eq_ok.mp hs
  · cases h

theorem Persisted.setRegistrationToken (h : Persisted st) (sid aid token : String) :
    Persisted (setRegistrationToken st sid aid token).2 := by
  unfold Kernel.setRegistrationToken
  cases hreq : requireMember st.mem sid aid with
  | error e => exact h
  | ok s =>
    have hs := requireMember_eq_ok hreq
    obtain ⟨hpersist, hstored⟩ := Stored.persistMeta ((h sid).session s hs) fun m =>
      { m with registrationTokens := m.registrationTokens.set aid token }
    simp only [hpersist]
    refine h.update (fun sid' he => ?_) ?_
    · simp only [Mem.slice, Function.update_of_ne he]
    · refine ⟨fun s' hs' => ?_, fun hnone => ?_, (h sid).routing, (h sid).channels, ?_⟩
      · have hsame : s' = s := Option.some.inj (hs'.symm.trans hs)
        rw [hsame]
        exact hstored
      · exact (Option.some_ne_none s (hs.symm.trans hnone)).elim
      · have hold : ((st.disk sid).swarmMeta.getD {}).registrationTokens =
            st.mem.registrationTokens sid := (h sid).tokens
        show ((st.disk sid).swarmMeta.getD {}).registrationTokens.set aid token =
          Function.update st.mem.registrationTokens sid _ sid
        rw [hold, Function.update_self]

theorem Persisted.createChannel (h : Persisted st) (sid cid : String) (members : List String)
    (acl : Option Acl) : Persisted (createChannel st sid cid members acl).2 := by
  unfold Kernel.createChannel
  cases hcheck : checkCreateChannel st.mem sid cid members with
  | error e => exact h
  | ok u =>
    obtain ⟨s, hreq, _⟩ := bind_eq_ok.mp hcheck
    have hs := requireSession_eq_ok.mp hreq
    obtain ⟨hpersist, hstored⟩ := Stored.persistMeta ((h sid).session s hs) fun m =>
      { m with
        channels := m.channels.update fun c =>
          ((st.mem.channels sid).set cid ⟨cid, members, acl⟩ c).map Channel.data }
    simp only [hpersist]
    refine h.update (fun sid' he => ?_) ?_
    · simp only [Mem.slice, Function.update_of_ne he]
    · refine ⟨fun s' hs' => ?_, fun hnone => ?_, (h sid).routing, fun c => ?_, (h sid).tokens⟩
      · have hsame : s' = s := Option.some.inj (hs'.symm.trans hs)
        rw [hsame]
        exact hstored
      · exact (Option.some_ne_none s (hs.symm.trans hnone)).elim
      · have hold : ((st.disk sid).swarmMeta.getD {}).channels c =
            (st.mem.channels sid c).map Channel.data := (h sid).channels c
        simp only [Mem.slice, Function.update_self, Option.getD_some, Dict.update, hold]
        by_cases he : c = cid
        · subst he
          simp [Dict.set]
        · rw [Dict.set, Function.update_of_ne he, Option.or_self]

/-- The check of `create_session` has found the identifiers valid. -/
theorem check_managerId {a : CreateArgs} (h : a.check k = .ok ()) : a.managerId ≠ "" := by
  unfold CreateArgs.check at h
  obtain ⟨_, _, h⟩ := bind_eq_ok.mp h
  obtain ⟨_, hmanager, _⟩ := bind_eq_ok.mp h
  intro he
  rw [he] at hmanager
  cases hmanager

theorem ensureAgentDirs_clean {agents : List String} {d : SessionDir}
    (h : SESSION_FILE ∉ agents ∧ META_FILE ∉ agents) :
    ∃ dirs, ensureAgentDirs d agents = (.ok (), { d with dirs := dirs }) ∧
      ∀ name, name ∉ agents → name ∈ dirs → name ∈ d.dirs := by
  induction agents generalizing d with
  | nil => exact ⟨d.dirs, rfl, fun _ _ hin => hin⟩
  | cons aid rest ih =>
    obtain ⟨hsession, hmeta⟩ := h
    have haid : aid ≠ SESSION_FILE ∧ aid ≠ META_FILE :=
      ⟨fun he => hsession (he ▸ List.mem_cons_self), fun he => hmeta (he ▸ List.mem_cons_self)⟩
    have hfile : d.isFile aid = false := by
      simp [SessionDir.isFile, haid.1, haid.2]
    obtain ⟨dirs, hdirs, hin⟩ := @ih { d with dirs := aid :: d.dirs.erase aid }
      ⟨fun he => hsession (List.mem_cons_of_mem _ he), fun he => hmeta (List.mem_cons_of_mem _ he)⟩
    refine ⟨dirs, ?_, fun name hname hmem => ?_⟩
    · rw [ensureAgentDirs, hfile]
      exact hdirs
    · rcases List.mem_cons.mp (hin name (fun hr => hname (List.mem_cons_of_mem _ hr)) hmem) with
        rfl | hm
      · exact absurd List.mem_cons_self hname
      · exact List.mem_of_mem_erase hm

theorem stored_new {a : CreateArgs} (hmanager : a.managerId ≠ "") (now : String)
    (hm : d.manifest = some ((a.init now).manifest now))
    (hdirs : META_FILE ∉ d.dirs) : Stored (a.session now) d := by
  refine ⟨_, hm, rfl, ?_, hdirs⟩
  show sortedSet (sortedSet (a.members.filter (· ≠ a.managerId)) ++
    if a.managerId = "" then [] else [a.managerId]) = sortedSet (a.managerId :: a.roster)
  rw [if_neg hmanager]
  refine sortedSet_congr fun x => ?_
  simp only [List.mem_append, mem_sortedSet, List.mem_filter, decide_eq_true_eq, List.mem_cons,
    List.not_mem_nil, or_false, CreateArgs.members]
  constructor
  · rintro (⟨hx, _⟩ | rfl)
    · exact hx
    · exact .inl rfl
  · intro hx
    by_cases he : x = a.managerId
    · exact .inr he
    · exact .inl ⟨hx, he⟩

theorem freshSession_clean {a : InitArgs} (now : String)
    (h : SESSION_FILE ∉ sortedSet a.agentIds ++ [a.managerId] ∧
      META_FILE ∉ sortedSet a.agentIds ++ [a.managerId]) :
    ∃ dirs, freshSession {} a now = (.ok a.createdText,
        { manifest := some (a.manifest now), dirs := dirs }) ∧ META_FILE ∉ dirs := by
  obtain ⟨dirs, hdirs, hin⟩ := @ensureAgentDirs_clean _ { manifest := some (a.manifest now) } h
  refine ⟨dirs, ?_, fun he => List.not_mem_nil (hin META_FILE h.2 he)⟩
  have hwrite : writeManifest {} (a.manifest now) =
      (.ok (), { manifest := some (a.manifest now) }) := if_neg List.not_mem_nil
  simp only [freshSession, hwrite, hdirs]

theorem Persisted.createSession (h : Persisted st) {a : CreateArgs} {now : String}
    (hclean : (Call.createSession a now).Clean st.mem) : Persisted (createSession st a now).2 := by
  unfold Kernel.createSession
  cases hcheck : a.check st.mem with
  | error e => exact h
  | ok u =>
    have hnone := check_eq_ok hcheck
    have hempty : st.disk a.sessionId = {} := (h a.sessionId).absent hnone
    obtain ⟨hsession, hmeta⟩ := hclean hcheck
    dsimp only
    cases hvalid : (a.init now).validate with
    | error e =>
      simp only [sessionInit, hvalid]
      exact h
    | ok u =>
      have hagents (name : String) (hname : name ∉ a.members) :
          name ∉ sortedSet (a.init now).agentIds ++ [(a.init now).managerId] := by
        rw [List.mem_append, mem_sortedSet, List.mem_singleton]
        rintro (hin | rfl)
        · exact hname (List.mem_filter.mp hin).1
        · exact hname (mem_sortedSet.mpr List.mem_cons_self)
      obtain ⟨dirs, hfresh, hdirs⟩ :=
        freshSession_clean (a := a.init now) now ⟨hagents _ hsession, hagents _ hmeta⟩
      have hinit : sessionInit st.disk (a.init now) now = (.ok (a.init now).createdText,
          Function.update st.disk a.sessionId
            { manifest := some ((a.init now).manifest now), dirs := dirs }) := by
        have hdir : st.disk (a.init now).sessionId = {} := hempty
        simp only [sessionInit, hvalid, hdir, hfresh]
        rfl
      have hpersist (f : SwarmMeta → SwarmMeta) :
          persistMeta { manifest := some ((a.init now).manifest now), dirs := dirs } f =
            (.ok (), { manifest := some ((a.init now).manifest now), dirs := dirs,
                       swarmMeta := some (f {}) }) := if_neg hdirs
      simp only [hinit, Function.update_self, hpersist, Function.update_idem]
      refine h.update (fun sid' he => ?_) ?_
      · simp only [Mem.slice, Mem.addSession, CreateArgs.session, Dict.set,
          Function.update_of_ne he]
      · have hslice := h a.sessionId
        rw [hempty] at hslice
        have hadded : (st.mem.addSession (a.session now)).slice a.sessionId =
            ⟨some (a.session now), st.mem.routing a.sessionId, Dict.empty,
              st.mem.registrationTokens a.sessionId⟩ := by
          simp only [Mem.slice, Mem.addSession, CreateArgs.session, Dict.set, Function.update_self]
        rw [hadded]
        refine ⟨fun s hs => ?_, fun hs => (Option.some_ne_none _ hs).elim, hslice.routing,
          fun _ => rfl, hslice.tokens⟩
        injection hs with hs
        subst hs
        exact stored_new (check_managerId hcheck) now rfl hdirs

theorem Persisted.same_slices (h : Persisted st)
    (hk : ∀ sid, k.slice sid = st.mem.slice sid) : Persisted ⟨k, st.disk⟩ := by
  intro sid
  show (k.slice sid).Kept (st.disk sid)
  rw [hk sid]
  exact h sid

theorem subscribe_slice (k : Mem) (sid aid : String) (topics : List String) (sid' : String) :
    (subscribe k sid aid topics).2.slice sid' = k.slice sid' := by
  unfold subscribe
  split <;> rfl

theorem afterRoute_slice (k : Mem) (sid sender : String) (target : Address) (sid' : String) :
    (afterRoute k sid sender target).slice sid' = k.slice sid' := by
  unfold afterRoute
  split <;> rfl

/-! ## Runs -/

theorem Persisted.call {st : State} (h : Persisted st) {c : Call} (hc : c.Clean st.mem) :
    Persisted (c.run st) := by
  cases c with
  | createSession a now => exact h.createSession hc
  | register loc sid token now => exact h.register loc sid token now
  | unregister sid aid => exact h.unregister sid aid
  | setRegistrationToken sid aid token => exact h.setRegistrationToken sid aid token
  | createChannel sid cid members acl => exact h.createChannel sid cid members acl
  | subscribe sid aid topics => exact h.same_slices (subscribe_slice st.mem sid aid topics)
  | send sid sender target => exact h.same_slices (afterRoute_slice st.mem sid sender target)

theorem Persisted.run (h : Persisted st) {calls : List Call}
    (hcalls : AllClean st calls) : Persisted (run st calls) := by
  induction calls generalizing st with
  | nil => exact h
  | cons c calls ih => exact ih (h.call hcalls.1) hcalls.2

/-- **A new kernel on the same root decides as the old one**, after every run on a fresh
root in which no session is made with an agent of the name of a file. -/
theorem restart_decides_alike {calls : List Call} (h : AllClean .start calls) :
    SameDecisions (run .start calls).mem (load (run .start calls).disk) :=
  (persisted_start.run h).sameDecisions

/-- The run of `channelCalls`, and the registration of its worker with a token. -/
def workerCalls : List Call :=
  channelCalls ++ [.setRegistrationToken "s1" "w" "secret",
    .register ⟨"w", "host-a", "cli", some .mailboxWorker, "/srv/mail", none⟩ "s1" "secret" "",
    .unregister "s1" "x"]

theorem restart_decides_alike_worker :
    AllClean .start workerCalls ∧
      SameDecisions (run .start workerCalls).mem (load (run .start workerCalls).disk) := by
  have hclean : AllClean .start workerCalls :=
    ⟨fun _ => by decide +kernel, trivial, trivial, trivial, trivial, trivial⟩
  exact ⟨hclean, restart_decides_alike hclean⟩

/-- A session with an agent that is named like its own file. -/
def fileCalls : List Call :=
  [.createSession { sessionId := "s1", managerId := "m", roster := ["session.json"] } ""]

/-- The session that could not be made is there after a restart. -/
theorem restart_finds_failed_session :
    ¬ ∀ calls : List Call, SameDecisions (run .start calls).mem (load (run .start calls).disk) := by
  intro h
  have hroute := (h fileCalls).route "s1" "m" ⟨.direct, "m", "", ""⟩ (by decide)
  have hnew : (route (load (run .start fileCalls).disk) "s1" "m" ⟨.direct, "m", "", ""⟩).toOption =
      some ["m"] := by
    decide +kernel
  have hold : (route (run .start fileCalls).mem "s1" "m" ⟨.direct, "m", "", ""⟩).toOption = none := by
    decide +kernel
  rw [hroute, hold] at hnew
  cases hnew

end AiMeshChat.Kernel
