import AiMeshChat.Kernel.Routing
import Mathlib.Data.List.Dedup

/-!
# Who talks to whom

The recipients that `send` passes to its sink are those of the lists that its way goes by.
A channel never has a member outside the roster. The lists of an access list and the
subscribers of a topic may: the kernel lets their authors decide, and a hub is allowed to
send without being a member. If these authors keep to the roster, so do all recipients.
-/

namespace AiMeshChat.Kernel

open Mailbox

/-! ## What the calls do to the lists -/

/-- What a session has to say about who may talk. -/
def Session.lists (s : Session) : List String × Acl := (s.roster, s.acl)

/-- The calls between `k` and `k'` have left all lists alone. -/
structure SameLists (k k' : Mem) : Prop where
  sessions : ∀ sid, (k'.sessions sid).map Session.lists = (k.sessions sid).map Session.lists
  channels : k'.channels = k.channels
  topics : k'.topicSubscriptions = k.topicSubscriptions

theorem SameLists.refl (k : Mem) : SameLists k k := ⟨fun _ => rfl, rfl, rfl⟩

variable {k k' : Mem} {sid sender : String} {s : Session} {st : State} {target : Address}
  {rs : List String}

/-- A session of `k` is one of `k'` with the same lists, and the other way round. -/
theorem SameLists.session (h : SameLists k k') {s' : Session} (hs : k'.sessions sid = some s') :
    ∃ s, k.sessions sid = some s ∧ s'.roster = s.roster ∧ s'.acl = s.acl := by
  have hlists := h.sessions sid
  rw [hs] at hlists
  cases hk : k.sessions sid with
  | none => rw [hk] at hlists; cases hlists
  | some s =>
    rw [hk] at hlists
    injection hlists with hlists
    injection hlists with hroster hacl
    exact ⟨s, rfl, hroster, hacl⟩

theorem SameLists.symm (h : SameLists k k') : SameLists k' k :=
  ⟨fun sid => (h.sessions sid).symm, h.channels.symm, h.topics.symm⟩

/-- `create_session` adds a session that was not there, or changes nothing in memory. -/
theorem createSession_mem (st : State) (a : CreateArgs) (now : String) :
    (createSession st a now).2.mem = st.mem ∨
      a.check st.mem = .ok () ∧
        (createSession st a now).2.mem = st.mem.addSession (a.session now) := by
  unfold createSession
  cases hcheck : a.check st.mem with
  | error e => exact .inl rfl
  | ok u =>
    dsimp only
    split
    · exact .inl rfl
    · split
      · exact .inl rfl
      · exact .inr ⟨rfl, rfl⟩

theorem check_eq_ok {a : CreateArgs} (h : a.check k = .ok ()) : k.sessions a.sessionId = none := by
  unfold CreateArgs.check at h
  obtain ⟨_, _, h⟩ := bind_eq_ok.mp h
  obtain ⟨_, _, h⟩ := bind_eq_ok.mp h
  obtain ⟨_, _, h⟩ := bind_eq_ok.mp h
  cases hs : k.sessions a.sessionId with
  | none => rfl
  | some s => simp [hs] at h

theorem register_sameLists (st : State) (loc : AgentLocation) (sid token now : String) :
    SameLists st.mem (register st loc sid token now).2.mem := by
  have hmodes {s : Session} (hs : st.mem.sessions sid = some s) (k : Mem)
      (hk : k.sessions = st.mem.sessions.set sid (s.withModes loc))
      (hc : k.channels = st.mem.channels)
      (ht : k.topicSubscriptions = st.mem.topicSubscriptions) : SameLists st.mem k := by
    refine ⟨fun sid' => ?_, hc, ht⟩
    rw [hk]
    by_cases he : sid' = sid
    · subst he
      rw [Dict.set, Function.update_self, hs]
      rfl
    · rw [Dict.set, Function.update_of_ne he]
  unfold register
  cases hcheck : checkRegister st.mem loc sid token with
  | error e => exact .refl _
  | ok s =>
    obtain ⟨hs, _⟩ := checkRegister_eq_ok.mp hcheck
    dsimp only
    split
    · exact ⟨fun _ => rfl, rfl, rfl⟩
    · split
      · exact hmodes hs _ rfl rfl rfl
      · split
        · exact hmodes hs _ rfl rfl rfl
        · exact hmodes hs _ rfl rfl rfl

theorem unregister_sameLists (st : State) (sid aid : String) :
    SameLists st.mem (unregister st sid aid).2.mem := by
  unfold unregister
  split
  · exact .refl _
  · exact ⟨fun _ => rfl, rfl, rfl⟩

theorem setRegistrationToken_sameLists (st : State) (sid aid token : String) :
    SameLists st.mem (setRegistrationToken st sid aid token).2.mem := by
  unfold setRegistrationToken
  split
  · exact .refl _
  · exact ⟨fun _ => rfl, rfl, rfl⟩

/-- `create_channel` adds a channel of roster members, or changes nothing. -/
theorem createChannel_mem (st : State) (sid cid : String) (members : List String)
    (acl : Option Acl) :
    (createChannel st sid cid members acl).2.mem = st.mem ∨
      ∃ s, st.mem.sessions sid = some s ∧ (∀ m ∈ members, m ∈ s.roster) ∧
        (createChannel st sid cid members acl).2.mem =
          { st.mem with
            channels := Function.update st.mem.channels sid
              ((st.mem.channels sid).set cid ⟨cid, members, acl⟩) } := by
  unfold createChannel
  cases hcheck : checkCreateChannel st.mem sid cid members with
  | error e => exact .inl rfl
  | ok u =>
    obtain ⟨s, hs, hrest⟩ := bind_eq_ok.mp hcheck
    obtain ⟨_, hmembers, _⟩ := bind_eq_ok.mp hrest
    refine .inr ⟨s, requireSession_eq_ok.mp hs, fun m hm => ?_, rfl⟩
    have hin := forM_eq_ok.mp hmembers m hm
    by_contra hnot
    rw [if_neg hnot] at hin
    cases hin

/-- `subscribe` adds the agent to its topics, or changes nothing. -/
theorem subscribe_mem (k : Mem) (sid aid : String) (topics : List String) :
    (subscribe k sid aid topics).2 = k ∨
      ∃ s, k.sessions sid = some s ∧ (subscribe k sid aid topics).2.sessions = k.sessions ∧
        (subscribe k sid aid topics).2.channels = k.channels ∧
        ∀ sid' topic a,
          a ∈ (subscribe k sid aid topics).2.topicSubscriptions sid' topic →
            a ∈ k.topicSubscriptions sid' topic ∨ sid' = sid ∧ a = aid := by
  unfold subscribe
  cases hs : requireSession k sid with
  | error e => exact .inl rfl
  | ok s =>
    refine .inr ⟨s, requireSession_eq_ok.mp hs, rfl, rfl, ?_⟩
    intro sid' topic a ha
    dsimp only at ha
    by_cases he : sid' = sid
    · subst he
      rw [Function.update_self] at ha
      split at ha
      · rcases List.mem_insert_iff.mp ha with rfl | ha
        · exact .inr ⟨rfl, rfl⟩
        · exact .inl ha
      · exact .inl ha
    · rw [Function.update_of_ne he] at ha
      exact .inl ha

theorem afterRoute_mem (k : Mem) (sid sender : String) (target : Address) :
    (afterRoute k sid sender target).sessions = k.sessions ∧
      (afterRoute k sid sender target).channels = k.channels ∧
      ∀ sid' topic a, a ∈ (afterRoute k sid sender target).topicSubscriptions sid' topic →
        a ∈ k.topicSubscriptions sid' topic := by
  unfold afterRoute
  split
  · refine ⟨rfl, rfl, ?_⟩
    intro sid' topic a ha
    dsimp only at ha
    by_cases he : sid' = sid
    · subst he
      rw [Function.update_self] at ha
      by_cases ht : topic = target.topic
      · subst ht
        rw [Function.update_self] at ha
        exact (List.mem_filter.mp ha).1
      · rwa [Function.update_of_ne ht] at ha
    · rwa [Function.update_of_ne he] at ha
  · exact ⟨rfl, rfl, fun _ _ _ ha => ha⟩

/-! ## Channels keep to the roster -/

/-- Every member of a channel is in the roster of its session. -/
def ChannelsInside (k : Mem) : Prop :=
  ∀ sid cid c, k.channels sid cid = some c →
    ∃ s, k.sessions sid = some s ∧ ∀ m ∈ c.members, m ∈ s.roster

theorem ChannelsInside.same (h : ChannelsInside k) (hsame : SameLists k k') :
    ChannelsInside k' := by
  intro sid cid c hc
  rw [hsame.channels] at hc
  obtain ⟨s, hs, hin⟩ := h sid cid c hc
  obtain ⟨s', hs', hroster, -⟩ := hsame.symm.session hs
  refine ⟨s', hs', fun m hm => ?_⟩
  rw [← hroster]
  exact hin m hm

theorem ChannelsInside.addSession (h : ChannelsInside k) (s : Session) :
    ChannelsInside (k.addSession s) := by
  intro sid cid c hc
  by_cases he : sid = s.sessionId
  · subst he
    simp [Mem.addSession, Dict.empty] at hc
  · have hc' : k.channels sid cid = some c := by
      simpa [Mem.addSession, Function.update_of_ne he] using hc
    obtain ⟨s', hs', hin⟩ := h sid cid c hc'
    refine ⟨s', ?_, hin⟩
    simpa [Mem.addSession, Dict.set, Function.update_of_ne he] using hs'

theorem ChannelsInside.addChannel (h : ChannelsInside k) {cid : String} {c : Channel}
    (hs : k.sessions sid = some s) (hc : ∀ m ∈ c.members, m ∈ s.roster) : ChannelsInside { k with
      channels := Function.update k.channels sid ((k.channels sid).set cid c) } := by
  intro sid' cid' c' hc'
  dsimp only at hc' ⊢
  by_cases he : sid' = sid
  · subst he
    rw [Function.update_self] at hc'
    by_cases hcid : cid' = cid
    · subst hcid
      rw [Dict.set, Function.update_self] at hc'
      injection hc' with hc'
      subst hc'
      exact ⟨s, hs, hc⟩
    · rw [Dict.set, Function.update_of_ne hcid] at hc'
      exact h sid' cid' c' hc'
  · rw [Function.update_of_ne he] at hc'
    exact h sid' cid' c' hc'

theorem ChannelsInside.call (h : ChannelsInside st.mem) (c : Call) :
    ChannelsInside (c.run st).mem := by
  cases c with
  | createSession a now =>
    show ChannelsInside (createSession st a now).2.mem
    rcases createSession_mem st a now with he | ⟨_, he⟩
    · rw [he]; exact h
    · rw [he]; exact h.addSession _
  | register loc sid token now => exact h.same (register_sameLists st loc sid token now)
  | unregister sid aid => exact h.same (unregister_sameLists st sid aid)
  | setRegistrationToken sid aid token =>
    exact h.same (setRegistrationToken_sameLists st sid aid token)
  | createChannel sid cid members acl =>
    show ChannelsInside (createChannel st sid cid members acl).2.mem
    rcases createChannel_mem st sid cid members acl with he | ⟨s, hs, hin, he⟩
    · rw [he]; exact h
    · rw [he]; exact h.addChannel hs hin
  | subscribe sid aid topics =>
    show ChannelsInside (subscribe st.mem sid aid topics).2
    rcases subscribe_mem st.mem sid aid topics with he | ⟨s, _, hsessions, hchannels, _⟩
    · rw [he]; exact h
    · intro sid' cid c hc
      rw [hchannels] at hc
      rw [hsessions]
      exact h sid' cid c hc
  | send sid sender target =>
    obtain ⟨hsessions, hchannels, _⟩ := afterRoute_mem st.mem sid sender target
    show ChannelsInside (afterRoute st.mem sid sender target)
    intro sid' cid c hc
    rw [hchannels] at hc
    rw [hsessions]
    exact h sid' cid c hc

theorem ChannelsInside.run (h : ChannelsInside st.mem) (calls : List Call) :
    ChannelsInside (run st calls).mem := by
  induction calls generalizing st with
  | nil => exact h
  | cons c calls ih => exact ih (h.call c)

/-! ## Lists that keep to the roster -/

/-- The access lists and the subscribers keep to the roster. -/
structure ListsInside (k : Mem) : Prop where
  acl : ∀ sid s, k.sessions sid = some s →
    (∀ a ∈ s.acl.allowedSenders, a ∈ s.roster) ∧ ∀ a ∈ s.acl.roomMembers, a ∈ s.roster
  topics : ∀ sid topic a, a ∈ k.topicSubscriptions sid topic →
    ∃ s, k.sessions sid = some s ∧ a ∈ s.roster

/-- The call gives no list an agent outside the roster: not the access list of a new
session, and not a topic. -/
def Call.Inside (k : Mem) : Call → Prop
  | .createSession a _ => ∀ acl, a.acl = some acl →
      (∀ x ∈ acl.allowedSenders, x ∈ a.members) ∧ ∀ x ∈ acl.roomMembers, x ∈ a.members
  | .subscribe sid aid _ => ∀ s, k.sessions sid = some s → aid ∈ s.roster
  | _ => True

/-- Every call of the run keeps to the roster. -/
def AllInside : State → List Call → Prop
  | _, [] => True
  | st, c :: calls => c.Inside st.mem ∧ AllInside (c.run st) calls

theorem mem_withManager {l : List String} {manager a : String} :
    a ∈ withManager l manager ↔ a ∈ l ∨ a = manager := by
  unfold withManager
  split
  · next hm =>
    refine ⟨.inl, ?_⟩
    rintro (ha | rfl)
    · exact ha
    · exact hm
  · rw [List.mem_append, List.mem_dedup, List.mem_singleton]

theorem session_lists_inside {a : CreateArgs} {now : String}
    (h : ∀ acl, a.acl = some acl →
      (∀ x ∈ acl.allowedSenders, x ∈ a.members) ∧ ∀ x ∈ acl.roomMembers, x ∈ a.members) :
    (∀ x ∈ (a.session now).acl.allowedSenders, x ∈ (a.session now).roster) ∧
      ∀ x ∈ (a.session now).acl.roomMembers, x ∈ (a.session now).roster := by
  have hmanager : a.managerId ∈ a.members := mem_sortedSet.mpr List.mem_cons_self
  have hgiven : (∀ x ∈ (a.acl.getD ⟨a.managerId, a.members, a.members, "open"⟩).allowedSenders,
        x ∈ a.members) ∧
      ∀ x ∈ (a.acl.getD ⟨a.managerId, a.members, a.members, "open"⟩).roomMembers,
        x ∈ a.members := by
    cases hacl : a.acl with
    | none => exact ⟨fun _ hx => hx, fun _ hx => hx⟩
    | some acl => exact h acl hacl
  constructor
  · intro x hx
    rcases mem_withManager.mp hx with hx | rfl
    · exact hgiven.1 x hx
    · exact hmanager
  · intro x hx
    rcases mem_withManager.mp hx with hx | rfl
    · exact hgiven.2 x hx
    · exact hmanager

theorem ListsInside.same (h : ListsInside k) (hsame : SameLists k k') : ListsInside k' := by
  constructor
  · intro sid s' hs'
    obtain ⟨s, hs, hroster, hacl⟩ := hsame.session hs'
    rw [hroster, hacl]
    exact h.acl sid s hs
  · intro sid topic a ha
    rw [hsame.topics] at ha
    obtain ⟨s, hs, hin⟩ := h.topics sid topic a ha
    obtain ⟨s', hs', hroster, -⟩ := hsame.symm.session hs
    refine ⟨s', hs', ?_⟩
    rw [← hroster]
    exact hin

theorem ListsInside.addSession (h : ListsInside k) (hnew : k.sessions s.sessionId = none)
    (hs : (∀ a ∈ s.acl.allowedSenders, a ∈ s.roster) ∧ ∀ a ∈ s.acl.roomMembers, a ∈ s.roster) :
    ListsInside (k.addSession s) := by
  constructor
  · intro sid s' hs'
    by_cases he : sid = s.sessionId
    · subst he
      simp only [Mem.addSession, Dict.set, Function.update_self, Option.some.injEq] at hs'
      subst hs'
      exact hs
    · simp only [Mem.addSession, Dict.set, Function.update_of_ne he] at hs'
      exact h.acl sid s' hs'
  · intro sid topic a ha
    obtain ⟨s', hs', hin⟩ := h.topics sid topic a ha
    have he : sid ≠ s.sessionId := by
      rintro rfl
      rw [hnew] at hs'
      cases hs'
    refine ⟨s', ?_, hin⟩
    simpa [Mem.addSession, Dict.set, Function.update_of_ne he] using hs'

theorem ListsInside.topicsOf {k k' : Mem} (h : ListsInside k) (hsessions : k'.sessions = k.sessions)
    (htopics : ∀ sid topic a, a ∈ k'.topicSubscriptions sid topic →
      a ∈ k.topicSubscriptions sid topic ∨ ∃ s, k.sessions sid = some s ∧ a ∈ s.roster) :
    ListsInside k' := by
  constructor
  · intro sid s hs
    rw [hsessions] at hs
    exact h.acl sid s hs
  · intro sid topic a ha
    rw [hsessions]
    rcases htopics sid topic a ha with ha | hs
    · exact h.topics sid topic a ha
    · exact hs

theorem ListsInside.call (h : ListsInside st.mem) {c : Call}
    (hc : c.Inside st.mem) : ListsInside (c.run st).mem := by
  cases c with
  | createSession a now =>
    show ListsInside (createSession st a now).2.mem
    rcases createSession_mem st a now with he | ⟨hcheck, he⟩
    · rw [he]; exact h
    · rw [he]
      exact h.addSession (check_eq_ok hcheck) (session_lists_inside hc)
  | register loc sid token now => exact h.same (register_sameLists st loc sid token now)
  | unregister sid aid => exact h.same (unregister_sameLists st sid aid)
  | setRegistrationToken sid aid token =>
    exact h.same (setRegistrationToken_sameLists st sid aid token)
  | createChannel sid cid members acl =>
    show ListsInside (createChannel st sid cid members acl).2.mem
    rcases createChannel_mem st sid cid members acl with he | ⟨s, hs, hin, he⟩
    · rw [he]; exact h
    · rw [he]; exact h.topicsOf rfl fun _ _ _ ha => .inl ha
  | subscribe sid aid topics =>
    show ListsInside (subscribe st.mem sid aid topics).2
    rcases subscribe_mem st.mem sid aid topics with he | ⟨s, hs, hsessions, _, htopics⟩
    · rw [he]; exact h
    · refine h.topicsOf hsessions fun sid' topic a ha => ?_
      rcases htopics sid' topic a ha with ha | ⟨rfl, rfl⟩
      · exact .inl ha
      · exact .inr ⟨s, hs, hc s hs⟩
  | send sid sender target =>
    obtain ⟨hsessions, _, htopics⟩ := afterRoute_mem st.mem sid sender target
    exact h.topicsOf hsessions fun sid' topic a ha => .inl (htopics sid' topic a ha)

theorem ListsInside.run (h : ListsInside st.mem) {calls : List Call}
    (hcalls : AllInside st calls) : ListsInside (run st calls).mem := by
  induction calls generalizing st with
  | nil => exact h
  | cons c calls ih => exact ih (h.call hcalls.1) hcalls.2

/-! ## The recipients -/

/-- The lists that allow a delivery to `recipient`, for each way of sending. -/
def Allowed (k : Mem) (s : Session) (sid sender : String) (target : Address)
    (recipient : String) : Prop :=
  match target.kind with
  | .direct => recipient = target.agentId ∧ sender ∈ s.acl.allowedSenders ∧
      recipient ∈ s.acl.roomMembers
  | .broadcast => recipient ∈ s.roster ∧ (s.acl.policy = "open" ∨ sender = s.acl.authority)
  | .channel => ∃ c, k.channels sid target.channelId = some c ∧ sender ∈ c.members ∧
      recipient ∈ c.members ∧ sender ∈ s.roster ∧ recipient ∈ s.roster
  | .notice => sender ∈ s.acl.allowedSenders ∧ recipient ∈ noticeTargets k s sid target.topic

theorem route_allowed (hchannels : ChannelsInside k) (h : route k sid sender target = .ok rs) :
    ∃ s, k.sessions sid = some s ∧ ∀ r ∈ rs, Allowed k s sid sender target r := by
  unfold route at h
  obtain ⟨s, hs, h⟩ := bind_eq_ok.mp h
  rw [requireSession_eq_ok] at hs
  refine ⟨s, hs, fun r hr => ?_⟩
  unfold Allowed
  cases hkind : target.kind with
  | direct =>
    simp only [hkind] at h
    obtain ⟨_, hcheck, h⟩ := bind_eq_ok.mp h
    injection h with h
    subst h
    rw [List.mem_singleton] at hr
    unfold checkDirect at hcheck
    split at hcheck
    · cases hcheck
    · next hsender =>
      split at hcheck
      · cases hcheck
      · next hrecipient =>
        rw [hr]
        exact ⟨rfl, not_not.mp hsender, not_not.mp hrecipient⟩
  | broadcast =>
    simp only [hkind] at h
    obtain ⟨_, hcheck, h⟩ := bind_eq_ok.mp h
    injection h with h
    subst h
    refine ⟨(List.mem_filter.mp hr).1, ?_⟩
    unfold checkBroadcast at hcheck
    split at hcheck
    · next hopen => exact .inl hopen
    · split at hcheck
      · cases hcheck
      · next hauthority => exact .inr (not_not.mp hauthority)
  | channel =>
    simp only [hkind] at h
    obtain ⟨c, hc, h⟩ := bind_eq_ok.mp h
    obtain ⟨_, hcheck, h⟩ := bind_eq_ok.mp h
    injection h with h
    subst h
    have hchannel : k.channels sid target.channelId = some c := by
      unfold requireChannel at hc
      cases hget : k.channels sid target.channelId with
      | none => rw [hget] at hc; cases hc
      | some c' => rw [hget] at hc; injection hc with hc; rw [hc]
    have hsender : sender ∈ c.members := by
      by_contra hnot
      rw [checkChannel, if_pos hnot] at hcheck
      cases hcheck
    have hrecipient : r ∈ c.members := (List.mem_filter.mp hr).1
    obtain ⟨s', hs', hin⟩ := hchannels _ _ _ hchannel
    rw [hs] at hs'
    injection hs' with hs'
    subst hs'
    exact ⟨c, hchannel, hsender, hrecipient, hin _ hsender, hin _ hrecipient⟩
  | notice =>
    simp only [hkind] at h
    obtain ⟨_, hcheck, h⟩ := bind_eq_ok.mp h
    injection h with h
    subst h
    have hsender : sender ∈ s.acl.allowedSenders := by
      by_contra hnot
      rw [checkNotice, if_pos hnot] at hcheck
      cases hcheck
    exact ⟨hsender, (List.mem_filter.mp (mem_sortedSet.mp hr)).1⟩

/-- Lists that keep to the roster allow nobody outside it; only a broadcast does not ask
for the sender. -/
theorem Allowed.inside (hk : ListsInside k) {recipient : String} (hs : k.sessions sid = some s)
    (h : Allowed k s sid sender target recipient) :
    recipient ∈ s.roster ∧ (target.kind ≠ .broadcast → sender ∈ s.roster) := by
  obtain ⟨hsenders, hmembers⟩ := hk.acl sid s hs
  unfold Allowed at h
  cases hkind : target.kind with
  | direct =>
    simp only [hkind] at h
    exact ⟨hmembers _ h.2.2, fun _ => hsenders _ h.2.1⟩
  | broadcast =>
    simp only [hkind] at h
    exact ⟨h.1, fun hne => absurd rfl hne⟩
  | channel =>
    simp only [hkind] at h
    obtain ⟨c, _, _, _, hsender, hrecipient⟩ := h
    exact ⟨hrecipient, fun _ => hsender⟩
  | notice =>
    simp only [hkind] at h
    refine ⟨?_, fun _ => hsenders _ h.1⟩
    have hr := h.2
    unfold noticeTargets at hr
    split at hr
    · exact hmembers _ hr
    · obtain ⟨s', hs', hin⟩ := hk.topics _ _ _ hr
      rw [hs] at hs'
      injection hs' with hs'
      subst hs'
      exact hin

theorem mem_deliveries {env : Envelope} {f : Fresh} {d : Deliver}
    (h : d ∈ deliveries sid sender env f rs) :
    d.targetAgent ∈ rs ∧ d.fromId = sender ∧ d.sessionId = sid := by
  obtain ⟨⟨r, n⟩, hr, rfl⟩ := List.mem_map.mp h
  have hmem := List.mem_zipIdx hr
  refine ⟨?_, rfl, rfl⟩
  rw [hmem.2.2]
  exact List.getElem_mem _

theorem send_eq_ok {sink : Deliver → Except PyErr SinkReceipt} {env : Envelope} {f : Fresh}
    {out : Sent} (h : send k sink sid sender target env f = (.ok out, k')) :
    ∃ rs, route k sid sender target = .ok rs ∧ out.calls = deliveries sid sender env f rs := by
  unfold send at h
  injection h with h _
  obtain ⟨rs, hroute, h⟩ := bind_eq_ok.mp h
  obtain ⟨_, _, h⟩ := bind_eq_ok.mp h
  injection h with h
  exact ⟨rs, hroute, by rw [← h]⟩

theorem channelsInside_start : ChannelsInside State.start.mem := by
  intro sid cid c hc
  simp [State.start, load, SessionDir.meta?] at hc

theorem listsInside_start : ListsInside State.start.mem := by
  constructor
  · intro sid s hs
    simp [State.start, load] at hs
  · intro sid topic a ha
    simp [State.start, load] at ha

/-- **Every call of the sink is allowed by the lists of its way**: a channel stays in the
roster, a broadcast reaches the roster, and a direct message or a notice goes by the access
list and the subscribers. Where these keep to the roster, so does every recipient, and
every sender but that of a broadcast. -/
theorem sends_go_by_lists (calls : List Call) (sink : Deliver → Except PyErr SinkReceipt)
    (sid sender : String) (target : Address) (env : Envelope) (f : Fresh) {out : Sent}
    {k : Mem} (h : send (run .start calls).mem sink sid sender target env f = (.ok out, k)) :
    ∀ d ∈ out.calls, d.fromId = sender ∧
      ∃ s, (run .start calls).mem.sessions sid = some s ∧
        Allowed (run .start calls).mem s sid sender target d.targetAgent ∧
        (AllInside .start calls →
          d.targetAgent ∈ s.roster ∧ (target.kind ≠ .broadcast → sender ∈ s.roster)) := by
  intro d hd
  obtain ⟨rs, hroute, hcalls⟩ := send_eq_ok h
  rw [hcalls] at hd
  obtain ⟨hr, hfrom, _⟩ := mem_deliveries hd
  obtain ⟨s, hs, hallowed⟩ := route_allowed (channelsInside_start.run calls) hroute
  refine ⟨hfrom, s, hs, hallowed _ hr, fun hin => ?_⟩
  exact (hallowed _ hr).inside (listsInside_start.run hin) hs

/-! ### Two runs -/

/-- A sink that delivers everything. -/
def deliversAll (d : Deliver) : Except PyErr SinkReceipt := .ok { status := "delivered", error := d.msgId }

/-- Generated values that differ by their number alone. -/
def numbered : Fresh := ⟨toString, "2026-01-01T00:00:00Z", "t"⟩

/-- A session with a channel. -/
def channelCalls : List Call :=
  [.createSession { sessionId := "s1", managerId := "m", roster := ["w", "x"] } "",
    .createChannel "s1" "ops" ["m", "w"] none]

/-- A session whose access list lets a hub send. -/
def hubCalls : List Call :=
  [.createSession { sessionId := "s1", managerId := "m", roster := ["w"],
                    acl := some ⟨"m", ["hub", "m"], ["m", "w"], "open"⟩ } ""]

def note : Envelope := { subject := "a", body := "b" }

theorem send_recipients (k : Mem) (sid sender : String) (target : Address) {rs : List String}
    (h : ((send k deliversAll sid sender target note numbered).1.toOption.map
      fun out => out.calls.map (·.targetAgent)) = some rs) :
    ∃ out, send k deliversAll sid sender target note numbered =
        (.ok out, afterRoute k sid sender target) ∧ out.calls.map (·.targetAgent) = rs := by
  obtain ⟨out, hout, hcalls⟩ := Option.map_eq_some_iff.mp h
  refine ⟨out, Prod.ext ?_ rfl, hcalls⟩
  cases hsend : (send k deliversAll sid sender target note numbered).1 with
  | error e => rw [hsend] at hout; cases hout
  | ok o => rw [hsend] at hout; injection hout with hout; rw [hout]

theorem allInside_channelCalls : AllInside .start channelCalls :=
  ⟨fun _ h => (Option.some_ne_none _ h.symm).elim, trivial, trivial⟩

theorem sends_go_by_lists_channel :
    ∃ out k, send (run .start channelCalls).mem deliversAll "s1" "m" ⟨.channel, "", "ops", ""⟩
        note numbered = (.ok out, k) ∧ out.calls.map (·.targetAgent) = ["w"] ∧
      ∀ d ∈ out.calls, ∃ s, (run .start channelCalls).mem.sessions "s1" = some s ∧
        d.targetAgent ∈ s.roster ∧ "m" ∈ s.roster := by
  have hto : ((send (run .start channelCalls).mem deliversAll "s1" "m" ⟨.channel, "", "ops", ""⟩
      note numbered).1.toOption.map fun out => out.calls.map (·.targetAgent)) = some ["w"] := by
    decide +kernel
  obtain ⟨out, hsend, hcalls⟩ := send_recipients _ _ _ _ hto
  refine ⟨out, _, hsend, hcalls, fun d hd => ?_⟩
  obtain ⟨_, s, hs, _, hin⟩ := sends_go_by_lists channelCalls deliversAll "s1" "m"
    ⟨.channel, "", "ops", ""⟩ note numbered hsend d hd
  obtain ⟨hrecipient, hsender⟩ := hin allInside_channelCalls
  exact ⟨s, hs, hrecipient, hsender (by decide)⟩

/-- A hub that an access list names sends without being in the roster. -/
theorem outsider_sends : ¬ ∀ (calls : List Call) (sink : Deliver → Except PyErr SinkReceipt)
    (sid sender : String) (target : Address) (env : Envelope) (f : Fresh) (out : Sent) (k : Mem),
    send (run .start calls).mem sink sid sender target env f = (.ok out, k) →
      ∀ d ∈ out.calls, ∃ s, (run .start calls).mem.sessions sid = some s ∧
        d.fromId ∈ s.roster ∧ d.targetAgent ∈ s.roster := by
  intro h
  have hroster : ((run .start hubCalls).mem.sessions "s1").map (·.roster) = some ["m", "w"] := by
    decide +kernel
  have hto : ((send (run .start hubCalls).mem deliversAll "s1" "hub" ⟨.direct, "w", "", ""⟩ note
      numbered).1.toOption.map fun out => out.calls.map (·.targetAgent)) = some ["w"] := by
    decide +kernel
  obtain ⟨out, hsend, hcalls⟩ := send_recipients _ _ _ _ hto
  obtain ⟨d, hd⟩ : ∃ d, d ∈ out.calls := by
    cases hc : out.calls with
    | nil => rw [hc] at hcalls; cases hcalls
    | cons d rest => exact ⟨d, List.mem_cons_self⟩
  obtain ⟨rs, _, hplan⟩ := send_eq_ok hsend
  have hfrom : d.fromId = "hub" := (mem_deliveries (hplan ▸ hd)).2.1
  obtain ⟨s, hs, hin, _⟩ := h hubCalls deliversAll "s1" "hub" ⟨.direct, "w", "", ""⟩ note
    numbered out _ hsend d hd
  have hmembers : s.roster = ["m", "w"] := by
    simpa [hs] using hroster
  rw [hfrom, hmembers] at hin
  exact absurd hin (by decide)

end AiMeshChat.Kernel
