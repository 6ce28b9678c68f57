import AiMeshChat.Swarm.Rules

/-!
# Messages go to the registered host

The kernel keeps the host of an agent for each session (`swarm/kernel.py`, `register`
and `unregister`). The sink looks an agent up there, and hands the host to the engine
through a cache that knows the agent but not the session and is never emptied. So an
agent without a host of its own is sent to the one that an earlier message to the same
name went to (`routed_run`).
-/

namespace AiMeshChat.Swarm

open Lib

/-! ## The kernel -/

/-- The rosters of the sessions, the registration tokens, and the host alias of each
registered agent. -/
structure Kernel where
  rosters : String → Option (List String) := fun _ => none
  tokens : String × String → String := fun _ => ""
  routing : String × String → Option String := fun _ => none

/-- `_require_session`. -/
def Kernel.requireSession (kr : Kernel) (sid : String) : Except String (List String) :=
  match kr.rosters sid with
  | some roster => .ok roster
  | none => .error ("session not found: " ++ sid)

/-- `register`. -/
def Kernel.register (kr : Kernel) (sid agent hostAlias token : String) : Except String Kernel := do
  let roster ← kr.requireSession sid
  if agent ∉ roster then .error ("agent not in roster: " ++ agent)
  else if kr.tokens (sid, agent) ≠ "" ∧ token ≠ kr.tokens (sid, agent) then
    .error ("registration token mismatch for agent " ++ agent)
  else return { kr with routing := Function.update kr.routing (sid, agent) (some hostAlias) }

/-- `unregister`. -/
def Kernel.unregister (kr : Kernel) (sid agent : String) : Except String Kernel := do
  let _ ← kr.requireSession sid
  return { kr with routing := Function.update kr.routing (sid, agent) none }

/-- `get_location`, as far as the sink looks at it. -/
def Kernel.getLocation (kr : Kernel) (sid agent : String) : Option String := kr.routing (sid, agent)

/-! ## Where a message goes -/

/-- The host that an operation contacts: `none` is this one. -/
def Op.contact? : Op → Option (Option HostSpec)
  | .getTransport _ host => some (some host)
  | .getCapabilities _ host => some (some host)
  | .mailbox _ host _ => some (some host)
  | .localMailbox _ _ => some none
  | _ => none

/-- Where a message to an agent with this location belongs: to the host that the alias
stands for, or to this one. -/
def destination (cfg : Config) (hostAlias : Option String) : Option HostSpec :=
  (hostToCache cfg hostAlias).bind fun host => (Dest.host host).remote? cfg

/-- A delivery of a run: the agent, its location at that moment and the operations. -/
structure Delivery where
  agent : String
  location : Option String
  ops : Trace

/-- Every host that the delivery contacts is the registered one. -/
def Delivery.Right (cfg : Config) (d : Delivery) : Prop :=
  ∀ x ∈ d.ops, ∀ dest, x.2.contact? = some dest → dest = destination cfg d.location

/-- The host that the engine has for an agent after the deliveries `ds`, the last one
first. -/
def lastHost (cfg : Config) (ds : List Delivery) (agent : String) : Option HostSpec :=
  ds.findSome? fun d => if d.agent = agent then hostToCache cfg d.location else none

/-! ## Methods -/

section Methods

variable {dest : Option HostSpec} {α : Type}

/-- An operation that contacts no other host than `dest` and caches none. -/
structure Op.Toward (dest : Option HostSpec) (o : Op) : Prop where
  contact : ∀ d, o.contact? = some d → d = dest
  cache : ∀ agent host, o ≠ .upd (.cacheHost agent host)

theorem Op.Toward.plain {o : Op} (ho : o.contact? = none)
    (hcache : ∀ agent host, o ≠ .upd (.cacheHost agent host)) : o.Toward dest :=
  ⟨fun d hd => absurd (ho.symm.trans hd) (by simp), hcache⟩

theorem Op.Sends.toward {k : Key} {o : Op} (h : o.Sends k dest) : o.Toward dest := by
  cases o with
  | upd u => exact .plain rfl fun agent host hu => by cases hu; exact h
  | getTransport k' host => exact ⟨fun d hd => (Option.some.inj hd).symm.trans h.2.symm, by simp⟩
  | getCapabilities k' host => exact ⟨fun d hd => (Option.some.inj hd).symm.trans h.2.symm, by simp⟩
  | mailbox k' host args => exact ⟨fun d hd => (Option.some.inj hd).symm.trans h.2.symm, by simp⟩
  | localMailbox k' args => exact ⟨fun d hd => (Option.some.inj hd).symm.trans h.2.symm, by simp⟩
  | _ => first | exact h.elim | exact .plain rfl fun _ _ => by simp

theorem Op.Delivers.toward {k : Key} {o : Op} (h : o.Delivers k dest) : o.Toward dest := by
  cases o with
  | upd u =>
    refine .plain rfl fun agent host hu => ?_
    cases hu
    exact h
  | getTransport k' host => exact Op.Sends.toward h
  | getCapabilities k' host => exact Op.Sends.toward h
  | mailbox k' host args => exact Op.Sends.toward h
  | localMailbox k' args => exact Op.Sends.toward h
  | _ => exact .plain rfl fun _ _ => by simp

theorem deliver_toward (cfg : Config) (sid : String) (target : Dest) (env : Envelope) :
    (deliver cfg sid target env).Bounded (Op.Toward (target.remote? cfg)) :=
  (deliver_bounded cfg sid target env).mono fun _ ho => ho.toward

/-- The host cache is `hosts`, and since the trace `L` no host but `dest` was contacted. -/
structure Heading (dest : Option HostSpec) (hosts : String → Option HostSpec) (L : Trace)
    (s : Site) : Prop where
  hosts : s.mem.hostCache = hosts
  trace : ∃ new, s.trace = L ++ new ∧ ∀ x ∈ new, ∀ d, x.2.contact? = some d → d = dest

variable {hosts : String → Option HostSpec} {L : Trace} {s : Site} {P : Choice → Prop}

theorem Heading.next {o : Op} {c : Choice} (h : Heading dest hosts L s) (ho : o.Toward dest) :
    Heading dest hosts L (s.next o c) where
  hosts := by
    rw [← h.hosts, Site.mem_next]
    cases o with
    | upd u => cases u <;> first | rfl | exact absurd rfl (ho.cache _ _)
    | _ => rfl
  trace := by
    obtain ⟨new, htrace, hnew⟩ := h.trace
    refine ⟨new ++ [(s.clock + c.delay, o)], ?_, ?_⟩
    · rw [Site.trace_next, htrace, List.append_assoc]
    · intro x hx
      rcases List.mem_append.mp hx with hx | hx
      · exact hnew x hx
      · rw [List.mem_singleton.mp hx]
        exact ho.contact

theorem heading_total {p : Call α} (hp : p.Bounded (Op.Toward dest))
    (h : Heading dest hosts L s) :
    p.Total world 0 P (fun _ => True) s fun _ s' => Heading dest hosts L s' :=
  (bounded_total hp (fun _ _ _ ho _ ht => ht.next ho) h).mono (fun _ _ => trivial) fun _ _ _ h => h

/-- The host that the sink sends to, when the engine has the hosts `hosts` cached. -/
def sinkHost (cfg : Config) (hosts : String → Option HostSpec) (agent : String) :
    Option HostSpec :=
  (hosts agent).bind fun host => (Dest.host host).remote? cfg

variable {agent : String}

theorem deliverSink_total (cfg : Config) (h : Heading (sinkHost cfg hosts agent) hosts L s)
    (sid : String) (env : Envelope) (mid fromId : String) :
    (deliverSink cfg sid agent env mid fromId).Total world 0 P (fun _ => True) s fun _ s' =>
      Heading (sinkHost cfg hosts agent) hosts L s' := by
  refine op_total trivial fun c _ => ?_
  have h₁ := h.next (o := .mem) (c := c) (.plain rfl fun _ _ => by simp)
  have hanswer : (s.tick .mem c).answer c .mem = s.mem := rfl
  rw [hanswer, h.hosts]
  unfold sinkHost at h₁ ⊢
  cases hhost : hosts agent with
  | some host =>
    rw [hhost] at h₁
    exact heading_total (deliver_toward cfg sid (.host host) _) h₁
  | none =>
    rw [hhost] at h₁
    exact heading_total (deliver_toward cfg sid (.agent agent) _) h₁

/-- The cache of hosts after the sink has looked at the location of an agent. -/
def cached (hosts : String → Option HostSpec) (agent : String) (host : Option HostSpec) :
    String → Option HostSpec :=
  match host with
  | some h => Function.update hosts agent (some h)
  | none => hosts

theorem sinkDeliver_total (cfg : Config) (loc : Option String) (sid : String) (env : Envelope)
    (mid fromId : String) :
    (sinkDeliver cfg loc sid agent env mid fromId).Total world 0 P (fun _ => True) s fun _ s' =>
      Heading (sinkHost cfg (cached s.mem.hostCache agent (hostToCache cfg loc)) agent)
        (cached s.mem.hostCache agent (hostToCache cfg loc)) s.trace s' := by
  unfold sinkDeliver
  cases hostToCache cfg loc with
  | none => exact deliverSink_total cfg ⟨rfl, [], by simp, by simp⟩ sid env mid fromId
  | some host =>
    refine op_total trivial fun c _ => deliverSink_total cfg ⟨?_, ?_⟩ sid env mid fromId
    · rw [Site.mem_next]
      rfl
    · refine ⟨[(s.clock + c.delay, .upd (.cacheHost agent host))], Site.trace_next _ c, ?_⟩
      intro x hx d hd
      rw [List.mem_singleton.mp hx] at hd
      cases hd

end Methods

/-! ## Runs -/

/-- Calls of the kernel and of the sink that share one engine, each delivery of which
meets `H`. The deliveries are in the list, the last one first. -/
inductive Routed (cfg : Config) (H : List Delivery → String → Option String → Prop) :
    List Delivery → Kernel → Site → Prop
  | start {kr : Kernel} {s : Site} (hmem : s.mem = {}) : Routed cfg H [] kr s
  | register {ds : List Delivery} {kr kr' : Kernel} {s : Site} {sid agent hostAlias token : String}
      (h : Routed cfg H ds kr s) (hrun : kr.register sid agent hostAlias token = .ok kr') :
      Routed cfg H ds kr' s
  | unregister {ds : List Delivery} {kr kr' : Kernel} {s : Site} {sid agent : String}
      (h : Routed cfg H ds kr s) (hrun : kr.unregister sid agent = .ok kr') :
      Routed cfg H ds kr' s
  | deliver {ds : List Delivery} {kr : Kernel} {s s' : Site} {sid agent : String} {env : Envelope}
      {mid fromId : String} {r : Except String SendReceipt} (h : Routed cfg H ds kr s)
      (hH : H ds agent (kr.getLocation sid agent))
      (hrun : (sinkDeliver cfg (kr.getLocation sid agent) sid agent env mid fromId).Runs world 0
        (fun _ => True) s r s') :
      Routed cfg H (⟨agent, kr.getLocation sid agent, s'.trace.drop s.trace.length⟩ :: ds) kr s'

/-- The condition on a delivery: an agent without a host of its own has none from an
earlier delivery to the same name either. -/
def Fresh (cfg : Config) (ds : List Delivery) (agent : String) (loc : Option String) : Prop :=
  hostToCache cfg loc = none →
    (lastHost cfg ds agent).bind (fun host => (Dest.host host).remote? cfg) = none

theorem lastHost_cons (cfg : Config) (d : Delivery) (ds : List Delivery) (agent : String) :
    lastHost cfg (d :: ds) agent =
      cached (lastHost cfg ds) d.agent (hostToCache cfg d.location) agent := by
  unfold lastHost cached
  rw [List.findSome?_cons]
  by_cases hagent : d.agent = agent
  · rw [if_pos hagent]
    cases hostToCache cfg d.location with
    | some host => simp only [hagent, Function.update_self]
    | none => rfl
  · rw [if_neg hagent]
    cases hostToCache cfg d.location with
    | some host => simp only [Function.update_of_ne (Ne.symm hagent)]
    | none => rfl

theorem Fresh.sinkHost_eq {cfg : Config} {ds : List Delivery} {agent : String}
    {loc : Option String} (h : Fresh cfg ds agent loc) :
    sinkHost cfg (cached (lastHost cfg ds) agent (hostToCache cfg loc)) agent =
      destination cfg loc := by
  unfold sinkHost destination
  cases hloc : hostToCache cfg loc with
  | some host => simp only [cached, Function.update_self]
  | none => exact h hloc

theorem routed_invariant {cfg : Config} {ds : List Delivery} {kr : Kernel} {s : Site}
    (h : Routed cfg (Fresh cfg) ds kr s) :
    s.mem.hostCache = lastHost cfg ds ∧ ∀ d ∈ ds, d.Right cfg := by
  induction h with
  | start hmem =>
    rw [hmem]
    exact ⟨rfl, fun d hd => by cases hd⟩
  | register h hrun ih => exact ih
  | unregister h hrun ih => exact ih
  | @deliver ds kr s s' sid agent env mid fromId r h hH hrun ih =>
    obtain ⟨hcache, hright⟩ := ih
    have hsent := (sinkDeliver_total cfg _ sid env mid fromId).ends r s' hrun
    obtain ⟨hhosts, new, htrace, hnew⟩ := hsent
    rw [hcache] at hhosts hnew
    constructor
    · rw [hhosts]
      funext a
      rw [lastHost_cons]
    · intro d hd
      rcases List.mem_cons.mp hd with rfl | hd
      · intro x hx dest hdest
        rw [htrace, List.drop_left] at hx
        rw [hnew x hx dest hdest]
        exact hH.sinkHost_eq
      · exact hright d hd

/-- **Routing.**  In a run in which no agent without a host of its own shares its name
with one that had a message sent to another host, every delivery contacts the host that
the kernel holds for the agent of the session, and this one if it holds none. -/
theorem routed_run {cfg : Config} {ds : List Delivery} {kr : Kernel} {s : Site}
    (h : Routed cfg (Fresh cfg) ds kr s) : ∀ d ∈ ds, d.Right cfg :=
  (routed_invariant h).2

/-! ### Two workers of one name -/

/-- Two sessions, each with a worker `w`. -/
def twoSessions : Kernel :=
  { rosters := fun sid => if sid = "s1" || sid = "s2" then some ["w"] else none }

/-- The worker of the first session is at the host `far`. -/
def oneAway : Kernel :=
  { twoSessions with routing := Function.update twoSessions.routing ("s1", "w") (some "far") }

theorem oneAway_registered : twoSessions.register "s1" "w" "far" "" = .ok oneAway := rfl

def nearby : Config := { hostname := "here", repoMap := .empty }

/-- The delivery of a message to the worker of a session. -/
def toWorker (sid mid : String) : Call SendReceipt :=
  sinkDeliver nearby (oneAway.getLocation sid "w") sid "w" {} mid "boss"

/-- The host `far` of the first session. -/
def farHost : HostSpec := { name := "far", sshAlias := "far", hostnames := ["far"] }

/-- The message to the worker that has no host goes to the host of the other one. -/
theorem sent_to_the_other_host : ¬ ∀ cfg ds kr s, Routed cfg (fun _ _ _ => True) ds kr s →
    ∀ d ∈ ds, d.Right cfg := by
  intro h
  have hexec : ((Prog.exec world 0 {} 100 (toWorker "s1" "m1") {}).bind fun x =>
      (Prog.exec world 0 {} 100 (toWorker "s2" "m2") x.2).map fun y => decide
        ((0, Op.getTransport ("s2", "m2") farHost) ∈ y.2.trace.drop x.2.trace.length)) =
      some true := by
    decide +kernel
  obtain ⟨x, hx, hy⟩ := Option.bind_eq_some_iff.mp hexec
  obtain ⟨y, hy, hsent⟩ := Option.map_eq_some_iff.mp hy
  have hstart : Routed nearby (fun _ _ _ => True) [] oneAway {} :=
    .register (.start rfl) oneAway_registered
  have hrun := Routed.deliver (.deliver hstart trivial (Prog.runs_of_exec trivial hx)) trivial
    (Prog.runs_of_exec trivial hy)
  have hright := h _ _ _ _ hrun _ List.mem_cons_self _ (of_decide_eq_true hsent) _ rfl
  have hhome : destination nearby (oneAway.getLocation "s2" "w") = none := rfl
  rw [hhome] at hright
  cases hright

/-- The message to the worker that is away goes to its host. -/
theorem routed_run_away : ∃ s d, d.Right nearby ∧ d.location = some "far" ∧
    (0, Op.getTransport ("s1", "m1") farHost) ∈ d.ops ∧
    Routed nearby (Fresh nearby) [d] oneAway s := by
  have hexec : ((Prog.exec world 0 {} 100 (toWorker "s1" "m1") {}).map fun x => decide
      ((0, Op.getTransport ("s1", "m1") farHost) ∈ x.2.trace.drop (Site.trace {}).length)) =
      some true := by
    decide +kernel
  obtain ⟨x, hx, hsent⟩ := Option.map_eq_some_iff.mp hexec
  have hstart : Routed nearby (Fresh nearby) [] oneAway {} :=
    .register (.start rfl) oneAway_registered
  have hrun := Routed.deliver hstart (fun hno => by cases hno) (Prog.runs_of_exec trivial hx)
  exact ⟨_, _, routed_run hrun _ List.mem_cons_self, rfl, of_decide_eq_true hsent, hrun⟩

end AiMeshChat.Swarm
