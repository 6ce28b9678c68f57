import AiMeshChat.Swarm.Conservation
import AiMeshChat.Swarm.Routing

/-!
# The target of a retry

The sink sends a message to the host that the engine has cached for the agent, and
stores the SSH alias of the host in the envelope. A retry looks that alias up: in the
cache, which knows agents, and in the repo map, which knows names. So it comes back to
the same host only if the alias of the host is its name (`same_target`).
-/

namespace AiMeshChat.Swarm

open Lib

/-- The host that a retry of the message resolves. -/
def Site.retryHost? (s : Site) (cfg : Config) (k : Key) : Option HostSpec :=
  (s.entry k).target?.map fun x => resolveTarget cfg s.mem.hostCache x.2

/-- The site when the engine starts again. -/
def Site.restarted (s : Site) : Site := { s with mem := {} }

/-! ## What is stored -/

section Store

variable {s : Site} {P : Choice → Prop} {α : Type} {k : Key}

/-- An operation that moves no envelope. -/
def Op.Spares (o : Op) : Prop := o.Calm ∨ ∃ k dest, o.Sends k dest

theorem mail_next_spares {o : Op} {c : Choice} (h : o.Spares) : (s.next o c).mail = s.mail := by
  rcases h with h | ⟨k, dest, h⟩
  · exact mail_next_calm h
  · exact mail_next_sends h

theorem spares_total {p : Call α} (hp : p.Bounded Op.Spares) :
    p.Total world 0 P (fun _ => True) s fun _ s' => s'.mail = s.mail :=
  (bounded_total (J := fun t => t.mail = s.mail) hp
    (fun _ _ _ ho _ ht => (mail_next_spares ho).trans ht) rfl).mono (fun _ _ => trivial)
    fun _ _ _ h => h

theorem replaceEnvelope_stores (env : Envelope) :
    (replaceEnvelope k env).Total world 0 P (fun _ => True) s fun r s' =>
      (r = .ok () → (s'.mail k).1 = some (.json env)) ∧
      ∀ text, r = .error text → s'.mail = s.mail := by
  refine op_total trivial fun c _ => ?_
  cases hf : c.fault with
  | some text =>
    simp only [Site.answer, hf]
    refine Prog.total_raise trivial ⟨(fun hr => by cases hr), fun _ _ => ?_⟩
    simp only [Site.next, Site.effect, hf]
    rfl
  | none =>
    simp only [Site.answer, hf]
    refine op_total trivial fun c' _ => last_total trivial fun c'' _ => ⟨trivial, fun _ => ?_, ?_⟩
    · simp only [Site.mail, Site.next, Site.effect, Site.publish, Site.entry_setEntry_self,
        Site.entry_tick]
      rfl
    · intro text hr
      cases hr

theorem writeOutbox_stores (env : Envelope) (hnone : (s.mail k).1 = none) :
    (writeOutbox k env).Total world 0 P (fun _ => True) s fun r s' =>
      (r = .ok () → (s'.mail k).1 = some (.json env)) ∧
      ∀ text, r = .error text → s'.mail = s.mail := by
  have henv : (s.entry k).envelope = none := hnone
  refine op_total trivial fun c _ => ?_
  show (if (s.entry k).envelope.isSome then (Prog.ret () : Call Unit)
    else replaceEnvelope k env).Total world 0 P _ _ _
  rw [henv]
  exact replaceEnvelope_stores env

theorem remember_spares (mid : String) (r : SendReceipt) : (remember mid r).Bounded Op.Spares :=
  (remember_calm mid r).mono fun _ ho => .inl ho

theorem writeStatus_spares (k : Key) (kind detail : String) :
    (writeStatus k kind detail).Bounded Op.Spares :=
  (writeStatus_calm k kind detail).mono fun _ ho => .inl ho

theorem file_spares {f : FileOp} (h : f.Calm) : (file k f).Bounded Op.Spares :=
  Prog.bounded_op (.inl h)

theorem stamp_spares {env : Envelope} (henv : (s.mail k).1 = some (.json env))
    (htarget : env.targetHost.getD "" ≠ "") :
    (stampOutboxTargetHost k).Total world 0 P (fun _ => True) s fun _ s' => s'.mail = s.mail := by
  have henv : (s.entry k).envelope = some (.json env) := henv
  refine op_total trivial fun c _ => ?_
  have hanswer : (s.tick (.look k) c).answer c (.look k) = s.entry k := rfl
  rw [hanswer, henv]
  simp only [ne_eq, htarget, not_false_eq_true, if_true]
  exact Prog.total_ret trivial (mail_next_calm trivial)

theorem sendFirst_spares (cfg : Config) (env : Envelope) (remote : Option HostSpec)
    (henv : (s.mail k).1 = some (.json env)) (htarget : env.targetHost.getD "" ≠ "") :
    (sendFirst cfg k env remote).Total world 0 P (fun _ => True) s fun _ s' =>
      s'.mail = s.mail := by
  cases remote with
  | some host =>
    refine spares_total ((attempt_bounded ((remoteSend_bounded cfg k host env).mono
      fun _ ho => .inr ⟨k, _, ho⟩)).bind fun r => ?_)
    cases r with
    | ok u =>
      exact (file_spares (f := .mark) trivial).bind fun _ =>
        Prog.bounded_op_bind (.inl trivial) fun _ => remember_spares _ _
    | error text => exact (writeStatus_spares k _ text).bind fun _ => trivial
  | none =>
    have hsend : (localSend k env).Bounded Op.Spares :=
      (localSend_bounded k env).mono fun _ ho => .inr ⟨k, _, ho⟩
    refine attempt_bind_total (spares_total hsend) fun r s₁ _ hm₁ => ?_
    rw [← hm₁] at henv ⊢
    cases r with
    | ok u =>
      exact spares_total ((file_spares (f := .mark) trivial).bind fun _ => remember_spares _ _)
    | error text =>
      refine (spares_total (writeStatus_spares k _ text)).bind ?_ fun _ _ _ hm₂ => hm₂
      intro _ s₂ _ hm₂
      rw [← hm₂] at henv ⊢
      refine (stamp_spares henv htarget).bind ?_ fun _ _ _ hm₃ => hm₃
      intro _ s₃ _ hm₃
      exact Prog.total_ret trivial hm₃

theorem deliver_stores {cfg : Config} {sid : String} {target : Dest} {env : Envelope}
    (hcache : s.mem.cache env.msgId = none) (hnone : (s.mail (deliverKey sid env)).1 = none)
    (htarget : (stored (target.remote? cfg) env).targetHost.getD "" ≠ "") :
    (deliver cfg sid target env).Total world 0 P (fun _ => True) s fun _ s' =>
      (s'.mail (deliverKey sid env)).1 = none ∨
      (s'.mail (deliverKey sid env)).1 = some (.json (stored (target.remote? cfg) env)) := by
  unfold deliver
  split
  · exact Prog.total_ret trivial (.inl hnone)
  · have hcheck := checkIdempotency_total (P := P) (I := fun t => t.mail = s.mail) (s := s)
      (k := deliverKey sid env) (fun _ _ _ ho _ ht => (mail_next_calm ho.calm).trans ht) rfl
    refine (hcheck.mono (fun _ _ => trivial) fun _ _ hm hq => And.intro hm hq).bind ?_
      fun _ s₁ _ hq => .inl (by rw [hq.1]; exact hnone)
    intro known s₁ _ hq
    obtain ⟨hm, hknown, -⟩ := hq
    cases known with
    | some receipt =>
      rcases hknown receipt rfl with hin | hin
      · rw [deliverKey, hcache] at hin
        cases hin
      · have hnone : (s.entry (deliverKey sid env)).envelope = none := hnone
        rw [hnone] at hin
        cases hin
    | none =>
      rw [← hm] at hnone
      refine attempt_bind_total (writeOutbox_stores _ hnone) fun r s₂ _ hr => ?_
      cases r with
      | error text =>
        refine (spares_total (remember_spares _ _)).mono (fun _ h => h) fun _ s₃ _ hm₃ => .inl ?_
        rw [hm₃, hr.2 text rfl]
        exact hnone
      | ok u =>
        refine (spares_total (remember_spares _ _)).bind ?_ ?_
        · intro _ s₃ _ hm₃
          have hstored := hr.1 rfl
          rw [← hm₃] at hstored
          refine (sendFirst_spares cfg _ _ hstored htarget).mono (fun _ h => h)
            fun _ s₄ _ hm₄ => .inr ?_
          rw [hm₄]
          exact hstored
        · intro _ s₃ _ hm₃
          rw [hm₃]
          exact .inr (hr.1 rfl)

/-- The envelope of a message that the sink sends to a host says the host's alias. -/
def SaysAlias (host : HostSpec) (c : Content) : Prop :=
  ∃ env : Envelope, c = .json env ∧ env.targetHost = some host.sshAlias

theorem deliverSink_stores {cfg : Config} {agent sid mid fromId : String} {env : Envelope}
    {host : HostSpec} (hhost : s.mem.hostCache agent = some host) (halias : host.sshAlias ≠ "")
    (hcache : s.mem.cache mid = none) (hnone : (s.mail (sid, mid)).1 = none) :
    (deliverSink cfg sid agent env mid fromId).Total world 0 P (fun _ => True) s fun _ s' =>
      ∀ c, (s'.mail (sid, mid)).1 = some c → SaysAlias host c := by
  refine op_total trivial fun c _ => ?_
  have hanswer : (s.tick .mem c).answer c .mem = s.mem := rfl
  rw [hanswer, hhost]
  have halias' (remote : Option HostSpec) (e : Envelope) :
      (stored remote { e with targetHost := some host.sshAlias }).targetHost =
        some host.sshAlias := by
    cases remote <;> rfl
  refine Prog.Total.mono (deliver_stores ?_ ?_ ?_) (fun _ h => h) ?_
  · exact hcache
  · exact hnone
  · rw [halias']
    exact halias
  · intro _ s' _ hq x hx
    rcases hq with hq | hq
    · have hq : (s'.mail (sid, mid)).1 = none := hq
      rw [hq] at hx
      cases hx
    · have hx := hx.symm.trans hq
      cases hx
      exact ⟨_, rfl, halias' _ _⟩

theorem sinkDeliver_stores {cfg : Config} {loc : Option String} {agent sid mid fromId : String}
    {env : Envelope} {host : HostSpec}
    (hhost : cached s.mem.hostCache agent (hostToCache cfg loc) agent = some host)
    (halias : host.sshAlias ≠ "") (hcache : s.mem.cache mid = none)
    (hnone : (s.mail (sid, mid)).1 = none) :
    (sinkDeliver cfg loc sid agent env mid fromId).Total world 0 P (fun _ => True) s fun _ s' =>
      ∀ c, (s'.mail (sid, mid)).1 = some c → SaysAlias host c := by
  unfold sinkDeliver
  cases hloc : hostToCache cfg loc with
  | none =>
    rw [hloc] at hhost
    exact deliverSink_stores hhost halias hcache hnone
  | some spec =>
    rw [hloc] at hhost
    refine op_total trivial fun c _ => deliverSink_stores ?_ halias hcache hnone
    rw [Site.mem_next]
    exact hhost

end Store

/-! ## What is resolved -/

theorem RepoMap.sshAlias_ne (m : RepoMap) {name : String} {host : HostSpec}
    (h : m.hosts name = some host) : host.sshAlias ≠ "" := by
  intro hempty
  have hstrip := m.aliased name host h
  rw [hempty] at hstrip
  exact hstrip rfl

theorem resolveTarget_eq_iff {cfg : Config} {name : String} {host : HostSpec}
    (hhost : cfg.repoMap.hosts name = some host) (hosts : String → Option HostSpec) :
    resolveTarget cfg hosts host.sshAlias = host ↔
      hosts host.sshAlias = some host ∨
      hosts host.sshAlias = none ∧ host.sshAlias = host.name := by
  have hname : host.name = name := cfg.repoMap.named name host hhost
  unfold resolveTarget
  cases hosts host.sshAlias with
  | some other =>
    constructor
    · intro h
      exact .inl (congrArg some h)
    · intro h
      rcases h with h | h
      · exact Option.some.inj h
      · cases h.1
  | none =>
    constructor
    · intro h
      refine .inr ⟨rfl, ?_⟩
      cases hmap : cfg.repoMap.hosts host.sshAlias with
      | some spec =>
        rw [hmap] at h
        have hspec : spec = host := h
        rw [hspec] at hmap
        exact (cfg.repoMap.named _ host hmap).symm
      | none =>
        rw [hmap] at h
        exact congrArg HostSpec.name h
    · intro h
      rcases h with h | h
      · cases h
      · rw [h.2, hname, hhost]

/-- A retry of the message reaches the host, now and when the engine has started again. -/
def RetriesReach (cfg : Config) (k : Key) (host : HostSpec) (s : Site) : Prop :=
  s.retryHost? cfg k = some host ∧ s.restarted.retryHost? cfg k = some host

theorem retryHost?_of_says {s : Site} {cfg : Config} {k : Key} {host : HostSpec} {c : Content}
    (henv : (s.mail k).1 = some c) (halias' : SaysAlias host c) (halias : host.sshAlias ≠ "") :
    s.retryHost? cfg k = some (resolveTarget cfg s.mem.hostCache host.sshAlias) := by
  obtain ⟨env, rfl, htarget⟩ := halias'
  have henv : (s.entry k).envelope = some (.json env) := henv
  simp only [Site.retryHost?, Entry.target?, henv, htarget, Option.getD_some, halias, if_false,
    Option.map_some]

/-- **The target of a retry.**  The sink sends a new message for an agent to a host of
the repo map. As long as the envelope stays in the outbox, a retry reaches that host if
and only if its alias is its name and no other host is cached for an agent of that name. -/
theorem same_target {cfg : Config} {name : String} {host : HostSpec} {s s' t : Site}
    {loc : Option String} {agent sid mid fromId : String} {env : Envelope}
    {r : Except String SendReceipt} {c : Content}
    (hhost : cfg.repoMap.hosts name = some host)
    (hcached : cached s.mem.hostCache agent (hostToCache cfg loc) agent = some host)
    (hcache : s.mem.cache mid = none) (hnone : (s.entry (sid, mid)).envelope = none)
    (hrun : (sinkDeliver cfg loc sid agent env mid fromId).Runs world 0 (fun _ => True) s r s')
    (hstored : (s'.entry (sid, mid)).envelope = some c)
    (ht : (t.entry (sid, mid)).envelope = some c) :
    (∀ x ∈ s'.trace.drop s.trace.length, ∀ d, x.2.contact? = some d →
      d = (Dest.host host).remote? cfg) ∧
    (RetriesReach cfg (sid, mid) host t ↔ host.sshAlias = host.name ∧
      (t.mem.hostCache host.sshAlias = none ∨ t.mem.hostCache host.sshAlias = some host)) := by
  have halias := cfg.repoMap.sshAlias_ne hhost
  constructor
  · obtain ⟨-, new, htrace, hnew⟩ := (sinkDeliver_total cfg _ sid env mid fromId).ends r s' hrun
    intro x hx d hd
    rw [htrace, List.drop_left] at hx
    rw [hnew x hx d hd, sinkHost, hcached]
    rfl
  · have halias' := (sinkDeliver_stores hcached halias hcache hnone).ends r s' hrun c hstored
    rw [RetriesReach, retryHost?_of_says ht halias' halias,
      retryHost?_of_says (s := t.restarted) ht halias' halias, Option.some.injEq, Option.some.injEq,
      resolveTarget_eq_iff hhost, resolveTarget_eq_iff hhost]
    have hrestart : t.restarted.mem.hostCache host.sshAlias = none := rfl
    rw [hrestart]
    constructor
    · intro h
      obtain ⟨hnow, hlater⟩ := h
      rcases hlater with hlater | hlater
      · cases hlater
      · exact ⟨hlater.2, hnow.symm.imp And.left id⟩
    · intro h
      exact ⟨h.2.symm.imp id fun hno => ⟨hno, h.1⟩, .inr ⟨rfl, h.1⟩⟩

/-! ### A host with an alias of its own -/

/-- A host whose alias is not its name, and one whose alias is. -/
def mac : HostSpec := { name := "mac", sshAlias := "mac-ssh", shellPrefix := "zsh -lc" }

def box : HostSpec := { name := "box", sshAlias := "box", shellPrefix := "bash -lc" }

def twoHosts : RepoMap where
  hosts name := if name = "mac" then some mac else if name = "box" then some box else none
  named name h hh := by
    split at hh
    · next hname => cases hh; exact hname.symm
    · split at hh
      · next hname => cases hh; exact hname.symm
      · cases hh
  aliased name h hh := by
    split at hh
    · cases hh; decide
    · split at hh
      · cases hh; decide
      · cases hh

def office : Config := { hostname := "here", repoMap := twoHosts }

/-- A message to the agent `w` at a host of the office. -/
def toOffice (host : String) : Call SendReceipt :=
  sinkDeliver office (some host) "s" "w" {} "m" "boss"

/-- The message was sent to `mac`, but a retry goes to the host `mac-ssh`, which has no
shell prefix. -/
theorem retried_elsewhere : ¬ ∀ cfg name host s s' loc agent sid mid env fromId r,
    RepoMap.hosts cfg.repoMap name = some host →
    cached s.mem.hostCache agent (hostToCache cfg loc) agent = some host →
    s.mem.cache mid = none → (s.entry (sid, mid)).envelope = none →
    (sinkDeliver cfg loc sid agent env mid fromId).Runs world 0 (fun _ => True) s r s' →
    (s'.entry (sid, mid)).envelope.isSome → RetriesReach cfg (sid, mid) host s' := by
  intro h
  have hexec : ((Prog.exec world 0 refused 100 (toOffice "mac") {}).map fun x =>
      (x.2.entry ("s", "m")).envelope.isSome && decide (x.2.retryHost? office ("s", "m") =
        some { name := "mac-ssh", sshAlias := "mac-ssh" })) = some true := by
    decide +kernel
  obtain ⟨⟨r, s'⟩, hx, hlost⟩ := Option.map_eq_some_iff.mp hexec
  simp only [Bool.and_eq_true, decide_eq_true_eq] at hlost
  have hreach := h office "mac" mac {} s' (some "mac") "w" "s" "m" {} "boss" r rfl (by decide) rfl
    rfl (Prog.runs_of_exec trivial hx) hlost.1
  have hboth := hlost.2.symm.trans hreach.1
  exact absurd hboth (by decide)

/-- The alias of `box` is its name, so a retry finds it again. -/
theorem same_target_box : ∃ t, RetriesReach office ("s", "m") box t ∧
    t.mem.hostCache "w" = some box := by
  have hexec : ((Prog.exec world 0 refused 100 (toOffice "box") {}).map fun x =>
      (x.2.entry ("s", "m")).envelope.isSome && decide (x.2.mem.hostCache "box" = none) &&
        decide (x.2.mem.hostCache "w" = some box)) = some true := by
    decide +kernel
  obtain ⟨⟨r, t⟩, hx, hcheck⟩ := Option.map_eq_some_iff.mp hexec
  simp only [Bool.and_eq_true, decide_eq_true_eq] at hcheck
  obtain ⟨⟨hstored, hnone⟩, hw⟩ := hcheck
  obtain ⟨c, hc⟩ := Option.isSome_iff_exists.mp hstored
  have hbox : office.repoMap.hosts "box" = some box := rfl
  have hsame := same_target hbox (by decide) rfl rfl (Prog.runs_of_exec trivial hx) hc hc
  exact ⟨t, hsame.2.mpr ⟨rfl, .inl hnone⟩, hw⟩

end AiMeshChat.Swarm
