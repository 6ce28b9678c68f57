import AiMeshChat.Swarm.Rules

/-!
# The manager of a remote session

Before a message is sent to another host the session is set up there with
`session-init`. The local `session.json` knows its manager, but `_remote_send` reads
that file only when it has no roster at hand; with a cached roster the sender of the
message becomes the manager of the remote session.

What decides is the time at which the caches are asked, so the condition on a delivery
names its begin and its end (`managed_run`).
-/

namespace AiMeshChat.Swarm

open Lib

/-- Every `session-init` for the session names this manager. -/
def Managed (sid manager : String) (L : Trace) : Prop :=
  ∀ t k host m roster acl, (t, Op.mailbox k host (initArgs sid m roster acl)) ∈ L → m = manager

/-- All sessions of this host are set up elsewhere with their own manager. -/
def AllManaged (s : Site) : Prop :=
  ∀ sid info, s.sessions sid = some info → Managed sid info.manager s.trace

/-! ## The arguments -/

theorem initArgs_inj {sid sid' m m' : String} {roster roster' : List String}
    {acl acl' : Option Json} (h : initArgs sid m roster acl = initArgs sid' m' roster' acl') :
    sid = sid' ∧ m = m' := by
  simp only [initArgs, List.cons_append, List.cons.injEq, true_and] at h
  exact ⟨h.1, h.2.1⟩

theorem buildMailboxArgs_ne (env : Envelope) (sid m : String) (roster : List String)
    (acl : Option Json) : buildMailboxArgs env ≠ initArgs sid m roster acl := by
  intro h
  have hhead := congrArg List.head? h
  have hsend : (buildMailboxArgs env).head? = some "send" := by
    simp only [buildMailboxArgs, List.cons_append, List.head?_cons]
  have hinit : (initArgs sid m roster acl).head? = some "session-init" := by
    simp only [initArgs, List.cons_append, List.head?_cons]
  rw [hsend, hinit] at hhead
  exact absurd hhead (by decide)

/-! ## One operation -/

section Operation

variable {s : Site} {o : Op} {c : Choice} {T : ℕ}

/-- What holds as long as the clock is not past `T`. -/
def Timely (T : ℕ) (s : Site) : Prop := s.clock ≤ T → AllManaged s

theorem Timely.next (h : Timely T s) (ho : s.clock + c.delay ≤ T → ∀ k host sid m roster acl,
    o = .mailbox k host (initArgs sid m roster acl) → ∀ info, s.sessions sid = some info →
      m = info.manager) : Timely T (s.next o c) := by
  intro hT sid info hinfo t k host m roster acl hmem
  rw [Site.clock_next] at hT
  rw [Site.sessions_next] at hinfo
  rw [Site.trace_next, List.mem_append, List.mem_singleton] at hmem
  rcases hmem with hmem | hmem
  · exact h (le_trans (Nat.le_add_right _ _) hT) sid info hinfo t k host m roster acl hmem
  · exact ho hT k host sid m roster acl (Prod.ext_iff.mp hmem).2.symm info hinfo

/-- An operation that is no mailbox command. -/
def Op.Other (o : Op) : Prop := ∀ k host args, o ≠ .mailbox k host args

theorem Timely.other (h : Timely T s) (ho : o.Other) : Timely T (s.next o c) :=
  h.next fun _ k host _ _ _ _ hmail => absurd hmail (ho k host _)

/-- An operation that sets up no session and leaves the caches of sessions alone. -/
def Op.Quiet : Op → Prop
  | .mailbox _ _ _ => False
  | .upd (.setRoster _ _ _) => False
  | .upd (.setEnsured _ _) => False
  | .upd (.dropEnsured _) => False
  | _ => True

/-- What a delivery finds when it comes to the session. -/
structure Kept (s t : Site) : Prop where
  ensured : t.mem.ensured = s.mem.ensured
  sessions : t.sessions = s.sessions
  clock : s.clock ≤ t.clock

theorem Kept.refl (s : Site) : Kept s s := ⟨rfl, rfl, le_rfl⟩

theorem Kept.next {t : Site} (h : Kept s t) (ho : (t.next o c).mem.ensured = t.mem.ensured) :
    Kept s (t.next o c) where
  ensured := ho.trans h.ensured
  sessions := (Site.sessions_next o c).trans h.sessions
  clock := by
    rw [Site.clock_next]
    exact le_trans h.clock (Nat.le_add_right _ _)

theorem Op.Quiet.mem (h : o.Quiet) : (s.next o c).mem.rosters = s.mem.rosters ∧
    (s.next o c).mem.ensured = s.mem.ensured := by
  rw [Site.mem_next]
  cases o with
  | upd u => cases u <;> first | exact h.elim | exact ⟨rfl, rfl⟩
  | _ => exact ⟨rfl, rfl⟩

theorem Op.Quiet.other (h : o.Quiet) : o.Other := by
  rintro k host args rfl
  exact h

/-- The invariant of the operations before the session is looked at. -/
structure Before (T : ℕ) (s t : Site) : Prop where
  timely : Timely T t
  kept : Kept s t
  rosters : t.mem.rosters = s.mem.rosters

theorem Before.next {t : Site} (h : Before T s t) (ho : o.Quiet) : Before T s (t.next o c) :=
  ⟨h.timely.other ho.other, h.kept.next ho.mem.2, ho.mem.1.trans h.rosters⟩

end Operation

/-! ## Methods -/

section Methods

variable {s t : Site} {T : ℕ} {P : Choice → Prop} {α : Type}

theorem quiet_total {p : Call α} (hp : p.Bounded Op.Quiet) (h : Before T s t) :
    p.Total world 0 P (Timely T) t fun _ t' => Before T s t' :=
  (bounded_total hp (fun _ _ _ ho _ ht => ht.next ho) h).mono (fun _ h => h.timely) fun _ _ _ h => h

theorem capabilitiesOf_quiet (k : Key) (host : HostSpec) :
    (capabilitiesOf k host).Bounded Op.Quiet := by
  refine Prog.bounded_op_bind trivial fun m => ?_
  split
  · trivial
  · refine Prog.bounded_op_bind trivial fun r => ?_
    split
    · exact Prog.bounded_op_bind trivial fun _ => trivial
    · trivial

theorem checkCapability_quiet (cfg : Config) (k : Key) (host : HostSpec) :
    (checkCapability cfg k host).Bounded Op.Quiet := by
  unfold checkCapability
  split
  · trivial
  · refine (capabilitiesOf_quiet k host).bind fun caps => ?_
    split <;> trivial

/-- The roster of the session is not cached, or was cached too long ago. -/
def Cold (s : Site) (sid : String) : Prop :=
  ∀ u roster, s.mem.rosters sid = some (u, roster) → seconds ROSTER_TTL_S ≤ s.clock - u

theorem cachedRoster_total (h : Before T s t) (sid : String) :
    (cachedRoster sid).Total world 0 P (Timely T) t fun r t' => Before T s t' ∧
      ∀ roster, r = .ok (some roster) → ¬ Cold s sid := by
  refine op_total h.timely fun c _ => ?_
  have h₁ := h.next (o := .mem) (c := c) trivial
  have hros := h.rosters
  have hanswer : (t.tick .mem c).answer c .mem = t.mem := rfl
  rw [hanswer, hros]
  cases hr : s.mem.rosters sid with
  | none =>
    refine Prog.total_ret h₁.timely ⟨h₁, fun roster hx => ?_⟩
    cases hx
  | some x =>
    refine op_total h₁.timely fun c' _ => ?_
    have h₂ := h₁.next (o := .now) (c := c') trivial
    have hclock : s.clock ≤ ((t.next .mem c).tick .now c').clock := h₂.kept.clock
    show (if ((t.next .mem c).tick .now c').clock - x.1 < seconds ROSTER_TTL_S
      then (Prog.ret (some x.2) : Call (Option (List String))) else Prog.ret none).Total
      world 0 P (Timely T) _ _
    generalize ((t.next .mem c).tick .now c').clock = now at hclock
    split
    · next hfresh =>
      refine Prog.total_ret h₂.timely ⟨h₂, fun _ _ hcold => ?_⟩
      have hage := hcold x.1 x.2 hr
      omega
    · refine Prog.total_ret h₂.timely ⟨h₂, fun roster hx => ?_⟩
      cases hx

/-- The manager that a session is set up with is its own, unless it was set up on the
host a short time before `T`. -/
def Safe (T : ℕ) (s : Site) (sid : String) (host : HostSpec) (m : String) : Prop :=
  ∀ info, s.sessions sid = some info → m = info.manager ∨
    ∃ u, s.mem.ensured (sid, aliasOf host) = some u ∧ T - u < seconds ENSURE_TTL_S

/-- The sender is the manager, or the engine has to read `session.json`, or the session
is set up on the host already. -/
def SenderKnown (T : ℕ) (s : Site) (sid : String) (host : HostSpec) (fromId : String) : Prop :=
  ∀ info, s.sessions sid = some info → fromId = info.manager ∨
    (info.manager ≠ "" ∧ info.agents ≠ [] ∧ Cold s sid) ∨
    ∃ u, s.mem.ensured (sid, aliasOf host) = some u ∧ T - u < seconds ENSURE_TTL_S

theorem SenderKnown.safe {sid : String} {host : HostSpec} {fromId : String}
    (h : SenderKnown T s sid host fromId)
    (hno : ∀ info, s.sessions sid = some info →
      ¬ (info.manager ≠ "" ∧ info.agents ≠ [] ∧ Cold s sid)) :
    Safe T s sid host fromId := by
  intro info hinfo
  rcases h info hinfo with hm | hcold | hens
  · exact .inl hm
  · exact absurd hcold (hno info hinfo)
  · exact .inr hens

theorem managerAndRoster_total (h : Before T s t) {sid : String} {host : HostSpec} {env : Envelope}
    (hknown : SenderKnown T s sid host env.fromId) :
    (managerAndRoster sid env).Total world 0 P (Timely T) t fun r t' => Kept s t' ∧
      ∀ x, r = .ok x → Safe T s sid host x.1 := by
  refine (cachedRoster_total h sid).bind ?_ ?_
  · rintro cached t₁ - ⟨h₁, hwarm⟩
    cases cached with
    | some roster =>
      refine Prog.total_ret h₁.timely ⟨h₁.kept, fun x hx => ?_⟩
      cases hx
      exact hknown.safe fun info _ hcold => hwarm roster rfl hcold.2.2
    | none =>
      refine op_total h₁.timely fun c _ => ?_
      have h₂ := h₁.next (o := .readSession sid) (c := c) trivial
      show (storedManager sid env (t₁.sessions sid)).Total world 0 P (Timely T) _ _
      rw [h₁.kept.sessions]
      cases hinfo : s.sessions sid with
      | none =>
        refine Prog.total_ret h₂.timely ⟨h₂.kept, fun x _ info hinfo' => ?_⟩
        rw [hinfo] at hinfo'
        cases hinfo'
      | some info =>
        simp only [storedManager]
        split
        · next hno =>
          refine Prog.total_ret h₂.timely ⟨h₂.kept, fun x hx => ?_⟩
          cases hx
          refine hknown.safe fun info' hinfo' hcold => ?_
          rw [hinfo] at hinfo'
          cases hinfo'
          exact hcold.2.1 hno
        · refine op_total h₂.timely fun c' _ => ?_
          have h₃ := h₂.next (o := .now) (c := c') trivial
          refine op_total h₃.timely fun c'' _ => ?_
          refine Prog.total_ret (h₃.timely.other fun _ _ _ => by simp) ⟨h₃.kept.next rfl, ?_⟩
          intro x hx
          cases hx
          by_cases hm : info.manager = ""
          · simp only [hm, if_true]
            refine hknown.safe fun info' hinfo' hcold => ?_
            rw [hinfo] at hinfo'
            cases hinfo'
            exact hcold.1 hm
          · simp only [hm, if_false]
            intro info' hinfo'
            rw [hinfo] at hinfo'
            cases hinfo'
            exact .inl rfl
  · rintro e t₁ - ⟨h₁, -⟩
    exact ⟨h₁.kept, fun x hx => by cases hx⟩

theorem ensureRemoteSession_total (h : Timely T t) (hkept : Kept s t) {k : Key} {sid m : String}
    {host : HostSpec} (roster : List String) (hsafe : Safe T s sid host m) :
    (ensureRemoteSession k sid host m roster).Total world 0 P (Timely T) t fun _ _ => True := by
  -- a session that need not be set up again is left alone; otherwise the clock or the
  -- manager speaks for the one that is named
  have hens : (isEnsured (sid, aliasOf host)).Total world 0 P (Timely T) t fun r t' =>
      Kept s t' ∧ (r = .ok false → t'.clock ≤ T → ∀ info, s.sessions sid = some info →
        m = info.manager) := by
    refine op_total h fun c _ => ?_
    have h₁ : Timely T (t.next .mem c) := h.other fun _ _ _ => by simp
    have hk₁ : Kept s (t.next .mem c) := hkept.next rfl
    have hno (he : s.mem.ensured (sid, aliasOf host) = none) (info : SessionMeta)
        (hinfo : s.sessions sid = some info) : m = info.manager := by
      rcases hsafe info hinfo with hm | ⟨u, hu, -⟩
      · exact hm
      · rw [he] at hu
        cases hu
    have hanswer : (t.tick .mem c).answer c .mem = t.mem := rfl
    rw [hanswer, hkept.ensured]
    cases he : s.mem.ensured (sid, aliasOf host) with
    | none => exact Prog.total_ret h₁ ⟨hk₁, fun _ _ => hno he⟩
    | some u =>
      refine op_total h₁ fun c' _ => ?_
      have h₂ : Timely T ((t.next .mem c).next .now c') := h₁.other fun _ _ _ => by simp
      refine Prog.total_ret h₂ ⟨hk₁.next rfl, fun hfalse hT info hinfo => ?_⟩
      rcases hsafe info hinfo with hm | ⟨u', hu, hage⟩
      · exact hm
      · rw [he] at hu
        cases hu
        have hlate := decide_eq_false_iff_not.mp (Except.ok.inj hfalse)
        have hclock : (((t.next .mem c).tick .now c').clock : ℕ) ≤ T := hT
        have hlate : ¬ ((t.next .mem c).tick .now c').clock - u < seconds ENSURE_TTL_S := hlate
        omega
  refine hens.bind ?_ fun _ _ _ _ => trivial
  rintro b t₁ h₁ ⟨hk₁, hm⟩
  cases b with
  | true => exact Prog.total_ret h₁ trivial
  | false =>
    have hm := hm rfl
    refine op_total h₁ fun c _ => ?_
    have h₂ : Timely T (t₁.next (.readSession sid) c) := h₁.other fun _ _ _ => by simp
    refine op_total h₂ fun c' _ => ?_
    refine (bounded_total (φ := Op.Other) ?_ (fun _ _ _ ho _ ht => ht.other ho) ?_).mono
      (fun _ h => h) fun _ _ _ _ => trivial
    · refine (orRaise_bounded _).bind fun a => ?_
      split
      · trivial
      · exact Prog.bounded_op_bind (fun _ _ _ => by simp) fun _ =>
          Prog.bounded_op fun _ _ _ => by simp
    · refine h₂.next fun hT k' host' sid' m' roster' acl' hmail info hinfo => ?_
      obtain ⟨rfl, rfl⟩ := initArgs_inj (Op.mailbox.inj hmail).2.2
      rw [Site.sessions_next, hk₁.sessions] at hinfo
      rw [Site.clock_next] at hT
      exact hm (by omega) info hinfo

theorem remoteSend_manager_total (h : Before T s t) {cfg : Config} {k : Key} {host : HostSpec}
    {env : Envelope} (hknown : SenderKnown T s (env.sessionId.getD "") host env.fromId) :
    (remoteSend cfg k host env).Total world 0 P (Timely T) t fun _ _ => True := by
  refine op_total h.timely fun c _ => ?_
  have h₁ := h.next (o := .getTransport k host) (c := c) trivial
  refine orRaise_total (fun _ _ => ?_) fun _ _ => ⟨h₁.timely, trivial⟩
  refine (quiet_total (checkCapability_quiet cfg k host) h₁).bind ?_ fun _ _ _ _ => trivial
  intro _ t₁ _ h₁
  refine (managerAndRoster_total h₁ hknown).bind ?_ fun _ _ _ _ => trivial
  rintro ⟨m, roster⟩ t₂ h₂ ⟨hk₂, hsafe⟩
  refine (ensureRemoteSession_total h₂ hk₂ roster (hsafe _ rfl)).bind ?_ fun _ _ _ _ => trivial
  intro _ t₃ h₃ _
  refine op_total h₃ fun c _ => ?_
  refine (bounded_total (φ := Op.Other) ?_ (fun _ _ _ ho _ ht => ht.other ho) ?_).mono
    (fun _ h => h) fun _ _ _ _ => trivial
  · refine (orRaise_bounded _).bind fun a => ?_
    split <;> trivial
  · refine h₃.next fun _ k' host' sid' m' roster' acl' hmail => ?_
    exact absurd (Op.mailbox.inj hmail).2.2 (buildMailboxArgs_ne env _ _ _ _)

/-! ### Deliveries -/

theorem remember_other (mid : String) (r : SendReceipt) : (remember mid r).Bounded Op.Other :=
  remember_bounded fun _ _ _ => by simp

theorem file_other (k : Key) (f : FileOp) : (file k f).Bounded Op.Other :=
  Prog.bounded_op fun _ _ _ => by simp

theorem writeStatus_other (k : Key) (kind detail : String) :
    (writeStatus k kind detail).Bounded Op.Other := by
  refine (writeStatus_bounded k kind detail).mono fun o ho => ?_
  rintro k' host args rfl
  exact ho

theorem replaceEnvelope_quiet (k : Key) (env : Envelope) :
    (replaceEnvelope k env).Bounded Op.Quiet :=
  Prog.bounded_op_bind trivial fun r => (orRaise_bounded r).bind fun _ =>
    Prog.bounded_op_bind trivial fun _ => Prog.bounded_op trivial

theorem stamp_quiet (k : Key) : (stampOutboxTargetHost k).Bounded Op.Quiet := by
  refine Prog.bounded_op_bind trivial fun e => ?_
  split
  · split
    · trivial
    · exact replaceEnvelope_quiet k _
  · trivial

theorem writeOutbox_quiet (k : Key) (env : Envelope) : (writeOutbox k env).Bounded Op.Quiet := by
  refine Prog.bounded_op_bind trivial fun e => ?_
  split
  · trivial
  · exact replaceEnvelope_quiet k env

theorem localSend_other (k : Key) (env : Envelope) : (localSend k env).Bounded Op.Other := by
  refine Prog.bounded_op_bind (fun _ _ _ => by simp) fun r => (orRaise_bounded r).bind fun a => ?_
  split <;> trivial

theorem other_total {p : Call α} (hp : p.Bounded Op.Other) (h : Timely T t) :
    p.Total world 0 P (Timely T) t fun _ _ => True :=
  (bounded_total hp (fun _ _ _ ho _ ht => ht.other ho) h).mono (fun _ h => h) fun _ _ _ _ => trivial

theorem sendFirst_manager_total (h : Before T s t) {cfg : Config} {k : Key} {env : Envelope}
    {remote : Option HostSpec} (hknown : ∀ host, remote = some host →
      SenderKnown T s (env.sessionId.getD "") host env.fromId) :
    (sendFirst cfg k env remote).Total world 0 P (Timely T) t fun _ _ => True := by
  have hsent (text : String) : ((writeStatus k "transport_failed" text : Call Unit) >>= fun _ =>
      (Prog.ret ⟨.accepted, k.2, "", true⟩ : Call SendReceipt)).Bounded Op.Other :=
    (writeStatus_other k _ text).bind fun _ => trivial
  cases remote with
  | some host =>
    refine attempt_bind_total (remoteSend_manager_total h (hknown host rfl)) fun r t₁ h₁ _ => ?_
    cases r with
    | ok u =>
      refine other_total ?_ h₁
      exact (file_other k .mark).bind fun _ =>
        Prog.bounded_op_bind (fun _ _ _ => by simp) fun _ => remember_other _ _
    | error text => exact other_total (hsent text) h₁
  | none =>
    refine attempt_bind_total (other_total (localSend_other k env) h.timely) fun r t₁ h₁ _ => ?_
    refine other_total ?_ h₁
    cases r with
    | ok u => exact (file_other k .mark).bind fun _ => remember_other _ _
    | error text =>
      exact (writeStatus_other k _ text).bind fun _ =>
        ((stamp_quiet k).mono fun _ ho => ho.other).bind fun _ => trivial

/-- The condition on a delivery that begins at `s` and ends at the time `T`: a message
that is new and goes to another host has a sender that is known. -/
def ManagerKnown (cfg : Config) (sessionId : String) (target : Dest) (env : Envelope) (s : Site)
    (T : ℕ) : Prop :=
  ∀ host, target.remote? cfg = some host → s.mem.cache env.msgId = none →
    (s.entry (deliverKey sessionId env)).envelope = none →
    SenderKnown T s (env.sessionId.getD "") host env.fromId

theorem Op.Checks.quiet {k : Key} {o : Op} (h : o.Checks k) : o.Quiet := by
  cases o with
  | upd u => cases u <;> first | exact h.elim | trivial
  | _ => first | exact h.elim | trivial

theorem deliver_manager_total (h : Before T s s) {cfg : Config} {sessionId : String} {target : Dest}
    {env : Envelope} (hknown : ManagerKnown cfg sessionId target env s T) :
    (deliver cfg sessionId target env).Total world 0 P (Timely T) s fun _ _ => True := by
  unfold deliver
  split
  · exact Prog.total_ret h.timely trivial
  · have hop (o : Op) (c : Choice) (t : Site) (ho : o.Checks (deliverKey sessionId env)) (_ : P c)
        (ht : Before T s t) : Before T s (t.next o c) := ht.next ho.quiet
    have hcheck := (checkIdempotency_total hop h).mono (fun _ ht => ht.timely)
      fun _ _ ht hq => And.intro ht hq
    refine hcheck.bind ?_ fun _ _ _ _ => trivial
    rintro known s₁ - ⟨h₁, -, hnew⟩
    cases known with
    | some cached =>
      refine other_total ?_ h₁.timely
      show (replay _ _ _).Bounded Op.Other
      unfold replay
      split
      · exact ((stamp_quiet _).mono fun _ ho => ho.other).bind fun _ => trivial
      · trivial
    | none =>
      obtain ⟨hcache, hout⟩ := hnew rfl
      refine attempt_bind_total (quiet_total (writeOutbox_quiet _ _) h₁) fun r s₂ _ h₂ => ?_
      cases r with
      | ok u =>
        have hq : (remember (deliverKey sessionId env).2
            ⟨.accepted, (deliverKey sessionId env).2, "", true⟩).Bounded Op.Quiet :=
          remember_bounded trivial
        refine (quiet_total hq h₂).bind (fun _ s₃ _ h₃ => ?_) fun _ _ _ _ => trivial
        refine sendFirst_manager_total h₃ fun host hhost => ?_
        have hstored : stored (target.remote? cfg) env = env := by rw [hhost]; rfl
        rw [hstored]
        exact hknown host hhost hcache hout
      | error text => exact other_total (remember_other _ _) h₂.timely

end Methods

/-! ## Runs -/

/-- Deliveries through one engine, each of which meets `H`, in any order with rosters
that are cached and with time that passes. -/
inductive Deliveries (cfg : Config) (H : String → Dest → Envelope → Site → ℕ → Prop) : Site → Prop
  | start {s : Site} (htrace : s.trace = []) : Deliveries cfg H s
  | wait {s : Site} (h : Deliveries cfg H s) (d : ℕ) :
      Deliveries cfg H { s with clock := s.clock + d }
  | cacheRoster {s s' : Site} {sid : String} {roster : List String} {r : Except String Unit}
      (h : Deliveries cfg H s)
      (hrun : (cacheRoster sid roster).Runs world 0 (fun _ => True) s r s') : Deliveries cfg H s'
  | deliver {s s' : Site} {sid : String} {target : Dest} {env : Envelope}
      {r : Except String SendReceipt} (h : Deliveries cfg H s) (hH : H sid target env s s'.clock)
      (hrun : (deliver cfg sid target env).Runs world 0 (fun _ => True) s r s') :
      Deliveries cfg H s'

theorem cacheRoster_other (sid : String) (roster : List String) :
    (cacheRoster sid roster).Bounded Op.Other := by
  refine Prog.bounded_op_bind (fun _ _ _ => by simp) fun m => Prog.Bounded.bind ?_ fun _ => ?_
  · unfold invalidateEnsured
    split
    · split
      · trivial
      · exact Prog.bounded_op fun _ _ _ => by simp
    · trivial
  · exact Prog.bounded_op_bind (fun _ _ _ => by simp) fun _ => Prog.bounded_op fun _ _ _ => by simp

theorem allManaged_of_total {α : Type} {p : Call α} {s s' : Site} {r : Except String α}
    (hp : p.Total world 0 (fun _ => True) (Timely s'.clock) s fun _ _ => True)
    (hrun : p.Runs world 0 (fun _ => True) s r s') : AllManaged s' := by
  have hlast := (hp.mono (fun _ h => h) (fun _ _ hI _ => hI)).ends r s' hrun
  exact hlast le_rfl

/-- **The manager of a remote session.**  In a run in which the sender of every new
message to another host is the manager, or the engine reads `session.json`, or the
session is set up already, every `session-init` names the manager of the session. -/
theorem managed_run {cfg : Config} {s : Site} (h : Deliveries cfg (ManagerKnown cfg) s) :
    AllManaged s := by
  induction h with
  | start htrace =>
    intro sid info _ t k host m roster acl hmem
    rw [htrace] at hmem
    cases hmem
  | wait h d ih => exact ih
  | cacheRoster h hrun ih =>
    exact allManaged_of_total (other_total (cacheRoster_other _ _) fun _ => ih) hrun
  | deliver h hH hrun ih =>
    exact allManaged_of_total (deliver_manager_total ⟨fun _ => ih, .refl _, rfl⟩ hH) hrun

/-! ### A message of a worker -/

/-- A host with the session `s` of a manager and a worker. -/
def home : Site :=
  { sessions := fun sid => if sid = "s" then some ⟨"boss", ["boss", "worker"], none⟩ else none }

def anywhere : Config := { hostname := "here", repoMap := .empty }

def remote : Dest := .host { name := "far", sshAlias := "far" }

def report : Envelope :=
  { sessionId := some "s", msgId := "m", fromId := "worker", toId := "boss" }

/-- With a cached roster the worker that sends the first message becomes the manager. -/
theorem worker_becomes_manager : ¬ ∀ cfg s, Deliveries cfg (fun _ _ _ _ _ => True) s →
    AllManaged s := by
  intro h
  have hroster : ((Prog.exec world 0 {} 10 (cacheRoster "s" ["boss", "worker"]) home).bind fun x =>
      (Prog.exec world 0 {} 100 (deliver anywhere "s" remote report) x.2).map fun y =>
        decide ((0, Op.mailbox ("s", "m") { name := "far", sshAlias := "far" }
          (initArgs "s" "worker" ["boss", "worker"] none)) ∈ y.2.trace) &&
        decide (y.2.sessions "s" = some ⟨"boss", ["boss", "worker"], none⟩)) = some true := by
    decide +kernel
  obtain ⟨x, hx, hy⟩ := Option.bind_eq_some_iff.mp hroster
  obtain ⟨y, hy, hinit⟩ := Option.map_eq_some_iff.mp hy
  have hrun : Deliveries anywhere (fun _ _ _ _ _ => True) y.2 :=
    .deliver (.cacheRoster (.start rfl) (Prog.runs_of_exec trivial hx)) trivial
      (Prog.runs_of_exec trivial hy)
  simp only [Bool.and_eq_true, decide_eq_true_eq] at hinit
  have hm := h anywhere y.2 hrun "s" _ hinit.2 _ _ _ _ _ _ hinit.1
  exact absurd hm (by decide)

/-- Without one the engine asks `session.json`. -/
theorem managed_run_cold : ∃ s, AllManaged s ∧
    (0, Op.mailbox ("s", "m") { name := "far", sshAlias := "far" }
      (initArgs "s" "boss" ["boss", "worker"] none)) ∈ s.trace := by
  have hexec : ((Prog.exec world 0 {} 100 (deliver anywhere "s" remote report) home).map fun y =>
      decide ((0, Op.mailbox ("s", "m") { name := "far", sshAlias := "far" }
        (initArgs "s" "boss" ["boss", "worker"] none)) ∈ y.2.trace)) = some true := by
    decide +kernel
  obtain ⟨y, hy, hinit⟩ := Option.map_eq_some_iff.mp hexec
  have hknown : ManagerKnown anywhere "s" remote report home y.2.clock := by
    intro host _ _ _ info hinfo
    have hinfo : some (⟨"boss", ["boss", "worker"], none⟩ : SessionMeta) = some info := hinfo
    cases hinfo
    refine .inr (.inl ⟨by decide, by decide, fun u roster hr => ?_⟩)
    cases hr
  exact ⟨y.2, managed_run (.deliver (.start rfl) hknown (Prog.runs_of_exec trivial hy)),
    of_decide_eq_true hinit⟩

end AiMeshChat.Swarm
