import AiMeshChat.Lib.Lockstep
import AiMeshChat.Swarm.Rules

/-!
# Deliveries of different sessions

Two calls of `deliver` with different session ids, one after the other on one engine.
The outbox, the rosters and the sessions that were set up on a host are kept by session,
so the first call leaves what the second one reads of them as it was. The receipts are
kept by message id alone, and the capabilities by host. What the second call shows is
therefore the same as without the first one exactly if neither of these two caches
tells it something new.

The second call runs twice, in one environment: after the first one, and at the same
time without it.
-/

namespace AiMeshChat.Swarm

open Lib Session

/-! ## The calls -/

/-- The arguments of `deliver`. -/
structure Post where
  sessionId : String
  target : Dest
  envelope : Envelope

namespace Post

variable (cfg : Config) (d : Post)

/-- The key of the message in the outbox. -/
def key : Key := deliverKey d.sessionId d.envelope

/-- The session id that a remote host is told. -/
def remoteId : String := d.envelope.sessionId.getD ""

/-- The remote host of the message. -/
def remote? : Option HostSpec := d.target.remote? cfg

/-- The envelope as `deliver` stores it. -/
def env : Envelope := stored (d.remote? cfg) d.envelope

/-- The call. -/
def call : Call SendReceipt := deliver cfg d.sessionId d.target d.envelope

end Post

/-- What a call shows: its receipt, the entry that it leaves in the outbox and whether
the message was given to a transport. -/
structure Shown where
  receipt : Except String SendReceipt
  entry : Entry
  sent : Bool

/-- The operations of a run that ends in `t`. -/
def opsSince (s t : Site) : List Op := (t.trace.drop s.trace.length).map Prod.snd

/-- What a call shows that starts from `s`. -/
def Post.shown (cfg : Config) (env : Op → Choice) (d : Post) (s : Site) : Option Shown :=
  ((d.call cfg).play world 0 env s).map fun x =>
    ⟨x.1, x.2.entry d.key, (opsSince s x.2).any (Op.isSend d.key)⟩

/-- The second call shows what it would show if the first one had not been made. -/
def Independent (cfg : Config) (s : Site) (d₁ d₂ : Post) : Prop :=
  ∀ (env₁ env₂ : Op → Choice) (r₁ : Except String SendReceipt) (s₁ : Site),
    (d₁.call cfg).play world 0 env₁ s = some (r₁, s₁) →
    d₂.shown cfg env₂ s₁ = d₂.shown cfg env₂ { s with clock := s₁.clock }

/-- The receipt of a message that the engine knows, by its cache or by its outbox. -/
def known (s : Site) (k : Key) : Option SendReceipt :=
  match s.mem.cache k.2 with
  | some r => some r
  | none =>
    if (s.entry k).envelope.isNone then none
    else if (s.entry k).delivered.isSome then some ⟨.delivered, k.2, "", false⟩
    else some ⟨.accepted, k.2, "", true⟩

/-! ## What a delivery looks at -/

section View

variable (cfg : Config) (k : Key) (rid : String) (dest : Option HostSpec) (asks : Prop)

/-- The two memories look the same to a delivery, which asks a host for its capabilities
only if `asks`. -/
structure Looks (m m' : Memory) : Prop where
  cache : m.cache k.2 = m'.cache k.2
  rosters : m.rosters rid = m'.rosters rid
  ensured : ∀ h, dest = some h → m.ensured (rid, aliasOf h) = m'.ensured (rid, aliasOf h)
  capabilities : cfg.router = true → ∀ h, dest = some h →
    m.capabilities (aliasOf h) = m'.capabilities (aliasOf h) ∧
      (m.capabilities (aliasOf h) = none → asks)

/-- What is known of the answers to a delivery in two runs. -/
def Sees : (o : Op) → Ans o → Ans o → Prop
  | .mem, m, m' => Looks cfg k rid dest asks m m'
  | _, a, a' => a = a'

/-- The cells of the memory that a delivery fills. -/
def Update.Concerns : Update → Prop
  | .remember mid _ => mid = k.2
  | .setRoster sid _ _ => sid = rid
  | .setEnsured key _ => ∃ h, dest = some h ∧ key = (rid, aliasOf h)
  | .setCapabilities a _ => ∃ h, dest = some h ∧ a = aliasOf h ∧ asks ∧ cfg.router = true
  | _ => False

/-- The operations of a delivery. -/
def Op.Concerns : Op → Prop
  | .now => True
  | .mem => True
  | .upd u => u.Concerns cfg k rid dest asks
  | .look k' => k' = k
  | .file k' _ => k' = k ∨ k' = tmpKey k
  | .openTmp k' => k' = k
  | .publish k' => k' = k
  | .readSession sid => sid = rid
  | .getTransport k' h => k' = k ∧ dest = some h
  | .getCapabilities k' h => k' = k ∧ dest = some h
  | .mailbox k' h _ => k' = k ∧ dest = some h
  | .localMailbox k' _ => k' = k ∧ dest = none
  | .appendHistory k' => k' = k
  | _ => False

/-- The operations of a replay: they write the envelope anew. -/
def Op.Stamps (k : Key) : Op → Prop
  | .look k' => k' = k
  | .openTmp k' => k' = k
  | .file k' f => k' = tmpKey k ∧ ∃ env, f = .putEnvelope env
  | .publish k' => k' = k
  | _ => False

end View

section Stamp

variable {cfg : Config} {k : Key} {rid : String} {dest : Option HostSpec} {asks : Prop} {o : Op}

theorem Op.Stamps.concerns (h : o.Stamps k) : o.Concerns cfg k rid dest asks := by
  cases o with
  | file k' f => exact .inr h.1
  | _ => first | exact h | exact h.elim

theorem Op.Stamps.sees (h : o.Stamps k) {a a' : Ans o} (hA : Sees cfg k rid dest asks o a a') :
    a = a' := by
  cases o with
  | mem => exact h.elim
  | _ => exact hA

end Stamp

section Methods

variable {φ : Op → Prop} {A : (o : Op) → Ans o → Ans o → Prop} {α : Type}

theorem orRaise_alike (r : Except String α) : Prog.Alike φ A (orRaise r) (orRaise r) := by
  cases r with
  | ok a => exact Prog.alike_ret a
  | error text => exact Prog.alike_raise text

theorem attempt_alike {p p' : Call α} (h : Prog.Alike φ A p p') :
    Prog.Alike φ A (attempt p) (attempt p') :=
  (h.bind fun a => Prog.alike_ret (Except.ok a)).tryCatch fun text =>
    Prog.alike_ret (Except.error text)

variable {cfg : Config} {k : Key} {rid : String} {dest : Option HostSpec} {asks : Prop}

theorem replaceEnvelope_stamps (env : Envelope) :
    Prog.Alike (Op.Stamps k) (fun _ => Eq) (replaceEnvelope k env) (replaceEnvelope k env) := by
  refine Prog.alike_same_bind rfl (fun _ _ h => h) fun r => (orRaise_alike r).bind fun _ => ?_
  refine Prog.alike_same_bind ⟨rfl, env, rfl⟩ (fun _ _ h => h) fun _ => ?_
  exact Prog.alike_op rfl fun _ _ h => h

theorem stamp_stamps : Prog.Alike (Op.Stamps k) (fun _ => Eq) (stampOutboxTargetHost k)
    (stampOutboxTargetHost k) := by
  refine Prog.alike_same_bind rfl (fun _ _ h => h) fun e => ?_
  split
  · split
    · exact Prog.alike_ret ()
    · exact replaceEnvelope_stamps _
  · exact Prog.alike_ret ()

theorem replay_stamps (env : Envelope) (cached : SendReceipt) :
    Prog.Alike (Op.Stamps k) (fun _ => Eq) (replay k env cached) (replay k env cached) := by
  unfold replay
  split
  · exact stamp_stamps.bind fun _ => Prog.alike_ret cached
  · exact Prog.alike_ret cached

/-- The program does what a delivery may do, and looks at nothing else. -/
abbrev Attentive (cfg : Config) (k : Key) (rid : String) (dest : Option HostSpec) (asks : Prop)
    (p : Call α) : Prop :=
  Prog.Alike (Op.Concerns cfg k rid dest asks) (Sees cfg k rid dest asks) p p

theorem ret_attentive (a : α) : Attentive cfg k rid dest asks (Prog.ret a) := Prog.alike_ret a

theorem raise_attentive (text : String) :
    Attentive cfg k rid dest asks (Prog.raise text : Call α) := Prog.alike_raise text

theorem remember_attentive (r : SendReceipt) :
    Attentive cfg k rid dest asks (remember k.2 r) :=
  Prog.alike_same_bind rfl (fun _ _ h => h) fun _ => ret_attentive r

theorem file_attentive (f : FileOp) : Attentive cfg k rid dest asks (file k f) :=
  Prog.alike_op (.inl rfl) fun _ _ h => h

theorem replaceEnvelope_attentive (env : Envelope) :
    Attentive cfg k rid dest asks (replaceEnvelope k env) :=
  (replaceEnvelope_stamps env).mono (fun _ ho => ho.concerns) fun _ _ _ ho hA => ho.sees hA

theorem writeOutbox_attentive (env : Envelope) :
    Attentive cfg k rid dest asks (writeOutbox k env) := by
  refine Prog.alike_same_bind rfl (fun _ _ h => h) fun e => ?_
  split
  · exact ret_attentive ()
  · exact replaceEnvelope_attentive env

theorem stamp_attentive : Attentive cfg k rid dest asks (stampOutboxTargetHost k) :=
  stamp_stamps.mono (fun _ ho => ho.concerns) fun _ _ _ ho hA => ho.sees hA

theorem replay_attentive (env : Envelope) (cached : SendReceipt) :
    Attentive cfg k rid dest asks (replay k env cached) :=
  (replay_stamps env cached).mono (fun _ ho => ho.concerns) fun _ _ _ ho hA => ho.sees hA

theorem writeStatus_attentive (kind detail : String) :
    Attentive cfg k rid dest asks (writeStatus k kind detail) := by
  refine (file_attentive _).bind fun _ => (file_attentive _).bind fun _ => ?_
  refine (file_attentive _).bind fun _ => (file_attentive _).bind fun _ => ?_
  exact Prog.alike_same_bind trivial (fun _ _ h => h) fun _ => file_attentive _

theorem checkIdempotency_attentive : Attentive cfg k rid dest asks (checkIdempotency k) := by
  refine Prog.alike_op_bind trivial fun m m' hm => ?_
  rw [hm.cache]
  split
  · exact ret_attentive _
  · refine Prog.alike_same_bind rfl (fun _ _ h => h) fun e => ?_
    split
    · exact ret_attentive _
    · split <;> exact (remember_attentive _).bind fun _ => ret_attentive _

theorem localSend_attentive (env : Envelope) (hdest : dest = none) :
    Attentive cfg k rid dest asks (localSend k env) := by
  refine Prog.alike_same_bind ⟨rfl, hdest⟩ (fun _ _ h => h) fun r => ?_
  refine (orRaise_alike r).bind fun a => ?_
  split
  · exact raise_attentive _
  · exact ret_attentive ()

section Remote

variable {host : HostSpec} (hdest : dest = some host)

include hdest

theorem capabilitiesOf_attentive (hrouter : cfg.router = true) :
    Attentive cfg k rid dest asks (capabilitiesOf k host) := by
  refine Prog.alike_op_bind trivial fun m m' hm => ?_
  obtain ⟨hcaps, hasks⟩ := hm.capabilities hrouter host hdest
  rw [← hcaps]
  cases hknown : m.capabilities (aliasOf host) with
  | some caps => exact ret_attentive caps
  | none =>
    refine Prog.alike_same_bind ⟨rfl, hdest⟩ (fun _ _ h => h) fun r => ?_
    cases r with
    | ok caps =>
      have hset : Update.Concerns cfg k rid dest asks (.setCapabilities (aliasOf host) caps) :=
        ⟨host, hdest, rfl, hasks hknown, hrouter⟩
      exact Prog.alike_same_bind hset (fun _ _ h => h) fun _ => ret_attentive caps
    | error text => exact raise_attentive _

theorem checkCapability_attentive : Attentive cfg k rid dest asks (checkCapability cfg k host) := by
  unfold checkCapability
  cases hrouter : cfg.router with
  | false => exact ret_attentive ()
  | true =>
    split
    · exact ret_attentive ()
    · refine (capabilitiesOf_attentive hdest hrouter).bind fun caps => ?_
      split
      · exact ret_attentive ()
      · exact raise_attentive _

theorem ensureRemoteSession_attentive (manager : String) (roster : List String) :
    Attentive cfg k rid dest asks (ensureRemoteSession k rid host manager roster) := by
  have hset (t : ℕ) : Update.Concerns cfg k rid dest asks (.setEnsured (rid, aliasOf host) t) :=
    ⟨host, hdest, rfl⟩
  have hensured : Attentive cfg k rid dest asks (isEnsured (rid, aliasOf host)) := by
    refine Prog.alike_op_bind trivial fun m m' hm => ?_
    rw [← hm.ensured host hdest]
    split
    · exact Prog.alike_same_bind trivial (fun _ _ h => h) fun _ => ret_attentive _
    · exact ret_attentive _
  refine hensured.bind fun b => ?_
  split
  · exact ret_attentive ()
  · refine Prog.alike_same_bind rfl (fun _ _ h => h) fun info => ?_
    refine Prog.alike_same_bind ⟨rfl, hdest⟩ (fun _ _ h => h) fun r => ?_
    refine (orRaise_alike r).bind fun a => ?_
    split
    · exact raise_attentive _
    · refine Prog.alike_same_bind trivial (fun _ _ h => h) fun t => ?_
      exact Prog.alike_op (hset t) fun _ _ h => h

omit hdest in
theorem managerAndRoster_attentive (env : Envelope) :
    Attentive cfg k rid dest asks (managerAndRoster rid env) := by
  have hcached : Attentive cfg k rid dest asks (cachedRoster rid) := by
    refine Prog.alike_op_bind trivial fun m m' hm => ?_
    rw [← hm.rosters]
    split
    · refine Prog.alike_same_bind trivial (fun _ _ h => h) fun t => ?_
      split <;> exact ret_attentive _
    · exact ret_attentive _
  refine hcached.bind fun r => ?_
  split
  · exact ret_attentive _
  · refine Prog.alike_same_bind rfl (fun _ _ h => h) fun info => ?_
    unfold storedManager
    split
    · split
      · exact ret_attentive _
      · refine Prog.alike_same_bind trivial (fun _ _ h => h) fun t => ?_
        exact Prog.alike_same_bind rfl (fun _ _ h => h) fun _ => ret_attentive _
    · exact ret_attentive _

theorem remoteSend_attentive (env : Envelope) (hrid : env.sessionId.getD "" = rid) :
    Attentive cfg k rid dest asks (remoteSend cfg k host env) := by
  refine Prog.alike_same_bind ⟨rfl, hdest⟩ (fun _ _ h => h) fun r => ?_
  refine (orRaise_alike r).bind fun _ => ?_
  refine (checkCapability_attentive hdest).bind fun _ => ?_
  rw [hrid]
  refine (managerAndRoster_attentive env).bind fun mr => ?_
  refine (ensureRemoteSession_attentive hdest mr.1 mr.2).bind fun _ => ?_
  refine Prog.alike_same_bind ⟨rfl, hdest⟩ (fun _ _ h => h) fun r => ?_
  refine (orRaise_alike r).bind fun a => ?_
  split
  · exact raise_attentive _
  · exact ret_attentive ()

end Remote

theorem sendFirst_attentive (env : Envelope) (hrid : env.sessionId.getD "" = rid) :
    Attentive cfg k rid dest asks (sendFirst cfg k env dest) := by
  have hmark : Attentive cfg k rid dest asks (markDelivered k) := file_attentive _
  cases hdest : dest with
  | some host =>
    subst hdest
    refine (attempt_alike (remoteSend_attentive rfl env hrid)).bind fun r => ?_
    cases r with
    | ok u =>
      refine hmark.bind fun _ => Prog.alike_same_bind rfl (fun _ _ h => h) fun _ => ?_
      exact remember_attentive _
    | error text => exact (writeStatus_attentive _ text).bind fun _ => ret_attentive _
  | none =>
    subst hdest
    refine (attempt_alike (localSend_attentive env rfl)).bind fun r => ?_
    cases r with
    | ok u => exact hmark.bind fun _ => remember_attentive _
    | error text =>
      exact (writeStatus_attentive _ text).bind fun _ => stamp_attentive.bind fun _ =>
        ret_attentive _

end Methods

/-- **A delivery looks at nothing but its own entry, its receipt by message id, its
session and its host.** -/
theorem Post.attentive (cfg : Config) (d : Post) (asks : Prop) :
    Attentive cfg d.key d.remoteId (d.remote? cfg) asks (d.call cfg) := by
  have hrid : (d.env cfg).sessionId.getD "" = d.remoteId := by
    unfold Post.env stored
    split <;> rfl
  unfold Post.call deliver
  split
  · exact ret_attentive _
  · refine checkIdempotency_attentive.bind fun r => ?_
    cases r with
    | some cached => exact replay_attentive _ cached
    | none =>
      refine (attempt_alike (writeOutbox_attentive _)).bind fun r => ?_
      cases r with
      | ok u => exact (remember_attentive _).bind fun _ => sendFirst_attentive _ hrid
      | error text => exact remember_attentive _

/-! ## Two sites side by side -/

section Sites

variable {cfg : Config} {k : Key} {rid : String} {dest : Option HostSpec} {asks : Prop}
  {s₀ t₀ s t : Site} {o : Op} {c : Choice}

theorem opsSince_self (s : Site) : opsSince s s = [] := by
  rw [opsSince, List.drop_length, List.map_nil]

theorem opsSince_next (h : s₀.trace.length ≤ s.trace.length) :
    opsSince s₀ (s.next o c) = opsSince s₀ s ++ [o] := by
  rw [opsSince, opsSince, Site.trace_next, List.drop_append_of_le_length h, List.map_append]
  rfl

/-- The runs that began at `s₀` and `t₀` have left the same for the message `k`. -/
structure Level (k : Key) (s₀ t₀ s t : Site) : Prop where
  sessions : s.sessions = t.sessions
  entry : s.entry k = t.entry k
  draft : s.entry (tmpKey k) = t.entry (tmpKey k)
  past : s₀.trace.length ≤ s.trace.length
  past' : t₀.trace.length ≤ t.trace.length
  sent : (opsSince s₀ s).any (Op.isSend k) = (opsSince t₀ t).any (Op.isSend k)

theorem Level.start (hsessions : s.sessions = t.sessions) (hentry : s.entry k = t.entry k)
    (hdraft : s.entry (tmpKey k) = t.entry (tmpKey k)) : Level k s t s t := by
  refine ⟨hsessions, hentry, hdraft, le_refl _, le_refl _, ?_⟩
  rw [opsSince_self, opsSince_self]

/-- What the operation writes does not depend on the time. -/
def Op.Timeless (o : Op) : Prop :=
  ∀ k' f, o = .file k' f → ∀ n n' e, f.apply n e = f.apply n' e

theorem Op.Stamps.timeless (h : o.Stamps k) : o.Timeless := by
  rintro k' f rfl n n' e
  obtain ⟨_, env, rfl⟩ := h
  rfl

theorem Level.next (h : Level k s₀ t₀ s t) (ho : o.Concerns cfg k rid dest asks)
    (htime : s.clock = t.clock ∨ o.Timeless) :
    Level k s₀ t₀ (s.next o c) (t.next o c) := by
  have hentries : ∀ k', k' = k ∨ k' = tmpKey k → s.entry k' = t.entry k' := by
    intro k' hk'
    rcases hk' with rfl | rfl
    · exact h.entry
    · exact h.draft
  suffices hnew : ∀ k', k' = k ∨ k' = tmpKey k → (s.next o c).entry k' = (t.next o c).entry k' by
    refine ⟨?_, hnew _ (.inl rfl), hnew _ (.inr rfl), ?_, ?_, ?_⟩
    · rw [Site.sessions_next, Site.sessions_next, h.sessions]
    · rw [Site.trace_next, List.length_append]
      exact h.past.trans (Nat.le_add_right _ _)
    · rw [Site.trace_next, List.length_append]
      exact h.past'.trans (Nat.le_add_right _ _)
    · rw [opsSince_next h.past, opsSince_next h.past', List.any_append, List.any_append, h.sent]
  intro k' hk'
  have hsame := hentries k' hk'
  cases o with
  | file k'' f =>
    rw [Site.entry_next_file, Site.entry_next_file, hsame]
    by_cases heq : k' = k''
    · subst heq
      rw [if_pos rfl, if_pos rfl]
      rcases htime with htime | htime
      · rw [htime, hsame]
      · rw [htime k' f rfl _ (t.clock + c.delay), hsame]
    · rw [if_neg heq, if_neg heq]
  | openTmp k'' =>
    have hk : k'' = k := ho
    subst hk
    cases hfault : c.fault with
    | some text =>
      have hstep : ∀ u : Site, u.next (.openTmp k'') c = u.tick (.openTmp k'') c := by
        intro u
        rw [Site.next, Site.effect, hfault]
      rw [hstep, hstep]
      exact hsame
    | none =>
      have hstep : ∀ u : Site, u.next (.openTmp k'') c = (u.tick (.openTmp k'') c).setEntry
          (tmpKey k'') { u.entry (tmpKey k'') with envelope := some .torn } := by
        intro u
        rw [Site.next, Site.effect, hfault]
        rfl
      rw [hstep, hstep, Site.entry_setEntry, Site.entry_setEntry, h.draft, Site.entry_tick,
        Site.entry_tick, hsame]
  | publish k'' =>
    have hk : k'' = k := ho
    subst hk
    show (Site.publish _ _).entry k' = (Site.publish _ _).entry k'
    simp only [Site.publish, Site.entry_setEntry, Site.entry_tick, h.entry, h.draft, hsame]
  | _ => exact hsame

/-- The two sites look the same to a delivery. -/
structure Beside (cfg : Config) (k : Key) (rid : String) (dest : Option HostSpec) (asks : Prop)
    (s₀ t₀ s t : Site) : Prop where
  level : Level k s₀ t₀ s t
  clock : s.clock = t.clock
  mem : Looks cfg k rid dest asks s.mem t.mem

theorem update_same {α β : Type} [DecidableEq α] (f g : α → β) (a : α) (b : β) :
    Function.update f a b a = Function.update g a b a := by
  rw [Function.update_self, Function.update_self]

theorem Looks.update {m m' : Memory} {u : Update} (h : Looks cfg k rid dest asks m m')
    (hu : u.Concerns cfg k rid dest asks) :
    Looks cfg k rid dest asks (u.apply m) (u.apply m') := by
  cases u with
  | remember mid r =>
    have hmid : mid = k.2 := hu
    subst hmid
    exact ⟨update_same _ _ _ _, h.rosters, h.ensured, h.capabilities⟩
  | setRoster sid time roster =>
    have hsid : sid = rid := hu
    subst hsid
    exact ⟨h.cache, update_same _ _ _ _, h.ensured, h.capabilities⟩
  | setEnsured key time =>
    obtain ⟨host, hdest, rfl⟩ := hu
    refine ⟨h.cache, h.rosters, ?_, h.capabilities⟩
    intro host' hdest'
    rw [hdest] at hdest'
    cases hdest'
    exact update_same _ _ _ _
  | setCapabilities a caps =>
    obtain ⟨host, hdest, rfl, _, _⟩ := hu
    refine ⟨h.cache, h.rosters, h.ensured, ?_⟩
    intro _ host' hdest'
    rw [hdest] at hdest'
    cases hdest'
    refine ⟨update_same _ _ _ _, fun hnone => ?_⟩
    have hset : Function.update m.capabilities (aliasOf host) (some caps) (aliasOf host) =
        some caps := Function.update_self _ _ _
    exact absurd (hset.symm.trans hnone) (by simp)
  | _ => exact hu.elim

theorem Beside.next (h : Beside cfg k rid dest asks s₀ t₀ s t)
    (ho : o.Concerns cfg k rid dest asks) :
    Sees cfg k rid dest asks o ((s.tick o c).answer c o) ((t.tick o c).answer c o) ∧
      Beside cfg k rid dest asks s₀ t₀ (s.next o c) (t.next o c) := by
  have hclock : s.clock + c.delay = t.clock + c.delay := by rw [h.clock]
  refine ⟨?_, h.level.next ho (.inl h.clock), ?_, ?_⟩
  · cases o with
    | mem => exact h.mem
    | now => exact hclock
    | look k' =>
      have hk : k' = k := ho
      subst hk
      exact h.level.entry
    | readSession sid => exact congrFun h.level.sessions sid
    | sessions => exact ho.elim
    | glob _ _ => exact ho.elim
    | _ => rfl
  · rw [Site.clock_next, Site.clock_next, hclock]
  · rw [Site.mem_next, Site.mem_next]
    cases o with
    | upd u => exact h.mem.update ho
    | _ => exact h.mem

end Sites

/-! ## What a delivery leaves alone -/

section Spared

variable {cfg : Config} {k : Key} {rid : String} {dest : Option HostSpec} {s x : Site} {o : Op}
  {c : Choice}

/-- After some operations of a delivery: other sessions, other message ids and other
hosts are as they were at `s`, and so are capabilities that were known. -/
structure Spared (cfg : Config) (k : Key) (rid : String) (dest : Option HostSpec) (s x : Site) :
    Prop where
  sessions : x.sessions = s.sessions
  entry : ∀ k', k'.1 ≠ k.1 → x.entry k' = s.entry k'
  cache : ∀ mid, mid ≠ k.2 → x.mem.cache mid = s.mem.cache mid
  rosters : ∀ sid, sid ≠ rid → x.mem.rosters sid = s.mem.rosters sid
  ensured : ∀ key, key.1 ≠ rid → x.mem.ensured key = s.mem.ensured key
  capabilities : ∀ a, x.mem.capabilities a = s.mem.capabilities a ∨
    (s.mem.capabilities a = none ∧ cfg.router = true ∧ ∃ h, dest = some h ∧ a = aliasOf h)

theorem Spared.refl (s : Site) : Spared cfg k rid dest s s :=
  ⟨rfl, fun _ _ => rfl, fun _ _ => rfl, fun _ _ => rfl, fun _ _ => rfl, fun _ => .inl rfl⟩

/-- A delivery asks for the capabilities of its host if they were not known. -/
def Asks (dest : Option HostSpec) (s : Site) : Prop :=
  ∀ h, dest = some h → s.mem.capabilities (aliasOf h) = none

theorem Op.Concerns.entry_next {asks : Prop} (ho : o.Concerns cfg k rid dest asks) {k' : Key}
    (hk' : k'.1 ≠ k.1) : (x.next o c).entry k' = x.entry k' := by
  have hne : k' ≠ k := fun h => hk' (congrArg Prod.fst h)
  have hne' : k' ≠ tmpKey k := fun h => hk' (by rw [h]; rfl)
  cases o with
  | file k'' f =>
    have hk'' : k' ≠ k'' := by
      rcases ho with rfl | rfl
      · exact hne
      · exact hne'
    rw [Site.entry_next_file, if_neg hk'']
  | openTmp k'' =>
    have hk : k'' = k := ho
    subst hk
    rw [Site.next, Site.effect]
    split
    · rw [Site.entry_setEntry_ne _ _ hne', Site.entry_tick]
    · rfl
  | publish k'' =>
    have hk : k'' = k := ho
    subst hk
    show (Site.publish _ _).entry k' = _
    rw [Site.publish, Site.entry_setEntry_ne _ _ hne, Site.entry_setEntry_ne _ _ hne',
      Site.entry_tick]
  | _ => rfl

theorem Spared.next (h : Spared cfg k rid dest s x)
    (ho : o.Concerns cfg k rid dest (Asks dest s)) : Spared cfg k rid dest s (x.next o c) := by
  have hentry : ∀ k', k'.1 ≠ k.1 → (x.next o c).entry k' = s.entry k' := fun k' hk' =>
    (ho.entry_next hk').trans (h.entry k' hk')
  have hsessions : (x.next o c).sessions = s.sessions :=
    (Site.sessions_next o c).trans h.sessions
  have hmem := Site.mem_next (s := x) o c
  cases o with
  | upd u =>
    have hu : u.Concerns cfg k rid dest (Asks dest s) := ho
    have happly : (x.next (.upd u) c).mem = u.apply x.mem := hmem
    cases u with
    | remember mid r =>
      have hmid : mid = k.2 := hu
      subst hmid
      exact ⟨hsessions, hentry,
        fun mid hne => (Function.update_of_ne hne _ _).trans (h.cache mid hne),
        h.rosters, h.ensured, h.capabilities⟩
    | setRoster sid time roster =>
      have hsid : sid = rid := hu
      subst hsid
      exact ⟨hsessions, hentry, h.cache,
        fun sid hne => (Function.update_of_ne hne _ _).trans (h.rosters sid hne),
        h.ensured, h.capabilities⟩
    | setEnsured key time =>
      obtain ⟨host, hdest, rfl⟩ := hu
      refine ⟨hsessions, hentry, h.cache, h.rosters, fun key hne => ?_, h.capabilities⟩
      have hkey : key ≠ (rid, aliasOf host) := fun heq => hne (congrArg Prod.fst heq)
      exact (Function.update_of_ne hkey _ _).trans (h.ensured key hne)
    | setCapabilities a caps =>
      obtain ⟨host, hdest, rfl, hasks, hrouter⟩ := hu
      refine ⟨hsessions, hentry, h.cache, h.rosters, h.ensured, fun a => ?_⟩
      by_cases ha : a = aliasOf host
      · subst ha
        exact .inr ⟨hasks host hdest, hrouter, host, hdest, rfl⟩
      · rcases h.capabilities a with hsame | hasked
        · exact .inl ((Function.update_of_ne ha _ _).trans hsame)
        · exact .inr hasked
    | _ => exact hu.elim
  | _ =>
    refine ⟨hsessions, hentry, ?_, ?_, ?_, ?_⟩ <;> rw [hmem]
    · exact h.cache
    · exact h.rosters
    · exact h.ensured
    · exact h.capabilities

theorem Spared.looks (h : Spared cfg k rid dest s x) :
    Looks cfg k rid dest (Asks dest s) x.mem x.mem := by
  refine ⟨rfl, rfl, fun _ _ => rfl, fun _ host hdest => ⟨rfl, fun hnone => ?_⟩⟩
  intro host' hdest'
  rw [hdest] at hdest'
  cases hdest'
  rcases h.capabilities (aliasOf host) with hsame | hasked
  · exact hsame.symm.trans hnone
  · exact hasked.1

/-- **What a delivery leaves alone.** -/
theorem Post.spared {d : Post} {env : Op → Choice} {r : Except String SendReceipt}
    (h : (d.call cfg).play world 0 env s = some (r, x)) :
    Spared cfg d.key d.remoteId (d.remote? cfg) s x := by
  have hstep : ∀ o y, Op.Concerns cfg d.key d.remoteId (d.remote? cfg) (Asks (d.remote? cfg) s) o →
      Spared cfg d.key d.remoteId (d.remote? cfg) s y →
      ∃ a y₁, world.perform 0 o (env o) y = some (a, y₁) ∧
        Sees cfg d.key d.remoteId (d.remote? cfg) (Asks (d.remote? cfg) s) o a a ∧
        Spared cfg d.key d.remoteId (d.remote? cfg) s y₁ := by
    intro o y ho hy
    refine ⟨_, _, rfl, ?_, hy.next ho⟩
    cases o with
    | mem => exact hy.looks
    | _ => rfl
  obtain ⟨r', x', hplay, hspared⟩ := (d.attentive cfg _).play_self hstep (Spared.refl s)
  rw [h] at hplay
  cases hplay
  exact hspared

end Spared

/-! ## A message that is known -/

section Known

variable {cfg : Config} {d : Post} {env : Op → Choice} {s : Site} {r : SendReceipt}

theorem remember_apply {m : Memory} {mid : String} (h : m.cache mid = some r) :
    (Update.remember mid r).apply m = m := by
  rw [Update.apply, ← h, Function.update_eq_self]

theorem Post.call_eq (cfg : Config) (hmid : d.envelope.msgId ≠ "") :
    d.call cfg = checkIdempotency d.key >>= fun r => match r with
      | some cached => replay d.key (d.env cfg) cached
      | none => accept cfg d.key (d.env cfg) (d.remote? cfg) := by
  unfold Post.call deliver
  exact if_neg hmid

/-- What checking a known message leaves. -/
structure Checked (k : Key) (r : SendReceipt) (s s' : Site) : Prop where
  entries : s'.entries = s.entries
  sessions : s'.sessions = s.sessions
  mem : s'.mem = (Update.remember k.2 r).apply s.mem
  past : s.trace.length ≤ s'.trace.length
  sent : (opsSince s s').any (Op.isSend k) = false

theorem play_idempotency {α : Type} {k : Key} {f : Option SendReceipt → Call α} :
    (checkIdempotency k >>= f).play world 0 env s =
      match s.mem.cache k.2 with
      | some r => (f (some r)).play world 0 env (s.next .mem (env .mem))
      | none => ((if (s.entry k).envelope.isNone then Prog.ret none
          else if (s.entry k).delivered.isSome then
            remember k.2 ⟨.delivered, k.2, "", false⟩ >>= fun r => Prog.ret (some r)
          else remember k.2 ⟨.accepted, k.2, "", true⟩ >>= fun r => Prog.ret (some r)) >>=
        f).play world 0 env ((s.next .mem (env .mem)).next (.look k) (env (.look k))) := by
  have hmem : (checkIdempotency k >>= f).play world 0 env s =
      ((match s.mem.cache k.2 with
        | some r => Prog.ret (some r)
        | none => look k >>= fun e =>
          if e.envelope.isNone then Prog.ret none
          else if e.delivered.isSome then
            remember k.2 ⟨.delivered, k.2, "", false⟩ >>= fun r => Prog.ret (some r)
          else remember k.2 ⟨.accepted, k.2, "", true⟩ >>= fun r => Prog.ret (some r)) >>=
        f).play world 0 env (s.next .mem (env .mem)) := rfl
  rw [hmem]
  cases s.mem.cache k.2 <;> rfl

theorem play_checkIdempotency {α : Type} {k : Key} {f : Option SendReceipt → Call α}
    (h : known s k = some r) :
    ∃ s', (checkIdempotency k >>= f).play world 0 env s = (f (some r)).play world 0 env s' ∧
      Checked k r s s' := by
  have hlen {y : Site} {o : Op} {c : Choice} : y.trace.length ≤ (y.next o c).trace.length := by
    rw [Site.trace_next, List.length_append]
    exact Nat.le_add_right _ _
  rw [play_idempotency]
  unfold known at h
  cases hcache : s.mem.cache k.2 with
  | some cached =>
    rw [hcache] at h
    have hr : cached = r := Option.some.inj h
    subst hr
    refine ⟨s.next .mem (env .mem), rfl, rfl, rfl, (remember_apply hcache).symm, hlen, ?_⟩
    rw [opsSince_next (le_refl _), opsSince_self]
    rfl
  | none =>
    rw [hcache] at h
    have hchecked : Checked k r s (((s.next .mem (env .mem)).next (.look k) (env (.look k))).next
        (.upd (.remember k.2 r)) (env (.upd (.remember k.2 r)))) := by
      refine ⟨rfl, rfl, rfl, (hlen.trans hlen).trans hlen, ?_⟩
      rw [opsSince_next (hlen.trans hlen), opsSince_next hlen, opsSince_next (le_refl _),
        opsSince_self]
      rfl
    cases henv : (s.entry k).envelope.isNone with
    | true =>
      rw [henv] at h
      cases h
    | false =>
      rw [henv] at h
      cases hmark : (s.entry k).delivered.isSome with
      | true =>
        rw [hmark] at h
        have hr : (⟨.delivered, k.2, "", false⟩ : SendReceipt) = r := Option.some.inj h
        subst hr
        exact ⟨_, rfl, hchecked⟩
      | false =>
        rw [hmark] at h
        have hr : (⟨.accepted, k.2, "", true⟩ : SendReceipt) = r := Option.some.inj h
        subst hr
        exact ⟨_, rfl, hchecked⟩

theorem play_known (cfg : Config) (env : Op → Choice) (hmid : d.envelope.msgId ≠ "")
    (h : known s d.key = some r) :
    ∃ s', (d.call cfg).play world 0 env s =
        (replay d.key (d.env cfg) r).play world 0 env s' ∧ Checked d.key r s s' := by
  rw [d.call_eq cfg hmid]
  exact play_checkIdempotency h

theorem replay_mem {e : Envelope} {k : Key} {t : Site} {x : Except String SendReceipt}
    (h : (replay k e r).play world 0 env s = some (x, t)) : t.mem = s.mem := by
  have hstep : ∀ o y, Op.Stamps k o → y.mem = s.mem → ∃ a y₁,
      world.perform 0 o (env o) y = some (a, y₁) ∧ a = a ∧ y₁.mem = s.mem := by
    intro o y ho hy
    refine ⟨_, _, rfl, rfl, ?_⟩
    show (y.next o (env o)).mem = _
    rw [Site.mem_next]
    cases o with
    | upd u => exact ho.elim
    | _ => exact hy
  obtain ⟨x', t', hplay, hmem⟩ := (replay_stamps e r).play_self hstep rfl
  rw [h] at hplay
  cases hplay
  exact hmem

theorem known_mem {t : Site} {x : Except String SendReceipt} (hmid : d.envelope.msgId ≠ "")
    (h : known s d.key = some r) (hplay : (d.call cfg).play world 0 env s = some (x, t)) :
    t.mem = (Update.remember d.key.2 r).apply s.mem := by
  obtain ⟨s', hsame, hchecked⟩ := play_known cfg env hmid h
  rw [hsame] at hplay
  exact (replay_mem hplay).trans hchecked.mem

theorem shown_known {t : Site} (hmid : d.envelope.msgId ≠ "") (hs : known s d.key = some r)
    (ht : known t d.key = some r) (hsessions : s.sessions = t.sessions)
    (hentry : s.entry d.key = t.entry d.key)
    (hdraft : s.entry (tmpKey d.key) = t.entry (tmpKey d.key)) :
    d.shown cfg env s = d.shown cfg env t := by
  obtain ⟨s', hplay, hchecked⟩ := play_known cfg env hmid hs
  obtain ⟨t', hplay', hchecked'⟩ := play_known cfg env hmid ht
  have hentries {y y' : Site} (h : y'.entries = y.entries) (k : Key) : y'.entry k = y.entry k :=
    congrArg (fun e => e.get k) h
  have hlevel : Level d.key s t s' t' := by
    refine ⟨?_, ?_, ?_, hchecked.past, hchecked'.past, hchecked.sent.trans hchecked'.sent.symm⟩
    · rw [hchecked.sessions, hchecked'.sessions, hsessions]
    · rw [hentries hchecked.entries, hentries hchecked'.entries, hentry]
    · rw [hentries hchecked.entries, hentries hchecked'.entries, hdraft]
  have hstep : ∀ o y z, Op.Stamps d.key o → Level d.key s t y z → ∃ a y₁ a' z₁,
      world.perform 0 o (env o) y = some (a, y₁) ∧ world.perform 0 o (env o) z = some (a', z₁) ∧
      a = a' ∧ Level d.key s t y₁ z₁ := by
    intro o y z ho hyz
    have hconcerns : o.Concerns cfg d.key "" none False := ho.concerns
    have hnext := hyz.next (c := env o) hconcerns (.inr ho.timeless)
    refine ⟨_, _, _, _, rfl, rfl, ?_, hnext⟩
    cases o with
    | look k =>
      have hk : k = d.key := ho
      subst hk
      exact hyz.entry
    | file _ _ => rfl
    | openTmp _ => rfl
    | publish _ => rfl
    | _ => exact ho.elim
  obtain ⟨x, y, z, hy, hz, hyz⟩ := Prog.Alike.play hstep (replay_stamps (d.env cfg) r) hlevel
  rw [Post.shown, Post.shown, hplay, hplay', hy, hz, Option.map_some, Option.map_some, hyz.entry,
    hyz.sent]

end Known

/-! ## Independence -/

section Independence

variable {cfg : Config} {s : Site} {d₁ d₂ : Post}

/-- Messages with the same id are known already, by the same receipt. -/
def ReceiptKept (s : Site) (d₁ d₂ : Post) : Prop :=
  d₁.key.2 = d₂.key.2 → d₂.key.2 = "" ∨
    known s d₁.key ≠ none ∧ known s d₁.key = known s d₂.key

/-- Two new messages do not go to one host whose capabilities are not known yet. -/
def HostKept (cfg : Config) (s : Site) (d₁ d₂ : Post) : Prop :=
  d₁.key.2 ≠ "" → d₂.key.2 ≠ "" → known s d₁.key = none → known s d₂.key = none →
    cfg.router = true → ∀ h₁ h₂, d₁.remote? cfg = some h₁ → d₂.remote? cfg = some h₂ →
      aliasOf h₁ = aliasOf h₂ → s.mem.capabilities (aliasOf h₁) ≠ none

variable {d : Post} {t : Site} {k : Key} {r : SendReceipt}

theorem Post.mid_ne (h : d.key.2 ≠ "") : d.envelope.msgId ≠ "" := h

theorem play_unnamed {env : Op → Choice} (h : d.key.2 = "") : (d.call cfg).play world 0 env t =
      some (.ok ⟨.failed, "", "envelope missing msg_id", false⟩, t) := by
  have hcall : d.call cfg =
      Prog.ret ⟨.failed, "", "envelope missing msg_id", false⟩ := by
    unfold Post.call deliver
    exact if_pos h
  rw [hcall]
  rfl

theorem known_congr (hcache : t.mem.cache k.2 = s.mem.cache k.2)
    (hentry : t.entry k = s.entry k) : known t k = known s k := by
  rw [known, known, hcache, hentry]

theorem known_of_cache (h : t.mem.cache k.2 = some r) : known t k = some r := by
  rw [known, h]

theorem independent_of_kept (hkey : d₁.key.1 ≠ d₂.key.1) (hremote : d₁.remoteId ≠ d₂.remoteId)
    (hreceipt : ReceiptKept s d₁ d₂) (hhost : HostKept cfg s d₁ d₂) :
    Independent cfg s d₁ d₂ := by
  intro env₁ env₂ r₁ s₁ hplay
  have hspared := Post.spared hplay
  have hentry : s₁.entry d₂.key = s.entry d₂.key := hspared.entry _ hkey.symm
  have hdraft : s₁.entry (tmpKey d₂.key) = s.entry (tmpKey d₂.key) := hspared.entry _ hkey.symm
  by_cases hmid₂ : d₂.key.2 = ""
  · rw [Post.shown, Post.shown, play_unnamed hmid₂, play_unnamed hmid₂, Option.map_some,
      Option.map_some, opsSince_self, opsSince_self, hentry]
    rfl
  by_cases hmid₁ : d₁.key.2 = ""
  · rw [play_unnamed hmid₁] at hplay
    cases hplay
    rfl
  cases hknown₂ : known s d₂.key with
  | some r =>
    have hknown : known s₁ d₂.key = some r := by
      by_cases hsame : d₁.key.2 = d₂.key.2
      · rcases hreceipt hsame with hno | ⟨_, heq⟩
        · exact absurd hno hmid₂
        · have hmem := known_mem (Post.mid_ne hmid₁) (heq.trans hknown₂) hplay
          refine known_of_cache ?_
          rw [hmem, Update.apply, ← hsame]
          exact Function.update_self _ _ _
      · exact (known_congr (hspared.cache _ (Ne.symm hsame)) hentry).trans hknown₂
    exact shown_known (Post.mid_ne hmid₂) hknown hknown₂ hspared.sessions hentry hdraft
  | none =>
    have hmids : d₁.key.2 ≠ d₂.key.2 := by
      intro hsame
      rcases hreceipt hsame with hno | ⟨hsome, heq⟩
      · exact hmid₂ hno
      · exact hsome (heq.trans hknown₂)
    have hlooks : Looks cfg d₂.key d₂.remoteId (d₂.remote? cfg) True s₁.mem s.mem := by
      refine ⟨hspared.cache _ hmids.symm, hspared.rosters _ hremote.symm,
        fun h _ => hspared.ensured _ hremote.symm, fun hrouter h₂ hdest₂ => ⟨?_, fun _ => trivial⟩⟩
      rcases hspared.capabilities (aliasOf h₂) with hsame | ⟨hnone, _, h₁, hdest₁, halias⟩
      · exact hsame
      · cases hknown₁ : known s d₁.key with
        | some r => rw [known_mem (Post.mid_ne hmid₁) hknown₁ hplay, Update.apply]
        | none =>
          rw [halias] at hnone
          exact absurd hnone
            (hhost hmid₁ hmid₂ hknown₁ hknown₂ hrouter h₁ h₂ hdest₁ hdest₂ halias.symm)
    have hbeside : Beside cfg d₂.key d₂.remoteId (d₂.remote? cfg) True s₁
        { s with clock := s₁.clock } s₁ { s with clock := s₁.clock } :=
      ⟨.start hspared.sessions hentry hdraft, rfl, hlooks⟩
    have hstep : ∀ o y z, Op.Concerns cfg d₂.key d₂.remoteId (d₂.remote? cfg) True o →
        Beside cfg d₂.key d₂.remoteId (d₂.remote? cfg) True s₁ { s with clock := s₁.clock } y z →
        ∃ a y₁ a' z₁, world.perform 0 o (env₂ o) y = some (a, y₁) ∧
          world.perform 0 o (env₂ o) z = some (a', z₁) ∧
          Sees cfg d₂.key d₂.remoteId (d₂.remote? cfg) True o a a' ∧
          Beside cfg d₂.key d₂.remoteId (d₂.remote? cfg) True s₁ { s with clock := s₁.clock }
            y₁ z₁ := by
      intro o y z ho hyz
      exact ⟨_, _, _, _, rfl, rfl, hyz.next ho⟩
    obtain ⟨r, y, z, hy, hz, hyz⟩ := (d₂.attentive cfg True).play hstep hbeside
    rw [Post.shown, Post.shown, hy, hz, Option.map_some, Option.map_some, hyz.level.entry,
      hyz.level.sent]

/-! ### What the caches tell the second call -/

/-- No condition on the sites of a run. -/
abbrev Anywhere : Site → Prop := fun _ => True

theorem replay_returns {P : Choice → Prop} {e : Envelope}
    (h : (s.entry k).envelope = none ∨ ∀ c, P c → c.fault = none) :
    (replay k e r).Total world 0 P Anywhere s fun x _ => x = .ok r := by
  have hstamp : (stampOutboxTargetHost k).Total world 0 P Anywhere s fun x _ => x = .ok () := by
    refine op_total trivial fun c hc => ?_
    have hlook : ((s.tick (.look k) c).answer c (.look k)).envelope = (s.entry k).envelope := rfl
    rw [hlook]
    split
    · next env henv =>
      split
      · exact Prog.total_ret trivial rfl
      · refine op_total trivial fun c' hc' => ?_
        have hok : ((s.next (.look k) c).tick (.openTmp k) c').answer c' (.openTmp k) = .ok () := by
          have hfault : c'.fault = none := by
            rcases h with h | h
            · rw [h] at henv
              cases henv
            · exact h c' hc'
          rw [Site.answer, hfault]
        rw [hok]
        refine op_total trivial fun c'' hc'' => ?_
        exact last_total trivial fun _ _ => ⟨trivial, rfl⟩
    · exact Prog.total_ret trivial rfl
  unfold replay
  split
  · refine hstamp.bind ?_ ?_
    · intro a t _ _
      exact Prog.total_ret trivial rfl
    · intro text t _ hx
      cases hx
  · exact Prog.total_ret trivial rfl

theorem shown_receipt (cfg : Config) {c : Choice} (hmid : d.envelope.msgId ≠ "")
    (h : known s d.key = some r) (hc : (s.entry d.key).envelope = none ∨ c.fault = none) :
    ∃ x t, (d.call cfg).play world 0 (fun _ => c) s = some (x, t) ∧
      (d.shown cfg (fun _ => c) s).map Shown.receipt = some (.ok r) := by
  obtain ⟨s', hplay, hchecked⟩ := play_known cfg (fun _ => c) hmid h
  have hentry : s'.entry d.key = s.entry d.key := congrArg (fun e => e.get d.key) hchecked.entries
  have htotal : (replay d.key (d.env cfg) r).Total world 0 (fun c' => c' = c) Anywhere s'
      fun x _ => x = .ok r := by
    refine replay_returns ?_
    rcases hc with hc | hc
    · exact .inl (hentry ▸ hc)
    · refine .inr fun c' hc' => ?_
      rw [hc', hc]
  obtain ⟨x, t, hx, _, rfl⟩ : ∃ x t, (replay d.key (d.env cfg) r).play world 0 (fun _ => c) s' =
      some (x, t) ∧ Anywhere t ∧ x = .ok r := htotal.play fun _ => rfl
  refine ⟨.ok r, t, hplay.trans hx, ?_⟩
  rw [Post.shown, hplay, hx]
  rfl

theorem absent_of_unknown (h : known s k = none) :
    s.mem.cache k.2 = none ∧ (s.entry k).envelope = none := by
  unfold known at h
  cases hcache : s.mem.cache k.2 with
  | some r =>
    rw [hcache] at h
    cases h
  | none =>
    rw [hcache] at h
    cases henv : (s.entry k).envelope with
    | none => exact ⟨rfl, rfl⟩
    | some e =>
      rw [henv] at h
      cases hmark : (s.entry k).delivered.isSome <;>
      · rw [hmark] at h
        cases h

theorem play_unknown {α : Type} {f : Option SendReceipt → Call α} {env : Op → Choice}
    (h : known s k = none) : (checkIdempotency k >>= f).play world 0 env s =
      (f none).play world 0 env ((s.next .mem (env .mem)).next (.look k) (env (.look k))) := by
  rw [play_idempotency, (absent_of_unknown h).1]
  dsimp only
  rw [if_pos (by rw [(absent_of_unknown h).2]; rfl)]
  rfl

theorem status_of_known (hcache : s.mem.cache k.2 = none)
    (h : known s k = some r) : r.status ≠ .failed := by
  rw [known, hcache] at h
  split at h
  · next h' => cases h'
  · split at h
    · cases h
    · split at h <;>
      · cases h
        simp

/-- No file can be created. -/
def faulty (text : String) : Choice := { fault := some text }

/-- The receipt of a message that cannot be written. -/
def refusal (text : String) : SendReceipt := ⟨.failed, "", text, false⟩

theorem shown_refused (cfg : Config) (text : String) (hmid : d.envelope.msgId ≠ "")
    (h : known s d.key = none) :
    ∃ x t, (d.call cfg).play world 0 (fun _ => faulty text) s = some (x, t) ∧
      t.mem.cache d.key.2 = some (refusal text) ∧
      (d.shown cfg (fun _ => faulty text) s).map Shown.receipt =
        some (.ok (refusal text)) := by
  obtain ⟨_, henv⟩ := absent_of_unknown h
  have htotal : ∀ y : Site, (y.entry d.key).envelope = none →
      (accept cfg d.key (d.env cfg) (d.remote? cfg)).Total world 0
        (fun c => c = faulty text) Anywhere y
        fun x t => x = .ok (refusal text) ∧ t.mem.cache d.key.2 = some (refusal text) := by
    intro y hy
    have hwrite : (writeOutbox d.key (d.env cfg)).Total world 0
        (fun c => c = faulty text) Anywhere y fun x _ => x = .error text := by
      refine op_total trivial fun c _ => ?_
      show (if (y.entry d.key).envelope.isSome then (Prog.ret () : Call Unit) else _).Total
        world 0 _ Anywhere _ _
      rw [hy]
      refine op_total trivial fun c' hc' => ?_
      subst hc'
      exact Prog.total_raise trivial rfl
    refine attempt_bind_total hwrite fun x t _ hx => ?_
    subst hx
    refine op_total trivial fun c _ => Prog.total_ret trivial ⟨rfl, ?_⟩
    exact Function.update_self _ _ _
  obtain ⟨x, t, hx, _, rfl, hcache⟩ : ∃ x t, (accept cfg d.key (d.env cfg) (d.remote? cfg)).play
      world 0 (fun _ => faulty text)
        ((s.next .mem (faulty text)).next (.look d.key) (faulty text)) = some (x, t) ∧
        Anywhere t ∧ x = .ok (refusal text) ∧
        t.mem.cache d.key.2 = some (refusal text) :=
    (htotal ((s.next .mem (faulty text)).next (.look d.key) (faulty text)) henv).play fun _ => rfl
  have hplay : (d.call cfg).play world 0 (fun _ => faulty text) s =
      some (.ok (refusal text), t) := by
    rw [d.call_eq cfg hmid, play_unknown h]
    exact hx
  refine ⟨_, t, hplay, hcache, ?_⟩
  rw [Post.shown, hplay]
  rfl

theorem receiptKept_of_independent (hkey : d₁.key.1 ≠ d₂.key.1) (h : Independent cfg s d₁ d₂) :
    ReceiptKept s d₁ d₂ := by
  intro hsame
  by_cases hmid : d₂.key.2 = ""
  · exact .inl hmid
  have hmid₂ : d₂.envelope.msgId ≠ "" := hmid
  have hmid₁ : d₁.envelope.msgId ≠ "" := fun hno => hmid (hsame.symm.trans hno)
  -- what the first call leaves in the cache is the receipt that the second one shows
  have hcalls {c₁ c₂ : Choice} {x : Except String SendReceipt} {s₁ : Site} {r₁ r₂ : SendReceipt}
      (hplay : (d₁.call cfg).play world 0 (fun _ => c₁) s = some (x, s₁))
      (hcache : s₁.mem.cache d₁.key.2 = some r₁)
      (hc : (s.entry d₂.key).envelope = none ∨ c₂.fault = none)
      (halone : (d₂.shown cfg (fun _ => c₂) { s with clock := s₁.clock }).map Shown.receipt =
        some (.ok r₂)) : r₁ = r₂ := by
    have hentry : s₁.entry d₂.key = s.entry d₂.key := (Post.spared hplay).entry _ hkey.symm
    rw [← hentry] at hc
    have hknown : known s₁ d₂.key = some r₁ := known_of_cache (hsame ▸ hcache)
    obtain ⟨_, _, _, hshown⟩ := shown_receipt cfg hmid₂ hknown hc
    rw [h _ _ _ _ hplay, halone] at hshown
    cases hshown
    rfl
  -- alone, the second call shows what is known of its message, or fails
  have hbusy : ∀ {n : ℕ} {r₂ : SendReceipt}, known s d₂.key = some r₂ →
      (d₂.shown cfg (fun _ => ({} : Choice)) { s with clock := n }).map Shown.receipt =
        some (.ok r₂) := by
    intro n r₂ hknown₂
    obtain ⟨_, _, _, hshown⟩ := shown_receipt cfg (s := { s with clock := n }) (c := {}) hmid₂
      hknown₂ (.inr rfl)
    exact hshown
  have hfail : ∀ {n : ℕ}, known s d₂.key = none →
      (d₂.shown cfg (fun _ => faulty "b") { s with clock := n }).map Shown.receipt =
        some (.ok (refusal "b")) := by
    intro n hknown₂
    obtain ⟨_, _, _, _, hshown⟩ := shown_refused cfg (s := { s with clock := n }) "b" hmid₂ hknown₂
    exact hshown
  right
  cases hknown₁ : known s d₁.key with
  | none =>
    obtain ⟨x, s₁, hplay, hcache, _⟩ := shown_refused cfg "a" hmid₁ hknown₁
    cases hknown₂ : known s d₂.key with
    | none =>
      have heq := hcalls hplay hcache (.inl (absent_of_unknown hknown₂).2) (hfail hknown₂)
      exact absurd (congrArg SendReceipt.error heq) (by decide)
    | some r₂ =>
      have heq := hcalls hplay hcache (.inr rfl) (hbusy hknown₂)
      have hstatus := status_of_known (hsame ▸ (absent_of_unknown hknown₁).1) hknown₂
      exact absurd (congrArg SendReceipt.status heq).symm hstatus
  | some r₁ =>
    obtain ⟨x, s₁, hplay, _⟩ := shown_receipt cfg (c := {}) hmid₁ hknown₁ (.inr rfl)
    have hcache : s₁.mem.cache d₁.key.2 = some r₁ := by
      rw [known_mem hmid₁ hknown₁ hplay]
      exact Function.update_self _ _ _
    cases hknown₂ : known s d₂.key with
    | none =>
      obtain ⟨hnone, habsent⟩ := absent_of_unknown hknown₂
      have heq := hcalls hplay hcache (.inl habsent) (hfail hknown₂)
      have hstatus := status_of_known (hsame.symm ▸ hnone) hknown₁
      exact absurd (congrArg SendReceipt.status heq) hstatus
    | some r₂ =>
      have heq := hcalls hplay hcache (.inr rfl) (hbusy hknown₂)
      rw [heq]
      exact ⟨fun hno => (by cases hno), rfl⟩

/-! ### What a new host tells the second call -/

theorem aliasOf_ne {target : Dest} {h : HostSpec} (hremote : target.remote? cfg = some h) :
    aliasOf h ≠ "" := by
  cases target with
  | agent name => cases hremote
  | host h' =>
    have hremote : (if h'.sshAlias = "" || resolveIsLocal cfg.hostname h' then none else some h') =
        some h := hremote
    by_cases hlocal : (h'.sshAlias = "" || resolveIsLocal cfg.hostname h') = true
    · rw [if_pos hlocal] at hremote
      cases hremote
    · rw [if_neg hlocal] at hremote
      cases hremote
      have hne : h.sshAlias ≠ "" := fun hno => hlocal (by rw [hno]; rfl)
      rw [aliasOf, if_neg hne]
      exact hne

/-- What is known of a host while a message goes there, and whether it was sent. -/
structure Stage (s₀ : Site) (k : Key) (a : String) (v : Option (List String)) (b : Bool)
    (y : Site) : Prop where
  past : s₀.trace.length ≤ y.trace.length
  capabilities : y.mem.capabilities a = v
  sent : (opsSince s₀ y).any (Op.isSend k) = b

/-- An operation that neither sends a message nor learns what a host can do. -/
def Op.Quietly : Op → Prop
  | .mailbox _ _ _ => False
  | .localMailbox _ _ => False
  | .upd (.setCapabilities _ _) => False
  | _ => True

section Stage

variable {s₀ y : Site} {k : Key} {a : String} {v : Option (List String)} {b : Bool} {o : Op}
  {c : Choice} {host : HostSpec} {α : Type}

theorem Stage.past_next (h : Stage s₀ k a v b y) : s₀.trace.length ≤ (y.next o c).trace.length := by
  rw [Site.trace_next, List.length_append]
  exact h.past.trans (Nat.le_add_right _ _)

theorem Stage.sent_next (h : Stage s₀ k a v b y) :
    (opsSince s₀ (y.next o c)).any (Op.isSend k) = (b || o.isSend k) := by
  rw [opsSince_next h.past, List.any_append, h.sent]
  simp

theorem Stage.quietly (h : Stage s₀ k a v b y) (ho : o.Quietly) :
    Stage s₀ k a v b (y.next o c) := by
  refine ⟨h.past_next, ?_, ?_⟩
  · rw [Site.mem_next]
    cases o with
    | upd u =>
      cases u with
      | setCapabilities _ _ => exact ho.elim
      | _ => exact h.capabilities
    | _ => exact h.capabilities
  · have hno : o.isSend k = false := by
      cases o with
      | mailbox _ _ _ => exact ho.elim
      | localMailbox _ _ => exact ho.elim
      | _ => rfl
    rw [h.sent_next, hno, Bool.or_false]

theorem Stage.learn (h : Stage s₀ k a v b y) (caps : List String) :
    Stage s₀ k a (some caps) b (y.next (.upd (.setCapabilities a caps)) c) :=
  ⟨h.past_next, Function.update_self _ _ _, by rw [h.sent_next]; exact Bool.or_false b⟩

variable {P : Choice → Prop} {e : Envelope}

theorem quietly_total {p : Call α} (hp : p.Bounded Op.Quietly)
    (h : Stage s₀ k a v b y) : p.Total world 0 P Anywhere y fun _ t => Stage s₀ k a v b t :=
  (bounded_total (J := Stage s₀ k a v b) hp (fun _ _ _ ho _ hy => hy.quietly ho) h).mono
    (fun _ _ => trivial) fun _ _ _ ht => ht

theorem writeOutbox_quietly (hP : ∀ c, P c → c.fault = none) (h : Stage s₀ k a v b y) :
    (writeOutbox k e).Total world 0 P Anywhere y fun r t => r = .ok () ∧ Stage s₀ k a v b t := by
  refine op_total trivial fun c _ => ?_
  have h₁ := h.quietly (o := .look k) (c := c) trivial
  split
  · exact Prog.total_ret trivial ⟨rfl, h₁⟩
  · refine op_total trivial fun c' hc' => ?_
    have h₂ := h₁.quietly (o := .openTmp k) (c := c') trivial
    have hok : ((y.next (.look k) c).tick (.openTmp k) c').answer c' (.openTmp k) = .ok () := by
      rw [Site.answer, hP c' hc']
    rw [hok]
    refine op_total trivial fun c'' _ => last_total trivial fun c₃ _ => ⟨trivial, rfl, ?_⟩
    have h₃ := h₂.quietly (o := .file (tmpKey k) (.putEnvelope e)) (c := c'') trivial
    exact h₃.quietly trivial

theorem accept_stage {P : Choice → Prop} {e : Envelope} {v' : Option (List String)} {b' : Bool}
    (hP : ∀ c, P c → c.fault = none)
    (hsend : ∀ y, Stage s₀ k a v b y → (remoteSend cfg k host e).Total world 0 P Anywhere y
      fun _ t => Stage s₀ k a v' b' t)
    (h : Stage s₀ k a v b y) :
    (accept cfg k e (some host)).Total world 0 P Anywhere y fun _ t => Stage s₀ k a v' b' t := by
  refine attempt_bind_total (writeOutbox_quietly hP h) fun r t _ hr => ?_
  obtain ⟨rfl, ht⟩ := hr
  refine op_total trivial fun c _ => ?_
  refine attempt_bind_total (hsend _ (ht.quietly trivial)) fun r t' _ ht' => ?_
  have hreports : ∀ o, Op.Reports k o → o.Quietly := by
    intro o ho
    cases o with
    | file _ _ => trivial
    | now => trivial
    | _ => exact ho.elim
  have hremember (r : SendReceipt) : (remember k.2 r).Bounded Op.Quietly :=
    remember_bounded trivial
  cases r with
  | ok u =>
    have hrest : (markDelivered k >>= fun _ => Prog.op (Op.appendHistory k) >>= fun _ =>
        remember k.2 ⟨.delivered, k.2, "", false⟩).Bounded Op.Quietly :=
      Prog.bounded_op_bind trivial fun _ => Prog.bounded_op_bind trivial fun _ => hremember _
    exact quietly_total hrest ht'
  | error text =>
    have hrest : (writeStatus k "transport_failed" text >>= fun _ =>
        (Prog.ret ⟨.accepted, k.2, "", true⟩ : Call SendReceipt)).Bounded Op.Quietly :=
      ((writeStatus_bounded k _ text).mono hreports).bind fun _ => trivial
    exact quietly_total hrest ht'

theorem capabilitiesOf_stage {c₀ : Choice} {caps : List String}
    (hcaps : v = some caps ∨ v = none ∧ c₀.capabilities = .ok caps)
    (h : Stage s₀ k (aliasOf host) v b y) :
    (capabilitiesOf k host).Total world 0 (fun c => c = c₀) Anywhere y
      fun r t => r = .ok caps ∧ Stage s₀ k (aliasOf host) (some caps) b t := by
  refine op_total trivial fun c _ => ?_
  have h₁ := h.quietly (o := .mem) (c := c) trivial
  have hmem : ((y.tick .mem c).answer c .mem).capabilities (aliasOf host) = v := h.capabilities
  rw [hmem]
  rcases hcaps with rfl | ⟨rfl, hanswer⟩
  · exact Prog.total_ret trivial ⟨rfl, h₁⟩
  · refine op_total trivial fun c' hc' => ?_
    subst hc'
    have hok : ((y.next .mem c).tick (.getCapabilities k host) c').answer c'
        (.getCapabilities k host) = .ok caps := hanswer
    have h₂ := h₁.quietly (o := .getCapabilities k host) (c := c') trivial
    rw [hok]
    exact op_total trivial fun c'' _ => Prog.total_ret trivial ⟨rfl, h₂.learn caps⟩

theorem lacking_stage {c₀ : Choice} (hrouter : cfg.router = true) (halias : aliasOf host ≠ "")
    (hcaps : v = some [] ∨ v = none ∧ c₀.capabilities = .ok []) (htransport : c₀.transport = .ok ())
    (h : Stage s₀ k (aliasOf host) v b y) :
    (remoteSend cfg k host e).Total world 0 (fun c => c = c₀) Anywhere y
      fun _ t => Stage s₀ k (aliasOf host) (some []) b t := by
  refine op_total trivial fun c hc => ?_
  subst hc
  have hanswer : (y.tick (.getTransport k host) c).answer c (.getTransport k host) = .ok () :=
    htransport
  rw [hanswer]
  have h₁ := h.quietly (o := .getTransport k host) (c := c) trivial
  have hcheck : (checkCapability cfg k host).Total world 0 (fun c' => c' = c) Anywhere
      (y.next (.getTransport k host) c)
      fun r t => (∃ text, r = .error text) ∧ Stage s₀ k (aliasOf host) (some []) b t := by
    unfold checkCapability
    rw [if_neg (by simp [hrouter, halias])]
    refine (capabilitiesOf_stage hcaps h₁).bind ?_ ?_
    · rintro caps t - ⟨hr, ht⟩
      cases hr
      exact Prog.total_raise trivial ⟨⟨_, rfl⟩, ht⟩
    · rintro text t - ⟨hr, _⟩
      cases hr
  refine hcheck.bind ?_ ?_
  · rintro u t - ⟨⟨text, hr⟩, _⟩
    cases hr
  · rintro text t - ⟨_, ht⟩
    exact ht

theorem managerAndRoster_stage {sid : String}
    (h : Stage s₀ k a v b y) : (managerAndRoster sid e).Total world 0 P Anywhere y
      fun r t => (∃ x, r = .ok x) ∧ Stage s₀ k a v b t := by
  have hcached : (cachedRoster sid).Total world 0 P Anywhere y
      fun r t => (∃ x, r = .ok x) ∧ Stage s₀ k a v b t := by
    refine op_total trivial fun c _ => ?_
    have h₁ := h.quietly (o := .mem) (c := c) trivial
    split
    · refine op_total trivial fun c' _ => ?_
      split <;> exact Prog.total_ret trivial ⟨⟨_, rfl⟩, h₁.quietly trivial⟩
    · exact Prog.total_ret trivial ⟨⟨_, rfl⟩, h₁⟩
  refine hcached.bind ?_ ?_
  · rintro x t - ⟨_, ht⟩
    split
    · exact Prog.total_ret trivial ⟨⟨_, rfl⟩, ht⟩
    · refine op_total trivial fun c _ => ?_
      have h₁ := ht.quietly (o := .readSession sid) (c := c) trivial
      unfold storedManager
      split
      · split
        · exact Prog.total_ret trivial ⟨⟨_, rfl⟩, h₁⟩
        · refine op_total trivial fun c' _ => op_total trivial fun c'' _ => ?_
          have h₂ := h₁.quietly (o := .now) (c := c') trivial
          exact Prog.total_ret trivial ⟨⟨_, rfl⟩, h₂.quietly trivial⟩
      · exact Prog.total_ret trivial ⟨⟨_, rfl⟩, h₁⟩
  · rintro text t - ⟨⟨x, hx⟩, _⟩
    cases hx

theorem Stage.contact (h : Stage s₀ k a v b y) (host : HostSpec) (args : List String) :
    Stage s₀ k a v (b || Op.isSend k (.mailbox k host args)) (y.next (.mailbox k host args) c) :=
  ⟨h.past_next, h.capabilities, h.sent_next⟩

theorem ensureRemoteSession_stage {sid manager : String} {roster : List String}
    (h : Stage s₀ k a v b y) :
    (ensureRemoteSession k sid host manager roster).Total world 0 (fun c => c = {}) Anywhere y
      fun r t => r = .ok () ∧ Stage s₀ k a v b t := by
  have hensured : (isEnsured (sid, aliasOf host)).Total world 0 (fun c => c = {}) Anywhere y
      fun r t => (∃ x, r = .ok x) ∧ Stage s₀ k a v b t := by
    refine op_total trivial fun c _ => ?_
    have h₁ := h.quietly (o := .mem) (c := c) trivial
    split
    · exact op_total trivial fun c' _ => Prog.total_ret trivial ⟨⟨_, rfl⟩, h₁.quietly trivial⟩
    · exact Prog.total_ret trivial ⟨⟨_, rfl⟩, h₁⟩
  refine hensured.bind ?_ ?_
  · rintro x t - ⟨_, ht⟩
    split
    · exact Prog.total_ret trivial ⟨rfl, ht⟩
    · refine op_total trivial fun c _ => op_total trivial fun c' hc' => ?_
      subst hc'
      have h₁ := ht.quietly (o := .readSession sid) (c := c) trivial
      generalize hargs : initArgs sid manager roster _ = args
      have hinit : Op.isSend k (.mailbox k host args) = false := by
        rw [← hargs]
        simp [Op.isSend, initArgs]
      have h₂ : Stage s₀ k a v b
          ((t.next (.readSession sid) c).next (.mailbox k host args) {}) := by
        have h₂ := h₁.contact (c := {}) host args
        rw [hinit, Bool.or_false] at h₂
        exact h₂
      refine op_total trivial fun c'' _ => last_total trivial fun c₃ _ => ⟨trivial, rfl, ?_⟩
      exact (h₂.quietly (o := .now) (c := c'') trivial).quietly trivial
  · rintro text t - ⟨⟨x, hx⟩, _⟩
    cases hx

theorem sending_stage (hrouter : cfg.router = true) (halias : aliasOf host ≠ "")
    (h : Stage s₀ k (aliasOf host) none b y) :
    (remoteSend cfg k host e).Total world 0 (fun c => c = {}) Anywhere y
      fun _ t => Stage s₀ k (aliasOf host) (some ["mailbox"]) true t := by
  refine op_total trivial fun c hc => ?_
  subst hc
  have h₁ := h.quietly (o := .getTransport k host) (c := {}) trivial
  have hanswer : (y.tick (.getTransport k host) {}).answer {} (.getTransport k host) = .ok () := rfl
  rw [hanswer]
  have hcheck : (checkCapability cfg k host).Total world 0 (fun c => c = {}) Anywhere
      (y.next (.getTransport k host) {})
      fun r t => r = .ok () ∧ Stage s₀ k (aliasOf host) (some ["mailbox"]) b t := by
    unfold checkCapability
    rw [if_neg (by simp [hrouter, halias])]
    refine (capabilitiesOf_stage (.inr ⟨rfl, rfl⟩) h₁).bind ?_ ?_
    · rintro caps t - ⟨hr, ht⟩
      cases hr
      exact Prog.total_ret trivial ⟨rfl, ht⟩
    · rintro text t - ⟨hr, _⟩
      cases hr
  refine hcheck.bind ?_ ?_
  · rintro u t - ⟨_, ht⟩
    refine (managerAndRoster_stage ht).bind ?_ ?_
    · rintro mr t' - ⟨_, ht'⟩
      refine (ensureRemoteSession_stage ht').bind ?_ ?_
      · rintro u t'' - ⟨_, ht''⟩
        refine op_total trivial fun c hc => ?_
        subst hc
        have hsent := ht''.contact (c := {}) host (buildMailboxArgs e)
        have hsend : Op.isSend k (.mailbox k host (buildMailboxArgs e)) = true := by
          simp [Op.isSend, buildMailboxArgs]
        rw [hsend, Bool.or_true] at hsent
        exact Prog.total_ret trivial hsent
      · rintro text t'' - ⟨hr, _⟩
        cases hr
    · rintro text t' - ⟨⟨x, hx⟩, _⟩
      cases hx
  · rintro text t - ⟨hr, _⟩
    cases hr

end Stage

theorem play_accept {d : Post} (c₀ : Choice) {a : String} {h : HostSpec}
    {v v' : Option (List String)} {b' : Bool} (hmid : d.envelope.msgId ≠ "")
    (hfault : c₀.fault = none) (hknown : known s d.key = none) (hremote : d.remote? cfg = some h)
    (hcaps : s.mem.capabilities a = v)
    (hsend : ∀ y, Stage s d.key a v false y → (remoteSend cfg d.key h (d.env cfg)).Total world 0
      (fun c => c = c₀) Anywhere y fun _ t => Stage s d.key a v' b' t) :
    ∃ x t, (d.call cfg).play world 0 (fun _ => c₀) s = some (x, t) ∧ Stage s d.key a v' b' t := by
  have hstart : Stage s d.key a v false s := by
    refine ⟨le_refl _, hcaps, ?_⟩
    rw [opsSince_self]
    rfl
  have hstage : Stage s d.key a v false ((s.next .mem c₀).next (.look d.key) c₀) :=
    (hstart.quietly (o := .mem) trivial).quietly trivial
  have hP : ∀ c, c = c₀ → c.fault = none := by
    intro c hc
    rw [hc, hfault]
  have htotal := accept_stage (e := d.env cfg) hP hsend hstage
  rw [d.call_eq cfg hmid, play_unknown hknown, hremote]
  obtain ⟨x, t, hplay, _, ht⟩ : ∃ x t, (accept cfg d.key (d.env cfg) (some h)).play world 0
      (fun _ => c₀) ((s.next .mem c₀).next (.look d.key) c₀) = some (x, t) ∧ Anywhere t ∧
        Stage s d.key a v' b' t := htotal.play fun _ => rfl
  exact ⟨x, t, hplay, ht⟩

theorem hostKept_of_independent (hkey : d₁.key.1 ≠ d₂.key.1) (h : Independent cfg s d₁ d₂) :
    HostKept cfg s d₁ d₂ := by
  intro hmid₁ hmid₂ hknown₁ hknown₂ hrouter h₁ h₂ hremote₁ hremote₂ hsame hnone
  have hmids : d₂.key.2 ≠ d₁.key.2 := by
    intro heq
    rcases receiptKept_of_independent hkey h heq.symm with hno | ⟨hno, _⟩
    · exact hmid₂ hno
    · exact hno hknown₁
  have halias : aliasOf h₁ ≠ "" := aliasOf_ne hremote₁
  -- the first call learns that the host can do nothing
  obtain ⟨x₁, s₁, hplay₁, hlearnt⟩ := play_accept { capabilities := .ok [] } hmid₁ rfl
    hknown₁ hremote₁ hnone fun y hy => lacking_stage hrouter halias (.inr ⟨rfl, rfl⟩) rfl hy
  have hspared := Post.spared hplay₁
  have hknown : known s₁ d₂.key = none :=
    (known_congr (hspared.cache _ hmids) (hspared.entry _ hkey.symm)).trans hknown₂
  -- after it the message is not sent, alone it is
  have hcaps : s₁.mem.capabilities (aliasOf h₂) = some [] := hsame ▸ hlearnt.capabilities
  obtain ⟨x, t, hplay, hunsent⟩ := play_accept {} hmid₂ rfl hknown hremote₂ hcaps
    fun y hy => lacking_stage hrouter (aliasOf_ne hremote₂) (.inl rfl) rfl hy
  obtain ⟨x', t', hplay', hsent⟩ := play_accept (s := { s with clock := s₁.clock }) {}
    hmid₂ rfl hknown₂ hremote₂ (hsame ▸ hnone)
    fun y hy => sending_stage hrouter (aliasOf_ne hremote₂) hy
  have hshown := h _ (fun _ => {}) _ _ hplay₁
  rw [Post.shown, Post.shown, hplay, hplay', Option.map_some, Option.map_some] at hshown
  have hflag := congrArg Shown.sent (Option.some.inj hshown)
  exact absurd (hunsent.sent.symm.trans (hflag.trans hsent.sent)) (by decide)

/-- **A delivery is independent of one of another session exactly if** messages with the
same id are known already, by the same receipt, and two new messages do not go to one
host whose capabilities are still to be asked for. -/
theorem independent_iff (hkey : d₁.key.1 ≠ d₂.key.1) (hremote : d₁.remoteId ≠ d₂.remoteId) :
    Independent cfg s d₁ d₂ ↔ ReceiptKept s d₁ d₂ ∧ HostKept cfg s d₁ d₂ :=
  ⟨fun h => ⟨receiptKept_of_independent hkey h, hostKept_of_independent hkey h⟩,
    fun h => independent_of_kept hkey hremote h.1 h.2⟩

end Independence

/-! ### Two messages with one id -/

/-- A message to a worker of this host. -/
def localPost (sid mid : String) : Post where
  sessionId := sid
  target := .agent "w"
  envelope := { sessionId := some sid, msgId := mid, fromId := "m", toId := "w" }

/-- An engine that knows no hosts. -/
def hostless : Config := { hostname := "h", repoMap := RepoMap.empty }

/-- Messages with different ids. -/
theorem independent_iff_ids :
    Independent hostless {} (localPost "s1" "x") (localPost "s2" "y") := by
  refine (independent_iff (by decide) (by decide)).mpr ⟨fun h => absurd h (by decide), ?_⟩
  intro _ _ _ _ _ h₁ _ hremote
  cases hremote

/-- The message of the second session is in the outbox after its call. -/
def isWritten (s : Site) : Option Bool :=
  ((localPost "s2" "x").shown hostless (fun _ => {}) s).map (·.entry.envelope.isSome)

/-- The second message with an id is not even written to the outbox. -/
theorem same_id_not_sent : ¬ ∀ (cfg : Config) (s : Site) (d₁ d₂ : Post), d₁.key.1 ≠ d₂.key.1 →
    d₁.remoteId ≠ d₂.remoteId → Independent cfg s d₁ d₂ := by
  intro h
  obtain ⟨⟨r₁, s₁⟩, hplay, hdiffer⟩ : ∃ x : Except String SendReceipt × Site,
      ((localPost "s1" "x").call hostless).play world 0 (fun _ => {}) {} = some x ∧
      decide (isWritten x.2 = some false ∧ isWritten { clock := x.2.clock } = some true) = true :=
    (Option.any_eq_true (fun x : Except String SendReceipt × Site =>
      decide (isWritten x.2 = some false ∧ isWritten { clock := x.2.clock } = some true)) _).mp
      (by decide +kernel)
  obtain ⟨hafter, halone⟩ := of_decide_eq_true hdiffer
  have hsame := h hostless {} (localPost "s1" "x") (localPost "s2" "x") (by decide) (by decide)
    (fun _ => {}) (fun _ => {}) r₁ s₁ hplay
  rw [isWritten, hsame] at hafter
  exact absurd (hafter.symm.trans halone) (by decide)

end AiMeshChat.Swarm
