import AiMeshChat.Swarm.Engine
import Mathlib.Tactic.Common

/-!
# Rules for the engine

One rule for an operation (`op_total`), and for every method the operations that it is
made of. A send contacts the transport for its own message and fills caches; a report
writes into the status directory of its own message. What these keep is kept by the
methods (`Prog.Bounded.total`).
-/

namespace AiMeshChat.Swarm

open Lib

/-! ## One operation -/

/-- The site after an operation. -/
def Site.next (s : Site) (o : Op) (c : Choice) : Site := (s.tick o c).effect c o

/-- The operation contacts a transport for the message `k`. -/
def Op.attempts (k : Key) : Op → Bool
  | .getTransport k' _ => k' = k
  | .mailbox k' _ _ => k' = k
  | .localMailbox k' _ => k' = k
  | _ => false

/-- The message is given to a transport. -/
def Op.isSend (k : Key) : Op → Bool
  | .mailbox k' _ args => k' = k && args.head? = some "send"
  | .localMailbox k' _ => k' = k
  | _ => false

/-- The operation changes no file and contacts nobody. -/
def Op.Idle : Op → Prop
  | .now => True
  | .mem => True
  | .upd _ => True
  | .sessions => True
  | .glob _ _ => True
  | .look _ => True
  | .readSession _ => True
  | _ => False

namespace Site

variable (s : Site)

@[simp] theorem entry_tick (o : Op) (c : Choice) (k : Key) : (s.tick o c).entry k = s.entry k := rfl


theorem entry_setEntry (k k' : Key) (e : Entry) :
    (s.setEntry k e).entry k' = if k' = k then e else s.entry k' := Table.get_set s.entries k k' e

@[simp] theorem entry_setEntry_self (k : Key) (e : Entry) : (s.setEntry k e).entry k = e := by
  rw [entry_setEntry, if_pos rfl]

theorem entry_setEntry_ne {k k' : Key} (e : Entry) (h : k' ≠ k) :
    (s.setEntry k e).entry k' = s.entry k' := by
  rw [entry_setEntry, if_neg h]

variable {s} (o : Op) (c : Choice)

@[simp] theorem clock_next : (s.next o c).clock = s.clock + c.delay := by
  cases o with
  | openTmp k => rw [next, effect]; split <;> rfl
  | _ => rfl

@[simp] theorem trace_next : (s.next o c).trace = s.trace ++ [(s.clock + c.delay, o)] := by
  cases o with
  | openTmp k => rw [next, effect]; split <;> rfl
  | _ => rfl

@[simp] theorem sessions_next : (s.next o c).sessions = s.sessions := by
  cases o with
  | openTmp k => rw [next, effect]; split <;> rfl
  | _ => rfl

theorem mem_next : (s.next o c).mem = match o with
    | .upd u => u.apply s.mem
    | _ => s.mem := by
  cases o with
  | openTmp k => rw [next, effect]; split <;> rfl
  | _ => rfl

theorem entry_next_file (k k' : Key) (f : FileOp) :
    (s.next (.file k f) c).entry k' =
      if k' = k then f.apply (s.clock + c.delay) (s.entry k) else s.entry k' :=
  entry_setEntry _ k k' _

end Site

theorem mem_ids (s : Site) {sid mid : String} {g : Glob} :
    mid ∈ s.ids sid g ↔ g.matches (s.entry (sid, mid)) := by
  have hdefault : g.matches default = false := by cases g <;> rfl
  simp only [Site.ids, List.mem_insertionSort, List.mem_map, List.mem_filter, decide_eq_true_eq,
    Table.mem_keysWith hdefault]
  constructor
  · intro h
    obtain ⟨k, ⟨hm, rfl⟩, rfl⟩ := h
    exact hm
  · intro h
    exact ⟨(sid, mid), ⟨h, rfl⟩, rfl⟩

/-! ## Operations of a total run -/

section Rules

variable {α : Type} {P : Choice → Prop} {I : Site → Prop} {s : Site}
  {Q : Except String α → Site → Prop}

theorem op_total {o : Op} {f : Ans o → Call α} (hI : I s)
    (h : ∀ c, P c → (f ((s.tick o c).answer c o)).Total world 0 P I (s.next o c) Q) :
    (Prog.op o >>= f).Total world 0 P I s Q :=
  Prog.total_op_bind hI fun c hc => ⟨_, _, rfl, h c hc⟩

theorem last_total {o : Op} {Q : Except String (Ans o) → Site → Prop} (hI : I s)
    (h : ∀ c, P c → I (s.next o c) ∧ Q (.ok ((s.tick o c).answer c o)) (s.next o c)) :
    (Prog.op o : Call (Ans o)).Total world 0 P I s Q :=
  ⟨hI, fun c hc => ⟨_, _, rfl, (h c hc).1, (h c hc).2⟩⟩

theorem attempt_total {p : Call α} {Q : Except String (Except String α) → Site → Prop}
    (h : p.Total world 0 P I s fun r s' => Q (.ok r) s') :
    (attempt p).Total world 0 P I s Q := by
  induction p generalizing s with
  | ret a => exact h
  | raise e => exact h
  | hang => exact h.elim
  | call o k ih =>
    refine ⟨h.1, fun c hc => ?_⟩
    obtain ⟨a, s', hw, hk⟩ := h.2 c hc
    exact ⟨a, s', hw, ih a hk⟩

theorem attempt_bind_total {β : Type} {p : Call α} {f : Except String α → Call β}
    {M : Except String α → Site → Prop} {Q : Except String β → Site → Prop}
    (hp : p.Total world 0 P I s M)
    (h : ∀ r s', I s' → M r s' → (f r).Total world 0 P I s' Q) :
    (attempt p >>= f).Total world 0 P I s Q := by
  refine (attempt_total (Q := fun x s' => ∃ r, x = .ok r ∧ M r s') (hp.mono (fun _ h => h)
    fun r _ _ hM => ⟨r, rfl, hM⟩)).bind ?_ ?_
  · intro r s' hI hr
    obtain ⟨r', hr', hM⟩ := hr
    cases hr'
    exact h r s' hI hM
  · intro e s' _ hr
    obtain ⟨r', hr', _⟩ := hr
    cases hr'

theorem orRaise_total {r : Except String α} {β : Type} {f : α → Call β}
    {Q : Except String β → Site → Prop} (hok : ∀ a, r = .ok a → (f a).Total world 0 P I s Q)
    (herr : ∀ text, r = .error text → I s ∧ Q (.error text) s) :
    (orRaise r >>= f).Total world 0 P I s Q := by
  cases r with
  | ok a => exact hok a rfl
  | error text => exact herr text rfl

theorem bounded_total {φ : Op → Prop} {J : Site → Prop} {p : Call α} (hp : p.Bounded φ)
    (hop : ∀ o c s, φ o → P c → J s → J (s.next o c)) (hJ : J s) :
    p.Total world 0 P J s fun _ s' => J s' :=
  hp.total (fun o c s hφ hc hJ => ⟨_, _, rfl, hop o c s hφ hc hJ⟩) hJ

end Rules

/-! ## What the methods are made of -/

section Methods

variable {φ ψ : Op → Prop} {α β : Type}

theorem orRaise_bounded (r : Except String α) : (orRaise r).Bounded φ := by
  cases r <;> trivial

theorem attempt_bounded {p : Call α} (hp : p.Bounded φ) : (attempt p).Bounded φ :=
  (hp.bind fun _ => Prog.bounded_ret _).tryCatch fun _ => Prog.bounded_ret _

theorem remember_bounded {mid : String} {r : SendReceipt} (h : φ (.upd (.remember mid r))) :
    (remember mid r).Bounded φ :=
  (Prog.bounded_op h).bind fun _ => Prog.bounded_ret _

/-- The caches that a send fills. -/
def Update.OfSend : Update → Prop
  | .setRoster _ _ _ => True
  | .setEnsured _ _ => True
  | .setCapabilities _ _ => True
  | _ => False

/-- What a send of the message `k` does, to a host or to this one. -/
def Op.Sends (k : Key) (dest : Option HostSpec) : Op → Prop
  | .now => True
  | .mem => True
  | .readSession _ => True
  | .upd u => u.OfSend
  | .getTransport k' host => k' = k ∧ dest = some host
  | .getCapabilities k' host => k' = k ∧ dest = some host
  | .mailbox k' host _ => k' = k ∧ dest = some host
  | .localMailbox k' _ => k' = k ∧ dest = none
  | _ => False

/-- What a send does before it gives the message away. -/
def Op.Prepares (k : Key) (dest : Option HostSpec) (o : Op) : Prop :=
  o.Sends k dest ∧ ∀ k', o.isSend k' = false

theorem localSend_bounded (k : Key) (env : Envelope) :
    (localSend k env).Bounded (Op.Sends k none) := by
  refine Prog.bounded_op_bind ⟨rfl, rfl⟩ fun r => (orRaise_bounded r).bind fun a => ?_
  split <;> trivial

theorem capabilitiesOf_prepares (k : Key) (host : HostSpec) :
    (capabilitiesOf k host).Bounded (Op.Prepares k (some host)) := by
  refine Prog.bounded_op_bind ⟨trivial, fun _ => rfl⟩ fun m => ?_
  split
  · trivial
  · refine Prog.bounded_op_bind ⟨⟨rfl, rfl⟩, fun _ => rfl⟩ fun r => ?_
    split
    · exact Prog.bounded_op_bind ⟨trivial, fun _ => rfl⟩ fun _ => trivial
    · trivial

theorem checkCapability_prepares (cfg : Config) (k : Key) (host : HostSpec) :
    (checkCapability cfg k host).Bounded (Op.Prepares k (some host)) := by
  unfold checkCapability
  split
  · trivial
  · refine (capabilitiesOf_prepares k host).bind fun caps => ?_
    split <;> trivial

theorem isEnsured_prepares (k : Key) (dest : Option HostSpec) (key : String × String) :
    (isEnsured key).Bounded (Op.Prepares k dest) := by
  refine Prog.bounded_op_bind ⟨trivial, fun _ => rfl⟩ fun m => ?_
  split
  · exact Prog.bounded_op_bind ⟨trivial, fun _ => rfl⟩ fun _ => trivial
  · trivial

theorem ensureRemoteSession_prepares (k : Key) (sid : String) (host : HostSpec) (manager : String)
    (roster : List String) :
    (ensureRemoteSession k sid host manager roster).Bounded (Op.Prepares k (some host)) := by
  refine (isEnsured_prepares k _ _).bind fun b => ?_
  split
  · trivial
  · refine Prog.bounded_op_bind ⟨trivial, fun _ => rfl⟩ fun info =>
      Prog.bounded_op_bind ⟨⟨rfl, rfl⟩, fun k' => ?_⟩ fun r => ?_
    · simp [Op.isSend, initArgs]
    · refine (orRaise_bounded r).bind fun a => ?_
      split
      · trivial
      · exact Prog.bounded_op_bind ⟨trivial, fun _ => rfl⟩ fun _ =>
          Prog.bounded_op ⟨trivial, fun _ => rfl⟩

theorem cachedRoster_prepares (k : Key) (dest : Option HostSpec) (sid : String) :
    (cachedRoster sid).Bounded (Op.Prepares k dest) := by
  refine Prog.bounded_op_bind ⟨trivial, fun _ => rfl⟩ fun m => ?_
  split
  · refine Prog.bounded_op_bind ⟨trivial, fun _ => rfl⟩ fun t => ?_
    split <;> trivial
  · trivial

theorem managerAndRoster_prepares (k : Key) (dest : Option HostSpec) (sid : String)
    (env : Envelope) : (managerAndRoster sid env).Bounded (Op.Prepares k dest) := by
  refine (cachedRoster_prepares k dest sid).bind fun r => ?_
  split
  · trivial
  · refine Prog.bounded_op_bind ⟨trivial, fun _ => rfl⟩ fun info => ?_
    unfold storedManager
    split
    · split
      · trivial
      · exact Prog.bounded_op_bind ⟨trivial, fun _ => rfl⟩ fun _ =>
          Prog.bounded_op_bind ⟨trivial, fun _ => rfl⟩ fun _ => trivial
    · trivial

theorem remoteSend_bounded (cfg : Config) (k : Key) (host : HostSpec) (env : Envelope) :
    (remoteSend cfg k host env).Bounded (Op.Sends k (some host)) := by
  have hprepares {α : Type} {p : Call α} (hp : p.Bounded (Op.Prepares k (some host))) :
      p.Bounded (Op.Sends k (some host)) := hp.mono fun _ ho => ho.1
  refine Prog.bounded_op_bind ⟨rfl, rfl⟩ fun r => (orRaise_bounded r).bind fun _ => ?_
  refine (hprepares (checkCapability_prepares cfg k host)).bind fun _ => ?_
  refine (hprepares (managerAndRoster_prepares k _ _ env)).bind fun mr => ?_
  refine (hprepares (ensureRemoteSession_prepares k _ host mr.1 mr.2)).bind fun _ => ?_
  refine Prog.bounded_op_bind ⟨rfl, rfl⟩ fun r => (orRaise_bounded r).bind fun a => ?_
  split <;> trivial

theorem resend_bounded (cfg : Config) (k : Key) (env : Envelope) (hostAlias : String)
    (target : HostSpec) :
    ∃ dest, (resend cfg k env hostAlias target).Bounded (Op.Sends k dest) := by
  unfold resend
  split
  · exact ⟨_, localSend_bounded k env⟩
  · exact ⟨_, remoteSend_bounded cfg k target env⟩

/-- A file operation that leaves the envelope, the marker and the dead letter alone, and
what `meta.json` says. -/
def FileOp.Notes : FileOp → Prop
  | .mkStatus => True
  | .putPhase _ => True
  | .putKind _ => True
  | .putTimestamp _ => True
  | .draftInfo => True
  | _ => False

/-- What a note on the message `k` does. -/
def Op.Reports (k : Key) : Op → Prop
  | .now => True
  | .file k' f => k' = k ∧ f.Notes
  | _ => False

theorem writeStatus_bounded (k : Key) (kind detail : String) :
    (writeStatus k kind detail).Bounded (Op.Reports k) := by
  refine Prog.bounded_op_bind ⟨rfl, trivial⟩ fun _ => ?_
  refine Prog.bounded_op_bind ⟨rfl, trivial⟩ fun _ => ?_
  refine Prog.bounded_op_bind ⟨rfl, trivial⟩ fun _ => ?_
  refine Prog.bounded_op_bind ⟨rfl, trivial⟩ fun _ => ?_
  exact Prog.bounded_op_bind trivial fun _ => Prog.bounded_op ⟨rfl, trivial⟩

/-- What the check for a known message does. -/
def Op.Checks (k : Key) : Op → Prop
  | .mem => True
  | .look k' => k' = k
  | .upd (.remember mid _) => mid = k.2
  | _ => False

theorem checkIdempotency_total {P : Choice → Prop} {I : Site → Prop} {s : Site} {k : Key}
    (hop : ∀ o c t, o.Checks k → P c → I t → I (t.next o c)) (hI : I s) :
    (checkIdempotency k).Total world 0 P I s fun r _ =>
      (∀ x, r = .ok (some x) → s.mem.cache k.2 = some x ∨ (s.entry k).envelope.isSome) ∧
      (r = .ok none → s.mem.cache k.2 = none ∧ (s.entry k).envelope = none) := by
  refine op_total hI fun c hc => ?_
  have h₁ := hop .mem c s trivial hc hI
  have hanswer : (s.tick .mem c).answer c .mem = s.mem := rfl
  rw [hanswer]
  cases hcache : s.mem.cache k.2 with
  | some r =>
    refine Prog.total_ret h₁ ⟨fun x hx => ?_, fun hn => by cases hn⟩
    cases hx
    exact .inl rfl
  | none =>
    refine op_total h₁ fun c' hc' => ?_
    have h₂ := hop (.look k) c' _ rfl hc' h₁
    have hrem (r : SendReceipt) : ((remember k.2 r : Call SendReceipt) >>= fun x =>
        (Prog.ret (some x) : Call (Option SendReceipt))).Total world 0 P I
        ((s.next .mem c).next (.look k) c') fun r' _ => ∃ x, r' = .ok (some x) :=
      op_total h₂ fun c'' hc'' => Prog.total_ret (hop _ c'' _ rfl hc'' h₂) ⟨r, rfl⟩
    show (if (s.entry k).envelope.isNone then (Prog.ret none : Call (Option SendReceipt))
      else if (s.entry k).delivered.isSome then _ else _).Total world 0 P I _ _
    split
    · next hnone =>
      refine Prog.total_ret h₂ ⟨?_, fun _ => ⟨rfl, Option.isNone_iff_eq_none.mp hnone⟩⟩
      intro x hx
      cases hx
    · next hsome =>
      have hin : (s.entry k).envelope.isSome := by
        rw [Option.isSome_iff_ne_none]
        exact fun hn => hsome (Option.isNone_iff_eq_none.mpr hn)
      split <;>
      · refine (hrem _).mono (fun _ h => h) ?_
        rintro r s' - ⟨x, rfl⟩
        refine ⟨fun _ _ => .inr hin, fun hn => ?_⟩
        cases hn

/-! ### A delivery -/

/-- What a delivery of the message `k` does, to a host or to this one. -/
def Op.Delivers (k : Key) (dest : Option HostSpec) : Op → Prop
  | .file k' f => k' = k ∧ (f.Notes ∨ f = .mark) ∨ k' = tmpKey k ∧ ∃ env, f = .putEnvelope env
  | .look k' => k' = k
  | .openTmp k' => k' = k
  | .publish k' => k' = k
  | .appendHistory k' => k' = k
  | .upd (.remember mid _) => mid = k.2
  | o => o.Sends k dest

section Deliver

variable {k : Key} {dest : Option HostSpec} {o : Op}

theorem Op.Sends.delivers (h : o.Sends k dest) : o.Delivers k dest := by
  cases o with
  | upd u => cases u <;> first | exact h | exact h.elim
  | _ => first | exact h | exact h.elim

theorem Op.Reports.delivers (h : o.Reports k) : o.Delivers k dest := by
  cases o with
  | file k' f => exact .inl ⟨h.1, .inl h.2⟩
  | now => exact h
  | _ => exact h.elim

theorem remember_delivers (r : SendReceipt) :
    (remember k.2 r).Bounded (Op.Delivers k dest) := remember_bounded rfl

theorem replaceEnvelope_bounded (env : Envelope) :
    (replaceEnvelope k env).Bounded (Op.Delivers k dest) :=
  Prog.bounded_op_bind rfl fun r => (orRaise_bounded r).bind fun _ =>
    Prog.bounded_op_bind (.inr ⟨rfl, env, rfl⟩) fun _ => Prog.bounded_op rfl

theorem writeOutbox_bounded (env : Envelope) :
    (writeOutbox k env).Bounded (Op.Delivers k dest) := by
  refine Prog.bounded_op_bind rfl fun e => ?_
  split
  · trivial
  · exact replaceEnvelope_bounded env

theorem stamp_bounded : (stampOutboxTargetHost k).Bounded (Op.Delivers k dest) := by
  refine Prog.bounded_op_bind rfl fun e => ?_
  split
  · split
    · trivial
    · exact replaceEnvelope_bounded _
  · trivial

theorem checkIdempotency_bounded : (checkIdempotency k).Bounded (Op.Delivers k dest) := by
  refine Prog.bounded_op_bind trivial fun m => ?_
  split
  · trivial
  · refine Prog.bounded_op_bind rfl fun e => ?_
    split
    · trivial
    · split <;> exact (remember_delivers _).bind fun _ => trivial

theorem sendFirst_bounded (cfg : Config) (env : Envelope) :
    (sendFirst cfg k env dest).Bounded (Op.Delivers k dest) := by
  have hmark : (markDelivered k).Bounded (Op.Delivers k dest) :=
    Prog.bounded_op (.inl ⟨rfl, .inr rfl⟩)
  have hstatus (kind text : String) : (writeStatus k kind text).Bounded (Op.Delivers k dest) :=
    (writeStatus_bounded k kind text).mono fun _ ho => ho.delivers
  cases dest with
  | some host =>
    refine (attempt_bounded ((remoteSend_bounded cfg k host env).mono fun _ ho =>
      ho.delivers)).bind fun r => ?_
    cases r with
    | ok u =>
      exact hmark.bind fun _ => Prog.bounded_op_bind rfl fun _ => remember_delivers _
    | error text => exact (hstatus _ text).bind fun _ => trivial
  | none =>
    refine (attempt_bounded ((localSend_bounded k env).mono fun _ ho => ho.delivers)).bind
      fun r => ?_
    cases r with
    | ok u => exact hmark.bind fun _ => remember_delivers _
    | error text => exact (hstatus _ text).bind fun _ => stamp_bounded.bind fun _ => trivial

end Deliver

theorem deliver_bounded (cfg : Config) (sid : String) (target : Dest) (env : Envelope) :
    (deliver cfg sid target env).Bounded
      (Op.Delivers (deliverKey sid env) (target.remote? cfg)) := by
  unfold deliver
  split
  · trivial
  · refine checkIdempotency_bounded.bind fun known => ?_
    cases known with
    | some cached =>
      show (replay _ _ _).Bounded _
      unfold replay
      split
      · exact stamp_bounded.bind fun _ => trivial
      · trivial
    | none =>
      refine (attempt_bounded (writeOutbox_bounded _)).bind fun r => ?_
      cases r with
      | ok u => exact (remember_delivers _).bind fun _ => sendFirst_bounded cfg _
      | error text => exact remember_delivers _

/-! ### A retry -/

/-- A file operation of a retry. -/
def FileOp.Retries : FileOp → Prop
  | .mark => True
  | .mkStatus => True
  | .draftInfo => True
  | .putInfo _ => True
  | .bury => True
  | .buryStatus => True
  | .putReason _ => True
  | _ => False

/-- What a retry of the message `k` does. -/
def Op.Retries (k : Key) : Op → Prop
  | .file k' f => k' = k ∧ f.Retries
  | .look k' => k' = k
  | .appendHistory k' => k' = k
  | .failed k' _ => k' = k
  | .upd (.remember mid _) => mid = k.2
  | o => ∃ dest, o.Sends k dest

section Retry

variable {k : Key} {o : Op}

theorem Op.Sends.retries {dest : Option HostSpec} (h : o.Sends k dest) : o.Retries k := by
  cases o with
  | upd u => cases u <;> first | exact ⟨dest, h⟩ | exact h.elim
  | _ => first | exact ⟨dest, h⟩ | exact h.elim

theorem remember_retries (r : SendReceipt) : (remember k.2 r).Bounded (Op.Retries k) :=
  remember_bounded rfl

/-- What the checks of the message `k` do: they read, and may write `meta.json`. -/
def Op.Reviews (k : Key) : Op → Prop
  | .now => True
  | .look k' => k' = k
  | .file k' .draftInfo => k' = k
  | .file k' (.putInfo _) => k' = k
  | _ => False

theorem look_reviews : (look k).Bounded (Op.Reviews k) := Prog.bounded_op rfl

theorem readInfo_reviews : (readInfo k).Bounded (Op.Reviews k) :=
  look_reviews.bind fun _ => trivial

theorem replaceInfo_reviews (m : RetryMeta) : (replaceInfo k m).Bounded (Op.Reviews k) :=
  Prog.bounded_op_bind rfl fun _ => Prog.bounded_op rfl

theorem reached_reviews (deadline : Option ℕ) : (reached deadline).Bounded (Op.Reviews k) := by
  cases deadline with
  | some t => exact Prog.bounded_op_bind trivial fun _ => trivial
  | none => trivial

theorem eligible_reviews : (eligible k).Bounded (Op.Reviews k) := by
  have hpaused : (isPaused k).Bounded (Op.Reviews k) := readInfo_reviews.bind fun _ => trivial
  have hprobe : (reprobePaused k).Bounded (Op.Reviews k) := by
    refine readInfo_reviews.bind fun m => ?_
    split
    · trivial
    · refine (reached_reviews _).bind fun b => ?_
      split
      · exact replaceInfo_reviews _
      · trivial
  have hunpaused : (unpaused k).Bounded (Op.Reviews k) := by
    refine hpaused.bind fun b => ?_
    split
    · exact hprobe.bind fun _ => hpaused.bind fun _ => trivial
    · trivial
  have hdue : (attemptDue k).Bounded (Op.Reviews k) := by
    refine readInfo_reviews.bind fun m => ?_
    split
    · trivial
    · exact reached_reviews _
  refine look_reviews.bind fun e => ?_
  split
  · trivial
  · refine hunpaused.bind fun b => ?_
    split
    · exact hdue
    · trivial

/-- What a retry of the message `k` does around the send. -/
def Op.Tends (k : Key) (o : Op) : Prop := o.Retries k ∧ ∀ k', o.isSend k' = false

theorem file_tends {f : FileOp} (h : f.Retries) : (Op.file k f).Tends k :=
  ⟨⟨rfl, h⟩, fun _ => rfl⟩

theorem Op.Reviews.tends (h : o.Reviews k) : o.Tends k := by
  cases o with
  | now => exact ⟨⟨none, trivial⟩, fun _ => rfl⟩
  | look k' => exact ⟨h, fun _ => rfl⟩
  | file k' f => cases f <;> first | exact ⟨⟨h, trivial⟩, fun _ => rfl⟩ | exact h.elim
  | _ => exact h.elim

theorem reviews_tends {p : Call α} (hp : p.Bounded (Op.Reviews k)) : p.Bounded (Op.Tends k) :=
  hp.mono fun _ ho => ho.tends

theorem deadLetter_tends (reason : String) : (deadLetter k reason).Bounded (Op.Tends k) := by
  refine (reviews_tends look_reviews).bind fun e => ?_
  split
  · trivial
  · refine Prog.bounded_op_bind (file_tends trivial) fun _ => Prog.Bounded.bind ?_ fun _ =>
      Prog.bounded_op (file_tends trivial)
    refine (reviews_tends look_reviews).bind fun e => ?_
    split
    · trivial
    · split
      · trivial
      · exact Prog.bounded_op (file_tends trivial)

theorem handleFlushFailure_tends (text : String) :
    (handleFlushFailure k text).Bounded (Op.Tends k) := by
  unfold handleFlushFailure
  split
  · exact Prog.bounded_op_bind (file_tends trivial) fun _ => reviews_tends
      (readInfo_reviews.bind fun m => Prog.bounded_op_bind trivial fun t => replaceInfo_reviews _)
  · refine Prog.Bounded.bind ?_ fun n => ?_
    · exact Prog.bounded_op_bind (file_tends trivial) fun _ => reviews_tends
        (readInfo_reviews.bind fun m => Prog.bounded_op_bind trivial fun t =>
          (replaceInfo_reviews _).bind fun _ => trivial)
    · split
      · exact deadLetter_tends _
      · split
        · exact deadLetter_tends _
        · trivial

theorem tends_retries {p : Call α} (hp : p.Bounded (Op.Tends k)) : p.Bounded (Op.Retries k) :=
  hp.mono fun _ ho => ho.1

theorem retry_bounded (cfg : Config) (env : Envelope) (hostAlias : String) :
    (retry cfg k env hostAlias).Bounded (Op.Retries k) := by
  refine Prog.bounded_op_bind ⟨none, trivial⟩ fun m => ?_
  obtain ⟨dest, hsend⟩ := resend_bounded cfg k env hostAlias
    (resolveTarget cfg m.hostCache hostAlias)
  refine (attempt_bounded (hsend.mono fun _ ho => ho.retries)).bind fun r => ?_
  cases r with
  | ok u =>
    exact Prog.bounded_op_bind ⟨rfl, trivial⟩ fun _ => Prog.bounded_op_bind rfl fun _ =>
      (remember_retries _).bind fun _ => trivial
  | error text =>
    exact Prog.bounded_op_bind rfl fun _ =>
      (tends_retries (handleFlushFailure_tends text)).bind fun _ => trivial

/-- The loop of `flush` works on one message at a time. -/
theorem flushEntry_bounded (cfg : Config) : (flushEntry cfg k).Bounded (Op.Retries k) := by
  refine (tends_retries (reviews_tends eligible_reviews)).bind fun b => ?_
  split
  · refine (tends_retries (reviews_tends look_reviews)).bind fun e => ?_
    split
    · exact retry_bounded cfg _ _
    · trivial
  · trivial

end Retry

/-! ### The loops of `flush` -/

section Flush

variable {P : Choice → Prop} {I J K : Site → Prop} {s : Site} {cfg : Config} {F : Prop}

/-- The method returns a value, unless `F` allows an exception. -/
def Fine {α : Type} (F : Prop) (r : Except String α) : Prop := F ∨ ∃ a, r = .ok a

theorem Fine.not_error {e : String} (h : Fine F (.error e : Except String α)) : F := by
  rcases h with h | ⟨a, ha⟩
  · exact h
  · cases ha

theorem fine_bind {p : Call α} {f : α → Call β}
    (hp : p.Total world 0 P I s fun r s' => J s' ∧ Fine F r)
    (hJK : F → ∀ s, J s → K s)
    (hf : ∀ a s', J s' → (f a).Total world 0 P I s' fun r s'' => K s'' ∧ Fine F r) :
    (p >>= f).Total world 0 P I s fun r s' => K s' ∧ Fine F r := by
  refine hp.bind (fun a s' _ h => hf a s' h.1) fun e s' _ h => ?_
  have hF := h.2.not_error
  exact ⟨hJK hF s' h.1, .inl hF⟩

theorem flushEntries_total {sid : String} (hJI : ∀ s, J s → I s) (mids : List String)
    (hentry : ∀ mid s, mid ∈ mids → J s →
      (flushEntry cfg (sid, mid)).Total world 0 P I s fun r s' => J s' ∧ Fine F r) (h : J s) :
    (flushEntries cfg sid mids).Total world 0 P I s fun r s' => J s' ∧ Fine F r := by
  induction mids generalizing s with
  | nil => exact Prog.total_ret (hJI s h) ⟨h, .inr ⟨0, rfl⟩⟩
  | cons mid mids ih =>
    refine fine_bind (hentry mid s List.mem_cons_self h) (fun _ _ h => h) fun b s₁ h₁ => ?_
    refine fine_bind (ih (fun mid s hmid => hentry mid s (List.mem_cons_of_mem _ hmid)) h₁)
      (fun _ _ h => h) fun n s₂ h₂ => ?_
    exact Prog.total_ret (hJI s₂ h₂) ⟨h₂, .inr ⟨_, rfl⟩⟩

theorem flushSessions_total (hJI : ∀ s, J s → I s)
    (hglob : ∀ s sid c, J s → J (s.next (.glob sid .envelopes) c)) (sids : List String)
    (hentry : ∀ k s, k.1 ∈ sids → J s →
      (flushEntry cfg k).Total world 0 P I s fun r s' => J s' ∧ Fine F r) (h : J s) :
    (flushSessions cfg sids).Total world 0 P I s fun r s' => J s' ∧ Fine F r := by
  induction sids generalizing s with
  | nil => exact Prog.total_ret (hJI s h) ⟨h, .inr ⟨0, rfl⟩⟩
  | cons sid sids ih =>
    refine op_total (hJI s h) fun c _ => ?_
    refine fine_bind (flushEntries_total hJI _
      (fun mid s _ hs => hentry (sid, mid) s List.mem_cons_self hs) (hglob s sid c h))
      (fun _ _ h => h) fun n s₁ h₁ => ?_
    refine fine_bind (ih (fun k s hk => hentry k s (List.mem_cons_of_mem _ hk)) h₁)
      (fun _ _ h => h) fun m s₂ h₂ => ?_
    exact Prog.total_ret (hJI s₂ h₂) ⟨h₂, .inr ⟨_, rfl⟩⟩

theorem ne_of_mem_sessionDirs {sid : String} (h : sid ∈ s.sessionDirs) : sid ≠ "" := by
  simp only [Site.sessionDirs, List.mem_insertionSort, List.mem_dedup, List.mem_filter] at h
  intro hsid
  simp [hsid] at h

/-- What listing directories and every entry keep, `flush` keeps after its sweep. -/
theorem retryAll_total (hJI : ∀ s, J s → I s)
    (hglob : ∀ s sid c, J s → J (s.next (.glob sid .envelopes) c))
    (hsessions : ∀ s c, J s → J (s.next .sessions c))
    (hentry : ∀ k s, k.1 ≠ "" → J s →
      (flushEntry cfg k).Total world 0 P I s fun r s' => J s' ∧ Fine F r)
    (sessionId : Option String) (h : J s) :
    (retryAll cfg sessionId).Total world 0 P I s fun r s' => J s' ∧ Fine F r := by
  unfold retryAll
  split
  · next sid hsid =>
    have hne : sid ≠ "" := by simpa using (Option.filter_eq_some_iff.mp hsid).2
    exact flushSessions_total hJI hglob _
      (fun k s hk => hentry k s (List.mem_singleton.mp hk ▸ hne)) h
  · refine op_total (hJI s h) fun c _ => ?_
    exact flushSessions_total hJI hglob _
      (fun k s hk => hentry k s (ne_of_mem_sessionDirs hk)) (hsessions s c h)

end Flush

end Methods

end AiMeshChat.Swarm
