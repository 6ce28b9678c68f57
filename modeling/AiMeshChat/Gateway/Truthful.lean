import AiMeshChat.Gateway.Idempotency

/-!
# What `runtime_send` tells its caller

A call that finds a row compares the payloads before it replays the result. The
call that loses the insert does not: it returns the row of the other call,
whatever its own payload was. And the row is there, `QUEUED`, before the message
is, so that until the creator has written it, and for ever if the creator dies,
a replay reports `mailbox_persisted` (`loser_reports_persisted`).

`truthful_of_settled` says that nothing else is wrong. In a run in which no call
loses the insert to another payload, and in which no call finds the row of its
payload as it was inserted with the message still unwritten, a result belongs to
the payload it is given for, another payload is refused, and a `QUEUED` result
means that the message is there.
-/

namespace AiMeshChat.Gateway

open Lib

/-- The payload a request is about. -/
def GateRequest.hash? (sha256 : String → String) : GateRequest → Option String
  | .send p => some (p.hash sha256)
  | .ack _ => none

def GatewayErr.code? : GatewayErr → Option ErrCode
  | .gateway code _ _ => some code
  | .other _ => none

/-- A call with all its parameters. -/
def SendParams.Complete (sha256 : String → String) (p : SendParams) : Prop :=
  p.runtimeId ≠ "" ∧ p.requestId ≠ "" ∧ p.hash sha256 ≠ ""

/-- A row as it was inserted. -/
def CommandRow.Fresh (row : CommandRow) : Prop := row.state = .queued ∧ row.detail = .obj []

instance (row : CommandRow) : Decidable row.Fresh := inferInstanceAs (Decidable (_ ∧ _))

section

variable (sha256 : String → String) (reqs : ℕ → Option GateRequest) (r : String)

/-- No insert is lost to another payload, and no call finds the row of its payload
fresh while there is no message. -/
def Settled (s : Control) (i : ℕ) (o : GateOp) (_ : GateChoice) : Prop :=
  match o with
  | .enqueue row => ∀ row' ∈ s.commands row.requestId, row'.payloadHash = row.payloadHash
  | .getCommand r => ∀ row ∈ s.commands r,
    (reqs i).bind (·.hash? sha256) = some row.payloadHash → row.Fresh → 0 < s.injected r
  | _ => True

instance (s : Control) (i : ℕ) (c : GateChoice) :
    (o : GateOp) → Decidable (Settled sha256 reqs s i o c)
  | .enqueue row => inferInstanceAs (Decidable (∀ row' ∈ s.commands row.requestId, _))
  | .getCommand r => inferInstanceAs (Decidable (∀ row ∈ s.commands r,
      (reqs i).bind (·.hash? sha256) = some row.payloadHash → row.Fresh → 0 < s.injected r))
  | .update _ _ _ | .lookup _ _ | .mail _ | .revive _ _ | .uuid | .monotonic _
  | .nowIso => isTrue trivial

/-! ## What a call knows -/

/-- What a call knows of the command: its own payload, the payload of the row once
it has compared them, and whether the message has been written. -/
structure Known where
  mine : Option String
  stored : Option String := none
  posted : Bool := false

/-- A call learns from its insert, from the row of its payload and from the answer
to its mailbox write. It queues the command only when it knows of the message. -/
abbrev knownRole : Role GateOp GateAns where
  St := Known
  allows := fun q o => match o with
    | .enqueue row => row.requestId = r → some row.payloadHash = q.mine ∧ row.detail = .obj []
    | .update r' ch _ => r' = r → q.posted = true ∨ ∃ st, ch.state = some st ∧ st ≠ .queued
    | _ => True
  assumes := fun q o a => match o, a with
    | .getCommand r', row? => r' = r → ∀ h ∈ q.stored, ∃ row, row? = some row ∧ row.payloadHash = h
    | _, _ => True
  next := fun q o a => match o, a with
    | .getCommand r', some row =>
      if r' = r ∧ q.mine = some row.payloadHash then
        { q with stored := some row.payloadHash, posted := q.posted || row.state = .queued }
      else q
    | .enqueue row, _ => if row.requestId = r then { q with stored := some row.payloadHash } else q
    | .mail args, .delivered _ => if args.commandId = r then { q with posted := true } else q
    | _, _ => q

/-- What the calls know is true, and a `QUEUED` row that is not fresh has its
message. -/
structure KnownTrue (s : Control) (q : ℕ → Known) : Prop where
  mine : ∀ i, (q i).mine = (reqs i).bind (·.hash? sha256)
  stored : ∀ i, ∀ h ∈ (q i).stored, ∃ row, s.commands r = some row ∧ row.payloadHash = h
  posted : ∀ i, (q i).posted = true → 0 < s.injected r
  queued : ∀ row ∈ s.commands r, row.state = .queued → row.detail = .obj [] ∨ 0 < s.injected r

/-! ### Programs -/

variable {r}

theorem knownRole_ignores_of_follows {h : String} {o : GateOp} (ho : Follows r o) :
    (knownRole r).Ignores ⟨some h, some h, true⟩ o := by
  cases o with
  | getCommand r' =>
    refine ⟨trivial, fun row => ?_⟩
    cases row with
    | none => rfl
    | some row =>
      show ite _ _ _ = _
      split_ifs with hc
      · obtain ⟨-, hm⟩ := hc
        simp [Option.some.inj hm]
      · rfl
  | update r' ch basis => exact ⟨fun _ => .inl rfl, fun _ => rfl⟩
  | enqueue row => exact ho.elim
  | mail a => exact ho.elim
  | _ => exact ⟨trivial, fun _ => rfl⟩

theorem knownRole_ignores_of_concerns {r' : String} (hr : r' ≠ r) {q : Known} {o : GateOp}
    (ho : Concerns r' o) : (knownRole r).Ignores q o := by
  cases o with
  | getCommand r₁ =>
    have hne : r₁ ≠ r := by rw [ho]; exact hr
    refine ⟨trivial, fun row => ?_⟩
    cases row with
    | none => rfl
    | some row => exact if_neg fun h => hne h.1
  | update r₁ ch basis =>
    have hne : r₁ ≠ r := by rw [ho]; exact hr
    exact ⟨fun h => absurd h hne, fun _ => rfl⟩
  | enqueue row =>
    have hne : row.requestId ≠ r := by rw [ho]; exact hr
    exact ⟨fun h => absurd h hne, fun _ => if_neg hne⟩
  | mail a =>
    have hne : a.commandId ≠ r := by rw [ho]; exact hr
    refine ⟨trivial, fun answer => ?_⟩
    cases answer with
    | delivered mid => exact if_neg hne
    | failed mid error => rfl
    | raised error => rfl
  | _ => exact ⟨trivial, fun _ => rfl⟩

theorem knownRole_ignores_of_acks {r' : String} {o : GateOp} (ho : Acks r' o) :
    (knownRole r).Ignores ⟨none, none, false⟩ o := by
  cases o with
  | getCommand r₁ =>
    refine ⟨trivial, fun row => ?_⟩
    cases row with
    | none => rfl
    | some row => exact if_neg fun h => nomatch h.2
  | update r₁ ch basis => exact ⟨fun _ => .inr ho.2.1, fun _ => rfl⟩
  | enqueue row => exact ho.elim
  | mail a => exact ho.elim
  | _ => exact ⟨trivial, fun _ => rfl⟩

/-- How a call with the payload `h` may end. -/
def Told (p : SendParams) (q : Known) : Except GatewayErr CommandResult → Prop
  | .ok out => q.stored = some (p.hash sha256) ∧ (out.state = .queued → q.posted = true)
  | .error e => q.stored = some (p.hash sha256) ∨ e.code? = some .idempotencyConflict ∨
    e.code? = some .notFound ∨ ¬ p.Complete sha256

variable {sha256}

theorem follows_told {p : SendParams} {t : GateCall CommandResult}
    (ht : t.Only (Follows p.requestId)) :
    t.Keeps (knownRole p.requestId) ⟨some (p.hash sha256), some (p.hash sha256), true⟩
      (Told sha256 p) := by
  refine (ht.keeps fun _ => knownRole_ignores_of_follows).mono ?_
  rintro q res rfl
  cases res with
  | ok out => exact ⟨rfl, fun _ => rfl⟩
  | error e => exact .inl rfl

theorem finish_told (p : SendParams) (posted : Bool) :
    (finish p.requestId).Keeps (knownRole p.requestId)
      ⟨some (p.hash sha256), some (p.hash sha256), posted⟩ (Told sha256 p) := by
  refine ⟨trivial, fun row hrow => ?_⟩
  obtain ⟨row, rfl, hhash⟩ := hrow rfl _ rfl
  have hnext : (knownRole p.requestId).next ⟨some (p.hash sha256), some (p.hash sha256), posted⟩
      (.getCommand p.requestId) (some row) =
      ⟨some (p.hash sha256), some row.payloadHash, posted || row.state = .queued⟩ :=
    if_pos ⟨rfl, by rw [hhash]⟩
  rw [hnext, hhash]
  refine ⟨rfl, fun hq => ?_⟩
  have hq : row.state = .queued := hq
  simp [hq]

theorem fail_told (p : SendParams) (detail : Option Json) :
    (setState p.requestId { state := some .failedSafe, detail := detail } >>=
      fun _ => finish p.requestId).Keeps (knownRole p.requestId)
      ⟨some (p.hash sha256), some (p.hash sha256), false⟩ (Told sha256 p) := by
  refine ⟨fun _ => .inr ⟨_, rfl, nofun⟩, fun _ _ => ⟨trivial, fun row hrow => ?_⟩⟩
  obtain ⟨row, rfl, hhash⟩ := hrow rfl _ rfl
  have hnext : (knownRole p.requestId).next ⟨some (p.hash sha256), some (p.hash sha256), false⟩
      (.getCommand p.requestId) (some row) =
      ⟨some (p.hash sha256), some (p.hash sha256), false || row.state = .queued⟩ := by
    rw [← hhash]
    exact if_pos ⟨rfl, rfl⟩
  rw [hnext]
  exact finish_told p _

theorem dispatch_told (fuel : ℕ) (p : SendParams) (record : RuntimeRecord) :
    (dispatch fuel p record).Keeps (knownRole p.requestId)
      ⟨some (p.hash sha256), some (p.hash sha256), false⟩ (Told sha256 p) := by
  unfold dispatch
  split_ifs
  · refine ⟨fun _ => .inr ⟨_, rfl, nofun⟩, fun _ _ => ⟨trivial, fun row hrow => ?_⟩⟩
    obtain ⟨row, rfl, hhash⟩ := hrow rfl _ rfl
    refine .inl ?_
    show (ite _ _ _ : Known).stored = _
    rw [if_pos ⟨rfl, by rw [hhash]⟩, hhash]
  · obtain ⟨k, hk, hrest, hfail⟩ := mailAndGate_eq fuel p record
    rw [hk]
    refine ⟨trivial, fun answer _ => ?_⟩
    cases answer with
    | delivered mid =>
      have hnext : (knownRole p.requestId).next ⟨some (p.hash sha256), some (p.hash sha256), false⟩
          (.mail (mailArgs p record)) (.delivered mid) =
          ⟨some (p.hash sha256), some (p.hash sha256), true⟩ := if_pos rfl
      rw [hnext]
      exact follows_told (hrest _)
    | failed mid error =>
      obtain ⟨detail, hdetail⟩ := hfail (.failed mid error) nofun
      rw [hdetail]
      exact fail_told p detail
    | raised error =>
      obtain ⟨detail, hdetail⟩ := hfail (.raised error) nofun
      rw [hdetail]
      exact fail_told p detail

theorem runtimeSend_told (fuel : ℕ) (p : SendParams) :
    (runtimeSend sha256 fuel p).Keeps (knownRole p.requestId) ⟨some (p.hash sha256), none, false⟩
      (Told sha256 p) := by
  refine require_keeps (fun hc => .inr (.inr (.inr fun h => ?_))) fun hc => ?_
  · simp [h.1, h.2.1] at hc
  refine ⟨trivial, fun record _ => ?_⟩
  cases record with
  | none => exact .inr (.inr (.inl rfl))
  | some record =>
    refine require_keeps (fun hc => .inr (.inr (.inr fun h => ?_))) fun hc => ?_
    · simp [h.2.2] at hc
    refine ⟨trivial, fun row _ => ?_⟩
    cases row with
    | some existing =>
      show (replayCommand p (p.hash sha256) existing).Keeps _ _ _
      unfold replayCommand
      split_ifs with hhash
      · exact .inr (.inl rfl)
      · have hhash : existing.payloadHash = p.hash sha256 := not_not.mp hhash
        have hnext : (knownRole p.requestId).next ⟨some (p.hash sha256), none, false⟩
            (.getCommand p.requestId) (some existing) =
            ⟨some (p.hash sha256), some (p.hash sha256), false || existing.state = .queued⟩ := by
          rw [← hhash]
          exact if_pos ⟨rfl, rfl⟩
        rw [hnext]
        refine ⟨rfl, fun hq => ?_⟩
        have hq : existing.state = .queued := hq
        simp [hq]
    | none =>
      refine ⟨trivial, fun uid _ => ⟨fun _ => ⟨rfl, rfl⟩, fun created _ => ?_⟩⟩
      have hnext (created : Bool) : (knownRole p.requestId).next ⟨some (p.hash sha256), none, false⟩
          (.enqueue (newRow p record (p.hash sha256) uid)) created =
          ⟨some (p.hash sha256), some (p.hash sha256), false⟩ := if_pos rfl
      cases created with
      | true =>
        show (dispatch fuel p record).Keeps _ ((knownRole p.requestId).next
          ⟨some (p.hash sha256), none, false⟩ (.enqueue _) true) _
        rw [hnext]
        exact dispatch_told fuel p record
      | false =>
        show (finish p.requestId).Keeps _ ((knownRole p.requestId).next
          ⟨some (p.hash sha256), none, false⟩ (.enqueue _) false) _
        rw [hnext]
        exact finish_told p false

/-! ### The invariant -/

theorem injected_pos_mono {s : Control} {m : Posted} (h : 0 < s.injected r) :
    0 < Control.injected { s with posted := m :: s.posted } r := by
  unfold Control.injected at h ⊢
  rw [List.countP_cons]
  exact Nat.lt_of_lt_of_le h (Nat.le_add_right _ _)

variable {reqs}

theorem KnownTrue.frame {s s' : Control} {q : ℕ → Known} (h : KnownTrue sha256 reqs r s q)
    (hrows : ∀ row, s.commands r = some row →
      ∃ row', s'.commands r = some row' ∧ row'.payloadHash = row.payloadHash)
    (hposted : 0 < s.injected r → 0 < s'.injected r)
    (hqueued : ∀ row ∈ s'.commands r, row.state = .queued →
      row.detail = .obj [] ∨ 0 < s'.injected r) : KnownTrue sha256 reqs r s' q where
  mine := h.mine
  stored := fun i x hx => by
    obtain ⟨row, hrow, hhash⟩ := h.stored i x hx
    obtain ⟨row', hrow', hhash'⟩ := hrows row hrow
    exact ⟨row', hrow', hhash'.trans hhash⟩
  posted := fun i hi => hposted (h.posted i hi)
  queued := hqueued

theorem KnownTrue.learn {s : Control} {q : ℕ → Known} {i : ℕ} {x : Known}
    (h : KnownTrue sha256 reqs r s q) (hmine : x.mine = (q i).mine)
    (hstored : ∀ y ∈ x.stored, ∃ row, s.commands r = some row ∧ row.payloadHash = y)
    (hposted : x.posted = true → 0 < s.injected r) :
    KnownTrue sha256 reqs r s (Function.update q i x) := by
  refine ⟨fun j => ?_, fun j => ?_, fun j => ?_, h.queued⟩
  · by_cases hj : j = i
    · subst hj
      rw [Function.update_self, hmine]
      exact h.mine j
    · rw [Function.update_of_ne hj]
      exact h.mine j
  · by_cases hj : j = i
    · subst hj
      rw [Function.update_self]
      exact hstored
    · rw [Function.update_of_ne hj]
      exact h.stored j
  · by_cases hj : j = i
    · subst hj
      rw [Function.update_self]
      exact hposted
    · rw [Function.update_of_ne hj]
      exact h.posted j

theorem KnownTrue.setRow {s : Control} {q : ℕ → Known} {r' : String} {row : CommandRow}
    (h : KnownTrue sha256 reqs r s q)
    (hhash : r' = r → ∀ old, s.commands r = some old → row.payloadHash = old.payloadHash)
    (hqueued : r' = r → row.state = .queued → row.detail = .obj [] ∨ 0 < s.injected r) :
    KnownTrue sha256 reqs r (s.setRow r' row) q := by
  by_cases hr : r' = r
  · subst hr
    have hself : (s.setRow r' row).commands r' = some row := Function.update_self _ _ _
    refine h.frame (fun old hold => ⟨row, hself, hhash rfl old hold⟩) id fun row' hrow' => ?_
    obtain rfl := Option.some.inj (hself.symm.trans hrow')
    exact hqueued rfl
  · have hother : (s.setRow r' row).commands r = s.commands r :=
      Function.update_of_ne (fun e => hr e.symm) _ _
    refine h.frame (fun old hold => ⟨old, hother.trans hold, rfl⟩) id fun row' hrow' => ?_
    exact h.queued row' (hother.symm.trans hrow')

/-- **One step** of a call that keeps its role, in a run that meets the
condition. -/
theorem knownTrue_op :
    Pool.OpKeeps gateWorld (knownRole r) (Settled sha256 reqs) (KnownTrue sha256 reqs r) := by
  intro s q i o c a s' h ho hG hw
  cases o with
  | getCommand r' =>
    simp only [gateWorld, Control.perform, Option.some.injEq, Prod.mk.injEq] at hw
    obtain ⟨rfl, rfl⟩ := hw
    constructor
    · rintro rfl x hx
      exact h.stored i x hx
    · cases hrow : s.commands r' with
      | none => simpa using h
      | some row =>
        show KnownTrue sha256 reqs r s (Function.update q i (ite _ _ _))
        split_ifs with hc
        · obtain ⟨rfl, hmine⟩ := hc
          refine h.learn rfl (fun y hy => ⟨row, hrow, Option.some.inj hy⟩) fun hp => ?_
          simp only [Bool.or_eq_true, decide_eq_true_eq] at hp
          rcases hp with hp | hp
          · exact h.posted i hp
          · rcases h.queued row hrow hp with hd | hpos
            · exact hG row hrow (by rw [← h.mine i, hmine]) ⟨hp, hd⟩
            · exact hpos
        · simpa using h
  | enqueue row =>
    refine ⟨trivial, ?_⟩
    have hG' : ∀ row' ∈ s.commands row.requestId, row'.payloadHash = row.payloadHash := hG
    simp only [gateWorld, Control.perform] at hw
    by_cases hr : row.requestId = r
    · have hnext : (knownRole r).next (q i) (.enqueue row) a =
          { q i with stored := some row.payloadHash } := if_pos hr
      rw [hnext]
      subst hr
      cases hrow : s.commands row.requestId with
      | some row' =>
        simp only [hrow, Option.some.injEq, Prod.mk.injEq] at hw
        rw [← hw.2]
        refine h.learn rfl (fun y hy => ⟨row', hrow, ?_⟩) (h.posted i)
        rw [hG' row' hrow]
        exact Option.some.inj hy
      | none =>
        simp only [hrow, Option.some.injEq, Prod.mk.injEq] at hw
        rw [← hw.2]
        have hset : KnownTrue sha256 reqs row.requestId (s.setRow row.requestId row) q := by
          refine h.setRow (fun _ old hold => ?_) fun _ _ => .inl (ho rfl).2
          rw [hrow] at hold
          cases hold
        refine hset.learn rfl (fun y hy => ⟨row, Function.update_self _ _ _, ?_⟩) (hset.posted i)
        exact Option.some.inj hy
    · have hnext : (knownRole r).next (q i) (.enqueue row) a = q i := if_neg hr
      rw [hnext, Function.update_eq_self]
      cases hrow : s.commands row.requestId with
      | some row' =>
        simp only [hrow, Option.some.injEq, Prod.mk.injEq] at hw
        rw [← hw.2]
        exact h
      | none =>
        simp only [hrow, Option.some.injEq, Prod.mk.injEq] at hw
        rw [← hw.2]
        exact h.setRow (fun e => absurd e hr) (fun e => absurd e hr)
  | update r' ch basis =>
    refine ⟨trivial, ?_⟩
    have hnext : (knownRole r).next (q i) (.update r' ch basis) a = q i := rfl
    rw [hnext, Function.update_eq_self]
    simp only [gateWorld, Control.perform] at hw
    cases hrow : s.commands r' with
    | none =>
      simp only [hrow, Option.some.injEq, Prod.mk.injEq] at hw
      rw [← hw.2]
      exact h
    | some row =>
      simp only [hrow, Option.some.injEq, Prod.mk.injEq] at hw
      rw [← hw.2]
      refine h.setRow (fun e old hold => ?_) fun e hq => .inr ?_
      · subst e
        obtain rfl := Option.some.inj (hrow.symm.trans hold)
        rfl
      · rcases ho e with hp | ⟨st, hst, hne⟩
        · exact h.posted i hp
        · exact absurd (by simpa [CommandRow.apply, hst] using hq) hne
  | mail args =>
    refine ⟨trivial, ?_⟩
    simp only [gateWorld, Control.perform, Option.some.injEq, Prod.mk.injEq] at hw
    obtain ⟨rfl, rfl⟩ := hw
    have hmono : 0 < s.injected r → 0 < Control.injected { s with
        posted := if c.mail.posts then ⟨args, c.mail.msgId⟩ :: s.posted else s.posted } r := by
      intro hpos
      split_ifs
      · exact injected_pos_mono hpos
      · exact hpos
    have hframe : KnownTrue sha256 reqs r { s with
        posted := if c.mail.posts then ⟨args, c.mail.msgId⟩ :: s.posted else s.posted } q :=
      h.frame (fun row hrow => ⟨row, hrow, rfl⟩) hmono
        fun row hrow hq => (h.queued row hrow hq).imp_right hmono
    cases hmail : c.mail with
    | delivered mid =>
      simp only [hmail] at hframe
      by_cases hr : args.commandId = r
      · have hnext : (knownRole r).next (q i) (.mail args) (.delivered mid) =
            { q i with posted := true } := if_pos hr
        show KnownTrue sha256 reqs r _ (Function.update q i ((knownRole r).next (q i) (.mail args)
          (.delivered mid)))
        rw [hnext]
        refine hframe.learn rfl (hframe.stored i) fun _ => ?_
        simp [Control.injected, MailOutcome.posts, hr]
      · have hnext : (knownRole r).next (q i) (.mail args) (.delivered mid) = q i := if_neg hr
        show KnownTrue sha256 reqs r _ (Function.update q i ((knownRole r).next (q i) (.mail args)
          (.delivered mid)))
        rw [hnext, Function.update_eq_self]
        exact hframe
    | failed published mid error =>
      simp only [hmail] at hframe
      simpa [MailOutcome.answer] using hframe
    | raised published mid error =>
      simp only [hmail] at hframe
      simpa [MailOutcome.answer] using hframe
  | _ =>
    simp only [gateWorld, Control.perform, Option.some.injEq, Prod.mk.injEq] at hw
    rw [← hw.2]
    exact ⟨trivial, by simpa using h⟩

theorem knownTrue_crash :
    Pool.CrashKeeps gateWorld (knownRole r) (KnownTrue sha256 reqs r) := by
  intro s q i h
  refine ⟨q i, ?_⟩
  rw [Function.update_eq_self]
  exact h

variable (sha256 reqs)

/-- Every call keeps its role, and the one of process `i` says what it knows. -/
theorem gatePool_told (fuel i : ℕ) (p : SendParams) (hi : reqs i = some (.send p)) :
    (gatePool sha256 fuel .empty reqs).Kept (knownRole p.requestId)
      (KnownTrue sha256 reqs p.requestId)
      (fun j q res => j = i → Told sha256 p q res) := by
  refine ⟨fun j => ⟨(reqs j).bind (·.hash? sha256), none, false⟩,
    ⟨fun _ => rfl, nofun, nofun, nofun⟩, fun j => ?_⟩
  simp only [gatePool]
  cases hj : reqs j with
  | none => trivial
  | some req =>
    cases req with
    | ack a =>
      refine ((runtimeCommandAck_only a).keeps fun _ => knownRole_ignores_of_acks).mono ?_
      rintro _ _ - rfl
      rw [hi] at hj
      cases hj
    | send p' =>
      by_cases hr : p'.requestId = p.requestId
      · have htold := @runtimeSend_told sha256 fuel p'
        rw [hr] at htold
        refine htold.mono fun q res h hji => ?_
        subst hji
        rw [hi] at hj
        cases hj
        exact h
      · refine ((runtimeSend_concerns sha256 fuel p').keeps fun _ =>
          knownRole_ignores_of_concerns hr).mono ?_
        rintro _ _ - rfl
        rw [hi] at hj
        cases hj
        exact absurd rfl hr

/-- **The answers of `runtime_send` are truthful** in every settled run: a call
whose payload is not that of the row does not return a result, and what it raises
is the conflict unless it was refused before the row was read; and a result that
says `QUEUED` is given only when the message has been written. -/
theorem truthful_of_settled (fuel : ℕ) (es : List (Event GateChoice))
    (hes : (gatePool sha256 fuel .empty reqs).Admits gateWorld (Settled sha256 reqs) es)
    (i : ℕ) (p : SendParams) (hi : reqs i = some (.send p)) :
    let s := (gatePool sha256 fuel .empty reqs).run gateWorld es
    (∀ row, s.shared.commands p.requestId = some row → row.payloadHash ≠ p.hash sha256 →
      (∀ out, s.procs i ≠ .ret out) ∧
      ∀ e, s.procs i = .raise e → e.code? = some .idempotencyConflict ∨
        e.code? = some .notFound ∨ ¬ p.Complete sha256) ∧
    ∀ out, s.procs i = .ret out → out.state = .queued → out.status = "mailbox_persisted" →
      0 < s.shared.injected p.requestId := by
  intro s
  obtain ⟨q, hJ, hq⟩ := Pool.run_keeps knownTrue_op knownTrue_crash es
    (gatePool_told sha256 reqs fuel i p hi) hes
  have hi := hq i
  -- the payload of the row is the one the call has compared its own with
  have hstored {row : CommandRow} (hrow : s.shared.commands p.requestId = some row)
      (hne : row.payloadHash ≠ p.hash sha256) (h : (q i).stored = some (p.hash sha256)) :
      False := by
    obtain ⟨row', hrow', hhash⟩ := hJ.stored i _ h
    obtain rfl := Option.some.inj (hrow.symm.trans hrow')
    exact hne hhash
  refine ⟨fun row hrow hne => ⟨fun out hout => ?_, fun e he => ?_⟩, fun out hout hst _ => ?_⟩
  · rw [show ((gatePool sha256 fuel .empty reqs).run gateWorld es).procs i = .ret out from hout]
      at hi
    exact hstored hrow hne (hi rfl).1
  · rw [show ((gatePool sha256 fuel .empty reqs).run gateWorld es).procs i = .raise e from he]
      at hi
    rcases hi rfl with h | h
    · exact (hstored hrow hne h).elim
    · exact h
  · rw [show ((gatePool sha256 fuel .empty reqs).run gateWorld es).procs i = .ret out from hout]
      at hi
    exact hJ.posted i ((hi rfl).2 hst)

end

/-! ### Two calls for one `request_id` -/

/-- The same `request_id` with two payloads. -/
def twoPayloads : ℕ → Option GateRequest
  | 0 => some (.send task)
  | 1 => some (.send { task with body := "z", payloadHash := "h'" })
  | _ => none

/-- Both calls find no row; the second loses the insert and returns the row of the
first, with the other payload, as `mailbox_persisted`, and nothing is written. -/
theorem loser_reports_persisted :
    let s := (gatePool id 9 .empty twoPayloads).run gateWorld
      (gateTicks 0 2 ++ gateTicks 1 2 ++ gateTicks 0 2 ++ gateTicks 1 3)
    (∃ out, s.procs 1 = .ret out ∧ out.state = .queued ∧ out.status = "mailbox_persisted") ∧
      (s.shared.commands "r").map (·.payloadHash) = some "h" ∧ s.shared.injected "r" = 0 := by
  refine ⟨⟨_, rfl, ?_⟩, ?_⟩
  · decide +kernel
  · decide +kernel

/-- One call after the other: the second returns nothing, and the first is right
about its message. -/
theorem truthful_of_settled_in_turn :
    let s := (gatePool id 9 .empty twoPayloads).run gateWorld (gateTicks 0 9 ++ gateTicks 1 2)
    (∀ out, s.procs 1 ≠ .ret out) ∧
      (∃ out, s.procs 0 = .ret out ∧ out.status = "mailbox_persisted") ∧
      0 < s.shared.injected "r" := by
  have hes : (gatePool id 9 .empty twoPayloads).Admits gateWorld (Settled id twoPayloads)
      (gateTicks 0 9 ++ gateTicks 1 2) := by
    decide +kernel
  refine ⟨?_, ⟨_, rfl, ?_⟩, ?_⟩
  · exact ((truthful_of_settled id twoPayloads 9 _ hes 1 _ rfl).1 _ rfl (by decide +kernel)).1
  · decide +kernel
  · exact (truthful_of_settled id twoPayloads 9 _ hes 0 task rfl).2 _ rfl (by decide +kernel)
      (by decide +kernel)

end AiMeshChat.Gateway
