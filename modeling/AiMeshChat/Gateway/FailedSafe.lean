import AiMeshChat.Gateway.Finality

/-!
# What `FAILED_SAFE` promises

A command in the state `FAILED_SAFE` was "definitely not triggered", so that the
caller may send the task again under a new `request_id`. That is true of the
backends that are refused before the mailbox write. It is not true when the
write fails after the message has gone into the inbox, and not when the revival
of an ended agent fails: the message is in the inbox by then
(`failed_revival_leaves_message`).

`failedSafe_iff` is the exact statement for one call: any parameters, any state
of the gateway, and any environment, that is any runtime record at every look,
any outcome of the mailbox write and of `park_revive`.
-/

namespace AiMeshChat.Gateway

open Lib

/-- If the command has failed safely, no message that carries its `request_id` is
in the inbox. -/
def NotDelivered (s : Control) (r : String) : Prop :=
  InState s r .failedSafe → ∀ m ∈ s.posted, m.args.commandId ≠ r

instance (s : Control) (r : String) (st : CmdState) : Decidable (InState s r st) :=
  decidable_of_iff ((s.commands r).map CommandRow.state = some st) Option.map_eq_some_iff

instance (s : Control) (r : String) : Decidable (NotDelivered s r) :=
  inferInstanceAs (Decidable (InState s r .failedSafe → ∀ m ∈ s.posted, m.args.commandId ≠ r))

/-! ## The condition -/

/-- The record after the wait for the binding; `none` when the bound on the number
of looks is reached. -/
def awaited (c : GateChoice) (deadline : ℕ) : ℕ → ℕ → RuntimeRecord → Option RuntimeRecord
  | 0, _, _ => none
  | fuel + 1, k, record =>
    if c.time k < deadline ∧ record.binding ≠ .bound then
      awaited c deadline fuel (k + 1) ((c.record k).getD record)
    else some record

/-- The record that the hot gate judges: the one after the mailbox write, or that
at the end of the wait. -/
def gateRecord (fuel : ℕ) (p : SendParams) (c : GateChoice) (record : RuntimeRecord) :
    Option RuntimeRecord :=
  let record := (c.record 1).getD record
  if p.waitBinding && record.binding = .pending && record.presence = .alive then
    awaited c (c.time 0 + 1000 * p.waitSecs) fuel 2 record
  else some record

/-- `park_revive` succeeds by one of the three methods. -/
def revives : Except String (Bool × String) → Bool
  | .ok (success, method) => success && (method = "hot" || method = "warm" || method = "cold")
  | .error _ => false

/-- The environment in which `FAILED_SAFE` is wrong: the mailbox write fails with
the message in the inbox, or it succeeds, the gate is open, and the revival of the
ended agent fails. -/
def Strands (fuel : ℕ) (p : SendParams) (c : GateChoice) (record : RuntimeRecord) : Prop :=
  match c.mail with
  | .delivered _ => ∃ g, gateRecord fuel p c record = some g ∧ isHot g = true ∧
      g.agentState = .ended ∧ revives c.revive = false
  | .failed published _ _ | .raised published _ _ => published = true

/-- The call gets as far as the mailbox write: its parameters are complete, the
`request_id` is new, and the runtime is known and has a consumer. -/
def Writes (sha256 : String → String) (p : SendParams) (s : Control) (record : RuntimeRecord) :
    Prop :=
  p.runtimeId ≠ "" ∧ p.requestId ≠ "" ∧ p.hash sha256 ≠ "" ∧ s.commands p.requestId = none ∧
    hasConsumer record = true

/-! ## The parts of the call -/

section

variable {i : ℕ} {c : GateChoice} {s : Control} {r : String} {st : CmdState}

theorem setState_ends (h : InState s r st) (ch : Change) :
    (setState r ch).Ends gateWorld i (· = c) s fun res s' =>
      res = .ok () ∧ InState s' r (ch.state.getD st) ∧ s'.posted = s.posted := by
  obtain ⟨row, hrow, rfl⟩ := h
  refine Prog.ends_op_bind fun c' a s₁ _ hw => Prog.ends_op_bind fun c'' a' s₂ _ hw' => ?_
  simp only [gateWorld, Control.perform, hrow, Option.some.injEq, Prod.mk.injEq] at hw hw'
  rw [← hw'.2, ← hw.2]
  exact Prog.ends_ret ⟨rfl, ⟨_, Function.update_self _ _ _, rfl⟩, rfl⟩

theorem finish_ends : (finish r).Ends gateWorld i (· = c) s fun _ s' => s' = s := by
  refine Prog.ends_op_bind fun c' a s₁ _ hw => ?_
  simp only [gateWorld, Control.perform, Option.some.injEq, Prod.mk.injEq] at hw
  cases a with
  | none => exact Prog.ends_raise hw.2.symm
  | some row => exact Prog.ends_ret hw.2.symm

theorem setState_finish_ends (h : InState s r st) (ch : Change) :
    (setState r ch >>= fun _ => finish r).Ends gateWorld i (· = c) s fun _ s' =>
      InState s' r (ch.state.getD st) ∧ s'.posted = s.posted := by
  refine (setState_ends h ch).bind (fun _ s₁ h₁ => ?_) (fun _ _ h => by cases h.1)
  refine finish_ends.mono fun _ s' hs => ?_
  rw [hs]
  exact h₁.2

theorem reviveEnded_ends (p : SendParams) (record : RuntimeRecord)
    (h : InState s p.requestId st) :
    (reviveEnded p record).Ends gateWorld i (· = c) s fun _ s' =>
      s'.posted = s.posted ∧ ∃ st', InState s' p.requestId st' ∧
        (st' = .failedSafe ↔ revives c.revive = false) := by
  refine (setState_ends h _).bind (fun _ s₁ h₁ => ?_) (fun _ _ h => by cases h.1)
  refine Prog.ends_op_bind fun c' a s₂ hc hw => ?_
  simp only [gateWorld, Control.perform, Option.some.injEq, Prod.mk.injEq] at hw
  obtain ⟨rfl, rfl⟩ := hw
  subst hc
  generalize c'.revive = rev
  -- every branch writes one state, which tells how the revival ended
  have hbranch (ch : Change) (st' : CmdState)
      (hst : st' = .failedSafe ↔ revives rev = false) (hch : ch.state = some st') :
      (setState p.requestId ch >>= fun _ => finish p.requestId).Ends gateWorld i (· = c') s₁
        fun _ s' => s'.posted = s.posted ∧ ∃ st', InState s' p.requestId st' ∧
          (st' = .failedSafe ↔ revives rev = false) := by
    refine (setState_finish_ends h₁.2.1 ch).mono fun _ s' hs' => ⟨hs'.2.trans h₁.2.2, st', ?_, hst⟩
    rw [hch] at hs'
    exact hs'.1
  rcases rev with e | ⟨success, method⟩
  · exact hbranch _ .failedSafe (by simp [revives]) rfl
  · show (ite _ _ _ : GateCall CommandResult).Ends _ _ _ _ _
    split_ifs with h1 h2
    · simp only [Bool.and_eq_true, Bool.or_eq_true, decide_eq_true_eq] at h1
      refine hbranch _ .reviving ?_ rfl
      rcases h1 with ⟨rfl, rfl | rfl⟩ <;> simp [revives]
    · simp only [Bool.and_eq_true, decide_eq_true_eq] at h2
      refine hbranch _ .queued ?_ rfl
      obtain ⟨rfl, rfl⟩ := h2
      simp [revives]
    · refine hbranch _ .failedSafe ?_ rfl
      by_cases hs : success = true
      · subst hs
        simp only [Bool.true_and, Bool.or_eq_true, decide_eq_true_eq, not_or] at h1 h2
        simp [revives, h1, h2]
      · simp [revives, hs]

theorem hotGate_ends (p : SendParams) (record : RuntimeRecord)
    (h : InState s p.requestId .queued) :
    (hotGate p record).Ends gateWorld i (· = c) s fun _ s' =>
      s'.posted = s.posted ∧ ∃ st', InState s' p.requestId st' ∧
        (st' = .failedSafe ↔
          isHot record = true ∧ record.agentState = .ended ∧ revives c.revive = false) := by
  unfold hotGate
  split_ifs with hhot hended
  · refine (setState_finish_ends h _).mono fun _ s' hs' => ⟨hs'.2, .queued, hs'.1, ?_⟩
    simp only [Bool.not_eq_true'] at hhot
    simp [hhot]
  · refine (reviveEnded_ends p record h).mono ?_
    rintro _ s' ⟨hp, st', hst', hiff⟩
    simp only [Bool.not_eq_true', Bool.not_eq_false] at hhot
    exact ⟨hp, st', hst', by rw [hiff]; simp [hhot, hended]⟩
  · refine finish_ends.mono fun _ s' hs' => ?_
    rw [hs']
    exact ⟨rfl, .queued, h, by simp [hended]⟩

theorem refetch_ends (k : ℕ) (rid : String) (record : RuntimeRecord) :
    (refetch k rid record).Ends gateWorld i (· = c) s fun res s' =>
      res = .ok ((c.record k).getD record) ∧ s' = s := by
  refine Prog.ends_op_bind fun c' a s₁ hc hw => ?_
  simp only [gateWorld, Control.perform, Option.some.injEq, Prod.mk.injEq] at hw
  obtain ⟨rfl, rfl⟩ := hw
  subst hc
  exact Prog.ends_ret ⟨rfl, rfl⟩

theorem awaitBinding_ends (rid : String) (deadline fuel : ℕ) :
    ∀ (k : ℕ) (record : RuntimeRecord),
      (awaitBinding rid deadline fuel k record).Ends gateWorld i (· = c) s fun res s' =>
        s' = s ∧ ∃ g, res = .ok g ∧ awaited c deadline fuel k record = some g := by
  induction fuel with
  | zero => intro k record; exact Prog.ends_hang
  | succ fuel ih =>
    intro k record
    refine Prog.ends_op_bind fun c' a s₁ hc hw => ?_
    simp only [gateWorld, Control.perform, Option.some.injEq, Prod.mk.injEq] at hw
    obtain ⟨rfl, rfl⟩ := hw
    subst hc
    show (ite _ _ _ : GateCall RuntimeRecord).Ends _ _ _ _ _
    rw [awaited]
    split_ifs with hwait
    · refine (refetch_ends k rid record).bind (fun g s₁ h₁ => ?_) (fun _ _ h => by cases h.1)
      obtain ⟨hg, rfl⟩ := h₁
      cases hg
      exact ih _ _
    · exact Prog.ends_ret ⟨rfl, record, rfl, rfl⟩

theorem maybeAwait_ends (fuel : ℕ) (p : SendParams) (record : RuntimeRecord) :
    (maybeAwait fuel p ((c.record 1).getD record)).Ends gateWorld i (· = c) s fun res s' =>
      s' = s ∧ ∃ g, res = .ok g ∧ gateRecord fuel p c record = some g := by
  unfold maybeAwait gateRecord
  simp only
  split_ifs with hwait
  · refine Prog.ends_op_bind fun c' a s₁ hc hw => ?_
    simp only [gateWorld, Control.perform, Option.some.injEq, Prod.mk.injEq] at hw
    obtain ⟨rfl, rfl⟩ := hw
    subst hc
    exact awaitBinding_ends _ _ _ _ _
  · exact Prog.ends_ret ⟨rfl, _, rfl, rfl⟩

/-! ### What is in the inbox -/

theorem notDelivered_of_clean (h : ∀ m ∈ s.posted, m.args.commandId ≠ r) : NotDelivered s r :=
  fun _ => h

theorem notDelivered_iff_of_posted {m : Posted} (hst : InState s r st) (hm : m ∈ s.posted)
    (hr : m.args.commandId = r) : NotDelivered s r ↔ st ≠ .failedSafe := by
  obtain ⟨row, hrow, rfl⟩ := hst
  constructor
  · intro h hfs
    exact h ⟨row, hrow, hfs⟩ m hm hr
  · rintro hne ⟨row', hrow', hfs⟩
    obtain rfl := Option.some.inj (hrow.symm.trans hrow')
    exact absurd hfs hne

/-! ### The mailbox write and what follows -/

theorem failedWrite_ends (hst : InState s r st) (args : Mailbox.SendArgs) (hargs : args.commandId = r)
    (hclean : ∀ m ∈ s.posted, m.args.commandId ≠ r) (mid : String) (published : Bool) (ch : Change)
    (hch : ch.state = some .failedSafe) :
    (setState r ch >>= fun _ => finish r).Ends gateWorld i (· = c)
      { s with posted := if published then ⟨args, mid⟩ :: s.posted else s.posted } fun _ s' =>
        NotDelivered s' r ↔ ¬ published = true := by
  have hst' : InState { s with
      posted := if published then ⟨args, mid⟩ :: s.posted else s.posted } r st := hst
  refine (setState_finish_ends hst' ch).mono ?_
  rintro _ s' ⟨hs', hposted⟩
  rw [hch] at hs'
  cases published with
  | true =>
    have hm : (⟨args, mid⟩ : Posted) ∈ s'.posted := by
      rw [hposted]
      exact List.mem_cons_self
    rw [notDelivered_iff_of_posted hs' hm hargs]
    simp
  | false =>
    have hnd : NotDelivered s' r := notDelivered_of_clean (by rw [hposted]; exact hclean)
    simp [hnd]

theorem mailAndGate_ends (fuel : ℕ) (p : SendParams) (record : RuntimeRecord)
    (hst : InState s p.requestId .queued)
    (hclean : ∀ m ∈ s.posted, m.args.commandId ≠ p.requestId) :
    (mailAndGate fuel p record).Ends gateWorld i (· = c) s fun _ s' =>
      NotDelivered s' p.requestId ↔ ¬ Strands fuel p c record := by
  refine Prog.ends_op_bind fun c' a s₁ hc hw => ?_
  subst hc
  simp only [gateWorld, Control.perform, Option.some.injEq, Prod.mk.injEq] at hw
  obtain ⟨rfl, rfl⟩ := hw
  cases hmail : c'.mail with
  | failed published mid error =>
    simp only [Strands, hmail]
    exact failedWrite_ends hst (mailArgs p record) rfl hclean mid published _ rfl
  | raised published mid error =>
    simp only [Strands, hmail]
    exact failedWrite_ends hst (mailArgs p record) rfl hclean mid published _ rfl
  | delivered mid =>
    have hst' : InState { s with posted := ⟨mailArgs p record, mid⟩ :: s.posted } p.requestId
        .queued := hst
    refine (setState_ends hst' _).bind (fun _ s₁ h₁ => ?_) (fun _ _ h => by cases h.1)
    obtain ⟨-, hst₁, hposted₁⟩ := h₁
    refine (refetch_ends 1 p.runtimeId record).bind (fun g₁ s₂ h₂ => ?_) (fun _ _ h => by cases h.1)
    obtain ⟨hg₁, rfl⟩ := h₂
    cases hg₁
    refine (maybeAwait_ends fuel p record).bind (fun g s₃ h₃ => ?_)
      (fun _ _ h => by obtain ⟨_, _, h, _⟩ := h; cases h)
    obtain ⟨rfl, g', hg', hgate⟩ := h₃
    cases hg'
    refine (hotGate_ends p g hst₁).mono ?_
    rintro _ s' ⟨hposted, st', hst', hiff⟩
    have hm : (⟨mailArgs p record, mid⟩ : Posted) ∈ s'.posted := by
      rw [hposted, hposted₁]
      exact List.mem_cons_self
    rw [notDelivered_iff_of_posted hst' hm rfl, ne_eq, hiff]
    simp only [Strands, hmail, hgate, Option.some.injEq, exists_eq_left']

end

/-! ## The whole call -/

theorem require_ends {i : ℕ} {c : GateChoice} {s : Control} (b : Bool) (e : GatewayErr) :
    (require b e).Ends gateWorld i (· = c) s fun res s' =>
      s' = s ∧ (res = .ok () ∧ b = true ∨ res = .error e ∧ b = false) := by
  cases b with
  | true => exact Prog.ends_ret ⟨rfl, .inl ⟨rfl, rfl⟩⟩
  | false => exact Prog.ends_raise ⟨rfl, .inr ⟨rfl, rfl⟩⟩

theorem dispatch_ends {i : ℕ} {c : GateChoice} {s : Control} (fuel : ℕ) (p : SendParams)
    (record : RuntimeRecord) (hst : InState s p.requestId .queued)
    (hclean : ∀ m ∈ s.posted, m.args.commandId ≠ p.requestId) :
    (dispatch fuel p record).Ends gateWorld i (· = c) s fun _ s' =>
      NotDelivered s' p.requestId ↔ ¬ (hasConsumer record = true ∧ Strands fuel p c record) := by
  unfold dispatch
  split_ifs with hcons
  · simp only [Bool.not_eq_true'] at hcons
    refine (setState_ends hst _).bind (fun _ s₁ h₁ => ?_) (fun _ _ h => by cases h.1)
    have hnd : NotDelivered s₁ p.requestId :=
      notDelivered_of_clean (by rw [h₁.2.2]; exact hclean)
    exact Prog.ends_raise (by simp [hnd, hcons])
  · simp only [Bool.not_eq_true', Bool.not_eq_false] at hcons
    simpa only [hcons, true_and] using mailAndGate_ends fuel p record hst hclean

theorem afterLookup_ends {i : ℕ} {c : GateChoice} {s : Control} (fuel : ℕ) (p : SendParams)
    (record : RuntimeRecord) (hash : String) (hnd : NotDelivered s p.requestId)
    (hclean : s.commands p.requestId = none → ∀ m ∈ s.posted, m.args.commandId ≠ p.requestId) :
    (do
      match ← getCommand p.requestId with
      | some existing => replayCommand p hash existing
      | none =>
        let uid ← Prog.op GateOp.uuid
        let created ← Prog.op (GateOp.enqueue (newRow p record hash uid))
        if created then dispatch fuel p record
        else finish p.requestId : GateCall CommandResult).Ends gateWorld i (· = c) s fun _ s' =>
      NotDelivered s' p.requestId ↔
        ¬ (s.commands p.requestId = none ∧ hasConsumer record = true ∧ Strands fuel p c record) := by
  refine Prog.ends_op_bind fun c' a s₁ hc hw => ?_
  simp only [gateWorld, Control.perform, Option.some.injEq, Prod.mk.injEq] at hw
  obtain ⟨rfl, rfl⟩ := hw
  cases hrow : s.commands p.requestId with
  | some existing =>
    have hrow' : (replayCommand p hash existing).Ends gateWorld i (· = c) s fun _ s' => s' = s := by
      unfold replayCommand
      split_ifs
      · exact Prog.ends_raise rfl
      · exact Prog.ends_ret rfl
    refine hrow'.mono fun _ s' hs' => ?_
    rw [hs']
    simp [hnd]
  | none =>
    refine Prog.ends_op_bind fun c₁ uid s₁ hc₁ hw₁ => ?_
    simp only [gateWorld, Control.perform, Option.some.injEq, Prod.mk.injEq] at hw₁
    obtain ⟨-, rfl⟩ := hw₁
    refine Prog.ends_op_bind fun c₂ created s₂ hc₂ hw₂ => ?_
    simp only [gateWorld, Control.perform, newRow, hrow, Option.some.injEq, Prod.mk.injEq] at hw₂
    obtain ⟨rfl, rfl⟩ := hw₂
    have hst : InState (s.setRow p.requestId (newRow p record hash uid)) p.requestId .queued :=
      ⟨_, Function.update_self _ _ _, rfl⟩
    simp only [true_and]
    exact dispatch_ends fuel p record hst (hclean hrow)

/-- **`FAILED_SAFE` means not delivered, exactly when** the call does not get to a
mailbox write that strands its message. `s` is any state of the gateway in which
a message with the `request_id` is there only if its command is, and is not
`FAILED_SAFE`; `c` is any environment. -/
theorem failedSafe_iff (sha256 : String → String) (fuel i : ℕ) (p : SendParams) (c : GateChoice)
    (s s' : Control) (res : Except GatewayErr CommandResult)
    (hs : ∀ m ∈ s.posted, m.args.commandId = p.requestId →
      ∃ st, InState s p.requestId st ∧ st ≠ .failedSafe)
    (hrun : (runtimeSend sha256 fuel p).Runs gateWorld i (· = c) s res s') :
    NotDelivered s' p.requestId ↔
      ¬ ∃ record, c.record 0 = some record ∧ Writes sha256 p s record ∧ Strands fuel p c record := by
  have hnd : NotDelivered s p.requestId := by
    rintro ⟨row, hrow, hfs⟩ m hm hr
    obtain ⟨st, ⟨row', hrow', rfl⟩, hne⟩ := hs m hm hr
    obtain rfl := Option.some.inj (hrow.symm.trans hrow')
    exact hne hfs
  have hclean : s.commands p.requestId = none →
      ∀ m ∈ s.posted, m.args.commandId ≠ p.requestId := by
    intro hnone m hm hr
    obtain ⟨_, ⟨row, hrow, -⟩, -⟩ := hs m hm hr
    rw [hnone] at hrow
    cases hrow
  refine (?_ : (runtimeSend sha256 fuel p).Ends gateWorld i (· = c) s fun _ s' =>
    NotDelivered s' p.requestId ↔ ¬ ∃ record, c.record 0 = some record ∧
      Writes sha256 p s record ∧ Strands fuel p c record) res s' hrun
  refine (require_ends _ _).bind (fun _ s₁ h₁ => ?_) (fun e s₁ h₁ => ?_)
  · obtain ⟨rfl, ⟨-, hids⟩ | ⟨h, -⟩⟩ := h₁
    · simp only [Bool.and_eq_true, decide_eq_true_eq] at hids
      refine Prog.ends_op_bind fun c' a s₂ hc hw => ?_
      subst hc
      simp only [gateWorld, Control.perform, Option.some.injEq, Prod.mk.injEq] at hw
      obtain ⟨ha, rfl⟩ := hw
      cases a with
      | none => exact Prog.ends_raise (by simp [hnd, ha])
      | some record =>
        simp only [ha, Option.some.injEq, exists_eq_left']
        refine (require_ends _ _).bind (fun _ s₃ h₃ => ?_) (fun e s₃ h₃ => ?_)
        · obtain ⟨rfl, ⟨-, hhash⟩ | ⟨h, -⟩⟩ := h₃
          · simp only [decide_eq_true_eq] at hhash
            refine (afterLookup_ends fuel p record _ hnd hclean).mono fun _ s' hs' => ?_
            rw [hs', Writes]
            simp [hids.1, hids.2, hhash, and_assoc]
          · cases h
        · obtain ⟨rfl, ⟨h, -⟩ | ⟨-, hhash⟩⟩ := h₃
          · cases h
          · simp only [decide_eq_false_iff_not, not_not] at hhash
            simp [hnd, Writes, hhash]
    · cases h
  · obtain ⟨rfl, ⟨h, -⟩ | ⟨-, hids⟩⟩ := h₁
    · cases h
    · simp only [Bool.and_eq_false_iff, decide_eq_false_iff_not, not_not] at hids
      refine iff_of_true hnd ?_
      rintro ⟨record, -, ⟨hrt, hreq, -⟩, -⟩
      exact hids.elim hrt hreq

/-! ### An ended agent -/

/-- The runtime of `plugin` after its agent has ended, when `park_revive` raises. -/
def endedPlugin : GateChoice where
  record := fun _ => some { plugin with agentState := .ended }
  revive := .error "registry unavailable"

/-- The message is in the inbox, the revival raises, and the command is reported
as failed safely. -/
theorem failed_revival_leaves_message :
    ∃ res s', (runtimeSend id 9 task).Runs gateWorld 0 (· = endedPlugin) .empty res s' ∧
      ¬ NotDelivered s' "r" := by
  refine ⟨_, _, Prog.runs_exec (n := 20) (by decide +kernel), ?_⟩
  decide +kernel

/-- With the agent idle the command stays queued, and the promise holds. -/
theorem failedSafe_iff_idle :
    ∃ res s', (runtimeSend id 9 task).Runs gateWorld 0 (· = { record := fun _ => some plugin })
      .empty res s' ∧ NotDelivered s' "r" := by
  have hsome : ((runtimeSend id 9 task).exec gateWorld 0 { record := fun _ => some plugin } 20
      .empty).isSome = true := by
    decide +kernel
  have hrun := Prog.runs_exec hsome
  refine ⟨_, _, hrun, (failedSafe_iff id 9 0 task _ .empty _ _ nofun hrun).mpr ?_⟩
  rintro ⟨record, hrec, -, g, hg, -, hended, -⟩
  obtain rfl := Option.some.inj hrec
  obtain rfl := Option.some.inj hg
  cases hended

end AiMeshChat.Gateway
