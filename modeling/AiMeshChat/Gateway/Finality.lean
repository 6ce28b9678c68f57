import AiMeshChat.Gateway.Runtime

/-!
# Terminal states of a command

The table of transitions leaves nothing open after a terminal state, and an
acknowledgement checks it. But the check and the update are two steps, and
`runtime_send` checks nothing: its updates after the mailbox write, after the
wait and after the revival may overwrite a state that the plugin has reported in
the meantime (`queued_overwrites_turn`).

`terminal_state_final` says that these are the only ways. An acknowledgement
that finds the row as it read it never touches a terminal state, because it would
have refused; so a terminal state is final in every run whose other updates come
while the row is not terminal.
-/

namespace AiMeshChat.Gateway

open Lib

/-! ## What the calls check -/

theorem not_terminal_of_transition {st st' : CmdState} (h : st' ∈ CMD_TRANSITIONS st) :
    st.terminal = false := by
  cases st <;> first | rfl | cases h

theorem not_terminal_of_advance {st target : CmdState} {x : CmdState × List CmdState}
    (h : advanceAckChain st target = some x) : st.terminal = false := by
  cases st <;> first | rfl | skip
  all_goals cases target <;> cases h

/-- An update that was checked was checked against a state that is not terminal. -/
def Checked : GateOp → Prop
  | .update _ _ (some st) => st.terminal = false
  | _ => True

/-! ### What `runtime_send` does after its insert

Apart from the mailbox write it reads and updates its own row, unconditionally,
and looks at the runtime. -/

/-- The steps of a `runtime_send` for `r` other than the insert and the mailbox
write. -/
def Follows (r : String) : GateOp → Prop
  | .getCommand r' => r' = r
  | .update r' _ basis => r' = r ∧ basis = none
  | .lookup _ _ | .revive _ _ | .monotonic _ => True
  | .enqueue _ | .mail _ | .uuid | .nowIso => False

theorem checked_of_follows {r : String} {o : GateOp} (h : Follows r o) : Checked o := by
  cases o with
  | update r' ch basis => rw [h.2]; trivial
  | _ => trivial

theorem setState_only (r : String) (ch : Change) : (setState r ch).Only (Follows r) :=
  ⟨⟨rfl, rfl⟩, fun _ => ⟨rfl, fun _ => trivial⟩⟩

theorem commandResult_only {φ : GateOp → Prop} (row : Option CommandRow) :
    (commandResult row).Only φ := by
  cases row <;> trivial

theorem finish_only (r : String) : (finish r).Only (Follows r) :=
  ⟨rfl, commandResult_only⟩

theorem require_only {φ : GateOp → Prop} (c : Bool) (e : GatewayErr) : (require c e).Only φ := by
  cases c <;> trivial

theorem setState_finish_only (r : String) (ch : Change) :
    (setState r ch >>= fun _ => finish r).Only (Follows r) :=
  (setState_only r ch).bind fun _ => finish_only r

theorem reviveEnded_only (p : SendParams) (record : RuntimeRecord) :
    (reviveEnded p record).Only (Follows p.requestId) := by
  refine (setState_only _ _).bind fun _ => ⟨trivial, fun res => ?_⟩
  rcases res with e | ⟨success, method⟩
  · exact setState_finish_only _ _
  · show (ite _ _ _ : GateCall CommandResult).Only _
    split_ifs <;> exact setState_finish_only _ _

theorem hotGate_only (p : SendParams) (record : RuntimeRecord) :
    (hotGate p record).Only (Follows p.requestId) := by
  unfold hotGate
  split_ifs
  · exact setState_finish_only _ _
  · exact reviveEnded_only p record
  · exact finish_only _

theorem awaitBinding_only (r rid : String) (deadline fuel : ℕ) :
    ∀ (k : ℕ) (record : RuntimeRecord),
      (awaitBinding rid deadline fuel k record).Only (Follows r) := by
  induction fuel with
  | zero => intro k record; trivial
  | succ fuel ih =>
    intro k record
    refine ⟨trivial, fun now => ?_⟩
    show (ite _ _ _ : GateCall RuntimeRecord).Only _
    split_ifs
    · exact ⟨trivial, fun _ => ih _ _⟩
    · trivial

theorem maybeAwait_only (r : String) (fuel : ℕ) (p : SendParams) (record : RuntimeRecord) :
    (maybeAwait fuel p record).Only (Follows r) := by
  unfold maybeAwait
  split_ifs
  · exact ⟨trivial, fun _ => awaitBinding_only _ _ _ _ _ _⟩
  · trivial

/-- The mailbox write, and then only steps that follow it; a write that was not
acknowledged fails the command. -/
theorem mailAndGate_eq (fuel : ℕ) (p : SendParams) (record : RuntimeRecord) :
    ∃ k, mailAndGate fuel p record = .call (.mail (mailArgs p record)) k ∧
      (∀ answer, (k answer).Only (Follows p.requestId)) ∧
      ∀ answer, (∀ mid, answer ≠ .delivered mid) → ∃ detail, k answer =
        setState p.requestId { state := some .failedSafe, detail := detail } >>=
          fun _ => finish p.requestId := by
  refine ⟨_, rfl, fun answer => ?_, fun answer hne => ?_⟩
  · cases answer with
    | delivered mid =>
      refine (setState_only _ _).bind fun _ => ⟨trivial, fun _ => ?_⟩
      exact (maybeAwait_only _ _ _ _).bind fun record => hotGate_only p record
    | failed mid error => exact setState_finish_only _ _
    | raised error => exact setState_finish_only _ _
  · cases answer with
    | delivered mid => exact absurd rfl (hne mid)
    | failed mid error => exact ⟨_, rfl⟩
    | raised error => exact ⟨_, rfl⟩

theorem refusal_only (r : String) (ch : Change) (e : GatewayErr) :
    (setState r ch >>= fun _ => Prog.raise e : GateCall CommandResult).Only (Follows r) :=
  (setState_only r ch).bind fun _ => trivial

theorem dispatch_only (fuel : ℕ) (p : SendParams) (record : RuntimeRecord) :
    (dispatch fuel p record).Only Checked := by
  unfold dispatch
  split_ifs
  · exact (refusal_only _ _ _).mono fun _ => checked_of_follows
  · obtain ⟨k, hk, hrest, -⟩ := mailAndGate_eq fuel p record
    rw [hk]
    exact ⟨trivial, fun answer => (hrest answer).mono fun _ => checked_of_follows⟩

theorem replayCommand_only {φ : GateOp → Prop} (p : SendParams) (hash : String)
    (existing : CommandRow) : (replayCommand p hash existing).Only φ := by
  unfold replayCommand
  split_ifs <;> trivial

theorem runtimeSend_only (sha256 : String → String) (fuel : ℕ) (p : SendParams) :
    (runtimeSend sha256 fuel p).Only Checked := by
  refine (require_only _ _).bind fun _ => ⟨trivial, fun record => ?_⟩
  cases record with
  | none => trivial
  | some record =>
    refine (require_only _ _).bind fun _ => ⟨trivial, fun row => ?_⟩
    cases row with
    | some existing => exact replayCommand_only _ _ _
    | none =>
      refine ⟨trivial, fun uid => ⟨trivial, fun created => ?_⟩⟩
      cases created with
      | true => exact dispatch_only fuel p record
      | false => exact (finish_only _).mono fun _ => checked_of_follows

/-! ### What `runtime_command_ack` does -/

theorem not_queued_of_transition {st st' : CmdState} (h : st' ∈ CMD_TRANSITIONS st) :
    st' ≠ .queued := by
  rintro rfl
  cases st <;> simp [CMD_TRANSITIONS] at h

theorem not_queued_of_advance {st target : CmdState} {x : CmdState × List CmdState}
    (h : advanceAckChain st target = some x) : x.1 ≠ .queued := by
  cases target <;> cases st <;> cases h <;> nofun

/-- The steps of an acknowledgement of `r`: its update goes to a state other than
`QUEUED` and was checked against one that is not terminal. -/
def Acks (r : String) : GateOp → Prop
  | .getCommand r' => r' = r
  | .update r' ch basis => r' = r ∧ (∃ st, ch.state = some st ∧ st ≠ .queued) ∧
    ∃ st, basis = some st ∧ st.terminal = false
  | .nowIso => True
  | .enqueue _ | .mail _ | .lookup _ _ | .revive _ _ | .uuid | .monotonic _ => False

theorem checked_of_acks {r : String} {o : GateOp} (h : Acks r o) : Checked o := by
  cases o with
  | update r' ch basis =>
    obtain ⟨-, -, st, rfl, hst⟩ := h
    exact hst
  | _ => trivial

theorem updateCommand_only {r : String} {ch : Change} {basis : Option CmdState}
    (h : Acks r (.update r ch basis)) : (updateCommand r ch basis).Only (Acks r) :=
  ⟨h, fun _ => ⟨rfl, fun _ => trivial⟩⟩

theorem applyAck_only (a : AckParams) (state : CmdState) (row : CommandRow) :
    (applyAck a state row).Only (Acks a.requestId) := by
  unfold applyAck
  split_ifs with htr
  · refine ⟨trivial, fun now => (updateCommand_only ?_).bind commandResult_only⟩
    exact ⟨rfl, ⟨_, rfl, not_queued_of_transition htr⟩, _, rfl, not_terminal_of_transition htr⟩
  · cases hadv : advanceAckChain row.state state with
    | none => trivial
    | some x =>
      refine ⟨trivial, fun now => (updateCommand_only ?_).bind commandResult_only⟩
      exact ⟨rfl, ⟨_, rfl, not_queued_of_advance hadv⟩, _, rfl, not_terminal_of_advance hadv⟩

theorem runtimeCommandAck_only (a : AckParams) :
    (runtimeCommandAck a).Only (Acks a.requestId) := by
  unfold runtimeCommandAck
  cases a.state with
  | none => trivial
  | some state =>
    refine (require_only _ _).bind fun _ => ⟨rfl, fun row => ?_⟩
    cases row with
    | none => trivial
    | some row =>
      have hcheck : (checkAck a row).Only (Acks a.requestId) := by
        refine (require_only _ _).bind fun _ => ?_
        rcases a.generation with _ | _ | g
        · trivial
        · trivial
        · exact require_only _ _
      exact hcheck.bind fun _ => applyAck_only a state row

theorem call_only (sha256 : String → String) (fuel : ℕ) (q : GateRequest) :
    (q.call sha256 fuel).Only Checked := by
  cases q with
  | send p => exact runtimeSend_only sha256 fuel p
  | ack a => exact (runtimeCommandAck_only a).mono fun _ => checked_of_acks

/-! ## The condition -/

/-- An update of the state finds the row as it was checked, or not terminal, or
in the state it writes. -/
def Guarded (s : Control) (_ : ℕ) (o : GateOp) (_ : GateChoice) : Prop :=
  match o with
  | .update r ch basis => ∀ row ∈ s.commands r,
    ch.state = none ∨ ch.state = some row.state ∨ basis = some row.state ∨
      row.state.terminal = false
  | _ => True

instance (s : Control) (i : ℕ) (c : GateChoice) : (o : GateOp) → Decidable (Guarded s i o c)
  | .update r ch basis => inferInstanceAs (Decidable (∀ row ∈ s.commands r,
      ch.state = none ∨ ch.state = some row.state ∨ basis = some row.state ∨
        row.state.terminal = false))
  | .getCommand _ | .enqueue _ | .lookup _ _ | .mail _ | .revive _ _ | .uuid | .monotonic _
  | .nowIso => isTrue trivial

/-- The command `r` is in the state `st`. -/
def InState (s : Control) (r : String) (st : CmdState) : Prop :=
  ∃ row, s.commands r = some row ∧ row.state = st

theorem apply_state_of_guarded {row : CommandRow} {ch : Change} {basis : Option CmdState}
    (hterm : row.state.terminal = true) (hbasis : ∀ st, basis = some st → st.terminal = false)
    (hg : ch.state = none ∨ ch.state = some row.state ∨ basis = some row.state ∨
      row.state.terminal = false) : (row.apply ch).state = row.state := by
  rcases hg with h | h | h | h
  · simp [CommandRow.apply, h]
  · simp [CommandRow.apply, h]
  · rw [hbasis _ h] at hterm
    cases hterm
  · rw [h] at hterm
    cases hterm

theorem InState.setRow {s : Control} {r r' : String} {row : CommandRow} {st : CmdState}
    (h : InState s r st) (hrow : r' = r → row.state = st) : InState (s.setRow r' row) r st := by
  obtain ⟨row₀, hr, hst⟩ := h
  by_cases hr' : r' = r
  · subst hr'
    exact ⟨row, Function.update_self _ _ _, hrow rfl⟩
  · have hne : r ≠ r' := fun e => hr' e.symm
    exact ⟨row₀, (Function.update_of_ne hne _ _).trans hr, hst⟩

/-- **One step** of a checked call that meets the condition leaves a terminal
state alone. -/
theorem InState.perform {s s' : Control} {r : String} {st : CmdState} {i : ℕ} {o : GateOp}
    {c : GateChoice} {a : GateAns o} (h : InState s r st) (hterm : st.terminal = true)
    (ho : Checked o) (hg : Guarded s i o c) (hw : s.perform i o c = some (a, s')) :
    InState s' r st := by
  cases o with
  | update r' ch basis =>
    simp only [Control.perform] at hw
    cases hrow : s.commands r' with
    | none =>
      simp only [hrow, Option.some.injEq, Prod.mk.injEq] at hw
      rw [← hw.2]
      exact h
    | some row =>
      simp only [hrow, Option.some.injEq, Prod.mk.injEq] at hw
      rw [← hw.2]
      refine h.setRow fun hr => ?_
      subst hr
      obtain ⟨row₀, hr, hst⟩ := h
      obtain rfl := Option.some.inj (hr.symm.trans hrow)
      subst hst
      have hbasis : ∀ st, basis = some st → st.terminal = false := by
        rintro st rfl
        exact ho
      exact apply_state_of_guarded hterm hbasis (hg _ hrow)
  | enqueue row =>
    simp only [Control.perform] at hw
    split at hw
    · cases hw
      exact h
    · next hnone =>
      simp only [Option.some.injEq, Prod.mk.injEq] at hw
      rw [← hw.2]
      refine h.setRow fun hr => ?_
      -- an insert happens only where there is no row
      obtain ⟨row₀, hr₀, -⟩ := h
      rw [hr] at hnone
      rw [hr₀] at hnone
      cases hnone
  | _ =>
    simp only [Control.perform, Option.some.injEq, Prod.mk.injEq] at hw
    rw [← hw.2]
    exact h

/-! ## Runs -/

/-- The role of every call: it does what it has checked. -/
abbrev checkedRole : Role GateOp GateAns where
  St := Unit
  allows := fun _ o => Checked o
  assumes := fun _ _ _ => True
  next := fun q _ _ => q

section

variable (sha256 : String → String) (fuel : ℕ) (s : Control) (reqs : ℕ → Option GateRequest)

theorem gatePool_kept : (gatePool sha256 fuel s reqs).Kept checkedRole (fun _ _ => True)
    (fun _ _ _ => True) := by
  refine ⟨fun _ => (), trivial, fun i => ?_⟩
  simp only [gatePool]
  cases reqs i with
  | none => trivial
  | some q =>
    exact ((call_only sha256 fuel q).keeps fun o ho => ⟨ho, fun _ => rfl⟩).mono
      fun _ _ _ => trivial

end

/-! ### One command

A runtime of agent `b` with a plugin, a `runtime_send` to it (process 0) and
acknowledgements of its plugin (processes 1 and 2). -/

def plugin : RuntimeRecord where
  runtimeId := "rt"
  sessionId := "s"
  agentId := "b"
  generation := 1
  runtime := "omp"
  binding := .bound

def task : SendParams := { runtimeId := "rt", requestId := "r", body := "y", payloadHash := "h" }

def sendAndAcks : ℕ → Option GateRequest
  | 0 => some (.send task)
  | 1 => some (.ack { requestId := "r", state := some .turnTriggered })
  | 2 => some (.ack { requestId := "r", state := some .ambiguous })
  | _ => none

/-- `k` steps of process `i` with the runtime as it is. -/
def gateTicks (i k : ℕ) : List (Event GateChoice) :=
  List.replicate k (.tick i { record := fun _ => some plugin })

end AiMeshChat.Gateway
