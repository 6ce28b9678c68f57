import AiMeshChat.Gateway.Records
import AiMeshChat.Gateway.Runtime

/-!
# Two channels for a turn

A plugin reports that a turn was triggered by `runtime_command_ack`, or by an event of the
kind `TURN_TRIGGERED`. The branch of `runtime_event` for such an event does to the state of
the command what the acknowledgement does. But the event has to be stored first, its kind
is not in `EVENT_KINDS`, and the store raises: the branch is never reached.
-/

namespace AiMeshChat.Gateway

open Lib Prog

/-- The state that an acknowledgement leaves, if it is legal. -/
def ackState (current target : CmdState) : Option CmdState :=
  if target ∈ CMD_TRANSITIONS current then some target
  else (advanceAckChain current target).map Prod.fst

theorem ackState_turnTriggered (current : CmdState) : ackState current .turnTriggered =
    if current.terminal then none else some .turnTriggered := by
  cases current <;> decide

def stateOf (commands : String → Option CommandRow) (key : String) : Option CmdState :=
  (commands key).map (·.state)

/-- The acknowledgement of a triggered turn. -/
def turnAck (key : String) : AckParams := { requestId := key, state := some .turnTriggered }

/-- The command is in the state that the acknowledgement leaves, from the same table, or is
unchanged if the acknowledgement fails. -/
def Agree (posted : List Posted) (s t : GatewayState) (key : String) : Prop :=
  ∀ result c, (runtimeCommandAck (turnAck key)).Runs gateWorld 0 (fun _ => True)
      ⟨s.commands, posted⟩ result c →
    match result with
    | .ok _ => stateOf t.commands key = stateOf c.commands key
    | .error _ => t.commands key = s.commands key

/-! ## The acknowledgement -/

section Ack

variable {i : ℕ} {P : GateChoice → Prop} {c : Control} {row : CommandRow} {a : AckParams}

theorem update_total {key : String} {ch : Change} {basis : Option CmdState} {st : CmdState}
    (hrow : c.commands key = some row) (hst : ch.state = some st) :
    (do
      let updated ← updateCommand key ch basis
      commandResult updated).Total gateWorld i P (fun _ => True) c fun r c' =>
        r.isOk = true ∧ stateOf c'.commands key = some st := by
  refine ⟨trivial, fun _ _ => ⟨(), c.setRow key (row.apply ch), ?_, ?_⟩⟩
  · simp only [gateWorld, Control.perform, hrow]
  · have hget : (c.setRow key (row.apply ch)).commands key = some (row.apply ch) :=
      Function.update_self ..
    refine ⟨trivial, fun _ _ => ⟨_, _, rfl, ?_⟩⟩
    rw [hget]
    refine ⟨trivial, rfl, ?_⟩
    rw [stateOf, hget]
    simp only [Option.map_some, CommandRow.apply, hst, Option.getD_some]

theorem applyAck_total (hrow : c.commands a.requestId = some row) (state : CmdState) :
    (applyAck a state row).Total gateWorld i P (fun _ => True) c fun r c' =>
      match ackState row.state state with
      | some st => r.isOk = true ∧ stateOf c'.commands a.requestId = some st
      | none => r.isOk = false := by
  unfold applyAck ackState
  split
  · exact ⟨trivial, fun _ _ => ⟨_, _, rfl, update_total hrow rfl⟩⟩
  · cases advanceAckChain row.state state with
    | none => exact ⟨trivial, rfl⟩
    | some x => exact ⟨trivial, fun _ _ => ⟨_, _, rfl, update_total hrow rfl⟩⟩

theorem turnAck_total {key : String} (hkey : key ≠ "") (hrow : c.commands key = some row) :
    (runtimeCommandAck (turnAck key)).Total gateWorld i P (fun _ => True) c fun r c' =>
      match ackState row.state .turnTriggered with
      | some st => r.isOk = true ∧ stateOf c'.commands key = some st
      | none => r.isOk = false := by
  have hreq : decide ((turnAck key).requestId ≠ "") = true := decide_eq_true hkey
  simp only [runtimeCommandAck, turnAck] at hreq ⊢
  rw [hreq]
  refine ⟨trivial, fun _ _ => ⟨_, _, rfl, ?_⟩⟩
  rw [hrow]
  exact applyAck_total (a := turnAck key) hrow .turnTriggered

end Ack

/-! ## The branch for the event -/

theorem agree_iff {posted : List Posted} {s t : GatewayState} {key : String} {row : CommandRow}
    (hkey : key ≠ "") (hrow : s.commands key = some row) : Agree posted s t key ↔
      match ackState row.state .turnTriggered with
      | some st => stateOf t.commands key = some st
      | none => t.commands key = some row := by
  have htotal := @turnAck_total 0 (fun _ => True) ⟨s.commands, posted⟩ row key hkey hrow
  constructor
  · intro h
    obtain ⟨r, c, hrun⟩ := htotal.runs (c := {}) trivial
    have hend := htotal.ends r c hrun
    have hsame := h r c hrun
    cases hack : ackState row.state .turnTriggered with
    | some st =>
      rw [hack] at hend
      obtain ⟨hok, hst⟩ := hend
      cases r with
      | ok _ => exact hsame.trans hst
      | error e => cases hok
    | none =>
      rw [hack] at hend
      cases r with
      | ok _ => cases hend
      | error e => exact hsame.trans hrow
  · intro h r c hrun
    have hend := htotal.ends r c hrun
    cases hack : ackState row.state .turnTriggered with
    | some st =>
      rw [hack] at hend h
      obtain ⟨hok, hst⟩ := hend
      cases r with
      | ok _ => exact h.trans hst.symm
      | error e => cases hok
    | none =>
      rw [hack] at hend h
      cases r with
      | ok _ => cases hend
      | error e => exact h.trans hrow.symm

/-! ## The event -/

theorem turn_event_invalid {d : RuntimeEventDraft} (turn : d.kind = "TURN_TRIGGERED") :
    ∃ e, d.validate = .error e := by
  cases hvalid : d.validate with
  | error e => exact ⟨e, rfl⟩
  | ok =>
    have hkind : d.kind ∈ EVENT_KINDS := (EventStore.validate_eq_ok.mp hvalid).2.1
    rw [turn] at hkind
    exact absurd hkind (by decide)

theorem turn_event_refused {now : ℤ} {d : RuntimeEventDraft} {s : GatewayState}
    (turn : d.kind = "TURN_TRIGGERED") : ∃ e, runtimeEvent now d s = (.error e, s) := by
  obtain ⟨e, hinvalid⟩ := turn_event_invalid turn
  have hstore : s.events.appendLocal d = .error e := by
    simp only [EventStore.appendLocal, hinvalid]
    rfl
  unfold runtimeEvent
  split
  · exact ⟨_, rfl⟩
  · split
    · exact ⟨_, rfl⟩
    · rw [hstore]
      exact ⟨e, rfl⟩

/-- **The channels agree about a command exactly if its state is terminal, as then neither
moves it.** -/
theorem channels_agree_iff {posted : List Posted} {now : ℤ} {d : RuntimeEventDraft}
    {s : GatewayState} {row : CommandRow} (turn : d.kind = "TURN_TRIGGERED")
    (named : commandKey d ≠ "") (hrow : s.commands (commandKey d) = some row) :
    Agree posted s (runtimeEvent now d s).2 (commandKey d) ↔ row.state.terminal = true := by
  obtain ⟨e, hevent⟩ := @turn_event_refused now d s turn
  rw [agree_iff named hrow, ackState_turnTriggered, hevent]
  cases hterm : row.state.terminal with
  | true => exact ⟨fun _ => rfl, fun _ => hrow⟩
  | false =>
    refine ⟨fun h => ?_, nofun⟩
    -- a state that is not terminal is not the one after the turn
    have hmap : stateOf s.commands (commandKey d) = some row.state := by rw [stateOf, hrow]; rfl
    have hst : row.state = .turnTriggered := Option.some_injective _ (hmap.symm.trans h)
    rw [hst] at hterm
    cases hterm

theorem channels_agree_failed :
    let row : CommandRow := { requestId := "c", commandId := "u", runtimeId := "r", generation := 1,
                              payloadHash := "", state := .failedSafe }
    let s := (runtimeRegister 0
      { sessionId := "s", agentId := "a", runtimeId := "r", generation := 1 } (some ["a"])
      { events := { sourceHost := "h" }, commands := fun key => if key = "c" then some row else none }).2
    Agree [] s (runtimeEvent 1 { runtimeId := "r", generation := 1, sessionId := "s", requestId := "c",
                                 kind := "TURN_TRIGGERED" } s).2 "c" ↔
      CmdState.failedSafe.terminal = true :=
  @channels_agree_iff [] 1
    { runtimeId := "r", generation := 1, sessionId := "s", requestId := "c", kind := "TURN_TRIGGERED" }
    _ { requestId := "c", commandId := "u", runtimeId := "r", generation := 1, payloadHash := ""
        state := .failedSafe } rfl (by decide) rfl

/-- A queued command of a registered runtime, and the event with its id. -/
theorem queued_not_triggered :
    let row : CommandRow := { requestId := "c", commandId := "u", runtimeId := "r", generation := 1,
                              payloadHash := "", state := .queued }
    let s := (runtimeRegister 0
      { sessionId := "s", agentId := "a", runtimeId := "r", generation := 1 } (some ["a"])
      { events := { sourceHost := "h" }, commands := fun key => if key = "c" then some row else none }).2
    ¬ Agree [] s (runtimeEvent 1 { runtimeId := "r", generation := 1, sessionId := "s", requestId := "c",
                                   kind := "TURN_TRIGGERED" } s).2 "c" := by
  intro row s h
  have hack := h _ _ (runs_of_exec (c := {}) (n := 10) trivial rfl)
  exact absurd hack (by decide +kernel)

end AiMeshChat.Gateway
