import AiMeshChat.Ledger.Terminal
import AiMeshChat.Lib.History

/-!
# What `apply_message` says that it has recorded

A call of `apply_message` reads the ledger without the lock, for a PROGRESS twice, and then
records under it; what `record_event` answers is not looked at. Calls may come between each
two of these steps.

So a REPORT that comes after a terminal event is said to be recorded as DONE, where the ledger
has a PROTOCOL_CONFLICT, and two PROGRESS calls that have both found no RUNNING record two.
In runs without these two steps a call records what it says, there is at most one RUNNING, and
only a REPORT changes the terminal state (`applies_right_iff`).
-/

namespace AiMeshChat.Ledger

open Lib Lib.History

/-! ## A line more -/

/-- Each file is a text whose lines are complete. -/
def Whole (s : Logs) : Prop :=
  ∀ rid, ∃ cs, (s.files rid).getD [] = encode cs ∧ (cs = [] ∨ ∃ cs', cs = cs' ++ ['\n'])

theorem whole_empty : Whole .empty := fun _ => ⟨[], rfl, Or.inl rfl⟩

theorem parseLines_append (d : ℕ) (ls ms : List (List Char)) :
    parseLines d (ls ++ ms) =
      (parseLines d ls).bind fun es => (parseLines d ms).map (es ++ ·) := by
  induction ls with
  | nil =>
    rw [List.nil_append, parseLines, Except.bind]
    cases parseLines d ms <;> rfl
  | cons l ls ih =>
    rw [List.cons_append, parseLines, parseLines]
    split
    · exact ih
    · cases loads d (strip l) with
      | error e =>
        cases e with
        | invalid => exact ih
        | recursion => rfl
      | ok v =>
        simp only [ih]
        cases parseLines d ls with
        | error e => rfl
        | ok es => cases parseLines d ms <;> rfl

section Append

variable {d : ℕ} {s : Logs} {rid run event : String} {ts : FloatText} {info : Json}

theorem files_append (rid' : String) : (append s rid run event ts info).files rid' =
    if rid' = rid then some ((s.files rid).getD [] ++ encode (lineOf (entryOf rid run event ts info)))
    else s.files rid' := by
  rw [Ledger.append, Logs.write]
  exact Function.update_apply ..

theorem Whole.append (h : Whole s) : Whole (append s rid run event ts info) := by
  intro rid'
  by_cases hr : rid' = rid
  · subst hr
    obtain ⟨cs, hcs, -⟩ := h rid'
    refine ⟨cs ++ lineOf (entryOf rid' run event ts info), ?_,
      Or.inr ⟨cs ++ spaced (entryOf rid' run event ts info), ?_⟩⟩
    · rw [files_append, if_pos rfl, Option.getD_some, hcs, encode_append]
    · rw [lineOf, ← List.append_assoc]
  · obtain ⟨cs, hcs, hend⟩ := h rid'
    refine ⟨cs, ?_, hend⟩
    rw [files_append, if_neg hr, hcs]

theorem readAll_text {cs : List Char} (hrid : eventsDir rid = .ok ())
    (h : (s.files rid).getD [] = encode cs) : readAll d s rid = parseLines d (splitLines cs) := by
  rw [readAll, hrid]
  simp only [bind, Except.bind]
  cases hf : s.files rid with
  | none =>
    rw [hf, Option.getD_none] at h
    have hutf := congrArg utf8 h
    rw [utf8_encode] at hutf
    cases Option.some.inj hutf.symm
    rfl
  | some bytes =>
    rw [hf, Option.getD_some] at h
    simp only [h, utf8_encode]

theorem parseLines_lineOf (h : Entry.Clean d ⟨rid, run, event, ts, info⟩) :
    parseLines (d + 1) (splitLines (lineOf (entryOf rid run event ts info))) =
      .ok [entryOf rid run event ts info] := by
  have hes : ∀ e ∈ [(⟨rid, run, event, ts, info⟩ : Entry)], e.Clean d := by
    intro e he
    rwa [List.mem_singleton.mp he]
  have hrender : render [⟨rid, run, event, ts, info⟩] = lineOf (entryOf rid run event ts info) :=
    List.flatMap_singleton ..
  have hparse := parseLines_render hes []
  have hcr := no_cr_render hes
  rw [hrender] at hcr
  rw [List.append_nil, hrender] at hparse
  rw [splitLines, joinCrLf_of_no_cr hcr, hparse]
  rfl

/-- **The entry that is added** is read back behind the others. -/
theorem readAll_append (h : Whole s) (hclean : Entry.Clean d ⟨rid, run, event, ts, info⟩)
    (rid' : String) : readAll (d + 1) (append s rid run event ts info) rid' =
      (readAll (d + 1) s rid').map
        (· ++ if rid' = rid then [entryOf rid run event ts info] else []) := by
  cases hdir : eventsDir rid' with
  | error e =>
    rw [readAll, readAll, hdir]
    rfl
  | ok u =>
    obtain ⟨cs, hcs, hend⟩ := h rid'
    rw [readAll_text hdir hcs]
    by_cases hr : rid' = rid
    · subst hr
      have hlines : splitLines (cs ++ lineOf (entryOf rid' run event ts info)) =
          splitLines cs ++ splitLines (lineOf (entryOf rid' run event ts info)) := by
        rcases hend with rfl | ⟨cs', rfl⟩
        · rfl
        · rw [List.append_assoc, List.singleton_append, splitLines_append]
      have hnew : ((append s rid' run event ts info).files rid').getD [] =
          encode (cs ++ lineOf (entryOf rid' run event ts info)) := by
        rw [files_append, if_pos rfl, Option.getD_some, hcs, encode_append]
      rw [readAll_text hdir hnew, hlines, parseLines_append, parseLines_lineOf hclean, if_pos rfl]
      cases parseLines (d + 1) (splitLines cs) <;> rfl
    · have hold : ((append s rid run event ts info).files rid').getD [] = encode cs := by
        rw [files_append, if_neg hr, hcs]
      rw [readAll_text hdir hold, if_neg hr]
      cases parseLines (d + 1) (splitLines cs) with
      | error e => rfl
      | ok es => rw [Except.map, List.append_nil]

theorem readEntries_append (h : Whole s) (hclean : Entry.Clean d ⟨rid, run, event, ts, info⟩)
    (rid' run' : String) : readEntries (d + 1) (append s rid run event ts info) rid' run' =
      (readEntries (d + 1) s rid' run').map
        (· ++ if rid' = rid ∧ run' = run then [entryOf rid run event ts info] else []) := by
  rw [readEntries, readEntries, readAll_append h hclean]
  cases readAll (d + 1) s rid' with
  | error e => rfl
  | ok es =>
    have hdict : (entryOf rid run event ts info).isDict = true := rfl
    have hrun : (entryOf rid run event ts info).get? "run_id" = some (.str run) := rfl
    simp only [bind, Except.bind, Except.map]
    by_cases hr : rid' = rid
    · simp only [if_pos hr, List.all_append, List.all_cons, hdict, List.all_nil, Bool.and_true]
      split
      · rw [List.filter_append]
        by_cases hr' : run' = run
        · simp [hr, hr', hrun]
        · have hne : run ≠ run' := fun e => hr' e.symm
          simp [hr', hrun, hne]
      · rfl
    · simp only [List.append_nil, hr, false_and, if_false]
      split <;> rfl

theorem firstTerminal_append (es fs : List Json) : firstTerminal (es ++ fs) =
    (firstTerminal es).bind fun t => t.elim (firstTerminal fs) fun t => .ok (some t) := by
  induction es with
  | nil => rfl
  | cons e es ih =>
    rw [List.cons_append, firstTerminal, firstTerminal]
    cases terminalOf e with
    | error e => rfl
    | ok t =>
      cases t with
      | some t => rfl
      | none => exact ih

theorem getTerminal_append (h : Whole s) (hclean : Entry.Clean d ⟨rid, run, event, ts, info⟩)
    (rid' run' : String) : getTerminal (d + 1) (append s rid run event ts info) rid' run' =
      (getTerminal (d + 1) s rid' run').map fun t => t.or
        (if rid' = rid ∧ run' = run ∧ event ∈ TERMINAL_STATES then some event else none) := by
  rw [getTerminal, getTerminal, readEntries_append h hclean]
  cases readEntries (d + 1) s rid' run' with
  | error e => rfl
  | ok es =>
    have hentry : terminalOf (entryOf rid run event ts info) =
        .ok (if event ∈ TERMINAL_STATES then some event else none) := rfl
    have hlast : firstTerminal (if rid' = rid ∧ run' = run then
        [entryOf rid run event ts info] else []) =
        .ok (if rid' = rid ∧ run' = run ∧ event ∈ TERMINAL_STATES then some event else none) := by
      by_cases hpair : rid' = rid ∧ run' = run
      · rw [if_pos hpair, firstTerminal, hentry]
        by_cases ht : event ∈ TERMINAL_STATES
        · simp [hpair, ht, bind, Except.bind, pure, Except.pure]
        · simp [ht, firstTerminal, bind, Except.bind]
      · rw [if_neg hpair, if_neg fun h => hpair ⟨h.1, h.2.1⟩]
        rfl
    simp only [Except.map, bind, Except.bind, firstTerminal_append, hlast]
    cases firstTerminal es with
    | error e => rfl
    | ok t => cases t <;> rfl

theorem getTerminal_append_other (h : Whole s)
    (hclean : Entry.Clean d ⟨rid, run, event, ts, info⟩) (hevent : event ∉ TERMINAL_STATES)
    (rid' run' : String) : getTerminal (d + 1) (append s rid run event ts info) rid' run' =
      getTerminal (d + 1) s rid' run' := by
  rw [getTerminal_append h hclean, if_neg fun hmem => hevent hmem.2.2]
  cases getTerminal (d + 1) s rid' run' with
  | error e => rfl
  | ok t => cases t <;> rfl

theorem mem_of_firstTerminal {es : List Json} {t : String} (h : firstTerminal es = .ok (some t)) :
    t ∈ TERMINAL_STATES := by
  induction es with
  | nil => cases h
  | cons e es ih =>
    obtain ⟨x, hx, h⟩ := Mailbox.bind_eq_ok.mp h
    cases x with
    | none => exact ih h
    | some event =>
      cases h
      unfold terminalOf at hx
      split at hx
      · cases hx
      · split at hx
        · next hmem =>
          cases hx
          exact hmem
        · cases hx
      · cases hx
      · cases hx
      · cases hx

theorem conflict_clean (hdir : eventsDir rid = .ok ()) (hrun : NoSeparator run)
    (hevent : NoSeparator event) {d' : ℕ} {t : String}
    (ht : getTerminal d' s rid run = .ok (some t)) :
    Entry.Clean (d + 1) ⟨rid, run, "PROTOCOL_CONFLICT", ts, conflictInfo event t⟩ := by
  obtain ⟨es, -, hfirst⟩ := Mailbox.bind_eq_ok.mp ht
  have hsep : NoSeparator t := by
    have hall : ∀ t ∈ TERMINAL_STATES, NoSeparator t := by decide
    exact hall t (mem_of_firstTerminal hfirst)
  have hdict := plainDict_cons (k := "frozen_event") (by decide) hevent (by simp)
    (plainDict_cons (k := "existing_terminal") (by decide) hsep (by simp) plainDict_nil)
  exact ⟨noSeparator_of_eventsDir hdir, hrun, (by decide : NoSeparator "PROTOCOL_CONFLICT"),
    hdict.proper, hdict.oneLine⟩

end Append

/-! ## A terminal event stays -/

section Stays

variable {d : ℕ} {s s' : Logs} {rid run event : String} {info : Json} {ts : FloatText}

/-- What `record_event` appends. -/
theorem recordEvent_ok {accepted : Bool}
    (h : recordEvent d s rid run event info ts = .ok (accepted, s')) :
    eventsDir rid = .ok () ∧ (s' = append s rid run event ts info ∨
      ∃ t, getTerminal d s rid run = .ok (some t) ∧
        s' = append s rid run "PROTOCOL_CONFLICT" ts (conflictInfo event t)) := by
  obtain ⟨⟨b, event', info'⟩, hdecide, h⟩ := Mailbox.bind_eq_ok.mp h
  obtain ⟨u, hdir, hdecide⟩ := Mailbox.bind_eq_ok.mp hdecide
  refine ⟨hdir, ?_⟩
  cases h
  split at hdecide
  · obtain ⟨t, ht, hdecide⟩ := Mailbox.bind_eq_ok.mp hdecide
    cases t with
    | none =>
      cases hdecide
      exact Or.inl rfl
    | some t =>
      cases hdecide
      exact Or.inr ⟨t, ht, rfl⟩
  · cases hdecide
    exact Or.inl rfl

/-- A call of `record_event` with clean texts. -/
theorem recordEvent_stays {c : EventCall} {accepted : Bool} {t : String} (hwhole : Whole s)
    (hclean : c.Clean (d + 1))
    (h : recordEvent (d + 2) s c.rid c.run c.event c.info c.ts = .ok (accepted, s'))
    (ht : getTerminal (d + 2) s rid run = .ok (some t)) :
    Whole s' ∧ getTerminal (d + 2) s' rid run = .ok (some t) := by
  obtain ⟨hdir, hs⟩ := recordEvent_ok h
  rcases hs with rfl | ⟨t', ht', rfl⟩
  · have hentry : Entry.Clean (d + 1) ⟨c.rid, c.run, c.event, c.ts, c.info⟩ :=
      ⟨noSeparator_of_eventsDir hdir, hclean.run, hclean.event, hclean.proper, hclean.info⟩
    refine ⟨hwhole.append, ?_⟩
    rw [getTerminal_append hwhole hentry, ht]
    rfl
  · have hentry : Entry.Clean (d + 1)
        ⟨c.rid, c.run, "PROTOCOL_CONFLICT", c.ts, conflictInfo c.event t'⟩ :=
      conflict_clean hdir hclean.run hclean.event ht'
    refine ⟨hwhole.append, ?_⟩
    rw [getTerminal_append hwhole hentry, ht]
    rfl

/-- **A terminal event stays** the terminal state in every run of clean operations. -/
theorem runOps_stays {ops : List LedgerOp} (hops : ∀ op ∈ ops, op.Clean (d + 1)) {t : String} :
    ∀ {st : Logs × List Recorded}, Whole st.1 → getTerminal (d + 2) st.1 rid run = .ok (some t) →
      getTerminal (d + 2) (runOps (d + 2) ops st).1 rid run = .ok (some t) := by
  induction ops with
  | nil => exact fun _ ht => ht
  | cons op ops ih =>
    intro st hwhole ht
    have hrest : ∀ op' ∈ ops, op'.Clean (d + 1) := fun op' h => hops op' (List.mem_cons_of_mem _ h)
    have hstep : Whole (perform (d + 2) st op).1 ∧
        getTerminal (d + 2) (perform (d + 2) st op).1 rid run = .ok (some t) := by
      unfold perform
      cases hc : op.call (d + 2) st.1 with
      | none => exact ⟨hwhole, ht⟩
      | some c =>
        dsimp only
        cases hrec : recordEvent (d + 2) st.1 c.rid c.run c.event c.info c.ts with
        | error e => exact ⟨hwhole, ht⟩
        | ok x =>
          exact recordEvent_stays hwhole (call_clean (hops op List.mem_cons_self) hc) hrec ht
    exact ih hrest hstep.1 hstep.2

end Stays

/-! ## Calls step by step -/

/-- Where a call of `apply_message` is. -/
inductive Phase
  | called
  | unfinished
  | decided (event : String) (info : Json)
  | returned (event : String)
  | raised (err : LedgerErr)

/-- `any(e["event"] == "RUNNING" for e in entries)`. -/
def anyRunning : List Json → Except LedgerErr Bool
  | [] => .ok false
  | e :: es =>
    match e.get? "event" with
    | none => .error (.keyError "event")
    | some event => if event = .str "RUNNING" then .ok true else anyRunning es

/-- A call up to the next time that it reads or writes the ledger: a PROGRESS looks for a
terminal event, then for a RUNNING, and what is decided is recorded under the lock. -/
def advance (d : ℕ) (m : LedgerMessage) (ts : FloatText) (s : Logs) : Phase → Phase × Logs
  | .called =>
    if m.kind = "PROGRESS" ∧ m.requestId ≠ "" ∧ m.runId ≠ "" then
      match getTerminal d s m.requestId m.runId with
      | .error e => (.raised e, s)
      | .ok (some _) => (.returned "", s)
      | .ok none => (.unfinished, s)
    else
      match eventFor d s m with
      | .error e => (.raised e, s)
      | .ok none => (.returned "", s)
      | .ok (some (event, info)) => (.decided event info, s)
  | .unfinished =>
    match readEntries d s m.requestId m.runId >>= anyRunning with
    | .error e => (.raised e, s)
    | .ok true => (.returned "", s)
    | .ok false => (.decided "RUNNING" (.obj [("msg_id", .str m.msgId)]), s)
  | .decided event info =>
    match recordEvent d s m.requestId m.runId event info ts with
    | .error e => (.raised e, s)
    | .ok (_, s') => (.returned event, s')
  | .returned event => (.returned event, s)
  | .raised e => (.raised e, s)

theorem anyRunning_of_firstTerminal {es : List Json} (h : firstTerminal es = .ok none) :
    ∃ events : List Json,
      es.mapM (fun e => (e.get? "event").elim (.error (LedgerErr.keyError "event")) .ok) =
        Except.ok events ∧ anyRunning es = .ok (decide (Json.str "RUNNING" ∈ events)) := by
  induction es with
  | nil => exact ⟨[], rfl, rfl⟩
  | cons e es ih =>
    rw [firstTerminal] at h
    cases hevent : e.get? "event" with
    | none =>
      rw [terminalOf, hevent] at h
      cases h
    | some event =>
      have hrest : firstTerminal es = .ok none := by
        obtain ⟨t, ht, h⟩ := Mailbox.bind_eq_ok.mp h
        cases t with
        | some t => cases h
        | none => exact h
      obtain ⟨events, hmap, hany⟩ := ih hrest
      refine ⟨event :: events, ?_, ?_⟩
      · rw [List.mapM_cons, hevent, hmap]
        rfl
      · rw [anyRunning, hevent, hany]
        by_cases hrun : event = .str "RUNNING"
        · simp [hrun]
        · have hne : Json.str "RUNNING" ≠ event := fun e => hrun e.symm
          simp [hrun, hne]

/-- **A call that is not disturbed** is the call of `apply_message`. -/
theorem advance_alone (d : ℕ) (m : LedgerMessage) (ts : FloatText) (s : Logs) :
    let first := advance d m ts s .called
    let second := advance d m ts first.2 first.1
    let third := advance d m ts second.2 second.1
    third = match applyMessage d s m ts with
      | .error e => (.raised e, s)
      | .ok (event, s') => (.returned event, s') := by
  intro first second third
  by_cases hprogress : m.kind = "PROGRESS" ∧ m.requestId ≠ "" ∧ m.runId ≠ ""
  · obtain ⟨hkind, hrid, hrun⟩ := hprogress
    have hfor : eventFor d s m = _ := if_neg (by simp [hrid, hrun])
    rw [hkind] at hfor
    have hfirst : first = _ := if_pos ⟨hkind, hrid, hrun⟩
    simp only [third, second, hfirst, applyMessage, hfor]
    cases hterm : getTerminal d s m.requestId m.runId with
    | error e => rfl
    | ok t =>
      cases t with
      | some t => rfl
      | none =>
        rw [getTerminal] at hterm
        obtain ⟨es, hes, hterm⟩ := Mailbox.bind_eq_ok.mp hterm
        obtain ⟨events, hmap, hany⟩ := anyRunning_of_firstTerminal hterm
        simp only [advance, hes, hmap, hany, bind, Except.bind]
        by_cases hrunning : Json.str "RUNNING" ∈ events
        · simp [hrunning, pure, Except.pure]
        · simp only [hrunning, decide_false, if_false, pure, Except.pure]
          cases recordEvent d s m.requestId m.runId "RUNNING" (.obj [("msg_id", .str m.msgId)]) ts <;>
            rfl
  · have hfirst : first = _ := if_neg hprogress
    simp only [third, second, hfirst, applyMessage]
    cases eventFor d s m with
    | error e => rfl
    | ok x =>
      rcases x with _ | ⟨event, info⟩
      · rfl
      · simp only [advance, bind, Except.bind]
        cases recordEvent d s m.requestId m.runId event info ts <;> rfl

/-! ## What a call records -/

/-- The texts of a message that go into the ledger, but for the id of the request. -/
def recordedTexts (m : LedgerMessage) : List String :=
  if m.requestId = "" || m.runId = "" then []
  else match m.kind with
    | "RECEIPT" => if m.receiptType ≠ "READ" then [] else [m.runId, m.msgId, m.replyTo]
    | "PROGRESS" => [m.runId, m.msgId]
    | "TASK" | "INIT" | "REPORT" | "NOTICE" => [m.runId, m.msgId, m.sender]
    | _ => []

/-- None of them has a separator. -/
def LedgerMessage.Clean (m : LedgerMessage) : Prop := ∀ text ∈ recordedTexts m, NoSeparator text

/-- An event that a message is mapped to, with its meta. -/
structure Maps (m : LedgerMessage) (event : String) (info : Json) : Prop where
  nonempty : event ≠ ""
  report : event ∈ TERMINAL_STATES → m.kind = "REPORT"
  done : m.kind = "REPORT" → event = "DONE"
  running : m.kind = "PROGRESS" ↔ event = "RUNNING"
  run : NoSeparator m.runId
  event : NoSeparator event
  info : ∃ fields, info = .obj fields ∧ PlainDict fields

theorem maps_running {m : LedgerMessage} (hm : m.Clean) (hkind : m.kind = "PROGRESS")
    (hrid : m.requestId ≠ "") (hrun : m.runId ≠ "") :
    Maps m "RUNNING" (.obj [("msg_id", .str m.msgId)]) := by
  have htexts : recordedTexts m = [m.runId, m.msgId] := by
    rw [recordedTexts, if_neg (by simp [hrid, hrun]), hkind]
    rfl
  have hclean (text : String) (h : text ∈ [m.runId, m.msgId]) : NoSeparator text :=
    hm text (htexts ▸ h)
  refine ⟨by decide, fun h => absurd h (by decide), fun h => ?_, ⟨fun _ => rfl, fun _ => hkind⟩,
    hclean _ (by simp), by decide, _, rfl,
    plainDict_cons (by decide) (hclean _ (by simp)) (by simp) plainDict_nil⟩
  rw [hkind] at h
  exact absurd h (by decide)

theorem maps_quiet {m : LedgerMessage} {event key text : String} (hm : m.Clean)
    (htexts : recordedTexts m = [m.runId, m.msgId, text])
    (hkind : m.kind ≠ "REPORT" ∧ m.kind ≠ "PROGRESS")
    (hevent : event ≠ "" ∧ event ∉ TERMINAL_STATES ∧ event ≠ "RUNNING" ∧ NoSeparator event)
    (hkey : key ≠ "msg_id" ∧ NoSeparator key) :
    Maps m event (.obj [("msg_id", .str m.msgId), (key, .str text)]) := by
  have hclean (t : String) (h : t ∈ [m.runId, m.msgId, text]) : NoSeparator t := hm t (htexts ▸ h)
  obtain ⟨hne, hopen, hrunning, hplain⟩ := hevent
  refine ⟨hne, fun h => absurd h hopen, fun h => absurd h hkind.1, ?_, hclean _ (by simp), hplain,
    _, rfl, ?_⟩
  · exact ⟨fun h => absurd h hkind.2, fun h => absurd h hrunning⟩
  · exact plainDict_cons (by decide) (hclean _ (by simp)) (by simpa using hkey.1.symm)
      (plainDict_cons hkey.2 (hclean _ (by simp)) (by simp) plainDict_nil)

theorem maps_of_eventFor {d : ℕ} {s : Logs} {m : LedgerMessage} {event : String} {info : Json}
    (hm : m.Clean) (hprogress : ¬ (m.kind = "PROGRESS" ∧ m.requestId ≠ "" ∧ m.runId ≠ ""))
    (h : eventFor d s m = .ok (some (event, info))) : Maps m event info := by
  rw [eventFor] at h
  split at h
  · cases h
  · next hids =>
    have htexts : recordedTexts m = _ := if_neg hids
    have hne : m.requestId ≠ "" ∧ m.runId ≠ "" := by simpa using hids
    split at h
    · next hkind =>
      rw [hkind] at htexts
      split_ifs at h with hread
      · cases h
      · cases h
        exact maps_quiet hm (htexts.trans (if_neg hread)) (by simp [hkind]) (by decide) (by decide)
    · next hkind =>
      rw [hkind] at htexts
      cases h
      exact maps_quiet hm htexts (by simp [hkind]) (by decide) (by decide)
    · next hkind =>
      rw [hkind] at htexts
      cases h
      exact maps_quiet hm htexts (by simp [hkind]) (by decide) (by decide)
    · next hkind => exact absurd ⟨hkind, hne⟩ hprogress
    · next hkind =>
      rw [hkind] at htexts
      cases h
      have hclean (t : String) (h : t ∈ [m.runId, m.msgId, m.sender]) : NoSeparator t :=
        hm t (htexts ▸ h)
      exact ⟨by decide, fun _ => hkind, fun _ => rfl, by simp [hkind], hclean _ (by simp),
        by decide, _, rfl, plainDict_cons (by decide) (hclean _ (by simp)) (by simp)
          (plainDict_cons (by decide) (hclean _ (by simp)) (by simp)
            (plainDict_cons (by decide) (by decide) (by simp) plainDict_nil))⟩
    · next hkind =>
      rw [hkind] at htexts
      cases h
      exact maps_quiet hm htexts (by simp [hkind]) (by decide) (by decide)
    · cases h

/-! ## Calls in any order -/

/-- The ledger, and where each call is. -/
structure Calls where
  logs : Logs
  phase : ℕ → Phase

/-- No call has begun. -/
def Calls.begin (s : Logs) : Calls := ⟨s, fun _ => .called⟩

/-- The call `k` goes on. -/
def stepCall (d : ℕ) (msgs : ℕ → LedgerMessage) (st : Calls) (k : ℕ × FloatText) : Calls :=
  let next := advance d (msgs k.1) k.2 st.logs (st.phase k.1)
  ⟨next.2, Function.update st.phase k.1 next.1⟩

def isRunning (e : Json) : Bool := e.get? "event" = some (.str "RUNNING")

/-- There is at most one RUNNING for each run of a request. -/
def OneRunning (d : ℕ) (s : Logs) : Prop :=
  ∀ rid run es, getEvents d s rid run = .ok es → (es.filter isRunning).length ≤ 1

/-- The entry is the only thing that has been added. -/
def Appended (d : ℕ) (s s' : Logs) (rid run : String) (e : Json) : Prop :=
  s' = s.write rid (encode (lineOf e)) ∧
    getEvents d s' rid run = (getEvents d s rid run).map (· ++ [e])

/-- What a step of a call promises: an event that is returned now has been added now, a message
that is no REPORT leaves the terminal states alone, and there is at most one RUNNING. -/
structure Records (d : ℕ) (msgs : ℕ → LedgerMessage) (st : Calls) (k : ℕ × FloatText) : Prop where
  reported : ∀ event, (∀ event', st.phase k.1 ≠ .returned event') →
    (stepCall d msgs st k).phase k.1 = .returned event → event ≠ "" →
    ∃ e, e.get? "event" = some (.str event) ∧ Appended d st.logs (stepCall d msgs st k).logs
      (msgs k.1).requestId (msgs k.1).runId e
  quiet : (msgs k.1).kind ≠ "REPORT" → ∀ rid run,
    getTerminal d (stepCall d msgs st k).logs rid run = getTerminal d st.logs rid run
  oneRunning : OneRunning d (stepCall d msgs st k).logs

/-- A REPORT is not recorded after a terminal event, nor a PROGRESS after a RUNNING. -/
def Timely (d : ℕ) (msgs : ℕ → LedgerMessage) (st : Calls) (k : ℕ × FloatText) : Prop :=
  ∀ event info, st.phase k.1 = .decided event info →
    ((msgs k.1).kind = "REPORT" →
      ∀ t, getTerminal d st.logs (msgs k.1).requestId (msgs k.1).runId ≠ .ok (some t)) ∧
    ((msgs k.1).kind = "PROGRESS" →
      ∀ es, getEvents d st.logs (msgs k.1).requestId (msgs k.1).runId = .ok es →
        es.filter isRunning = [])

/-- What is decided is what the message is mapped to. -/
def Coherent (m : LedgerMessage) : Phase → Prop
  | .unfinished => m.kind = "PROGRESS" ∧ m.requestId ≠ "" ∧ m.runId ≠ ""
  | .decided event info => Maps m event info
  | _ => True

section Step

variable {d d' : ℕ} {m : LedgerMessage} {s : Logs} {rid run event : String} {info : Json}
  {ts : FloatText}

theorem Maps.entryClean (h : Maps m event info) (hdir : eventsDir rid = .ok ())
    (hevent : NoSeparator event) : Entry.Clean (d + 1) ⟨rid, m.runId, event, ts, info⟩ := by
  obtain ⟨fields, rfl, hfields⟩ := h.info
  exact ⟨noSeparator_of_eventsDir hdir, h.run, hevent, hfields.proper, hfields.oneLine⟩

/-- What `record_event` does for a message: it raises where nothing can be read, it appends the
event where no terminal one stands in its way, or it appends a conflict. -/
theorem recordEvent_cases (h : Maps m event info) (ts : FloatText) :
    ((∃ e, recordEvent (d + 2) s m.requestId m.runId event info ts = .error e) ∧
      (∀ t, getTerminal (d + 2) s m.requestId m.runId ≠ .ok (some t)) ∧
      (event ∉ TERMINAL_STATES → ∀ es, getEvents (d + 2) s m.requestId m.runId ≠ .ok es)) ∨
    (Entry.Clean (d + 1) ⟨m.requestId, m.runId, event, ts, info⟩ ∧
      recordEvent (d + 2) s m.requestId m.runId event info ts =
        .ok (true, append s m.requestId m.runId event ts info) ∧
      (event ∈ TERMINAL_STATES → ∀ t, getTerminal (d + 2) s m.requestId m.runId ≠ .ok (some t))) ∨
    ∃ t info', event ∈ TERMINAL_STATES ∧
      getTerminal (d + 2) s m.requestId m.runId = .ok (some t) ∧
      Entry.Clean (d + 1) ⟨m.requestId, m.runId, "PROTOCOL_CONFLICT", ts, info'⟩ ∧
      recordEvent (d + 2) s m.requestId m.runId event info ts =
        .ok (false, append s m.requestId m.runId "PROTOCOL_CONFLICT" ts info') := by
  rw [recordEvent, decideEvent]
  cases hdir : eventsDir m.requestId with
  | error e =>
    have hevents : getEvents (d + 2) s m.requestId m.runId = .error e := by
      rw [getEvents, readEntries, readAll, hdir]
      rfl
    have hterm : getTerminal (d + 2) s m.requestId m.runId = .error e := by
      rw [getTerminal, show readEntries (d + 2) s m.requestId m.runId = .error e from hevents]
      rfl
    refine Or.inl ⟨⟨e, rfl⟩, fun t ht => ?_, fun _ es hes => ?_⟩
    · rw [hterm] at ht
      cases ht
    · rw [hevents] at hes
      cases hes
  | ok u =>
    have hclean : Entry.Clean (d + 1) ⟨m.requestId, m.runId, event, ts, info⟩ :=
      h.entryClean hdir h.event
    by_cases ht : event ∈ TERMINAL_STATES
    · simp only [ht, if_true, bind, Except.bind]
      cases hterm : getTerminal (d + 2) s m.requestId m.runId with
      | error e => exact Or.inl ⟨⟨e, rfl⟩, fun t ht => (by cases ht), fun hf => absurd trivial hf⟩
      | ok t =>
        cases t with
        | none => exact Or.inr (Or.inl ⟨hclean, rfl, fun _ t ht => by cases ht⟩)
        | some t =>
          exact Or.inr (Or.inr ⟨t, _, trivial, rfl, conflict_clean hdir h.run h.event hterm, rfl⟩)
    · simp only [ht, if_false, bind, Except.bind]
      exact Or.inr (Or.inl ⟨hclean, rfl, fun hf => hf.elim⟩)

theorem advance_quiet {p : Phase} (hp : ∀ event info, p ≠ .decided event info) :
    (advance d m ts s p).2 = s ∧
      ∀ event, (advance d m ts s p).1 = .returned event → event = "" ∨ p = .returned event := by
  have hreturned {p' : Phase} (h : (∀ event, p' ≠ .returned event) ∨ p' = .returned "") :
      ∀ event, p' = .returned event → event = "" ∨ p = .returned event := by
    intro event he
    rcases h with h | h
    · exact absurd he (h event)
    · rw [h] at he
      cases he
      exact Or.inl rfl
  cases p with
  | called =>
    rw [advance]
    split
    · split
      · exact ⟨rfl, hreturned (Or.inl nofun)⟩
      · exact ⟨rfl, hreturned (Or.inr rfl)⟩
      · exact ⟨rfl, hreturned (Or.inl nofun)⟩
    · split
      · exact ⟨rfl, hreturned (Or.inl nofun)⟩
      · exact ⟨rfl, hreturned (Or.inr rfl)⟩
      · exact ⟨rfl, hreturned (Or.inl nofun)⟩
  | unfinished =>
    rw [advance]
    split
    · exact ⟨rfl, hreturned (Or.inl nofun)⟩
    · exact ⟨rfl, hreturned (Or.inr rfl)⟩
    · exact ⟨rfl, hreturned (Or.inl nofun)⟩
  | decided event info => exact absurd rfl (hp event info)
  | returned event => exact ⟨rfl, fun _ h => Or.inr h⟩
  | raised e => exact ⟨rfl, hreturned (Or.inl nofun)⟩

theorem advance_coherent {p : Phase} (hm : m.Clean) (hp : Coherent m p) :
    Coherent m (advance d m ts s p).1 := by
  cases p with
  | called =>
    rw [advance]
    split
    · next hprogress =>
      split
      · trivial
      · trivial
      · exact hprogress
    · next hprogress =>
      split
      · trivial
      · trivial
      · next hfor => exact maps_of_eventFor hm hprogress hfor
  | unfinished =>
    rw [advance]
    split
    · trivial
    · trivial
    · exact maps_running hm hp.1 hp.2.1 hp.2.2
  | decided event info =>
    rw [advance]
    split <;> trivial
  | returned event => trivial
  | raised e => trivial

end Step

/-! ## Runs -/

/-- What every step keeps: the lines are complete, and the calls know what they record. -/
structure Sound (msgs : ℕ → LedgerMessage) (st : Calls) : Prop where
  whole : Whole st.logs
  coherent : ∀ i, Coherent (msgs i) (st.phase i)

section Run

variable {d : ℕ} {msgs : ℕ → LedgerMessage} {st : Calls}

theorem Sound.step (h : Sound msgs st) (hmsgs : ∀ i, (msgs i).Clean) (k : ℕ × FloatText) :
    Sound msgs (stepCall (d + 2) msgs st k) := by
  refine ⟨?_, fun i => ?_⟩
  · show Whole (advance (d + 2) (msgs k.1) k.2 st.logs (st.phase k.1)).2
    cases hp : st.phase k.1 with
    | decided event info =>
      have hmaps : Maps (msgs k.1) event info := by
        have hcoherent := h.coherent k.1
        rwa [hp] at hcoherent
      rw [advance]
      rcases recordEvent_cases (d := d) (s := st.logs) hmaps k.2 with
        ⟨⟨e, he⟩, -⟩ | ⟨-, he, -⟩ | ⟨t, info', -, -, -, he⟩
      · rw [he]
        exact h.whole
      · rw [he]
        exact h.whole.append
      · rw [he]
        exact h.whole.append
    | _ =>
      rw [(advance_quiet (by simp)).1]
      exact h.whole
  · show Coherent (msgs i) (Function.update st.phase k.1 _ i)
    by_cases hi : i = k.1
    · subst hi
      rw [Function.update_self]
      exact advance_coherent (hmsgs _) (h.coherent _)
    · rw [Function.update_of_ne hi]
      exact h.coherent i

/-- A RUNNING that is appended is the only one if there was none, and other events change
nothing. -/
theorem oneRunning_append_iff {s : Logs} {rid run event : String} {info : Json} {ts : FloatText}
    (hwhole : Whole s) (hclean : Entry.Clean (d + 1) ⟨rid, run, event, ts, info⟩)
    (hone : OneRunning (d + 2) s) : OneRunning (d + 2) (append s rid run event ts info) ↔
      (event = "RUNNING" → ∀ es, getEvents (d + 2) s rid run = .ok es →
        es.filter isRunning = []) := by
  have hentry : isRunning (entryOf rid run event ts info) = decide (event = "RUNNING") := by
    have hget : (entryOf rid run event ts info).get? "event" = some (.str event) := rfl
    rw [isRunning, hget]
    simp
  have hevents (rid' run' : String) := readEntries_append hwhole hclean rid' run'
  constructor
  · intro h hevent es hes
    have hnew := h rid run (es ++ [entryOf rid run event ts info]) (by
      rw [getEvents] at hes ⊢
      rw [hevents, hes, if_pos ⟨rfl, rfl⟩]
      rfl)
    rw [List.filter_append, List.length_append, List.filter_cons_of_pos (by rw [hentry]; simpa)]
      at hnew
    rw [← List.length_eq_zero_iff]
    simp only [List.length_cons, List.filter_nil, List.length_nil] at hnew
    omega
  · intro h rid' run' es' hes'
    rw [getEvents, hevents] at hes'
    cases hold : readEntries (d + 2) s rid' run' with
    | error e =>
      rw [hold] at hes'
      cases hes'
    | ok es =>
      rw [hold] at hes'
      cases hes'
      have hcount := hone rid' run' es hold
      rw [List.filter_append, List.length_append]
      split
      · next hpair =>
        obtain ⟨rfl, rfl⟩ := hpair
        by_cases hevent : event = "RUNNING"
        · rw [h hevent es hold, List.filter_cons_of_pos (by rw [hentry]; simpa)]
          exact Nat.le_refl 1
        · rw [List.filter_cons_of_neg (by rw [hentry]; simpa)]
          exact hcount
      · exact hcount

theorem logs_stepCall (k : ℕ × FloatText) : (stepCall d msgs st k).logs =
    (advance d (msgs k.1) k.2 st.logs (st.phase k.1)).2 := rfl

theorem phase_stepCall (k : ℕ × FloatText) : (stepCall d msgs st k).phase k.1 =
    (advance d (msgs k.1) k.2 st.logs (st.phase k.1)).1 := Function.update_self ..

theorem records_of_unchanged {k : ℕ × FloatText} (hone : OneRunning d st.logs)
    (hlogs : (stepCall d msgs st k).logs = st.logs)
    (hphase : ∀ event, (stepCall d msgs st k).phase k.1 = .returned event →
      event = "" ∨ st.phase k.1 = .returned event) : Records d msgs st k := by
  refine ⟨fun event hnot hreturned hne => ?_, fun _ rid run => ?_, ?_⟩
  · rcases hphase event hreturned with he | he
    · exact absurd he hne
    · exact absurd he (hnot event)
  · rw [hlogs]
  · rw [hlogs]
    exact hone

theorem records_appended_iff {k : ℕ × FloatText} {event : String} {info : Json}
    (hwhole : Whole st.logs) (hone : OneRunning (d + 2) st.logs)
    (hmaps : Maps (msgs k.1) event info)
    (hclean : Entry.Clean (d + 1) ⟨(msgs k.1).requestId, (msgs k.1).runId, event, k.2, info⟩)
    (hlogs : (stepCall (d + 2) msgs st k).logs =
      append st.logs (msgs k.1).requestId (msgs k.1).runId event k.2 info)
    (hphase : (stepCall (d + 2) msgs st k).phase k.1 = .returned event) :
    Records (d + 2) msgs st k ↔ ((msgs k.1).kind = "PROGRESS" → ∀ es,
      getEvents (d + 2) st.logs (msgs k.1).requestId (msgs k.1).runId = .ok es →
      es.filter isRunning = []) := by
  have hiff := oneRunning_append_iff hwhole hclean hone
  constructor
  · intro hrecords hkind
    have hnew := hrecords.oneRunning
    rw [hlogs] at hnew
    exact hiff.mp hnew (hmaps.running.mp hkind)
  · intro hprogress
    refine ⟨fun event' _ hreturned _ => ?_, fun hkind rid run => ?_, ?_⟩
    · rw [hphase] at hreturned
      cases hreturned
      refine ⟨entryOf (msgs k.1).requestId (msgs k.1).runId event k.2 info, rfl, ?_, ?_⟩
      · rw [hlogs]
        rfl
      · rw [hlogs, getEvents, readEntries_append hwhole hclean, if_pos ⟨rfl, rfl⟩]
        rfl
    · rw [hlogs]
      exact getTerminal_append_other hwhole hclean (fun hmem => hkind (hmaps.report hmem)) rid run
    · rw [hlogs]
      exact hiff.mpr fun hevent => hprogress (hmaps.running.mpr hevent)

theorem not_records_conflict {k : ℕ × FloatText} {event t : String} {info : Json}
    (hwhole : Whole st.logs) (hmem : event ∈ TERMINAL_STATES) (hne : event ≠ "")
    (hnot : ∀ event', st.phase k.1 ≠ .returned event')
    (hterm : getTerminal (d + 2) st.logs (msgs k.1).requestId (msgs k.1).runId = .ok (some t))
    (hclean : Entry.Clean (d + 1)
      ⟨(msgs k.1).requestId, (msgs k.1).runId, "PROTOCOL_CONFLICT", k.2, info⟩)
    (hlogs : (stepCall (d + 2) msgs st k).logs =
      append st.logs (msgs k.1).requestId (msgs k.1).runId "PROTOCOL_CONFLICT" k.2 info)
    (hphase : (stepCall (d + 2) msgs st k).phase k.1 = .returned event) :
    ¬ Records (d + 2) msgs st k := by
  intro hrecords
  obtain ⟨e, hevent, -, hread⟩ := hrecords.reported event hnot hphase hne
  obtain ⟨es, hes, -⟩ := Mailbox.bind_eq_ok.mp hterm
  rw [hlogs, getEvents, getEvents, readEntries_append hwhole hclean, if_pos ⟨rfl, rfl⟩, hes] at hread
  have hsame : entryOf (msgs k.1).requestId (msgs k.1).runId "PROTOCOL_CONFLICT" k.2 info = e :=
    List.singleton_inj.mp (List.append_cancel_left (Except.ok.inj hread))
  rw [← hsame] at hevent
  have heq : "PROTOCOL_CONFLICT" = event := Json.str.inj (Option.some.inj hevent)
  rw [← heq] at hmem
  exact absurd hmem (by decide)

/-- **One step**: it promises the truth if and only if it is timely. -/
theorem records_iff (h : Sound msgs st) (hone : OneRunning (d + 2) st.logs) (k : ℕ × FloatText) :
    Records (d + 2) msgs st k ↔ Timely (d + 2) msgs st k := by
  have hlogs : (stepCall (d + 2) msgs st k).logs = _ := logs_stepCall k
  have hphase : (stepCall (d + 2) msgs st k).phase k.1 = _ := phase_stepCall k
  cases hp : st.phase k.1 with
  | decided event info =>
    have hmaps : Maps (msgs k.1) event info := by
      have hcoherent := h.coherent k.1
      rwa [hp] at hcoherent
    have hreport (hkind : (msgs k.1).kind = "REPORT") : event ∈ TERMINAL_STATES := by
      rw [hmaps.done hkind]
      decide
    have hnot (hkind : (msgs k.1).kind = "PROGRESS") : event ∉ TERMINAL_STATES := by
      rw [hmaps.running.mp hkind]
      decide
    rw [hp, advance] at hlogs hphase
    rcases recordEvent_cases (d := d) (s := st.logs) hmaps k.2 with
      ⟨⟨e, he⟩, hterm, hevents⟩ | ⟨hclean, he, hterm⟩ | ⟨t, info', hmem, hterm, hclean, he⟩
    · rw [he] at hlogs hphase
      refine iff_of_true (records_of_unchanged hone hlogs ?_) ?_
      · intro event' hreturned
        rw [hphase] at hreturned
        cases hreturned
      · intro event' info' hp'
        exact ⟨fun _ => hterm, fun hkind es hes => absurd hes (hevents (hnot hkind) es)⟩
    · rw [he] at hlogs hphase
      rw [records_appended_iff h.whole hone hmaps hclean hlogs hphase]
      constructor
      · intro hprogress event' info' hp'
        exact ⟨fun hkind => hterm (hreport hkind), hprogress⟩
      · intro htimely
        exact (htimely event info hp).2
    · rw [he] at hlogs hphase
      refine iff_of_false (not_records_conflict h.whole hmem hmaps.nonempty (by rw [hp]; nofun) hterm
        hclean hlogs hphase) fun htimely => ?_
      exact (htimely event info hp).1 (hmaps.report hmem) t hterm
  | _ =>
    have hquiet := @advance_quiet (d + 2) (msgs k.1) st.logs k.2 (st.phase k.1) (by rw [hp]; nofun)
    refine iff_of_true (records_of_unchanged hone (hlogs.trans hquiet.1) ?_) ?_
    · intro event hreturned
      exact hquiet.2 event (hphase.symm.trans hreturned)
    · intro event info hdecided
      rw [hp] at hdecided
      cases hdecided

/-- **What `apply_message` says.**  On a ledger whose lines are complete and that has no two
RUNNING, in every order of the steps of calls whose texts have no separators: each call records
what it returns, only REPORTs change terminal states and no two RUNNING come up, if and only if
no REPORT is recorded after a terminal event and no PROGRESS after a RUNNING. -/
theorem applies_right_iff {d : ℕ} {msgs : ℕ → LedgerMessage} (hmsgs : ∀ i, (msgs i).Clean)
    {s : Logs} (hwhole : Whole s) (hone : OneRunning (d + 2) s) (sched : List (ℕ × FloatText)) :
    Admits (stepCall (d + 2) msgs) (Records (d + 2) msgs) (.begin s) sched ↔
      Admits (stepCall (d + 2) msgs) (Timely (d + 2) msgs) (.begin s) sched := by
  refine admits_congr
    (fun st k (h : Sound msgs st ∧ OneRunning (d + 2) st.logs) => records_iff h.1 h.2 k)
    (fun st k h htimely => ?_) ⟨⟨hwhole, fun _ => trivial⟩, hone⟩
  exact ⟨h.1.step hmsgs k, ((records_iff h.1 h.2 k).mpr htimely).oneRunning⟩

end Run

/-! ### A task, two reports and two signs of progress -/

theorem oneRunning_empty (d : ℕ) : OneRunning d .empty := by
  intro rid run es h
  unfold getEvents readEntries readAll at h
  cases hdir : eventsDir rid with
  | error e =>
    rw [hdir] at h
    cases h
  | ok u =>
    rw [hdir] at h
    cases h
    exact Nat.zero_le 1

/-- Each call has a message of this kind. -/
def ofKind (kind : String) (_ : ℕ) : LedgerMessage :=
  { kind := kind, runId := "x", requestId := "r", msgId := "m" }

theorem clean_ofKind {kind : String} (h : kind ∈ ["TASK", "REPORT", "PROGRESS"]) (i : ℕ) :
    (ofKind kind i).Clean := by
  unfold LedgerMessage.Clean ofKind
  revert h
  revert kind
  decide

theorem applies_right_task : Admits (stepCall 3 (ofKind "TASK")) (Records 3 (ofKind "TASK"))
    (.begin .empty) [(0, someTime), (0, someTime)] := by
  refine (applies_right_iff (clean_ofKind (by decide)) whole_empty (oneRunning_empty 3) _).mpr
    ⟨?_, ?_, trivial⟩
  · exact fun event info _ => ⟨fun h => absurd h (by decide), fun h => absurd h (by decide)⟩
  · exact fun event info _ => ⟨fun h => absurd h (by decide), fun h => absurd h (by decide)⟩

/-- A second report is said to be recorded, and two calls that have both seen no RUNNING record
two. -/
theorem report_after_terminal :
    ¬ Admits (stepCall 3 (ofKind "REPORT")) (Records 3 (ofKind "REPORT")) (.begin .empty)
        ([0, 0, 1, 1].map (·, someTime)) ∧
      ¬ Admits (stepCall 3 (ofKind "PROGRESS")) (Records 3 (ofKind "PROGRESS")) (.begin .empty)
        ([0, 0, 1, 1, 0, 1].map (·, someTime)) := by
  constructor
  · rintro ⟨-, -, h₃, h₄, -⟩
    have hclean (i : ℕ) : (ofKind "REPORT" i).Clean := clean_ofKind (by decide) i
    have hsound : Sound (ofKind "REPORT") (.begin .empty) := ⟨whole_empty, fun _ => trivial⟩
    have htimely := (records_iff (d := 1) (((hsound.step hclean (0, someTime)).step hclean
      (0, someTime)).step hclean (1, someTime)) h₃.oneRunning (1, someTime)).mp h₄
    exact (htimely "DONE" _ rfl).1 rfl "DONE" (by decide +kernel)
  · rintro ⟨-, -, -, -, h₅, h₆, -⟩
    have hclean (i : ℕ) : (ofKind "PROGRESS" i).Clean := clean_ofKind (by decide) i
    have hsound : Sound (ofKind "PROGRESS") (.begin .empty) := ⟨whole_empty, fun _ => trivial⟩
    have htimely := (records_iff (d := 1) (((((hsound.step hclean (0, someTime)).step hclean
      (0, someTime)).step hclean (1, someTime)).step hclean (1, someTime)).step hclean
      (0, someTime)) h₅.oneRunning (1, someTime)).mp h₆
    have hnone := (htimely "RUNNING" _ rfl).2 rfl [entryOf "r" "x" "RUNNING" someTime
      (.obj [("msg_id", .str "m")])] (by decide +kernel)
    exact absurd hnone (by decide)

end AiMeshChat.Ledger
