import AiMeshChat.Ledger.ReadBack

/-!
# At most one terminal event

`record_event` lets a terminal event through only if it reads none back. That
is a compare-and-set as long as every accepted entry is read back, and one with
U+0085, U+2028 or U+2029 in a string is not: it is written as it is and cut in
pieces by `splitlines`, so the next terminal event is accepted again
(`separator_hides_terminal`).

On texts without these characters the ledger does what it says
(`terminal_cas`): a run has at most one terminal event, exactly one of the calls
that tried was told so, and the state never changes again.
-/

namespace AiMeshChat.Ledger

open Lib

/-- A call of the ledger, with the clock reading of its entry. -/
inductive LedgerOp
  | record (rid run event : String) (info : Json) (ts : FloatText)
  | apply (m : LedgerMessage) (ts : FloatText)
  | verdict (rid run : String) (verified : Bool) (ts : FloatText)

/-- An answer of `record_event`. -/
structure Recorded where
  rid : String
  run : String
  event : String
  accepted : Bool
  deriving DecidableEq

/-- A call of `record_event`, if the operation makes one. -/
structure EventCall where
  rid : String
  run : String
  event : String
  info : Json
  ts : FloatText

/-- The call of `record_event` that an operation makes. -/
def LedgerOp.call (d : ℕ) (s : Logs) : LedgerOp → Option EventCall
  | .record rid run event info ts => some ⟨rid, run, event, info, ts⟩
  | .apply m ts =>
    match eventFor d s m with
    | .ok (some (event, info)) => some ⟨m.requestId, m.runId, event, info, ts⟩
    | _ => none
  | .verdict rid run verified ts =>
    some ⟨rid, run, (verdictEvent verified).1, (verdictEvent verified).2, ts⟩

/-- The ledger after an operation, and the answers so far. -/
def perform (d : ℕ) (st : Logs × List Recorded) (op : LedgerOp) : Logs × List Recorded :=
  match op.call d st.1 with
  | none => st
  | some c =>
    match recordEvent d st.1 c.rid c.run c.event c.info c.ts with
    | .ok (accepted, s') => (s', st.2 ++ [⟨c.rid, c.run, c.event, accepted⟩])
    | .error _ => st

/-- The operations one after the other. -/
def runOps (d : ℕ) (ops : List LedgerOp) (st : Logs × List Recorded) : Logs × List Recorded :=
  ops.foldl (perform d) st

variable {d : ℕ} {s : Logs} {ts : FloatText} {event : String} {fields : List (String × Json)}

/-- `apply_message` leaves the ledger that the call of `record_event` leaves. -/
theorem perform_apply {s' : Logs} {m : LedgerMessage} (h : applyMessage d s m ts = .ok (event, s'))
    (recs : List Recorded) : (perform d (s, recs) (.apply m ts)).1 = s' := by
  rw [applyMessage] at h
  obtain ⟨x, hx, h⟩ := Mailbox.bind_eq_ok.mp h
  rcases x with _ | ⟨event', info⟩
  · cases h
    simp [perform, LedgerOp.call, hx]
  · obtain ⟨⟨b, s''⟩, hrec, h⟩ := Mailbox.bind_eq_ok.mp h
    cases h
    simp [perform, LedgerOp.call, hx, hrec]

/-- `record_artifact_verdict` leaves the ledger that its call of `record_event`
leaves. -/
theorem perform_verdict {s' : Logs} {rid run : String} {verified : Bool} {x : String × Bool}
    (h : recordArtifactVerdict d s rid run verified ts = .ok (x, s')) (recs : List Recorded) :
    (perform d (s, recs) (.verdict rid run verified ts)).1 = s' := by
  rw [recordArtifactVerdict] at h
  rcases hv : verdictEvent verified with ⟨state, info⟩
  rw [hv] at h
  obtain ⟨⟨b, s''⟩, hrec, h⟩ := Mailbox.bind_eq_ok.mp h
  have hs : s'' = s' := by
    cases b with
    | true => cases h; rfl
    | false =>
      obtain ⟨t, -, h⟩ := Mailbox.bind_eq_ok.mp h
      cases h
      rfl
  simp [perform, LedgerOp.call, hv, hrec, hs]

/-! ## The condition -/

/-- No string of the operation has a separator, and the meta is a value that the
library writes. -/
def LedgerOp.Clean (d : ℕ) : LedgerOp → Prop
  | .record _ run event info _ =>
    NoSeparator run ∧ NoSeparator event ∧ Proper d info ∧ OneLine (spaced info)
  | .apply m _ => NoSeparator m.runId ∧ NoSeparator m.msgId ∧ NoSeparator m.replyTo ∧
    NoSeparator m.sender
  | .verdict _ run _ _ => NoSeparator run

/-- A call of `record_event` whose texts are clean. -/
structure EventCall.Clean (d : ℕ) (c : EventCall) : Prop where
  run : NoSeparator c.run
  event : NoSeparator c.event
  proper : Proper d c.info
  info : OneLine (spaced c.info)

/-- A dict of strings without separators. -/
structure PlainDict (fields : List (String × Json)) : Prop where
  keys : (fields.map (·.1)).Nodup
  plain : ∀ kv ∈ fields, NoSeparator kv.1 ∧ ∃ s, kv.2 = .str s ∧ NoSeparator s

theorem PlainDict.proper (h : PlainDict fields) : Proper (d + 1) (.obj fields) := by
  refine ⟨h.keys, ?_⟩
  have hplain := h.plain
  clear h
  induction fields with
  | nil => trivial
  | cons kv fields ih =>
    obtain ⟨k, v⟩ := kv
    obtain ⟨-, s, hs, -⟩ := hplain (k, v) (List.mem_cons_self ..)
    refine ⟨?_, ih fun x hx => hplain x (List.mem_cons_of_mem _ hx)⟩
    rw [show v = .str s from hs]
    cases d <;> trivial

theorem membersText_oneLine
    (h : ∀ kv ∈ fields, NoSeparator kv.1 ∧ ∃ s, kv.2 = .str s ∧ NoSeparator s) :
    OneLine (membersText [',', ' '] [':', ' '] fields) := by
  induction fields with
  | nil => decide
  | cons kv fields ih =>
    obtain ⟨k, v⟩ := kv
    obtain ⟨hk, s, hs, hsep⟩ := h (k, v) (List.mem_cons_self ..)
    have hv : jsonText [',', ' '] [':', ' '] v = jsonChars s := by
      rw [show v = .str s from hs]
      simp [jsonText]
    rw [membersText, hv]
    exact (((OneLine.append (by decide) (jsonChars_oneLine hk)).append (by decide)).append
      (jsonChars_oneLine hsep)).append (ih fun x hx => h x (List.mem_cons_of_mem _ hx))

theorem PlainDict.oneLine (h : PlainDict fields) : OneLine (spaced (.obj fields)) := by
  cases fields with
  | nil => simp [jsonText]; decide
  | cons kv fields =>
    obtain ⟨k, v⟩ := kv
    have hall := membersText_oneLine h.plain
    intro c hc
    have hsub : c = '\x7b' ∨ c ∈ membersText [',', ' '] [':', ' '] ((k, v) :: fields) := by
      simp only [jsonText, membersText, List.mem_append, List.mem_cons] at hc ⊢
      tauto
    rcases hsub with rfl | hc
    · decide
    · exact hall c hc

theorem plainDict_cons {k v : String} (hk : NoSeparator k) (hv : NoSeparator v)
    (hnew : k ∉ fields.map (·.1)) (h : PlainDict fields) : PlainDict ((k, .str v) :: fields) := by
  refine ⟨List.nodup_cons.mpr ⟨hnew, h.keys⟩, fun kv hkv => ?_⟩
  rcases List.mem_cons.mp hkv with rfl | hkv
  · exact ⟨hk, v, rfl, hv⟩
  · exact h.plain kv hkv

theorem plainDict_nil : PlainDict [] := ⟨List.nodup_nil, nofun⟩

theorem eventFor_clean {m : LedgerMessage} {info : Json} (hmid : NoSeparator m.msgId)
    (hreply : NoSeparator m.replyTo) (hfrom : NoSeparator m.sender)
    (h : eventFor d s m = .ok (some (event, info))) :
    NoSeparator event ∧ ∃ fields, info = .obj fields ∧ PlainDict fields := by
  have hone := plainDict_cons (k := "msg_id") (by decide) hmid (by simp) plainDict_nil
  have hfrom' : PlainDict [("msg_id", .str m.msgId), ("from", .str m.sender)] :=
    plainDict_cons (by decide) hmid (by simp) (plainDict_cons (by decide) hfrom (by simp)
      plainDict_nil)
  rw [eventFor] at h
  split at h
  · cases h
  · split at h
    · split_ifs at h
      · cases h
      · cases h
        exact ⟨by decide, _, rfl, plainDict_cons (by decide) hmid (by simp)
          (plainDict_cons (by decide) hreply (by simp) plainDict_nil)⟩
    · cases h
      exact ⟨by decide, _, rfl, hfrom'⟩
    · cases h
      exact ⟨by decide, _, rfl, hfrom'⟩
    · obtain ⟨t, -, h⟩ := Mailbox.bind_eq_ok.mp h
      cases t with
      | some t => cases h
      | none =>
        obtain ⟨es, -, h⟩ := Mailbox.bind_eq_ok.mp h
        obtain ⟨evs, -, h⟩ := Mailbox.bind_eq_ok.mp h
        split_ifs at h
        · cases h
        · cases h
          exact ⟨by decide, _, rfl, hone⟩
    · cases h
      exact ⟨by decide, _, rfl, plainDict_cons (by decide) hmid (by simp)
        (plainDict_cons (by decide) hfrom (by simp)
          (plainDict_cons (by decide) (by decide) (by simp) plainDict_nil))⟩
    · cases h
      exact ⟨by decide, _, rfl, hfrom'⟩
    · cases h

theorem call_clean {d : ℕ} {s : Logs} {op : LedgerOp} {c : EventCall} (hop : op.Clean (d + 1))
    (hc : op.call (d + 2) s = some c) : c.Clean (d + 1) := by
  cases op with
  | record rid run event info ts =>
    cases hc
    obtain ⟨hrun, hevent, hproper, hinfo⟩ := hop
    exact ⟨hrun, hevent, hproper, hinfo⟩
  | apply m ts =>
    simp only [LedgerOp.call] at hc
    split at hc
    · next event info hev =>
      cases hc
      obtain ⟨hrun, hmid, hreply, hfrom⟩ := hop
      obtain ⟨hevent, fields, rfl, hdict⟩ := eventFor_clean hmid hreply hfrom hev
      exact ⟨hrun, hevent, hdict.proper, hdict.oneLine⟩
    · cases hc
  | verdict rid run verified ts =>
    cases hc
    have hdone : PlainDict [("source", .str "artifact_verify")] :=
      plainDict_cons (by decide) (by decide) (by simp) plainDict_nil
    have hblocked : PlainDict [("source", .str "artifact_verify"),
        ("reason", .str "sha256_mismatch")] :=
      plainDict_cons (by decide) (by decide) (by simp)
        (plainDict_cons (by decide) (by decide) (by simp) plainDict_nil)
    cases verified with
    | true =>
      exact ⟨hop, (by decide : NoSeparator "DONE"), hdone.proper, hdone.oneLine⟩
    | false =>
      exact ⟨hop, (by decide : NoSeparator "BLOCKED"), hblocked.proper, hblocked.oneLine⟩

/-! ## Runs -/

/-- The answers to the calls for a terminal event of a run. -/
def triedFor (recs : List Recorded) (rid run : String) : List Recorded :=
  recs.filter fun r => r.rid = rid && r.run = run && r.event ∈ TERMINAL_STATES

/-- The answers so far agree with the logs: the terminal events of a run are those
that were accepted, at most one, and one if any was tried. -/
structure Agrees (log : String → List Entry) (recs : List Recorded) : Prop where
  accepted : ∀ rid run, ((triedFor recs rid run).filter (·.accepted)).map (·.event) =
    terminals (log rid) run
  once : ∀ rid run, (terminals (log rid) run).length ≤ 1
  tried : ∀ rid run, triedFor recs rid run ≠ [] → terminals (log rid) run ≠ []

theorem triedFor_append (recs : List Recorded) (r : Recorded) (rid run : String) :
    triedFor (recs ++ [r]) rid run = triedFor recs rid run ++
      if r.rid = rid ∧ r.run = run ∧ r.event ∈ TERMINAL_STATES then [r] else [] := by
  rw [triedFor, List.filter_append]
  congr 1
  by_cases h : r.rid = rid ∧ r.run = run ∧ r.event ∈ TERMINAL_STATES
  · simp [h]
  · rw [if_neg h]
    simpa [and_assoc] using h

theorem terminals_singleton (e : Entry) (run : String) :
    terminals [e] run = if e.run = run ∧ e.event ∈ TERMINAL_STATES then [e.event] else [] := by
  by_cases h : e.run = run ∧ e.event ∈ TERMINAL_STATES
  · simp [terminals, h]
  · rw [if_neg h]
    simpa [terminals] using h

theorem decided_new {es : List Entry} {rid run : String} {info : Json}
    (h : event ∈ TERMINAL_STATES → terminals es run = []) :
    decided es rid run event info ts = (true, ⟨rid, run, event, ts, info⟩) := by
  unfold decided
  split_ifs with ht
  · rw [h ht]
    rfl
  · rfl

theorem decided_conflict {es : List Entry} {rid run event : String} {info : Json} {ts : FloatText}
    (ht : event ∈ TERMINAL_STATES) (h : terminals es run ≠ []) :
    ∃ existing, decided es rid run event info ts =
      (false, ⟨rid, run, "PROTOCOL_CONFLICT", ts, conflictInfo event existing⟩) := by
  obtain ⟨existing, rest, hcons⟩ := List.exists_cons_of_ne_nil h
  refine ⟨existing, ?_⟩
  rw [decided, if_pos ht, hcons]
  rfl

/-- **One call** keeps the agreement. -/
theorem Agrees.record {log : String → List Entry} {recs : List Recorded} (h : Agrees log recs)
    (rid run event : String) (info : Json) (ts : FloatText) :
    let x := decided (log rid) rid run event info ts
    Agrees (addTo log rid x.2) (recs ++ [⟨rid, run, event, x.1⟩]) := by
  intro x
  -- what the new entry adds to the terminal events of a pair, and the answer to the calls
  suffices hpair : ∀ rid' run',
      terminals (addTo log rid x.2 rid') run' = terminals (log rid') run' ++
        (if rid = rid' ∧ run = run' ∧ event ∈ TERMINAL_STATES ∧ x.1 = true then [event] else []) ∧
      (rid = rid' → run = run' → event ∈ TERMINAL_STATES →
        (x.1 = true ↔ terminals (log rid') run' = [])) by
    refine ⟨fun rid' run' => ?_, fun rid' run' => ?_, fun rid' run' htried => ?_⟩
    · obtain ⟨hterm, -⟩ := hpair rid' run'
      rw [hterm, triedFor_append, List.filter_append, List.map_append, h.accepted]
      congr 1
      by_cases hx : rid = rid' ∧ run = run' ∧ event ∈ TERMINAL_STATES
      · rw [if_pos hx]
        cases hacc : x.1 <;> simp [hx]
      · rw [if_neg hx, if_neg fun hc => hx ⟨hc.1, hc.2.1, hc.2.2.1⟩]
        rfl
    · obtain ⟨hterm, hfree⟩ := hpair rid' run'
      rw [hterm]
      split_ifs with hc
      · rw [(hfree hc.1 hc.2.1 hc.2.2.1).mp hc.2.2.2]
        exact Nat.le_refl 1
      · rw [List.append_nil]
        exact h.once rid' run'
    · obtain ⟨hterm, hfree⟩ := hpair rid' run'
      rw [hterm]
      by_cases hx : rid = rid' ∧ run = run' ∧ event ∈ TERMINAL_STATES
      · cases hacc : x.1 with
        | true => simp [hx]
        | false =>
          have hne : terminals (log rid') run' ≠ [] := by
            intro hnil
            have := (hfree hx.1 hx.2.1 hx.2.2).mpr hnil
            rw [hacc] at this
            cases this
          simp [hne]
      · rw [triedFor_append, if_neg hx, List.append_nil] at htried
        simp [h.tried rid' run' htried]
  intro rid' run'
  by_cases hr : rid = rid'
  · subst hr
    rw [addTo, Function.update_self, terminals_append]
    by_cases hfree : event ∈ TERMINAL_STATES → terminals (log rid) run = []
    · have hx : x = (true, ⟨rid, run, event, ts, info⟩) := decided_new hfree
      rw [hx, terminals_singleton]
      refine ⟨by simp, ?_⟩
      rintro - rfl ht
      simp [hfree ht]
    · rw [Classical.not_imp] at hfree
      obtain ⟨existing, hx⟩ := @decided_conflict _ rid _ _ info ts hfree.1 hfree.2
      have hx : x = _ := hx
      have hconflict : "PROTOCOL_CONFLICT" ∉ TERMINAL_STATES := by decide
      rw [hx, terminals_singleton]
      refine ⟨by simp [hconflict], ?_⟩
      rintro - rfl -
      simp [hfree.2]
  · rw [addTo, Function.update_of_ne fun e => hr e.symm]
    exact ⟨by simp [hr], fun e => absurd e hr⟩

/-- **One operation** of clean texts keeps the files and the answers in step with
the logs, which only grow. -/
theorem perform_holds {st : Logs × List Recorded} {log : String → List Entry}
    (h : Holds (d + 1) st.1 log fun _ => []) (ha : Agrees log st.2) {op : LedgerOp}
    (hop : op.Clean (d + 1)) : ∃ log', Holds (d + 1) (perform (d + 2) st op).1 log' (fun _ => []) ∧
      Agrees log' (perform (d + 2) st op).2 ∧ ∀ rid, log rid <+: log' rid := by
  unfold perform
  cases hc : op.call (d + 2) st.1 with
  | none => exact ⟨log, h, ha, fun _ => List.prefix_rfl⟩
  | some c =>
    have hclean := call_clean hop hc
    cases hrid : eventsDir c.rid with
    | error e =>
      have hrec : recordEvent (d + 2) st.1 c.rid c.run c.event c.info c.ts = .error e := by
        simp [recordEvent, decideEvent, hrid, bind, Except.bind]
      simp only [hrec]
      exact ⟨log, h, ha, fun _ => List.prefix_rfl⟩
    | ok u =>
      have hrec := recordEvent_of_holds h hrid rfl c.run c.event c.info c.ts
      have hnew := decided_clean (h.clean c.rid) (noSeparator_of_eventsDir hrid) hclean.run
        hclean.event hclean.proper hclean.info c.ts
      obtain ⟨hrid', hrun', hts'⟩ := decided_fields (log c.rid) c.rid c.run c.event c.info c.ts
      have hadd := h.add hnew (by rfl)
      rw [hrid', hrun', hts'] at hadd
      simp only [hrec]
      refine ⟨_, hadd, ha.record c.rid c.run c.event c.info c.ts, fun rid => ?_⟩
      by_cases hr : rid = c.rid
      · rw [hr, addTo, Function.update_self]
        exact List.prefix_append _ _
      · rw [addTo, Function.update_of_ne hr]

/-- **Every run** of clean operations. -/
theorem runOps_holds {d : ℕ} {ops : List LedgerOp} (hops : ∀ op ∈ ops, op.Clean (d + 1)) :
    ∀ {st : Logs × List Recorded} {log : String → List Entry},
      Holds (d + 1) st.1 log (fun _ => []) → Agrees log st.2 →
      ∃ log', Holds (d + 1) (runOps (d + 2) ops st).1 log' (fun _ => []) ∧
        Agrees log' (runOps (d + 2) ops st).2 ∧ ∀ rid, log rid <+: log' rid := by
  induction ops with
  | nil => intro st log h ha; exact ⟨log, h, ha, fun _ => List.prefix_rfl⟩
  | cons op ops ih =>
    intro st log h ha
    obtain ⟨log₁, h₁, ha₁, hp₁⟩ := perform_holds h ha (hops op (List.mem_cons_self ..))
    obtain ⟨log₂, h₂, ha₂, hp₂⟩ := ih (fun x hx => hops x (List.mem_cons_of_mem _ hx)) h₁ ha₁
    exact ⟨log₂, h₂, ha₂, fun rid => (hp₁ rid).trans (hp₂ rid)⟩

/-- An entry that was read back records a terminal event. -/
def isTerminal (e : Json) : Bool :=
  match e.get? "event" with
  | some (.str event) => event ∈ TERMINAL_STATES
  | _ => false

theorem filter_isTerminal (es : List Entry) (run : String) :
    (((es.filter fun e => e.run = run).map Entry.json).filter isTerminal).length =
      (terminals es run).length := by
  have hterm (e : Entry) : isTerminal e.json = decide (e.event ∈ TERMINAL_STATES) := rfl
  rw [List.filter_map, List.length_map, List.filter_filter, terminals, List.length_map]
  congr 2
  funext e
  simp [Function.comp, hterm, Bool.and_comm]

/-- The terminal compare-and-set for a run of a request, after the operations `ops`:
the log read back has at most one terminal event; of the calls that tried to record
one, exactly one was told that it had; and the terminal state is never another one
than after the first `k` operations. -/
structure TerminalCas (d : ℕ) (ops : List LedgerOp) (rid run : String) : Prop where
  atMostOne : ∃ es, getEvents d (runOps d ops (.empty, [])).1 rid run = .ok es ∧
    (es.filter isTerminal).length ≤ 1
  acceptedOnce : triedFor (runOps d ops (.empty, [])).2 rid run ≠ [] →
    ((triedFor (runOps d ops (.empty, [])).2 rid run).filter (·.accepted)).length = 1
  final : ∀ k t, getTerminal d (runOps d (ops.take k) (.empty, [])).1 rid run = .ok (some t) →
    getTerminal d (runOps d ops (.empty, [])).1 rid run = .ok (some t)

/-- **The ledger is a compare-and-set on clean texts**: for every sequence of
operations none of whose strings has a separator, every request that names a
directory and every run. -/
theorem terminal_cas (d : ℕ) (ops : List LedgerOp) (hops : ∀ op ∈ ops, op.Clean (d + 1))
    (rid run : String) (hrid : eventsDir rid = .ok ()) : TerminalCas (d + 2) ops rid run := by
  have hagrees : Agrees (fun _ => []) [] :=
    ⟨fun _ _ => rfl, fun _ _ => Nat.zero_le 1, fun _ _ h => absurd rfl h⟩
  obtain ⟨log, h, ha, -⟩ := @runOps_holds _ _ hops (.empty, []) _ (holds_empty _) hagrees
  refine ⟨?_, fun htried => ?_, fun k t hk => ?_⟩
  · refine ⟨_, readEntries_of_holds h hrid rfl run, ?_⟩
    rw [filter_isTerminal]
    exact ha.once rid run
  · have hacc := congrArg List.length (ha.accepted rid run)
    rw [List.length_map] at hacc
    have hpos := List.length_pos_iff.mpr (ha.tried rid run htried)
    have hone := ha.once rid run
    omega
  · -- the first `k` operations, and then the others
    obtain ⟨log₁, h₁, ha₁, -⟩ := @runOps_holds _ (ops.take k)
      (fun op hop => hops op (List.mem_of_mem_take hop)) (.empty, []) _ (holds_empty _) hagrees
    obtain ⟨log₂, h₂, ha₂, hprefix⟩ := runOps_holds
      (fun op hop => hops op (List.mem_of_mem_drop hop)) h₁ ha₁
    have hsplit : runOps (d + 2) (ops.drop k) (runOps (d + 2) (ops.take k) (.empty, [])) =
        runOps (d + 2) ops (.empty, []) := by
      rw [runOps, runOps, ← List.foldl_append, List.take_append_drop]
      rfl
    rw [hsplit] at h₂
    rw [getTerminal_of_holds h₁ hrid rfl] at hk
    rw [getTerminal_of_holds h₂ hrid rfl]
    obtain ⟨more, hmore⟩ := hprefix rid
    rw [← hmore, terminals_append, List.head?_append_of_ne_nil]
    · exact hk
    · intro hnil
      rw [hnil] at hk
      cases hk

/-! ### One request -/

/-- A reading of the clock. -/
def someTime : FloatText where
  text := String.ofList (Nat.toDigits 10 1767225600 ++ '.' :: ['5'])
  reads := isFloatText_decimal _ (by decide) (by decide)
  oneLine :=
    (by decide : OneLine (String.ofList (Nat.toDigits 10 1767225600 ++ '.' :: ['5'])).toList)

/-- A terminal event whose meta has a line separator in it is accepted and not
read back, so the next one is accepted too. -/
theorem separator_hides_terminal :
    let ops : List LedgerOp := [.record "r" "x" "DONE" (.obj [("note", .str "\u2028")]) someTime,
      .record "r" "x" "BLOCKED" (.obj []) someTime]
    ((triedFor (runOps 9 ops (.empty, [])).2 "r" "x").filter (·.accepted)).length = 2 ∧
      getTerminal 9 (runOps 9 (ops.take 1) (.empty, [])).1 "r" "x" = .ok none := by
  decide +kernel

/-- A report, and then a verdict that comes too late. -/
theorem terminal_cas_late_verdict : TerminalCas 3
    [.apply { kind := "REPORT", runId := "x", requestId := "r", msgId := "m" } someTime,
      .verdict "r" "x" false someTime] "r" "x" :=
  terminal_cas 1 _ (by
    intro op hop
    rcases List.mem_cons.mp hop with rfl | hop
    · exact ⟨by decide, by decide, by decide, by decide⟩
    · rw [List.mem_singleton.mp hop]
      exact (by decide : NoSeparator "x")) "r" "x" (by decide)

end AiMeshChat.Ledger
