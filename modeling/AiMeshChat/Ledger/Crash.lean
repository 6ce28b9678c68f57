import AiMeshChat.JsonPrefix
import AiMeshChat.Ledger.Terminal
import Mathlib.Data.List.TakeWhile

/-!
# Accepted events and crashes

A process may die after any number of bytes of an append. The line that it leaves
has no end, and the next append goes on behind it, on the same line: the two
together are no JSON, so an event that was accepted is lost (`torn_line_hides_event`).

A torn line is harmless as long as nothing is appended to it and it ends with a
whole character: the reader skips it, or reads it as the entry it was meant to be
(`accepted_survive`).
-/

namespace AiMeshChat.Ledger

open Lib

/-- A call of `record_event` that ends, or one whose process dies when the first `k`
bytes of its append are in the file. -/
inductive CrashStep
  | record (c : EventCall)
  | crash (c : EventCall) (k : ℕ)

/-- The bytes that the append of a call writes. -/
def writtenBytes (d : ℕ) (s : Logs) (c : EventCall) : Except LedgerErr (List UInt8) := do
  let (_, event, info) ← decideEvent d s c.rid c.run c.event c.info
  return encode (lineOf (entryOf c.rid c.run event c.ts info))

/-- The ledger after a step, and the calls that returned `True`. -/
def crashStep (d : ℕ) (st : Logs × List EventCall) : CrashStep → Logs × List EventCall
  | .record c =>
    match recordEvent d st.1 c.rid c.run c.event c.info c.ts with
    | .ok (true, s') => (s', st.2 ++ [c])
    | .ok (false, s') => (s', st.2)
    | .error _ => st
  | .crash c k =>
    match writtenBytes d st.1 c with
    | .ok bytes => (st.1.write c.rid (bytes.take k), st.2)
    | .error _ => st

def runSteps (d : ℕ) (steps : List CrashStep) (st : Logs × List EventCall) :
    Logs × List EventCall :=
  steps.foldl (crashStep d) st

/-- The entries of the accepted calls of a run, in order. -/
def acceptedFor (calls : List EventCall) (rid run : String) : List Json :=
  (calls.filter fun c => c.rid = rid && c.run = run).map fun c =>
    entryOf c.rid c.run c.event c.ts c.info

/-- Every event that was accepted is read back, in order. -/
def Survive (d : ℕ) (st : Logs × List EventCall) : Prop :=
  ∀ rid run, eventsDir rid = .ok () →
    ∃ es, getEvents d st.1 rid run = .ok es ∧ List.Sublist (acceptedFor st.2 rid run) es

/-! ## The condition -/

/-- The file of a request is empty or ends with a full line. -/
def WholeLines (s : Logs) (rid : String) : Prop :=
  (s.files rid).getD [] = [] ∨ ((s.files rid).getD []).getLast? = some 10

/-- The step meets a file of full lines, its texts have no separator, and if it
crashes it does so between two characters. -/
def CrashStep.Sound (d : ℕ) (s : Logs) : CrashStep → Prop
  | .record c => c.Clean (d + 1) ∧ WholeLines s c.rid
  | .crash c k => c.Clean (d + 1) ∧ WholeLines s c.rid ∧
    ∀ bytes, writtenBytes (d + 2) s c = .ok bytes → ∃ cs, bytes.take k = encode cs

/-- Every step of a run meets the condition in the state before it. -/
def AllSound (d : ℕ) : Logs × List EventCall → List CrashStep → Prop
  | _, [] => True
  | st, x :: xs => x.Sound d st.1 ∧ AllSound d (crashStep (d + 2) st x) xs

/-! ## Bytes and characters -/

variable {cs : List Char} {d : ℕ} {log : String → List Entry} {torn : String → List Char}
  {st : Logs × List EventCall}

theorem getLast_of_encode (h : (encode cs).getLast? = some 10) : cs.getLast? = some '\n' := by
  obtain ⟨bs, hbs⟩ := List.getLast?_eq_some_iff.mp h
  have htokens : cs.map some = tokens none bs ++ [some '\n'] := by
    have h₁ := tokens_encode cs []
    have h₂ := tokens_ascii (b := 10) (by decide) [] bs none
    rw [List.append_nil, hbs, h₂] at h₁
    simpa [tokens] using h₁.symm
  have hlast := congrArg List.getLast? htokens
  rw [List.getLast?_map, List.getLast?_concat] at hlast
  cases hc : cs.getLast? with
  | none => rw [hc] at hlast; cases hlast
  | some c =>
    rw [hc] at hlast
    exact Option.some.inj hlast

theorem prefix_of_encode {ds : List Char} (h : encode cs <+: encode ds) : cs <+: ds := by
  obtain ⟨bs, h⟩ := h
  have htokens : ds.map some = cs.map some ++ tokens none bs := by
    have h₁ := tokens_encode ds []
    rw [List.append_nil, ← h, tokens_encode] at h₁
    simpa [tokens] using h₁.symm
  obtain ⟨as, bs', rfl, has, -⟩ := List.map_eq_append_iff.mp htokens
  rw [List.map_injective_iff.mpr (Option.some_injective _) has]
  exact List.prefix_append _ _

/-! ## The torn line -/

/-- What a crash can leave of a line: nothing, or the beginning of an entry. -/
def TornEntry (d : ℕ) (cs : List Char) : Prop :=
  cs = [] ∨ ∃ e : Entry, e.Clean d ∧ cs <+: spaced e.json

/-- The texts that `strip` leaves begin as they did. -/
theorem strip_prefix_brace (h : cs.head? = some '\x7b') :
    strip cs <+: cs ∧ (strip cs).head? = some '\x7b' := by
  obtain ⟨cs, rfl⟩ : ∃ l, cs = '\x7b' :: l := by
    cases cs with
    | nil => cases h
    | cons c l => exact ⟨l, by rw [Option.some.inj h]⟩
  have hleft : ('\x7b' :: cs).dropWhile isSpace = '\x7b' :: cs :=
    List.dropWhile_cons_of_neg (by decide)
  have hpre : strip ('\x7b' :: cs) <+: '\x7b' :: cs := by
    rw [strip, hleft]
    have := List.dropWhile_suffix (l := ('\x7b' :: cs).reverse) isSpace
    rwa [← List.reverse_prefix, List.reverse_reverse] at this
  refine ⟨hpre, ?_⟩
  -- the brace itself is no white space, so it is still there
  have hne : strip ('\x7b' :: cs) ≠ [] := by
    rw [strip, hleft, ne_eq, List.reverse_eq_nil_iff, List.dropWhile_eq_nil_iff]
    intro hall
    exact absurd (hall '\x7b' (by simp)) (by decide)
  obtain ⟨c, l, hc⟩ := List.exists_cons_of_ne_nil hne
  rw [hc] at hpre ⊢
  obtain ⟨more, hmore⟩ := hpre
  rw [← (List.cons.inj hmore).1]
  rfl

/-- **A torn line is skipped**, or it is a dict. -/
theorem parseLines_torn (h : TornEntry (d + 1) cs) :
    ∃ es, parseLines (d + 2) (linesOn isBreak cs) = .ok es ∧ es.all Json.isDict = true := by
  rcases h with rfl | ⟨e, he, hpre⟩
  · exact ⟨[], rfl, rfl⟩
  · by_cases hnil : cs = []
    · subst hnil
      exact ⟨[], rfl, rfl⟩
    · have hone : OneLine cs := fun c hc => he.oneLine c (hpre.subset hc)
      obtain ⟨text, htext, -⟩ := e.spaced_json
      have hhead : cs.head? = some '\x7b' := by
        obtain ⟨more, hmore⟩ := hpre
        cases cs with
        | nil => exact absurd rfl hnil
        | cons c l =>
          rw [htext, List.cons_append, List.cons_append] at hmore
          rw [(List.cons.inj hmore).1]
          rfl
      obtain ⟨hstrip, hbrace⟩ := strip_prefix_brace hhead
      have hne : strip cs ≠ [] := by
        intro hn
        rw [hn] at hbrace
        cases hbrace
      have hdeep : loads (d + 2) (strip cs) ≠ .error .recursion := by
        obtain ⟨more, hmore⟩ := hstrip.trans hpre
        have hwhole : loads (d + 2) (strip cs ++ more) ≠ .error .recursion := by
          rw [hmore, he.loads]
          nofun
        exact loads_prefix hwhole
      rw [linesOn_last hone hnil, parseLines, if_neg hne]
      rcases hl : loads (d + 2) (strip cs) with (_ | _) | v
      · exact ⟨[], rfl, rfl⟩
      · exact absurd hl hdeep
      · obtain ⟨l, hl'⟩ : ∃ l, strip cs = '\x7b' :: l := by
          obtain ⟨c, l, hc⟩ := List.exists_cons_of_ne_nil hne
          rw [hc] at hbrace
          exact ⟨l, by rw [hc, Option.some.inj hbrace]⟩
        rw [hl'] at hl
        exact ⟨[v], rfl, by simp [loads_brace hl]⟩

/-! ## Runs -/

/-- The files hold the logs with at most a torn entry behind, and the logs hold the
accepted events in order. -/
structure Intact (d : ℕ) (st : Logs × List EventCall) (log : String → List Entry)
    (torn : String → List Char) : Prop where
  holds : Holds (d + 1) st.1 log torn
  torn : ∀ rid, TornEntry (d + 1) (torn rid)
  accepted : ∀ rid run, List.Sublist (acceptedFor st.2 rid run)
    (((log rid).filter fun e => e.run = run).map Entry.json)

theorem torn_of_wholeLines {s : Logs} (h : Holds d s log torn) {rid : String}
    (hw : WholeLines s rid) : torn rid = [] := by
  rw [WholeLines, h.file rid] at hw
  rcases hw with hw | hw
  · have htext : render (log rid) ++ torn rid = [] := by
      have := congrArg utf8 hw
      rw [utf8_encode] at this
      exact Option.some.inj this
    exact (List.append_eq_nil_iff.mp htext).2
  · have hlast := getLast_of_encode hw
    by_contra hne
    rw [List.getLast?_append_of_ne_nil _ hne] at hlast
    exact absurd (h.oneLine rid _ (List.mem_of_getLast? hlast)) (by decide)

theorem Intact.survive (h : Intact d st log torn) : Survive (d + 2) st := by
  intro rid run hrid
  obtain ⟨es, hes, hdict⟩ := parseLines_torn (h.torn rid)
  have hread := readAll_of_holds h.holds hrid
  rw [hes] at hread
  have hall : ((log rid).map Entry.json ++ es).all Json.isDict = true := by
    rw [List.all_append, Bool.and_eq_true]
    refine ⟨?_, hdict⟩
    rw [List.all_map, List.all_eq_true]
    intro e _
    rfl
  refine ⟨((log rid).map Entry.json ++ es).filter fun e => e.get? "run_id" = some (.str run),
    ?_, ?_⟩
  · simp only [getEvents, readEntries, hread, Except.map, bind, Except.bind, hall, if_true]
  · rw [List.filter_append, filter_json]
    exact (h.accepted rid run).trans (List.sublist_append_left _ _)

theorem writtenBytes_of_holds {s : Logs} (h : Holds d s log torn) {c : EventCall}
    (hrid : eventsDir c.rid = .ok ()) (htorn : torn c.rid = []) : writtenBytes (d + 1) s c =
      .ok (encode (lineOf (decided (log c.rid) c.rid c.run c.event c.info c.ts).2.json)) := by
  have hterm := getTerminal_of_holds h hrid htorn c.run
  by_cases ht : c.event ∈ TERMINAL_STATES
  · cases hhead : (terminals (log c.rid) c.run).head? with
    | none =>
      rw [hhead] at hterm
      simp [writtenBytes, decideEvent, hrid, ht, hterm, decided, hhead, Entry.json, bind,
        Except.bind, pure, Except.pure]
    | some existing =>
      rw [hhead] at hterm
      simp [writtenBytes, decideEvent, hrid, ht, hterm, decided, hhead, Entry.json, conflictInfo,
        bind, Except.bind, pure, Except.pure]
  · simp [writtenBytes, decideEvent, hrid, ht, decided, Entry.json, bind, Except.bind, pure,
      Except.pure]

theorem filter_addTo (log : String → List Entry) (e : Entry) (rid run : String) :
    ((addTo log e.rid e rid).filter fun x => x.run = run).map Entry.json =
      ((log rid).filter fun x => x.run = run).map Entry.json ++
        if e.rid = rid ∧ e.run = run then [e.json] else [] := by
  by_cases hr : rid = e.rid
  · subst hr
    rw [addTo, Function.update_self]
    by_cases hrun : e.run = run <;> simp [hrun]
  · rw [addTo, Function.update_of_ne hr, if_neg fun h => hr h.1.symm, List.append_nil]

theorem Intact.record (h : Intact d st log torn) {s' : Logs} {e : Entry}
    (hs' : Holds (d + 1) s' (addTo log e.rid e) torn) (calls : List EventCall)
    (hcalls : ∀ c ∈ calls, calls = [c] ∧ e = ⟨c.rid, c.run, c.event, c.ts, c.info⟩) :
    Intact d (s', st.2 ++ calls) (addTo log e.rid e) torn := by
  refine ⟨hs', h.torn, fun rid run => ?_⟩
  rw [filter_addTo, acceptedFor, List.filter_append, List.map_append]
  refine (h.accepted rid run).append ?_
  cases calls with
  | nil => exact List.nil_sublist _
  | cons c calls =>
    obtain ⟨hone, rfl⟩ := hcalls c (List.mem_cons_self ..)
    rw [hone]
    by_cases hc : c.rid = rid ∧ c.run = run
    · simp [hc, Entry.json]
    · rw [if_neg hc]
      simp only [List.filter_cons, List.filter_nil, Bool.and_eq_true, decide_eq_true_eq, hc,
        if_false, List.map_nil]
      exact List.nil_sublist _

/-- **One step** that meets the condition. -/
theorem crashStep_intact (h : Intact d st log torn) {x : CrashStep} (hx : x.Sound d st.1) :
    ∃ log' torn', Intact d (crashStep (d + 2) st x) log' torn' := by
  cases x with
  | record c =>
    obtain ⟨hclean, hwhole⟩ := hx
    have htorn := torn_of_wholeLines h.holds hwhole
    cases hrid : eventsDir c.rid with
    | error e =>
      have hrec : recordEvent (d + 2) st.1 c.rid c.run c.event c.info c.ts = .error e := by
        simp [recordEvent, decideEvent, hrid, bind, Except.bind]
      simp only [crashStep, hrec]
      exact ⟨log, torn, h⟩
    | ok u =>
      have hrec := recordEvent_of_holds h.holds hrid htorn c.run c.event c.info c.ts
      have hnew := decided_clean (h.holds.clean c.rid) (noSeparator_of_eventsDir hrid) hclean.run
        hclean.event hclean.proper hclean.info c.ts
      obtain ⟨hrid', hrun', hts'⟩ := decided_fields (log c.rid) c.rid c.run c.event c.info c.ts
      have hadd := h.holds.add hnew (by rw [hrid']; exact htorn)
      rw [crashStep, hrec]
      cases hacc : (decided (log c.rid) c.rid c.run c.event c.info c.ts).1 with
      | true =>
        have hintact := h.record hadd [c] (by
          intro c' hc'
          rw [List.mem_singleton.mp hc']
          exact ⟨rfl, decided_accepted hacc⟩)
        rw [hrid', hrun', hts'] at hintact
        exact ⟨_, torn, hintact⟩
      | false =>
        have hintact := h.record hadd [] fun c hc => by cases hc
        rw [hrid', hrun', hts', List.append_nil] at hintact
        exact ⟨_, torn, hintact⟩
  | crash c k =>
    obtain ⟨hclean, hwhole, hcut⟩ := hx
    have htorn := torn_of_wholeLines h.holds hwhole
    cases hrid : eventsDir c.rid with
    | error e =>
      have hbytes : writtenBytes (d + 2) st.1 c = .error e := by
        simp [writtenBytes, decideEvent, hrid, bind, Except.bind]
      simp only [crashStep, hbytes]
      exact ⟨log, torn, h⟩
    | ok u =>
      have hbytes := writtenBytes_of_holds h.holds hrid htorn
      obtain ⟨cs, hcs⟩ := hcut _ hbytes
      have hnew := decided_clean (h.holds.clean c.rid) (noSeparator_of_eventsDir hrid) hclean.run
        hclean.event hclean.proper hclean.info c.ts
      obtain ⟨hrid', hrun', hts'⟩ := decided_fields (log c.rid) c.rid c.run c.event c.info c.ts
      have hpre : cs <+: lineOf (decided (log c.rid) c.rid c.run c.event c.info c.ts).2.json :=
        prefix_of_encode (by rw [← hcs]; exact List.take_prefix _ _)
      simp only [crashStep, hbytes, hcs]
      rcases List.prefix_concat_iff.mp hpre with hall | hpart
      · -- only the return value is missing
        have hadd := h.holds.add hnew (by rw [hrid']; exact htorn)
        have hintact := h.record hadd [] fun c hc => by cases hc
        have hwrite : append st.1 (decided (log c.rid) c.rid c.run c.event c.info c.ts).2.rid
            (decided (log c.rid) c.rid c.run c.event c.info c.ts).2.run
            (decided (log c.rid) c.rid c.run c.event c.info c.ts).2.event
            (decided (log c.rid) c.rid c.run c.event c.info c.ts).2.ts
            (decided (log c.rid) c.rid c.run c.event c.info c.ts).2.info =
            st.1.write c.rid (encode cs) := by
          rw [append, hall]
          nth_rewrite 1 [hrid']
          rfl
        rw [hwrite, List.append_nil] at hintact
        exact ⟨_, torn, hintact⟩
      · have hone : OneLine cs := fun x hx => hnew.oneLine x (hpart.subset hx)
        refine ⟨log, _, h.holds.write htorn hone, fun rid => ?_, h.accepted⟩
        by_cases hr : rid = c.rid
        · rw [hr, Function.update_self]
          exact .inr ⟨_, hnew, hpart⟩
        · rw [Function.update_of_ne hr]
          exact h.torn rid

/-- **Every run** whose steps meet the condition. -/
theorem runSteps_intact {steps : List CrashStep} :
    ∀ {st : Logs × List EventCall} {log : String → List Entry} {torn : String → List Char},
      Intact d st log torn → AllSound d st steps →
      ∃ log' torn', Intact d (runSteps (d + 2) steps st) log' torn' := by
  induction steps with
  | nil => intro st log torn h _; exact ⟨log, torn, h⟩
  | cons x xs ih =>
    intro st log torn h hall
    obtain ⟨log₁, torn₁, h₁⟩ := crashStep_intact h hall.1
    exact ih h₁ hall.2

theorem AllSound.take {steps : List CrashStep} :
    ∀ {st : Logs × List EventCall}, AllSound d st steps → ∀ n, AllSound d st (steps.take n) := by
  induction steps with
  | nil => intro st _ n; rw [List.take_nil]; trivial
  | cons x xs ih =>
    intro st h n
    cases n with
    | zero => trivial
    | succ n => exact ⟨h.1, ih h.2 n⟩

/-- **Accepted events survive crashes** in every state of a run in which nothing is
appended to a torn line and every torn line ends with a whole character. -/
theorem accepted_survive (d : ℕ) (steps : List CrashStep)
    (hsteps : AllSound d (.empty, []) steps) (n : ℕ) :
    Survive (d + 2) (runSteps (d + 2) (steps.take n) (.empty, [])) := by
  have hinit : Intact d (.empty, []) (fun _ => []) fun _ => [] :=
    ⟨holds_empty _, fun _ => .inl rfl, fun _ _ => List.nil_sublist _⟩
  obtain ⟨log, torn, h⟩ := runSteps_intact hinit (hsteps.take n)
  exact h.survive

/-! ### A torn line -/

/-- One byte of an append that was cut off takes the next event with it. -/
theorem torn_line_hides_event :
    ¬ Survive 9 (runSteps 9 [.crash ⟨"r", "x", "ACKED", .obj [], someTime⟩ 1,
      .record ⟨"r", "x", "DONE", .obj [], someTime⟩] (.empty, [])) := by
  intro h
  obtain ⟨es, hes, hsub⟩ := h "r" "x" (by decide)
  have hread : getEvents 9 (runSteps 9 [.crash ⟨"r", "x", "ACKED", .obj [], someTime⟩ 1,
      .record ⟨"r", "x", "DONE", .obj [], someTime⟩] (.empty, [])).1 "r" "x" = .ok [] := by
    decide +kernel
  have haccepted : (acceptedFor (runSteps 9 [.crash ⟨"r", "x", "ACKED", .obj [], someTime⟩ 1,
      .record ⟨"r", "x", "DONE", .obj [], someTime⟩] (.empty, [])).2 "r" "x").length = 1 := by
    decide +kernel
  rw [hread] at hes
  have hlen := hsub.length_le
  rw [haccepted, ← Except.ok.inj hes] at hlen
  exact absurd hlen (by decide)

/-- An event that is accepted before the last append is cut off. -/
theorem accepted_survive_torn_tail :
    Survive 9 (runSteps 9 [.record ⟨"r", "x", "DONE", .obj [], someTime⟩,
      .crash ⟨"r", "y", "ACKED", .obj [], someTime⟩ 19] (.empty, [])) := by
  refine accepted_survive 7 [.record ⟨"r", "x", "DONE", .obj [], someTime⟩,
    .crash ⟨"r", "y", "ACKED", .obj [], someTime⟩ 19] ?_ 2
  have hclean (run event : String) (hrun : NoSeparator run) (hevent : NoSeparator event) :
      EventCall.Clean 8 ⟨"r", run, event, .obj [], someTime⟩ :=
    ⟨hrun, hevent, ⟨List.nodup_nil, trivial⟩, (by decide : OneLine ['\x7b', '\x7d'])⟩
  refine ⟨⟨hclean _ _ (by decide) (by decide), .inl rfl⟩,
    ⟨hclean _ _ (by decide) (by decide), .inr (by decide +kernel), ?_⟩, trivial⟩
  intro bytes hbytes
  have hcut : (writtenBytes 9 (crashStep 9 (.empty, [])
      (.record ⟨"r", "x", "DONE", .obj [], someTime⟩)).1
      ⟨"r", "y", "ACKED", .obj [], someTime⟩).map (·.take 19) =
      .ok (encode "\x7b\"request_id\": \"r\",".toList) := by
    decide +kernel
  rw [hbytes] at hcut
  exact ⟨_, Except.ok.inj hcut⟩

end AiMeshChat.Ledger
