import AiMeshChat.Ledger.RequestLedger
import Mathlib.Tactic.Common

/-!
# The ledger as a list of entries

What the ledger is for: a list of entries for each request, of which a run sees
its own. `Holds` says that the files hold such lists, line by line, and
`readAll_of_holds` that they are read back as they are. The condition is on the
texts: no string of an entry may have U+0085, U+2028 or U+2029 in it, the line
boundaries of `splitlines` that JSON leaves as they are. Every other boundary is
a control character and is escaped.
-/

namespace AiMeshChat.Ledger

open Lib

/-! ## Texts on one line -/

/-- A text that `splitlines` leaves in one piece. -/
def OneLine (cs : List Char) : Prop := ∀ c ∈ cs, isBreak c = false

/-- No line boundary that JSON does not escape. -/
def NoSeparator (s : String) : Prop := ∀ c ∈ s.toList, c.toNat ∉ [0x85, 0x2028, 0x2029]

instance (cs : List Char) : Decidable (OneLine cs) := List.decidableBAll _ cs
instance (s : String) : Decidable (NoSeparator s) := List.decidableBAll _ s.toList

variable {cs : List Char} {c : Char} {rid : String} {d : ℕ} {e : Entry} {es : List Entry} {s : Logs}
  {log : String → List Entry} {torn : String → List Char}

theorem OneLine.append {ds : List Char} (hc : OneLine cs) (hd : OneLine ds) :
    OneLine (cs ++ ds) := by
  intro c h
  rcases List.mem_append.mp h with h | h
  · exact hc c h
  · exact hd c h

theorem OneLine.cons (hc : isBreak c = false) (hcs : OneLine cs) : OneLine (c :: cs) := by
  intro x h
  rcases List.mem_cons.mp h with rfl | h
  · exact hc
  · exact hcs x h

theorem escape_control_oneLine : ∀ n : Fin 32, OneLine (escapeChar (Char.ofNat n)) := by
  decide

theorem escapeChar_oneLine (hc : c.toNat ∉ [0x85, 0x2028, 0x2029]) : OneLine (escapeChar c) := by
  by_cases hctl : c.toNat < 32
  · have h := escape_control_oneLine ⟨c.toNat, hctl⟩
    rwa [Char.ofNat_toNat] at h
  · by_cases hq : c = '"' ∨ c = '\\'
    · rcases hq with rfl | rfl <;> decide
    · obtain ⟨hquote, hslash⟩ := not_or.mp hq
      rw [escapeChar_plain hctl hquote hslash]
      intro x hx
      rw [List.mem_singleton.mp hx]
      simp only [isBreak, List.mem_cons, List.not_mem_nil, or_false, decide_eq_false_iff_not]
        at hc ⊢
      omega

theorem jsonChars_oneLine {s : String} (hs : NoSeparator s) : OneLine (jsonChars s) := by
  rw [jsonChars_eq]
  refine OneLine.append (OneLine.cons rfl ?_) (by decide)
  intro x hx
  obtain ⟨c, hc, hxc⟩ := List.mem_flatMap.mp hx
  exact escapeChar_oneLine (hs c hc) x hxc

theorem isIdChar_lt (h : isIdChar c = true) : c.toNat < 0x80 := by
  simp only [isIdChar, isAlnum] at h
  delta Char.isAlphanum Char.isAlpha Char.isUpper Char.isLower Char.isDigit at h
  simp only [Bool.or_eq_true, Bool.and_eq_true, decide_eq_true_eq, UInt32.le_iff_toNat_le,
    ge_iff_le] at h
  rcases h with ((((⟨-, h⟩ | ⟨-, h⟩) | ⟨-, h⟩) | rfl) | rfl) | rfl
  · exact Nat.lt_of_le_of_lt h (by decide)
  · exact Nat.lt_of_le_of_lt h (by decide)
  · exact Nat.lt_of_le_of_lt h (by decide)
  all_goals decide

theorem noSeparator_of_eventsDir (h : eventsDir rid = .ok ()) : NoSeparator rid := by
  have hsafe : Mailbox.pathSafe rid = true := by
    by_contra hne
    simp [eventsDir, hne] at h
  have hid {cs : List Char} (hcs : cs.all isIdChar = true) :
      ∀ c ∈ cs, c.toNat ∉ [0x85, 0x2028, 0x2029] := by
    intro c hc
    have := isIdChar_lt (List.all_eq_true.mp hcs c hc)
    simp only [List.mem_cons, List.not_mem_nil, or_false]
    omega
  simp only [Mailbox.pathSafe, dollar, Bool.or_eq_true, Bool.and_eq_true] at hsafe
  rcases hsafe with ⟨⟨-, h⟩, -⟩ | ⟨hlast, ⟨-, h⟩, -⟩
  · exact hid h
  · -- the pattern lets a final newline through
    intro c hc
    have hlast : rid.toList.getLast? = some '\n' := by simpa using hlast
    obtain ⟨init, hinit⟩ := List.getLast?_eq_some_iff.mp hlast
    rw [hinit, List.dropLast_concat] at h
    rw [hinit] at hc
    rcases List.mem_append.mp hc with hc | hc
    · exact hid h c hc
    · rw [List.mem_singleton.mp hc]
      decide

/-! ## Entries -/

/-- An entry of the log of a request. -/
structure Entry where
  rid : String
  run : String
  event : String
  ts : FloatText
  info : Json

def Entry.json (e : Entry) : Json := entryOf e.rid e.run e.event e.ts e.info

/-- An entry that can be read back with `d` levels of nesting: its strings have no
separator, and its meta is a value that the library writes. -/
structure Entry.Clean (d : ℕ) (e : Entry) : Prop where
  rid : NoSeparator e.rid
  run : NoSeparator e.run
  event : NoSeparator e.event
  proper : Proper d e.info
  info : OneLine (spaced e.info)

theorem Entry.Clean.proper_json (h : e.Clean d) : Proper (d + 1) e.json := by
  refine ⟨by simp, ?_, ?_, ?_, ?_, h.proper, trivial⟩
  · cases d <;> trivial
  · cases d <;> trivial
  · cases d <;> trivial
  · cases d <;> exact e.ts.reads

theorem Entry.Clean.loads (h : e.Clean d) :
    loads (d + 1) (spaced e.json) = .ok e.json := loads_spaced h.proper_json

theorem Entry.spaced_json (e : Entry) : ∃ cs, spaced e.json = '\x7b' :: cs ++ ['\x7d'] ∧
    cs = jsonChars "request_id" ++ [':', ' '] ++ jsonChars e.rid ++ [',', ' '] ++
      jsonChars "run_id" ++ [':', ' '] ++ jsonChars e.run ++ [',', ' '] ++
      jsonChars "event" ++ [':', ' '] ++ jsonChars e.event ++ [',', ' '] ++
      jsonChars "ts" ++ [':', ' '] ++ e.ts.text.toList ++ [',', ' '] ++
      jsonChars "meta" ++ [':', ' '] ++ spaced e.info :=
  ⟨_, by simp [Entry.json, entryOf, jsonText, membersText], rfl⟩

theorem Entry.Clean.oneLine (h : e.Clean d) : OneLine (spaced e.json) := by
  obtain ⟨cs, hcs, rfl⟩ := e.spaced_json
  rw [hcs]
  refine OneLine.append (OneLine.cons rfl ?_) (by decide)
  have hsep : OneLine [',', ' '] := by decide
  have hcolon : OneLine [':', ' '] := by decide
  have hkey (k : String) (hk : NoSeparator k) := jsonChars_oneLine hk
  exact ((((((((((((((((((hkey _ (by decide)).append hcolon).append (hkey _ h.rid)).append
    hsep).append (hkey _ (by decide))).append hcolon).append (hkey _ h.run)).append hsep).append
    (hkey _ (by decide))).append hcolon).append (hkey _ h.event)).append hsep).append
    (hkey _ (by decide))).append hcolon).append e.ts.oneLine).append hsep).append
    (hkey _ (by decide))).append hcolon).append h.info

/-- The lines of a log. -/
def render (es : List Entry) : List Char := es.flatMap fun e => lineOf e.json

/-- **The log is read back** as it was written, with what a torn line at its end
holds. -/
theorem parseLines_render (hes : ∀ e ∈ es, e.Clean d) (last : List Char) :
    parseLines (d + 1) (linesOn isBreak (render es ++ last)) =
      (parseLines (d + 1) (linesOn isBreak last)).map (es.map Entry.json ++ ·) := by
  induction es with
  | nil =>
    cases h : parseLines (d + 1) (linesOn isBreak last) <;>
      simp [render, h, Except.map]
  | cons e es ih =>
    have he := hes e (List.mem_cons_self ..)
    have hline : render (e :: es) ++ last = spaced e.json ++ '\n' :: (render es ++ last) := by
      simp [render, lineOf]
    obtain ⟨cs, hcs, -⟩ := e.spaced_json
    have hstrip : strip (spaced e.json) = spaced e.json := by
      rw [hcs]
      exact strip_braces cs
    have hne : spaced e.json ≠ [] := by
      rw [hcs]
      simp
    rw [hline, linesOn_line he.oneLine rfl, parseLines, hstrip, if_neg hne, he.loads]
    simp only [ih fun x hx => hes x (List.mem_cons_of_mem _ hx)]
    cases parseLines (d + 1) (linesOn isBreak last) <;> simp [Except.map]

theorem no_cr_of_oneLine (h : OneLine cs) : '\r' ∉ cs := by
  intro hm
  exact absurd (h _ hm) (by decide)

theorem no_cr_render (hes : ∀ e ∈ es, e.Clean d) : '\r' ∉ render es := by
  intro hm
  obtain ⟨e, he, hme⟩ := List.mem_flatMap.mp hm
  rcases List.mem_append.mp hme with h | h
  · exact no_cr_of_oneLine (hes e he).oneLine h
  · exact absurd (List.mem_singleton.mp h) (by decide)

/-- The files hold the logs, and after the last full line what a crash has left. -/
structure Holds (d : ℕ) (s : Logs) (log : String → List Entry) (torn : String → List Char) :
    Prop where
  file : ∀ rid, (s.files rid).getD [] = encode (render (log rid) ++ torn rid)
  clean : ∀ rid, ∀ e ∈ log rid, e.Clean d
  oneLine : ∀ rid, OneLine (torn rid)

theorem holds_empty (d : ℕ) : Holds d .empty (fun _ => []) (fun _ => []) :=
  ⟨fun _ => rfl, fun _ => nofun, fun _ => nofun⟩

theorem readAll_of_holds (h : Holds d s log torn) (hrid : eventsDir rid = .ok ()) :
    readAll (d + 1) s rid =
      (parseLines (d + 1) (linesOn isBreak (torn rid))).map ((log rid).map Entry.json ++ ·) := by
  have hfile := h.file rid
  have hcr : '\r' ∉ render (log rid) ++ torn rid := by
    rw [List.mem_append, not_or]
    exact ⟨no_cr_render (h.clean rid), no_cr_of_oneLine (h.oneLine rid)⟩
  have hparse := parseLines_render (h.clean rid) (torn rid)
  rw [← hparse]
  cases hf : s.files rid with
  | none =>
    -- no file: the text is empty
    rw [hf, Option.getD_none] at hfile
    have htext : render (log rid) ++ torn rid = [] := by
      have := congrArg utf8 hfile
      rw [utf8_encode] at this
      exact (Option.some.inj this).symm
    rw [htext]
    simp [readAll, hrid, hf, linesOn, parseLines, bind, Except.bind]
  | some bytes =>
    rw [hf, Option.getD_some] at hfile
    simp [readAll, hrid, hf, hfile, utf8_encode, splitLines, joinCrLf_of_no_cr hcr, bind,
      Except.bind]

/-! ## What the reader makes of the entries -/

/-- The terminal events that the entries record for a run. -/
def terminals (es : List Entry) (run : String) : List String :=
  (es.filter fun e => e.run = run && e.event ∈ TERMINAL_STATES).map Entry.event

theorem terminals_append (es fs : List Entry) (run : String) :
    terminals (es ++ fs) run = terminals es run ++ terminals fs run := by
  simp [terminals]

theorem firstTerminal_map (es : List Entry) (run : String) :
    firstTerminal ((es.filter fun e => e.run = run).map Entry.json) =
      .ok (terminals es run).head? := by
  induction es with
  | nil => rfl
  | cons e es ih =>
    have hevent : terminalOf e.json =
        .ok (if e.event ∈ TERMINAL_STATES then some e.event else none) := rfl
    by_cases hrun : e.run = run
    · by_cases ht : e.event ∈ TERMINAL_STATES
      · simp [terminals, hrun, firstTerminal, hevent, ht, bind, Except.bind, pure, Except.pure]
      · simp only [hrun, decide_true, List.filter_cons_of_pos, List.map_cons, firstTerminal,
          hevent, ht, if_false, bind, Except.bind, ih]
        simp [terminals, hrun, ht]
    · simp only [hrun, decide_false, Bool.false_eq_true, not_false_eq_true,
        List.filter_cons_of_neg, ih]
      simp [terminals, hrun]

theorem filter_json (es : List Entry) (run : String) :
    (es.map Entry.json).filter (fun e => e.get? "run_id" = some (.str run)) =
      (es.filter fun e => e.run = run).map Entry.json := by
  rw [List.filter_map]
  congr 2
  funext e
  have hget : e.json.get? "run_id" = some (.str e.run) := rfl
  simp [Function.comp, hget]

theorem readEntries_of_holds (h : Holds d s log torn) (hrid : eventsDir rid = .ok ())
    (htorn : torn rid = []) (run : String) : readEntries (d + 1) s rid run =
      .ok (((log rid).filter fun e => e.run = run).map Entry.json) := by
  have hdict : ((log rid).map Entry.json).all Json.isDict = true := by
    rw [List.all_map, List.all_eq_true]
    intro e _
    rfl
  rw [readEntries, readAll_of_holds h hrid, htorn]
  simp only [linesOn, parseLines, Except.map, List.append_nil, bind, Except.bind, hdict, if_true,
    filter_json]

theorem getTerminal_of_holds (h : Holds d s log torn) (hrid : eventsDir rid = .ok ())
    (htorn : torn rid = []) (run : String) :
    getTerminal (d + 1) s rid run = .ok (terminals (log rid) run).head? := by
  rw [getTerminal, readEntries_of_holds h hrid htorn]
  simp only [bind, Except.bind, firstTerminal_map]

/-! ## What a call adds -/

/-- What a rejected terminal event leaves. -/
def conflictInfo (event existing : String) : Json :=
  .obj [("frozen_event", .str event), ("existing_terminal", .str existing)]

/-- The answer of `record_event` on the entries of its request, and the entry that
it adds. -/
def decided (es : List Entry) (rid run event : String) (info : Json) (ts : FloatText) :
    Bool × Entry :=
  if event ∈ TERMINAL_STATES then
    match (terminals es run).head? with
    | some existing => (false, ⟨rid, run, "PROTOCOL_CONFLICT", ts, conflictInfo event existing⟩)
    | none => (true, ⟨rid, run, event, ts, info⟩)
  else (true, ⟨rid, run, event, ts, info⟩)

theorem decided_fields (es : List Entry) (rid run event : String) (info : Json) (ts : FloatText) :
    (decided es rid run event info ts).2.rid = rid ∧
      (decided es rid run event info ts).2.run = run ∧
      (decided es rid run event info ts).2.ts = ts := by
  unfold decided
  split_ifs
  · split <;> exact ⟨rfl, rfl, rfl⟩
  · exact ⟨rfl, rfl, rfl⟩

theorem decided_accepted {run event : String} {info : Json} {ts : FloatText}
    (h : (decided es rid run event info ts).1 = true) :
    (decided es rid run event info ts).2 = ⟨rid, run, event, ts, info⟩ := by
  unfold decided at h ⊢
  split_ifs at h ⊢
  · split at h
    · cases h
    · rfl
  · rfl

theorem spaced_pair_oneLine {k₁ k₂ a b : String} (hk₁ : NoSeparator k₁) (hk₂ : NoSeparator k₂)
    (ha : NoSeparator a) (hb : NoSeparator b) :
    OneLine (spaced (.obj [(k₁, .str a), (k₂, .str b)])) := by
  have htext : spaced (.obj [(k₁, .str a), (k₂, .str b)]) = '\x7b' :: (jsonChars k₁ ++ [':', ' '] ++
      jsonChars a ++ [',', ' '] ++ jsonChars k₂ ++ [':', ' '] ++ jsonChars b ++ ['\x7d']) := by
    simp [jsonText, membersText]
  rw [htext]
  exact OneLine.cons rfl ((((((((jsonChars_oneLine hk₁).append (by decide)).append
    (jsonChars_oneLine ha)).append (by decide)).append (jsonChars_oneLine hk₂)).append
    (by decide)).append (jsonChars_oneLine hb)).append (by decide))

theorem decided_clean (hes : ∀ e ∈ es, e.Clean (d + 1)) {run event : String} {info : Json}
    (hrid : NoSeparator rid) (hrun : NoSeparator run) (hevent : NoSeparator event)
    (hproper : Proper (d + 1) info) (hinfo : OneLine (spaced info))
    (ts : FloatText) : (decided es rid run event info ts).2.Clean (d + 1) := by
  have hnew : Entry.Clean (d + 1) ⟨rid, run, event, ts, info⟩ := ⟨hrid, hrun, hevent, hproper, hinfo⟩
  unfold decided
  split_ifs with ht
  · cases hhead : (terminals es run).head? with
    | none => exact hnew
    | some existing =>
      obtain ⟨e, he, rfl⟩ := List.mem_map.mp (List.mem_of_head? hhead)
      have hold := (hes e (List.mem_of_mem_filter he)).event
      refine ⟨hrid, hrun, (by decide : NoSeparator "PROTOCOL_CONFLICT"), ?_, ?_⟩
      · refine ⟨by simp, ?_, ?_, trivial⟩
        · cases d <;> trivial
        · cases d <;> trivial
      · exact spaced_pair_oneLine (by decide) (by decide) hevent hold
  · exact hnew

/-- The logs after an entry has been added to one of them. -/
def addTo (log : String → List Entry) (rid : String) (e : Entry) : String → List Entry :=
  Function.update log rid (log rid ++ [e])

theorem Holds.write (h : Holds d s log torn) (htorn : torn rid = []) (hcs : OneLine cs) :
    Holds d (s.write rid (encode cs)) log (Function.update torn rid cs) := by
  refine ⟨fun r => ?_, h.clean, fun r => ?_⟩
  · by_cases hr : r = rid
    · subst hr
      have hold := h.file r
      rw [htorn, List.append_nil] at hold
      simp [Logs.write, hold, encode_append]
    · rw [Function.update_of_ne hr]
      have hother : (s.write rid (encode cs)).files r = s.files r := Function.update_of_ne hr _ _
      rw [hother]
      exact h.file r
  · by_cases hr : r = rid
    · rw [hr, Function.update_self]
      exact hcs
    · rw [Function.update_of_ne hr]
      exact h.oneLine r

theorem Holds.add (h : Holds d s log torn) (he : e.Clean d) (htorn : torn e.rid = []) :
    Holds d (append s e.rid e.run e.event e.ts e.info) (addTo log e.rid e) torn := by
  refine ⟨fun rid => ?_, fun rid => ?_, h.oneLine⟩
  · by_cases hr : rid = e.rid
    · subst hr
      have hrender : render (addTo log e.rid e e.rid) = render (log e.rid) ++ lineOf e.json := by
        simp [addTo, render]
      have hold := h.file e.rid
      rw [htorn, List.append_nil] at hold
      rw [hrender, htorn, List.append_nil, encode_append, ← hold]
      simp [append, Logs.write, Entry.json]
    · have hother : (append s e.rid e.run e.event e.ts e.info).files rid = s.files rid :=
        Function.update_of_ne hr _ _
      rw [hother, addTo, Function.update_of_ne hr]
      exact h.file rid
  · by_cases hr : rid = e.rid
    · subst hr
      rw [addTo, Function.update_self]
      intro x hx
      rcases List.mem_append.mp hx with hx | hx
      · exact h.clean _ x hx
      · rw [List.mem_singleton.mp hx]
        exact he
    · rw [addTo, Function.update_of_ne hr]
      exact h.clean rid

/-- **`record_event` on a clean ledger** answers and adds what is decided on the
entries. -/
theorem recordEvent_of_holds (h : Holds d s log torn) (hrid : eventsDir rid = .ok ())
    (htorn : torn rid = []) (run event : String) (info : Json) (ts : FloatText) :
    let x := decided (log rid) rid run event info ts
    recordEvent (d + 1) s rid run event info ts =
      .ok (x.1, append s rid run x.2.event ts x.2.info) := by
  have hterm := getTerminal_of_holds h hrid htorn run
  by_cases ht : event ∈ TERMINAL_STATES
  · cases hhead : (terminals (log rid) run).head? with
    | none =>
      rw [hhead] at hterm
      simp [recordEvent, decideEvent, hrid, ht, hterm, decided, hhead, bind, Except.bind, pure,
        Except.pure]
    | some existing =>
      rw [hhead] at hterm
      simp [recordEvent, decideEvent, hrid, ht, hterm, decided, hhead, conflictInfo, bind,
        Except.bind, pure, Except.pure]
  · simp [recordEvent, decideEvent, hrid, ht, decided, bind, Except.bind, pure, Except.pure]

end AiMeshChat.Ledger
