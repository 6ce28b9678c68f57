import AiMeshChat.Runner.Omp

/-!
# The output read twice

`OMPRunner` reads the output of an agent line by line while it comes (`_consume_line`), and
`_parse_output` reads it again where that has found no visible text. The first reading takes the
last session and the last text of all lines; the second takes the first session, and stops at an
`agent_end`; and it cuts the output at every line boundary of `splitlines`, not only at newlines.

What a line does to either reading is an `Event`; `streamed_agree_iff` says for which events both
readings come to the same session and message.
-/

namespace AiMeshChat.Runner

open Lib

/-! ## Events -/

/-- What a line says: a session, a visible text that is not empty, the end, or nothing; or reading
it raises. -/
inductive Event
  | skip
  | session (id : Json)
  | text (t : Json)
  | agentEnd
  | raises
  deriving DecidableEq

def eventOf (d : ℕ) (line : List Char) : Event :=
  match parseLine d line with
  | .error _ => .raises
  | .ok none => .skip
  | .ok (some obj) =>
    if obj.get? "type" = some (.str "session") then .session ((obj.get? "id").getD .null)
    else if obj.get? "type" = some (.str "assistant") then
      match messageEnd obj with
      | .error _ => .raises
      | .ok t => if t.truthy then .text t else .skip
    else if obj.get? "type" = some (.str "agent_end") then .agentEnd
    else .skip

/-- `_consume_line` on an event. -/
def see (s : Seen) : Event → Option Seen
  | .skip => some s
  | .agentEnd => some s
  | .session id => some (if id.truthy then { s with sessionId := id } else s)
  | .text t => if sliceable t then some { s with text := some t } else none
  | .raises => none

/-- The loop of `_parse_output` on events. -/
def seeAgain : List Event → Seen → Option Seen
  | [], s => some s
  | .skip :: es, s => seeAgain es s
  | .session id :: es, s =>
    seeAgain es (if s.sessionId.truthy then s else { s with sessionId := id })
  | .text t :: es, s => seeAgain es { s with text := some t }
  | .agentEnd :: _, s => some s
  | .raises :: _, _ => none

theorem consumeLine_event (d : ℕ) (s : Seen) (line : List Char) :
    (consumeLine d s line).toOption = see s (eventOf d line) := by
  unfold consumeLine eventOf
  cases parseLine d line with
  | error e => rfl
  | ok o =>
    cases o with
    | none => rfl
    | some obj =>
      simp only [bind, Except.bind]
      by_cases hsession : obj.get? "type" = some (.str "session")
      · rw [if_pos hsession, if_pos hsession]
        rfl
      · rw [if_neg hsession, if_neg hsession]
        by_cases hassistant : obj.get? "type" = some (.str "assistant")
        · rw [if_pos hassistant, if_pos hassistant]
          cases messageEnd obj with
          | error e => rfl
          | ok t =>
            cases htruthy : t.truthy with
            | false => simp [htruthy, see, pure, Except.pure, Except.toOption]
            | true =>
              cases hslice : sliceable t with
              | false =>
                simp [htruthy, hslice, see, throw, throwThe, MonadExceptOf.throw, Except.toOption]
              | true => simp [htruthy, hslice, see, pure, Except.pure, Except.toOption]
        · rw [if_neg hassistant, if_neg hassistant]
          split <;> rfl

theorem reparse_event (d : ℕ) (lines : List (List Char)) (s : Seen) :
    (reparse d lines s).toOption = seeAgain (lines.map (eventOf d)) s := by
  induction lines generalizing s with
  | nil => rfl
  | cons line lines ih =>
    rw [List.map_cons, reparse, eventOf]
    cases parseLine d line with
    | error e => rfl
    | ok o =>
      cases o with
      | none => exact ih s
      | some obj =>
        simp only [bind, Except.bind]
        by_cases hsession : obj.get? "type" = some (.str "session")
        · rw [if_pos hsession, seeAgain]
          cases htruthy : s.sessionId.truthy with
          | false => simpa [hsession, htruthy] using ih _
          | true => simpa [hsession, htruthy] using ih s
        · rw [if_neg hsession]
          by_cases hassistant : obj.get? "type" = some (.str "assistant")
          · rw [if_pos hassistant]
            cases messageEnd obj with
            | error e => simp [hassistant, seeAgain, Except.toOption]
            | ok t =>
              cases htruthy : t.truthy with
              | false => simpa [hassistant, htruthy, seeAgain] using ih s
              | true => simpa [hassistant, htruthy, seeAgain] using ih _
          · rw [if_neg hassistant]
            by_cases hend : obj.get? "type" = some (.str "agent_end")
            · rw [if_pos hend]
              simp [hend, seeAgain, pure, Except.pure, Except.toOption]
            · rw [if_neg hend]
              simpa [hsession, hassistant, hend, seeAgain] using ih s

/-! ## What the events come to -/

def Event.id? : Event → Option Json
  | .session id => some id
  | _ => none

def Event.text? : Event → Option Json
  | .text t => some t
  | _ => none

/-- The event stops the first reading with an exception: `text[:1000]` raises for what has no
slices. -/
def Event.stops : Event → Bool
  | .raises => true
  | .text t => !sliceable t
  | _ => false

/-- The sessions that are named, those of them that are not empty, and the texts. -/
def allIds (es : List Event) : List Json := es.filterMap Event.id?

def ids (es : List Event) : List Json := (allIds es).filter Json.truthy

def texts (es : List Event) : List Json := es.filterMap Event.text?

/-- What comes before an `agent_end`. -/
def beforeEnd (es : List Event) : List Event := es.takeWhile fun e => !decide (e = .agentEnd)

section

variable {e : Event} {es : List Event}

theorem texts_cons : texts (e :: es) = e.text?.toList ++ texts es := by
  cases h : e.text? <;> simp [texts, h]

theorem allIds_cons : allIds (e :: es) = e.id?.toList ++ allIds es := by
  cases h : e.id? <;> simp [allIds, h]

theorem ids_of_none (h : e.id? = none) : ids (e :: es) = ids es := by
  rw [ids, allIds_cons, h]
  rfl

theorem ids_session (id : Json) :
    ids (.session id :: es) = if id.truthy then id :: ids es else ids es := by
  rw [ids, allIds_cons]
  cases h : id.truthy <;> simp [Event.id?, ids, h]

theorem beforeEnd_cons (h : e ≠ .agentEnd) : beforeEnd (e :: es) = e :: beforeEnd es :=
  List.takeWhile_cons_of_pos (by simp [h])

end

theorem foldlM_see (es : List Event) (s : Seen) : es.foldlM see s =
    if es.any Event.stops then none
    else some ⟨(ids es).getLast?.getD s.sessionId, (texts es).getLast?.or s.text⟩ := by
  induction es generalizing s with
  | nil => rfl
  | cons e es ih =>
    rw [List.foldlM_cons, List.any_cons, texts_cons, List.getLast?_append, Option.or_assoc]
    cases e with
    | skip => exact ih s
    | agentEnd => exact ih s
    | raises => rfl
    | session id =>
      rw [ids_session]
      cases htruthy : id.truthy with
      | false => simpa [see, htruthy, Event.stops, Event.text?] using ih s
      | true =>
        have hsee : see s (.session id) = some { s with sessionId := id } := by
          rw [see, htruthy]
          rfl
        have hlast : (id :: ids es).getLast?.getD s.sessionId = (ids es).getLast?.getD id := by
          rw [List.getLast?_cons]
          rfl
        rw [hsee, if_pos rfl, hlast]
        exact ih { s with sessionId := id }
    | text t =>
      rw [ids_of_none rfl]
      cases hslice : sliceable t with
      | false => simp [see, hslice, Event.stops]
      | true => simpa [see, hslice, Event.stops, Event.text?] using ih { s with text := some t }

/-- The session of the second reading. -/
def sessionOf (start : Json) (es : List Event) : Json :=
  if start.truthy then start else (ids es).head?.getD ((allIds es).getLast?.getD start)

theorem sessionOf_session (start id : Json) (es : List Event) :
    sessionOf start (.session id :: es) = sessionOf (if start.truthy then start else id) es := by
  cases hstart : start.truthy with
  | true => simp [sessionOf, hstart]
  | false =>
    cases hid : id.truthy with
    | true => simp [sessionOf, hstart, hid, ids_session]
    | false =>
      simp [sessionOf, hstart, hid, ids_session, allIds_cons, Event.id?, List.getLast?_cons]

theorem sessionOf_of_none {e : Event} (h : e.id? = none) (start : Json) (es : List Event) :
    sessionOf start (e :: es) = sessionOf start es := by
  rw [sessionOf, ids_of_none h, allIds_cons, h]
  rfl

theorem seeAgain_eq (es : List Event) (s : Seen) : seeAgain es s =
    if .raises ∈ beforeEnd es then none
    else some ⟨sessionOf s.sessionId (beforeEnd es),
      (texts (beforeEnd es)).getLast?.or s.text⟩ := by
  induction es generalizing s with
  | nil =>
    cases s
    simp [seeAgain, beforeEnd, sessionOf, ids, allIds, texts]
  | cons e es ih =>
    cases e with
    | agentEnd =>
      cases s
      simp [seeAgain, beforeEnd, sessionOf, ids, allIds, texts]
    | raises =>
      rw [beforeEnd_cons (by simp), if_pos List.mem_cons_self]
      rfl
    | skip =>
      rw [beforeEnd_cons (by simp), sessionOf_of_none rfl, texts_cons]
      simpa [seeAgain, Event.text?] using ih s
    | session id =>
      rw [beforeEnd_cons (by simp), sessionOf_session, texts_cons]
      cases htruthy : s.sessionId.truthy with
      | true => simpa [seeAgain, htruthy, Event.text?] using ih s
      | false => simpa [seeAgain, htruthy, Event.text?] using ih { s with sessionId := id }
    | text t =>
      rw [beforeEnd_cons (by simp), sessionOf_of_none rfl, texts_cons, List.getLast?_append,
        Option.or_assoc]
      simpa [seeAgain, Event.text?] using ih { s with text := some t }

/-! ## Both readings -/

/-- `_parse_output` after the lines have been read while they came. -/
def streamed (d : ℕ) (lines : List (List Char)) (stderr : String) : Except Exc Outcome := do
  let s ← lines.foldlM (consumeLine d) {}
  parseOutput d s 0 (String.ofList lines.flatten) stderr

/-- `_parse_output` where no line was read before. -/
def readAgain (d : ℕ) (lines : List (List Char)) (stderr : String) : Except Exc Outcome :=
  parseOutput d {} 0 (String.ofList lines.flatten) stderr

/-- Both readings return the same, or neither returns. -/
def Agree (d : ℕ) (lines : List (List Char)) (stderr : String) : Prop :=
  (streamed d lines stderr).toOption = (readAgain d lines stderr).toOption

/-- What the lines say as they come, and what they say before the end when the output is cut
again. -/
def firstEvents (d : ℕ) (lines : List (List Char)) : List Event := lines.map (eventOf d)

def secondEvents (d : ℕ) (lines : List (List Char)) : List Event :=
  beforeEnd ((splitLines lines.flatten).map (eventOf d))

theorem parseOutput_zero (d : ℕ) (s : Seen) (stdout stderr : String) :
    (parseOutput d s 0 stdout stderr).toOption = (finalSeen d s stdout).toOption.map fun s =>
      { returncode := 0, stdout := s.text.getD (.str stdout), stderr := stderr,
        sessionId := s.sessionId } := by
  rw [parseOutput, if_neg (by simp)]
  cases finalSeen d s stdout <;> rfl

/-- The last session of the one is the first of the other; where neither names one, the other does
not end on an empty one that is no `null`. -/
def SameSession (es es' : List Event) : Prop :=
  (ids es).getLast? = (ids es').head? ∧ (ids es' = [] → ∀ id ∈ (allIds es').getLast?, id = .null)

/-- The last text, or the output as it is. -/
def messageOf (lines : List (List Char)) (es : List Event) : Json :=
  (texts es).getLast?.getD (.str (String.ofList lines.flatten))

/-- Where the first reading raises, so does the second. Where the first has a text, the second
does not raise, and has the same message and the same session. Where it has none, the second
raises, or the first has no session, or that of the second. -/
def EventsAgree (lines : List (List Char)) (es es' : List Event) : Prop :=
  if es.any Event.stops then .raises ∈ es'
  else if texts es ≠ [] then
    .raises ∉ es' ∧ messageOf lines es = messageOf lines es' ∧ SameSession es es'
  else .raises ∈ es' ∨ ids es = [] ∨ (ids es).getLast? = (ids es').head?

/-- What a run that ends well comes to. -/
def outcomeOf (lines : List (List Char)) (stderr : String) (session : Json) (es : List Event) :
    Outcome :=
  { returncode := 0, stdout := messageOf lines es, stderr := stderr, sessionId := session }

theorem outcomeOf_inj {lines : List (List Char)} {stderr : String} {session session' : Json}
    {es es' : List Event} :
    outcomeOf lines stderr session es = outcomeOf lines stderr session' es' ↔
      messageOf lines es = messageOf lines es' ∧ session = session' := by
  simp [outcomeOf]

/-- The loop over the output as a whole, started with `s`. -/
theorem reparse_whole (d : ℕ) (lines : List (List Char)) (s : Seen) :
    (reparse d (splitLines lines.flatten) s).toOption =
      if .raises ∈ secondEvents d lines then none
      else some ⟨sessionOf s.sessionId (secondEvents d lines),
        (texts (secondEvents d lines)).getLast?.or s.text⟩ := by
  rw [reparse_event, seeAgain_eq]
  rfl

theorem readAgain_eq (d : ℕ) (lines : List (List Char)) (stderr : String) :
    (readAgain d lines stderr).toOption =
      if .raises ∈ secondEvents d lines then none
      else some (outcomeOf lines stderr (sessionOf .null (secondEvents d lines))
        (secondEvents d lines)) := by
  rw [readAgain, parseOutput_zero, finalSeen, if_neg (by simp), String.toList_ofList, reparse_whole,
    Option.or_none]
  split <;> rfl

theorem foldlM_consumeLine (d : ℕ) (lines : List (List Char)) (s : Seen) :
    (lines.foldlM (consumeLine d) s).toOption = (firstEvents d lines).foldlM see s := by
  induction lines generalizing s with
  | nil => rfl
  | cons line lines ih =>
    rw [firstEvents, List.map_cons, List.foldlM_cons, List.foldlM_cons, ← consumeLine_event]
    cases consumeLine d s line with
    | error e => rfl
    | ok s' => exact ih s'

theorem streamed_eq (d : ℕ) (lines : List (List Char)) (stderr : String) :
    (streamed d lines stderr).toOption =
      if (firstEvents d lines).any Event.stops then none
      else if texts (firstEvents d lines) ≠ [] then
        some (outcomeOf lines stderr ((ids (firstEvents d lines)).getLast?.getD .null)
          (firstEvents d lines))
      else if .raises ∈ secondEvents d lines then none
      else some (outcomeOf lines stderr
        (sessionOf ((ids (firstEvents d lines)).getLast?.getD .null) (secondEvents d lines))
        (secondEvents d lines)) := by
  have hfold := foldlM_consumeLine d lines {}
  rw [foldlM_see] at hfold
  rw [streamed]
  cases hs : lines.foldlM (consumeLine d) {} with
  | error e =>
    rw [hs] at hfold
    split at hfold
    · next hany =>
      rw [if_pos hany]
      rfl
    · cases hfold
  | ok s =>
    rw [hs] at hfold
    split at hfold
    · cases hfold
    · next hany =>
      cases hfold
      rw [if_neg hany]
      simp only [bind, Except.bind, parseOutput_zero, finalSeen, Option.or_none,
        String.toList_ofList]
      by_cases htexts : texts (firstEvents d lines) = []
      · rw [if_neg (by simp [htexts]), if_neg (by simp [htexts]), reparse_whole]
        simp only [htexts, List.getLast?_nil, Option.or_none]
        split <;> rfl
      · rw [if_pos (by simpa using htexts), if_pos htexts]
        rfl

theorem truthy_of_mem_ids {es : List Event} {id : Json} (h : id ∈ ids es) : id.truthy = true :=
  (List.mem_filter.mp h).2

theorem not_truthy_of_ids_nil {es : List Event} (h : ids es = []) {id : Json}
    (hid : id ∈ allIds es) : id.truthy = false := by
  simpa using List.filter_eq_nil_iff.mp h id hid

theorem sessionOf_not_truthy {es : List Event} (h : ids es = []) :
    (sessionOf .null es).truthy = false := by
  have heq : sessionOf .null es = (allIds es).getLast?.getD .null := by
    rw [sessionOf, h]
    rfl
  rw [heq]
  cases hlast : (allIds es).getLast? with
  | none => rfl
  | some id => exact not_truthy_of_ids_nil h (List.mem_of_getLast? hlast)

theorem sessionOf_cons {es : List Event} {id : Json} {rest : List Json} (h : ids es = id :: rest) :
    sessionOf .null es = id := by
  rw [sessionOf, h]
  rfl

theorem last_eq_sessionOf_iff {es' : List Event} {id : Json} (hid : id.truthy = true) :
    id = sessionOf .null es' ↔ some id = (ids es').head? := by
  cases hids : ids es' with
  | nil =>
    constructor
    · intro heq
      rw [heq, sessionOf_not_truthy hids] at hid
      cases hid
    · intro heq
      cases heq
  | cons x xs =>
    rw [sessionOf_cons hids, List.head?_cons, Option.some_inj]

theorem sameSession_iff (es es' : List Event) :
    (ids es).getLast?.getD .null = sessionOf .null es' ↔ SameSession es es' := by
  rw [SameSession]
  cases hlast : (ids es).getLast? with
  | some id =>
    have hid := truthy_of_mem_ids (List.mem_of_getLast? hlast)
    rw [Option.getD_some, last_eq_sessionOf_iff hid]
    refine (and_iff_left_of_imp ?_).symm
    intro heq hnil
    rw [hnil] at heq
    cases heq
  | none =>
    cases hids : ids es' with
    | nil =>
      have heq : sessionOf .null es' = (allIds es').getLast?.getD .null := by
        rw [sessionOf, hids]
        rfl
      rw [heq]
      cases (allIds es').getLast? <;> simp [eq_comm]
    | cons x xs =>
      have hx : x.truthy = true := truthy_of_mem_ids (hids ▸ List.mem_cons_self)
      rw [sessionOf_cons hids]
      refine iff_of_false ?_ ?_
      · intro heq
        rw [← heq] at hx
        cases hx
      · intro heq
        cases heq.1

/-- A session that was seen stands for that of the second reading only if it is that. -/
theorem sessionOf_last_iff (es es' : List Event) :
    sessionOf ((ids es).getLast?.getD .null) es' = sessionOf .null es' ↔
      ids es = [] ∨ (ids es).getLast? = (ids es').head? := by
  cases hlast : (ids es).getLast? with
  | none => simp [List.getLast?_eq_none_iff.mp hlast]
  | some id =>
    have hid := truthy_of_mem_ids (List.mem_of_getLast? hlast)
    have hne : ids es ≠ [] := fun hnil => by
      rw [hnil] at hlast
      cases hlast
    have hstart : sessionOf id es' = id := by rw [sessionOf, if_pos hid]
    rw [Option.getD_some, hstart, last_eq_sessionOf_iff hid, or_iff_right hne]

/-- Both readings of an output agree if and only if its events do. -/
theorem streamed_agree_iff (d : ℕ) (lines : List (List Char)) (stderr : String) :
    Agree d lines stderr ↔ EventsAgree lines (firstEvents d lines) (secondEvents d lines) := by
  rw [Agree, streamed_eq, readAgain_eq, EventsAgree]
  by_cases hany : (firstEvents d lines).any Event.stops
  · rw [if_pos hany, if_pos hany]
    split <;> simp_all
  · rw [if_neg hany, if_neg hany]
    by_cases htexts : texts (firstEvents d lines) ≠ []
    · rw [if_pos htexts, if_pos htexts, ← sameSession_iff]
      by_cases hraises : .raises ∈ secondEvents d lines
      · simp [hraises]
      · simp [hraises, outcomeOf_inj]
    · rw [if_neg htexts, if_neg htexts, ← sessionOf_last_iff]
      by_cases hraises : .raises ∈ secondEvents d lines
      · simp [hraises]
      · simp [hraises, outcomeOf_inj]

theorem parseLine_obj {d : ℕ} {fields : List (String × Json)} (hproper : Proper d (.obj fields))
    {w : List Char} (hw : w.all isSpace = true) :
    parseLine d (spaced (.obj fields) ++ w) = .ok (some (.obj fields)) := by
  obtain ⟨cs, hcs⟩ : ∃ cs, spaced (.obj fields) = '\x7b' :: cs ++ ['\x7d'] := jsonText_obj ..
  have hstrip : strip (spaced (.obj fields) ++ w) = spaced (.obj fields) := by
    rw [hcs]
    exact strip_braces_append cs hw
  have hne : spaced (.obj fields) ≠ [] := by
    rw [hcs]
    simp
  rw [parseLine, hstrip, if_neg hne, loads_spaced hproper]
  rfl

/-- Two sessions and a text. -/
def twoSessions : List (List (String × Json)) :=
  [[("type", .str "session"), ("id", .str "a")], [("type", .str "session"), ("id", .str "b")],
    [("type", .str "assistant"), ("message_end", .obj [("message", .str "m")])]]

/-- The line of a dict. -/
def lineOfObj (fields : List (String × Json)) : List Char := spaced (.obj fields) ++ ['\n']

theorem splitLines_twoSessions : splitLines (twoSessions.map lineOfObj).flatten =
    twoSessions.map fun fields => spaced (.obj fields) := by decide

theorem events_twoSessions {w : List Char} (hw : w.all isSpace = true) :
    (twoSessions.map fun fields => eventOf 2 (spaced (.obj fields) ++ w)) =
      [.session (.str "a"), .session (.str "b"), .text (.str "m")] := by
  have hparse (fields : List (String × Json)) (h : fields ∈ twoSessions) :
      parseLine 2 (spaced (.obj fields) ++ w) = .ok (some (.obj fields)) := by
    refine parseLine_obj ?_ hw
    simp only [twoSessions, List.mem_cons, List.not_mem_nil, or_false] at h
    obtain rfl | rfl | rfl := h <;> simp [Proper, ProperFields]
  simp only [twoSessions, List.mem_cons, List.not_mem_nil, or_false, forall_eq_or_imp, forall_eq]
    at hparse
  simp only [twoSessions, List.map_cons, List.map_nil, eventOf, hparse.1, hparse.2.1, hparse.2.2]
  decide

/-- The lines as they come end on the second session, the output as a whole on the first. -/
theorem two_sessions_differ :
    (streamed 2 (twoSessions.map lineOfObj) "").toOption =
      some { returncode := 0, stdout := .str "m", sessionId := .str "b" } ∧
    (readAgain 2 (twoSessions.map lineOfObj) "").toOption =
      some { returncode := 0, stdout := .str "m", sessionId := .str "a" } := by
  have hfirst : firstEvents 2 (twoSessions.map lineOfObj) =
      [.session (.str "a"), .session (.str "b"), .text (.str "m")] := by
    rw [firstEvents, List.map_map]
    exact events_twoSessions (w := ['\n']) rfl
  have hsecond : secondEvents 2 (twoSessions.map lineOfObj) =
      [.session (.str "a"), .session (.str "b"), .text (.str "m")] := by
    have h := events_twoSessions (w := []) rfl
    simp only [List.append_nil] at h
    rw [secondEvents, splitLines_twoSessions, List.map_map]
    exact (congrArg beforeEnd h).trans (by decide)
  constructor
  · rw [streamed_eq, hfirst, hsecond]
    decide
  · rw [readAgain_eq, hsecond]
    decide

end AiMeshChat.Runner
