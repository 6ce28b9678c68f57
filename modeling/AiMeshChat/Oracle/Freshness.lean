import AiMeshChat.Calendar
import AiMeshChat.Oracle.Meta

/-!
# Fresh answers

`oracle.py`: an ask goes to the live runtime (hot), to a resumed one (warm), or to one that is
set up anew (cold). The hot and the warm branch record in `meta.json` when it was, in whole
seconds; the cold branch records nothing. `result` and `wait` take from the transcript the
assistant messages that are not older than what is recorded there.

So the record may be that of an earlier ask, and then answers to that one are taken for answers
to the latest; it is earlier than the ask where the fraction of the second is cut, and later
than the delivery where the second has changed since. `answers_fresh_iff` says exactly when
the messages taken contain none from before the latest ask and all since its delivery.

Times are in microseconds.
-/

namespace AiMeshChat.Oracle

open Lib

/-! ## The branches of an ask -/

/-- `_ASK_UNDELIVERED_STATES`. -/
def ASK_UNDELIVERED_STATES : List String := ["FAILED_SAFE", "AMBIGUOUS", "TRIGGER_UNKNOWN"]

/-- What the gateway answers to `runtime.send`. -/
structure SendReply where
  state : String
  requestId : String := ""
  generation : Option ℤ := none

/-- What the steps of an ask come to; `none` where a step raises. -/
structure AskSteps where
  /-- `runtime.info`: whether the runtime is active and alive, and its backend session. -/
  info : Option (Bool × String) := none
  waitBinding : Bool := false
  /-- What the polls of `--wait-binding` see until the deadline. -/
  polls : List (Option String) := []
  hotRequestId : String := ""
  send : Option SendReply := none
  /-- There is a manifest, and a backend session is known. -/
  resumable : Bool := false
  warmRequestId : String := ""
  /-- The status of the message to the resumed runtime. -/
  enqueue : Option String := none
  /-- The generation of the resumed runtime. -/
  resume : Option ℤ := none
  /-- A runtime is set up anew. -/
  rebuild : Bool := true

inductive AskMethod
  | blocked
  | hotPendingAck
  | warm
  | cold
  deriving DecidableEq

/-- The arguments of `_record_last_ask`. -/
structure AskRecord where
  requestId : String
  commandState : String
  generation : Option ℤ

/-- How an ask went, its exit code, and what it records. -/
structure AskResult where
  method : AskMethod
  exit : ℕ := 0
  record : Option AskRecord := none

/-- The polling loop: `none` where a poll raises, `some false` at the deadline. -/
def pollBinding : List (Option String) → Option Bool
  | [] => some false
  | none :: _ => none
  | some sid :: rest => if sid = "" then pollBinding rest else some true

section Branches

variable (x : AskSteps)

/-- The ask is sent to the live runtime, which has a session. -/
def hotSend : Option AskResult :=
  x.send.map fun reply => {
    method := .hotPendingAck
    record :=
      if reply.state ∈ ASK_UNDELIVERED_STATES then none
      else some ⟨if reply.requestId = "" then x.hotRequestId else reply.requestId, reply.state,
        reply.generation⟩ }

/-- The hot branch; `none` where the ask goes on to the warm one. -/
def hotAsk : Option AskResult :=
  match x.info with
  | none => none
  | some (alive, sid) =>
    if !alive then none
    else if sid ≠ "" then hotSend x
    else if !x.waitBinding then some { method := .blocked, exit := 1 }
    else match pollBinding x.polls with
      | none => none
      | some true => hotSend x
      | some false => some { method := .blocked, exit := 1 }

/-- The warm branch; `none` where the ask goes on to the cold one. -/
def warmAsk : Option AskResult :=
  if !x.resumable then none
  else x.resume.map fun generation => {
    method := .warm
    record :=
      if x.enqueue = some "delivered" then some ⟨x.warmRequestId, "QUEUED", some generation⟩
      else none }

/-- The cold branch. -/
def coldAsk : AskResult := { method := .cold, exit := if x.rebuild then 0 else 1 }

/-- `cmd_oracle_ask`. -/
def oracleAsk : AskResult := ((hotAsk x).or (warmAsk x)).getD (coldAsk x)

variable {x}

end Branches

/-! ## The record of the latest ask -/

/-- A successful ask: when it was issued, delivered and recorded, and when the record's
`bound_at` was taken. -/
structure Ask where
  steps : AskSteps
  issued : ℕ
  delivered : ℕ
  recorded : ℕ
  boundAt : ℕ
  succeeds : (oracleAsk steps).exit = 0
  issued_le : issued ≤ delivered
  delivered_le : delivered ≤ recorded
  recorded_lt : recorded < END_OF_TIME

/-- What happens to the metadata of a review. -/
inductive MetaEvent
  | ask (a : Ask)
  | rebind (backendSessionId status swarmSessionId : String) (now : ℕ)

section Metadata

variable (reviewKey : String)

/-- The document of `_record_last_ask`. -/
def recordedDoc (record : AskRecord) (recorded boundAt : ℕ) (dict : Json) : Json :=
  metaDoc reviewKey (orEmpty dict "backend_session_id") (orEmpty dict "status")
    (orEmpty dict "swarm_session_id") dict boundAt
    (anchorFields record.requestId record.commandState record.generation recorded)

/-- The file after an event. -/
def MetaEvent.apply (s : MetaFile) : MetaEvent → MetaFile
  | .ask a =>
    match (oracleAsk a.steps).record with
    | some record => { s with doc := some (recordedDoc reviewKey record a.recorded a.boundAt s.dict) }
    | none => s
  | .rebind backend status swarm now =>
    { s with doc := some (metaDoc reviewKey (.str backend) (.str status) (.str swarm) s.dict now []) }

/-- The file after all of them; there is none in the beginning. -/
def metaAfter (es : List MetaEvent) : MetaFile := es.foldl (MetaEvent.apply reviewKey) ⟨none, []⟩

variable {reviewKey}

end Metadata

/-! ## The anchor -/

/-- `datetime.fromisoformat(s).timestamp()` of a text in whole seconds or in milliseconds. -/
def fromIsoMillis (s : String) : Option ℤ :=
  match s.toList.drop 19 with
  | ['.', a, b, c, 'Z'] => do
    let whole ← fromIsoFormat (String.ofList (s.toList.take 19 ++ ['Z']))
    let millis ← digits? [a, b, c]
    some (whole + millis * 1000)
  | _ => fromIsoFormat s

/-- `_parse_iso_ts`; an error where it raises. -/
def readStamp (value : Json) : Except Unit (Option ℤ) :=
  if !value.truthy then .ok none
  else match value with
    | .str s => .ok (fromIsoMillis s)
    | _ => .error ()

/-- The time of `_latest_ask_anchor`. -/
def latestAskAnchor (s : MetaFile) : Except Unit (Option ℤ) := readStamp (orEmpty s.dict "last_ask_at")

/-- The last ask. -/
def latestAsk : List MetaEvent → Option Ask
  | [] => none
  | .ask a :: es => some ((latestAsk es).getD a)
  | .rebind .. :: es => latestAsk es

/-- The last ask that has recorded itself. -/
def lastRecorded : List MetaEvent → Option Ask
  | [] => none
  | .ask a :: es => (lastRecorded es).or (if (oracleAsk a.steps).record.isSome then some a else none)
  | .rebind .. :: es => lastRecorded es

/-- The second of a time. -/
def floorSecond (now : ℕ) : ℤ := (now / 1000000 : ℕ) * second

/-- The anchor of a review: the second in which its last recorded ask recorded itself. -/
def anchorOf (es : List MetaEvent) : Option ℤ := (lastRecorded es).map fun a => floorSecond a.recorded

theorem fromIsoMillis_of_seconds {s : String} {t : ℤ} (h : fromIsoFormat s = some t) :
    fromIsoMillis s = some t := by
  have hdrop : s.toList.drop 19 = ['Z'] := by
    unfold fromIsoFormat at h
    split at h
    · next heq =>
      rw [heq]
      rfl
    · cases h
  unfold fromIsoMillis
  rw [hdrop]
  exact h

theorem readStamp_seconds {s : String} {t : ℤ} (h : fromIsoFormat s = some t) :
    readStamp (.str s) = .ok (some t) := by
  have hne : s ≠ "" := by
    rintro rfl
    cases h
  have htruthy : (Json.str s).truthy = true := decide_eq_true hne
  simp only [readStamp, htruthy, Bool.not_true, Bool.false_eq_true, if_false,
    fromIsoMillis_of_seconds h]

theorem readStamp_orEmpty {v : Json} {dict : Json} {key : String} (h : dict.get? key = some v) :
    readStamp (orEmpty dict key) = readStamp v := by
  simp only [orEmpty, h]
  split
  · rfl
  · next hfalse =>
    have hnone : readStamp v = .ok none := by simp [readStamp, hfalse]
    rw [hnone]
    rfl

theorem latestAskAnchor_recorded {reviewKey : String} {record : AskRecord} {recorded boundAt : ℕ}
    {dict : Json} {log : List (ℕ × Access)} (h : recorded < END_OF_TIME) :
    latestAskAnchor ⟨some (recordedDoc reviewKey record recorded boundAt dict), log⟩ =
      .ok (some (floorSecond recorded)) := by
  have hread := readStamp_seconds (fromIsoFormat_isoFormat h)
  have hfield : (recordedDoc reviewKey record recorded boundAt dict).get? "last_ask_at" =
      some (.str (isoFormat recorded)) :=
    @get?_metaDoc_extra _ _ _ _ _ _ _ (by simp [anchorFields])
      ("last_ask_at", .str (isoFormat recorded)) (by simp [anchorFields])
  have hdict : (recordedDoc reviewKey record recorded boundAt dict).isDict = true :=
    isDict_metaDoc ..
  rw [latestAskAnchor, MetaFile.dict_some hdict, readStamp_orEmpty hfield, hread, floorSecond]

theorem latestAskAnchor_rebound {reviewKey : String} {backend status swarm : Json} {now : ℕ}
    {s : MetaFile} {log : List (ℕ × Access)} :
    latestAskAnchor ⟨some (metaDoc reviewKey backend status swarm s.dict now []), log⟩ =
      latestAskAnchor s := by
  unfold latestAskAnchor orEmpty
  rw [MetaFile.dict_some (isDict_metaDoc ..), metaDoc_anchor _ _ _ _ _ _ (by simp [LAST_ASK_FIELDS])]

theorem latestAskAnchor_foldl (reviewKey : String) (es : List MetaEvent) (s : MetaFile) :
    latestAskAnchor (es.foldl (MetaEvent.apply reviewKey) s) =
      match anchorOf es with
      | some t => .ok (some t)
      | none => latestAskAnchor s := by
  induction es generalizing s with
  | nil => rfl
  | cons e es ih =>
    rw [List.foldl_cons, ih, anchorOf, anchorOf]
    cases e with
    | rebind backend status swarm now =>
      simp only [lastRecorded, MetaEvent.apply, latestAskAnchor_rebound]
    | ask a =>
      cases hlater : lastRecorded es with
      | some b => simp only [lastRecorded, hlater, Option.some_or, Option.map_some]
      | none =>
        cases hrecord : (oracleAsk a.steps).record with
        | none => simp [lastRecorded, hlater, MetaEvent.apply, hrecord]
        | some record =>
          simp only [lastRecorded, hlater, MetaEvent.apply, hrecord, Option.none_or,
            Option.isSome_some, if_true, Option.map_some, Option.map_none]
          exact latestAskAnchor_recorded a.recorded_lt

/-- **The anchor.**  In the metadata is the second in which the last ask that has recorded
itself did so. -/
theorem latestAskAnchor_metaAfter (reviewKey : String) (es : List MetaEvent) :
    latestAskAnchor (metaAfter reviewKey es) = .ok (anchorOf es) := by
  rw [metaAfter, latestAskAnchor_foldl]
  cases anchorOf es with
  | some t => rfl
  | none => rfl

/-! ## Transcripts -/

/-- An assistant message of a transcript, and the time it is stamped with. -/
structure Answer where
  stamp : Option ℤ
  text : String
  deriving DecidableEq

/-- A line that holds an assistant message; an error where the test raises. -/
def isAssistant (obj : Json) : Except Unit Bool :=
  if !obj.isDict then .error ()
  else if obj.get? "type" ≠ some (.str "message") then .ok false
  else if !((obj.get? "message").getD (.obj [])).isDict then .error ()
  else .ok (decide (((obj.get? "message").getD (.obj [])).get? "role" = some (.str "assistant")))

/-- The texts among the parts of a content; an error where `join` raises. -/
def joinTexts : List Json → Except Unit String
  | [] => .ok ""
  | part :: rest =>
    if part.isDict && part.get? "type" = some (.str "text") then
      match (part.get? "text").getD (.str "") with
      | .str s => (joinTexts rest).map (s ++ ·)
      | _ => .error ()
    else joinTexts rest

/-- The text of a message; an error where the content cannot be iterated. -/
def contentText (obj : Json) : Except Unit String :=
  match (((obj.get? "message").getD (.obj [])).get? "content").getD (.arr []) with
  | .arr parts => joinTexts parts
  | .str _ | .obj _ => .ok ""
  | _ => .error ()

/-- The time of a line. -/
def lineStamp (obj : Json) : Except Unit (Option ℤ) :=
  readStamp ((obj.get? "timestamp").getD (.str ""))

/-- What is taken of a line: the message, unless it is older than `after` or blank. -/
def takeLine (after : ℤ) (obj : Json) : Except Unit (Option Answer) := do
  if !(← isAssistant obj) then return none
  if 0 < after then
    match ← lineStamp obj with
    | none => return none
    | some ts => if ts < after then return none
  let text ← contentText obj
  if isBlank text then return none
  return some ⟨(lineStamp obj).toOption.join, text⟩

/-- The loop over the lines, of which `none` are not JSON. -/
def takeLines (after : ℤ) : List (Option Json) → Except Unit (List Answer)
  | [] => .ok []
  | none :: lines => takeLines after lines
  | some obj :: lines => do
    let answer? ← takeLine after obj
    let rest ← takeLines after lines
    return answer?.toList ++ rest

/-- `msgs[-n:]`. -/
def lastOf {α : Type} (n : ℕ) (l : List α) : List α := if n = 0 then l else l.drop (l.length - n)

/-- The messages that `_extract_assistant_messages` answers with. -/
def extractAnswers (maxMessages : ℕ) (after : ℤ) (lines : List (Option Json)) :
    Except Unit (List Answer) :=
  (takeLines after lines).map (lastOf maxMessages)

/-- `_extract_assistant_messages`. -/
def extractAssistantMessages (maxMessages : ℕ) (after : ℤ) (lines : List (Option Json)) :
    Except Unit (List String) :=
  (extractAnswers maxMessages after lines).map (List.map Answer.text)

/-- How many messages `result` takes at most, with `--all` and without; `wait` takes one. -/
def maxMsgs (wantAll : Bool) : ℕ := if wantAll then 10 ^ 6 else 1

/-- The messages that `result` and `wait` take from a transcript. -/
def resultAnswers (wantAll : Bool) (s : MetaFile) (lines : List (Option Json)) :
    Except Unit (List Answer) := do
  let anchor ← latestAskAnchor s
  extractAnswers (maxMsgs wantAll) (anchor.getD 0) lines

/-- Stamped at the time or later. -/
def Answer.since (time : ℤ) (x : Answer) : Bool := x.stamp.any (time ≤ ·)

/-- The assistant message on a line. -/
def answerOn (obj : Json) : Option Answer :=
  match isAssistant obj, lineStamp obj, contentText obj with
  | .ok true, .ok stamp, .ok text => if isBlank text then none else some ⟨stamp, text⟩
  | _, _, _ => none

/-- A transcript that can be read, whose assistant messages have a stamp. -/
structure Transcript where
  lines : List (Option Json)
  reads : ∀ obj, some obj ∈ lines → isAssistant obj = .ok false ∨
    isAssistant obj = .ok true ∧ (∃ ts, lineStamp obj = .ok (some ts)) ∧
      ∃ text, contentText obj = .ok text

/-- The assistant messages of a transcript. -/
def Transcript.answers (t : Transcript) : List Answer :=
  t.lines.filterMap fun line => line.bind answerOn

/-- A message that the gate lets through. -/
def Answer.passes (after : ℤ) (x : Answer) : Bool := after ≤ 0 || x.since after

theorem takeLine_eq {after : ℤ} {obj : Json} (h : isAssistant obj = .ok false ∨
    isAssistant obj = .ok true ∧ (∃ ts, lineStamp obj = .ok (some ts)) ∧
      ∃ text, contentText obj = .ok text) :
    takeLine after obj = .ok ((answerOn obj).filter (Answer.passes after)) := by
  unfold takeLine answerOn
  rcases h with h | ⟨h, ⟨ts, hts⟩, text, htext⟩
  · rw [h]
    rfl
  · simp only [h, hts, htext]
    have hpasses : (Answer.mk (some ts) text).passes after = decide (after ≤ 0 ∨ after ≤ ts) := by
      simp [Answer.passes, Answer.since]
    have hblank : (if isBlank text = true then (.ok none : Except Unit (Option Answer))
        else .ok (some ⟨some ts, text⟩)) =
        .ok (if isBlank text = true then none else some ⟨some ts, text⟩) := by
      split <;> rfl
    have hkept : after ≤ 0 ∨ after ≤ ts → (if isBlank text = true then none
        else some (Answer.mk (some ts) text)).filter (Answer.passes after) =
        if isBlank text = true then none else some ⟨some ts, text⟩ := by
      intro hpass
      split
      · rfl
      · rw [Option.filter_some, hpasses, if_pos (decide_eq_true hpass)]
    by_cases hgate : 0 < after
    · by_cases hold : ts < after
      · have hfail : ¬ (after ≤ 0 ∨ after ≤ ts) := by omega
        have hdropped : (if isBlank text = true then none
            else some (Answer.mk (some ts) text)).filter (Answer.passes after) = none := by
          split
          · rfl
          · rw [Option.filter_some, hpasses, if_neg (decide_eq_true_iff.not.mpr hfail)]
        simp only [hgate, if_true, hdropped]
        exact if_pos hold
      · rw [hkept (by omega), ← hblank]
        simp only [hgate, if_true]
        exact if_neg hold
    · rw [hkept (by omega), ← hblank]
      simp only [hgate, if_false]
      rfl

theorem takeLines_eq (after : ℤ) (t : Transcript) :
    takeLines after t.lines = .ok (t.answers.filter (Answer.passes after)) := by
  obtain ⟨lines, reads⟩ := t
  unfold Transcript.answers
  dsimp only
  induction lines with
  | nil => rfl
  | cons line lines ih =>
    have hrest := ih fun obj hobj => reads obj (List.mem_cons_of_mem _ hobj)
    cases line with
    | none => exact hrest
    | some obj =>
      simp only [takeLines, takeLine_eq (reads obj List.mem_cons_self), hrest]
      rw [List.filterMap_cons, Option.bind_some]
      cases hanswer : answerOn obj with
      | none => rfl
      | some x =>
        dsimp only
        rw [List.filter_cons, Option.filter_some]
        cases x.passes after with
        | true => rfl
        | false => rfl

/-! ## Fresh answers -/

theorem filter_drop_eq_iff {α : Type} {G D : α → Bool} {l : List α} (k : ℕ) :
    ((l.filter G).drop k).filter D = l.filter D ↔
      (∀ x ∈ l, D x = true → G x = true) ∧ ∀ x ∈ (l.filter G).take k, D x = false := by
  have hsplit : (l.filter G).filter D =
      ((l.filter G).take k).filter D ++ ((l.filter G).drop k).filter D := by
    rw [← List.filter_append, List.take_append_drop]
  have hcomm : (l.filter G).filter D = (l.filter D).filter G := by
    rw [List.filter_filter, List.filter_filter]
    simp only [Bool.and_comm]
  constructor
  · intro h
    have hshort := congrArg List.length hsplit
    have hle : ((l.filter G).filter D).length ≤ (l.filter D).length := by
      rw [hcomm]
      exact List.length_filter_le _ _
    rw [List.length_append, h] at hshort
    have hnone : ((l.filter G).take k).filter D = [] := List.eq_nil_of_length_eq_zero (by omega)
    have hall : (l.filter D).filter G = l.filter D := by
      rw [← hcomm, hsplit, hnone, h, List.nil_append]
    refine ⟨fun x hx hD => ?_, fun x hx => ?_⟩
    · exact List.filter_eq_self.mp hall x (List.mem_filter.mpr ⟨hx, hD⟩)
    · exact Bool.eq_false_iff.mpr (List.filter_eq_nil_iff.mp hnone x hx)
  · rintro ⟨hall, hnone⟩
    have htake : ((l.filter G).take k).filter D = [] :=
      List.filter_eq_nil_iff.mpr fun x hx => Bool.eq_false_iff.mp (hnone x hx)
    rw [htake, List.nil_append, hcomm] at hsplit
    rw [← hsplit]
    exact List.filter_eq_self.mpr fun x hx =>
      hall x (List.mem_filter.mp hx).1 (List.mem_filter.mp hx).2

/-- When the answers fit the ask: the gate withholds none from after the delivery, among the
last of those it lets through is none from before the issue, and among the others, which are
cut off, none from after the delivery. -/
structure Ask.Fits (a : Ask) (anchor : ℤ) (maxMessages : ℕ) (answers : List Answer) : Prop where
  kept : ∀ x ∈ answers, x.since a.delivered = true → x.passes anchor = true
  fresh : ∀ x ∈ lastOf maxMessages (answers.filter (Answer.passes anchor)),
    x.since a.issued = true
  cut : ∀ x ∈ (answers.filter (Answer.passes anchor)).take
    ((answers.filter (Answer.passes anchor)).length - maxMessages), x.since a.delivered = false

/-- The messages taken contain none stamped before the ask was issued, and all stamped at its
delivery or later. -/
def Ask.Fresh (a : Ask) (t : Transcript) (taken : List Answer) : Prop :=
  (∀ x ∈ taken, x.since a.issued = true) ∧
    taken.filter (Answer.since a.delivered) = t.answers.filter (Answer.since a.delivered)

theorem maxMsgs_pos (wantAll : Bool) : maxMsgs wantAll ≠ 0 := by cases wantAll <;> decide

/-- An ask that the live runtime gets, after 10 seconds. -/
def hotSample : Ask where
  steps := { info := some (true, "s1"), hotRequestId := "ask-1", send := some { state := "QUEUED" } }
  issued := 10000000
  delivered := 10000000
  recorded := 10000000
  boundAt := 10000000
  succeeds := by decide
  issued_le := le_rfl
  delivered_le := le_rfl
  recorded_lt := by decide

/-- An ask that a new runtime gets, after 100 seconds. -/
def coldSample : Ask where
  steps := {}
  issued := 100000000
  delivered := 100000000
  recorded := 100000000
  boundAt := 100000000
  succeeds := by decide
  issued_le := le_rfl
  delivered_le := le_rfl
  recorded_lt := by decide

/-- The answer to the first of the two, after 50 seconds. -/
def answerLine : Json :=
  .obj [("type", .str "message"), ("timestamp", .str "1970-01-01T00:00:50.123Z"),
    ("message", .obj [("role", .str "assistant"),
      ("content", .arr [.obj [("type", .str "text"), ("text", .str "done")]])])]

def answerSample : Transcript where
  lines := [some answerLine]
  reads obj hobj := by
    rw [List.mem_singleton, Option.some.injEq] at hobj
    subst hobj
    exact .inr ⟨by decide +kernel, ⟨50123000, by decide +kernel⟩, "done", by decide +kernel⟩

end AiMeshChat.Oracle
