import AiMeshChat.JsonText
import AiMeshChat.Lib.Lines
import AiMeshChat.Lib.Utf8
import AiMeshChat.Mailbox.Protocol

/-!
# The request ledger

`RequestLedger` of `mailbox/store.py`: one append-only file `events.jsonl` for each
request, shared by its runs. A terminal event is recorded only if the file, read
back, shows none for the run; otherwise a `PROTOCOL_CONFLICT` entry is appended.

The file is a list of bytes. Each entry is one line of JSON, written with
`ensure_ascii=False`, and the reader cuts the text with `str.splitlines`, so that
an entry is read back only if its text has no other line boundary in it. Calls
are serialised by the lock of the request, so a call is one function here; a call
that raises has written nothing.
-/

namespace AiMeshChat.Ledger

open Lib

def TERMINAL_STATES : List String := ["DONE", "BLOCKED", "CANCELLED", "EXPIRED", "UNKNOWN_STALE"]

/-- The exceptions of the ledger's own calls. -/
inductive LedgerErr
  | valueError (text : String)
  | unicodeDecode
  | recursion
  | attributeError
  | keyError (key : String)
  | typeError (text : String)
  deriving DecidableEq

/-- The files `events.jsonl` by request. -/
structure Logs where
  files : String → Option (List UInt8)

def Logs.empty : Logs := ⟨fun _ => none⟩

/-- `validate_path_component(request_id, "request_id")`. -/
def eventsDir (rid : String) : Except LedgerErr Unit :=
  if rid = "." || rid = ".." || !Mailbox.pathSafe rid then
    .error (.valueError ("invalid request_id: " ++ reprStr rid))
  else .ok ()

/-! ## Reading -/

/-- The loop of `_read_all`: lines that are no JSON are skipped. -/
def parseLines (d : ℕ) : List (List Char) → Except LedgerErr (List Json)
  | [] => .ok []
  | line :: lines =>
    if strip line = [] then parseLines d lines
    else match loads d (strip line) with
      | .ok v => (parseLines d lines).map (v :: ·)
      | .error .invalid => parseLines d lines
      | .error .recursion => .error .recursion

/-- `_read_all`. Opening the file in text mode turns `\r` and `\r\n` into `\n`,
which are line boundaries of `splitlines` anyway. -/
def readAll (d : ℕ) (s : Logs) (rid : String) : Except LedgerErr (List Json) := do
  eventsDir rid
  match s.files rid with
  | none => .ok []
  | some bytes =>
    match utf8 bytes with
    | none => .error .unicodeDecode
    | some text => parseLines d (splitLines text)

/-- `_read_entries`: a line that holds JSON but no dict raises. -/
def readEntries (d : ℕ) (s : Logs) (rid run : String) : Except LedgerErr (List Json) := do
  let entries ← readAll d s rid
  if entries.all Json.isDict then
    .ok (entries.filter fun e => e.get? "run_id" = some (.str run))
  else .error .attributeError

/-- `get_events`. -/
def getEvents (d : ℕ) (s : Logs) (rid run : String) : Except LedgerErr (List Json) :=
  readEntries d s rid run

/-- `entry["event"] in TERMINAL_STATES`, and the event. -/
def terminalOf (e : Json) : Except LedgerErr (Option String) :=
  match e.get? "event" with
  | none => .error (.keyError "event")
  | some (.str event) => .ok (if event ∈ TERMINAL_STATES then some event else none)
  | some (.arr _) => .error (.typeError "unhashable type: 'list'")
  | some (.obj _) => .error (.typeError "unhashable type: 'dict'")
  | some _ => .ok none

/-- The first terminal event of the entries. -/
def firstTerminal : List Json → Except LedgerErr (Option String)
  | [] => .ok none
  | e :: es => do
    match ← terminalOf e with
    | some event => return some event
    | none => firstTerminal es

/-- `get_terminal`. -/
def getTerminal (d : ℕ) (s : Logs) (rid run : String) : Except LedgerErr (Option String) := do
  firstTerminal (← readEntries d s rid run)

/-! ## Writing -/

/-- A `float` as `json.dumps` writes it. -/
structure FloatText where
  text : String
  reads : IsFloatText text
  oneLine : ∀ c ∈ text.toList, isBreak c = false

/-- The entry of an event. -/
def entryOf (rid run event : String) (ts : FloatText) (info : Json) : Json :=
  .obj [("request_id", .str rid), ("run_id", .str run), ("event", .str event),
    ("ts", .float ts.text), ("meta", info)]

/-- The line of an entry. -/
def lineOf (e : Json) : List Char := spaced e ++ ['\n']

/-- Bytes at the end of a file. -/
def Logs.write (s : Logs) (rid : String) (bytes : List UInt8) : Logs :=
  ⟨Function.update s.files rid (some ((s.files rid).getD [] ++ bytes))⟩

/-- `_append`. -/
def append (s : Logs) (rid run event : String) (ts : FloatText) (info : Json) : Logs :=
  s.write rid (encode (lineOf (entryOf rid run event ts info)))

/-- What `record_event` appends and returns, after its check. -/
def decideEvent (d : ℕ) (s : Logs) (rid run event : String) (info : Json) :
    Except LedgerErr (Bool × String × Json) := do
  eventsDir rid
  if event ∈ TERMINAL_STATES then
    match ← getTerminal d s rid run with
    | some existing => return (false, "PROTOCOL_CONFLICT",
        .obj [("frozen_event", .str event), ("existing_terminal", .str existing)])
    | none => return (true, event, info)
  else return (true, event, info)

/-- `record_event`. -/
def recordEvent (d : ℕ) (s : Logs) (rid run event : String) (info : Json) (ts : FloatText) :
    Except LedgerErr (Bool × Logs) := do
  let (accepted, event, info) ← decideEvent d s rid run event info
  return (accepted, append s rid run event ts info)

/-- The fields of a mailbox message that the ledger reads, with the defaults of
`msg.get`. -/
structure LedgerMessage where
  kind : String := ""
  runId : String := ""
  requestId : String := ""
  receiptType : String := ""
  msgId : String := ""
  replyTo : String := ""
  sender : String := ""

/-- The event of a message and its meta, if it maps to one. -/
def eventFor (d : ℕ) (s : Logs) (m : LedgerMessage) :
    Except LedgerErr (Option (String × Json)) :=
  if m.requestId = "" || m.runId = "" then .ok none
  else match m.kind with
    | "RECEIPT" =>
      if m.receiptType ≠ "READ" then .ok none
      else .ok (some ("ACKED", .obj [("msg_id", .str m.msgId), ("reply_to", .str m.replyTo)]))
    | "TASK" | "INIT" =>
      .ok (some ("DISPATCHED", .obj [("msg_id", .str m.msgId), ("from", .str m.sender)]))
    | "PROGRESS" => do
      match ← getTerminal d s m.requestId m.runId with
      | some _ => return none
      | none =>
        let entries ← readEntries d s m.requestId m.runId
        let events ← entries.mapM fun e =>
          (e.get? "event").elim (.error (LedgerErr.keyError "event")) .ok
        if Json.str "RUNNING" ∈ events then return none
        else return some ("RUNNING", .obj [("msg_id", .str m.msgId)])
    | "REPORT" =>
      .ok (some ("DONE", .obj [("msg_id", .str m.msgId), ("from", .str m.sender),
        ("source", .str "report")]))
    | "NOTICE" =>
      .ok (some ("NOTICE", .obj [("msg_id", .str m.msgId), ("from", .str m.sender)]))
    | _ => .ok none

/-- `apply_message`: the event recorded, or the empty text. -/
def applyMessage (d : ℕ) (s : Logs) (m : LedgerMessage) (ts : FloatText) :
    Except LedgerErr (String × Logs) := do
  match ← eventFor d s m with
  | none => return ("", s)
  | some (event, info) =>
    let (_, s') ← recordEvent d s m.requestId m.runId event info ts
    return (event, s')

/-- The event and the meta of an artifact verdict. -/
def verdictEvent (verified : Bool) : String × Json :=
  if verified then ("DONE", .obj [("source", .str "artifact_verify")])
  else ("BLOCKED", .obj [("source", .str "artifact_verify"), ("reason", .str "sha256_mismatch")])

/-- `record_artifact_verdict`: the terminal state and whether it is new. -/
def recordArtifactVerdict (d : ℕ) (s : Logs) (rid run : String) (verified : Bool)
    (ts : FloatText) : Except LedgerErr ((String × Bool) × Logs) := do
  let (state, info) := verdictEvent verified
  let (accepted, s') ← recordEvent d s rid run state info ts
  if accepted then return ((state, true), s')
  else return (((← getTerminal d s' rid run).getD state, false), s')

end AiMeshChat.Ledger
