import AiMeshChat.Lib.Handler
import AiMeshChat.Mailbox.Cli
import AiMeshChat.Mailbox.Store

/-!
# The command line of the mailbox: the branch `send` of `main`

The branch reads the namespace, hands its fields to `MailboxService.send` and with it to the
store, and prints what the store reports. `main` turns exceptions into exit codes: a
`ValueError` into 2, any other into 1.

The store is a parameter: the branch is the same whatever `send` does. So is the text of an
exception.
-/

namespace AiMeshChat.Mailbox.Cli

open Lib

variable {Op : Type} {Ans : Op → Type}

/-- What a branch of `main` raises: what the store raised, or an error of its own. -/
inductive Failure
  | store (e : PyErr)
  | cli (e : CliError)
  deriving DecidableEq

/-- A `ValueError`: a decoding error is one too. -/
def Failure.isValueError : Failure → Bool
  | .store (.value _) | .store .json | .cli (.value _) => true
  | _ => false

/-- `str(e)`; `str` gives the texts of the exceptions that are not raised with one. -/
def Failure.text (str : PyErr → String) : Failure → String
  | .store (.value msg) | .store (.type msg) | .cli (.value msg) => msg
  | .store e => str e
  | .cli (.key name) => reprStr name
  | .cli .recursion => "maximum recursion depth exceeded"

/-- The exit code and what was printed. -/
structure Output where
  code : ℤ
  out : String := ""
  err : String := ""
  deriving DecidableEq

/-- `_SEND_TEMPLATES`. -/
def SEND_TEMPLATES : List (String × String) :=
  [("report",
      "mailbox send --session <session_id> --from <agent_id> --to <agent_id> " ++
      "--kind REPORT --reply-to <msg_id> --run-id <run_id> " ++
      "--request-id <request_id> --subject \"<subject>\" --body \"<body>\""),
    ("task",
      "mailbox send --session <session_id> --from <agent_id> --to <agent_id> " ++
      "--kind TASK --run-id <run_id> --request-id <request_id> " ++
      "--subject \"<subject>\" --body \"<body>\""),
    ("receipt",
      "mailbox send --session <session_id> --from <agent_id> --to <agent_id> " ++
      "--kind RECEIPT --reply-to <msg_id> --run-id <run_id> " ++
      "--request-id <request_id> --receipt-type READ " ++
      "--subject \"READ <msg_id>\" --body \"<ack>\"")]

/-- `_SEND_TEMPLATES[name]`. -/
def sendTemplate (name : String) : String := (SEND_TEMPLATES.lookup name).getD ""

/-- `_SEND_EXAMPLE_HINT`. -/
def SEND_EXAMPLE_HINT : String :=
  "\nsend failed — required field missing. Complete example:\n  " ++ sendTemplate "report"

/-- `print(text)`. -/
def line (text : String) : String := text ++ "\n"

/-! ## `send` -/

/-- The options of `send` that are empty but must not be. -/
def SendNs.missing (a : SendNs) : List String :=
  ([("--session", a.session), ("--from", a.fromWorker), ("--to", a.toId),
    ("--subject", a.subject), ("--body", a.body)].filter (·.2 = "")).map (·.1)

/-- The parameters of the store for a namespace and its attachments. -/
def SendNs.args (a : SendNs) (refs : List Json) : SendArgs where
  sessionId := a.session
  fromId := a.fromWorker
  toId := a.toId
  subject := a.subject
  body := a.body
  kind := a.kind
  replyTo := a.replyTo
  runId := a.runId
  requestId := a.requestId
  traceId := a.traceId
  causationId := a.causationId
  attachments := if refs = [] then none else some refs
  msgId := a.msgId
  requireAck := a.requireAck
  receiptType := a.receiptType

/-- `MailboxService.send` makes an identifier if it is given none, before the store is
called. -/
def serviceSend (genId : String → Prog Op Ans PyErr String)
    (send : SendArgs → Prog Op Ans PyErr String) (a : SendArgs) :
    Prog Op Ans PyErr (String × String) := do
  let mid ← (match a.msgId.filter (· ≠ "") with
    | some mid => .ret mid
    | none => genId a.fromId)
  let detail ← send { a with msgId := some mid }
  return (mid, detail)

theorem serviceSend_eq {genId : String → Prog Op Ans PyErr String}
    {send : SendArgs → Prog Op Ans PyErr String} {a : SendArgs} {mid : String}
    (hmsg : a.msgId = some mid) (hmid : mid ≠ "") :
    serviceSend genId send a = send a >>= fun detail => .ret (mid, detail) := by
  have ha : { a with msgId := some mid } = a := by
    rw [← hmsg]
  rw [serviceSend, hmsg, Option.filter_some, if_pos (decide_eq_true hmid)]
  dsimp only
  rw [Prog.ret_bind, ha]
  rfl

/-- A failed receipt is raised again, with its text. -/
def reraise : PyErr → Failure
  | .value msg => .cli (.value (if msg = "" then "send failed" else msg))
  | e => .store e

/-- The branch `send`; what it prints. -/
def sendBranch (genId : String → Prog Op Ans PyErr String)
    (send : SendArgs → Prog Op Ans PyErr String) (depth : ℕ) (a : SendNs) :
    Prog Op Ans Failure String :=
  match a.template with
  | some name => .ret (line (sendTemplate name))
  | none =>
    if a.missing ≠ [] then
      .raise (.cli (.value ("send requires: " ++ ", ".intercalate a.missing)))
    else
      match parseAttachmentArgs depth a.attachment with
      | .error e => .raise (.cli e)
      | .ok refs => do
        let (mid, detail) ← (serviceSend genId send (a.args refs)).mapErr reraise
        return line (if detail = "" then "sent → " ++ a.toId ++ "/inbox/" ++ mid ++ ".json"
          else detail)

/-- How `main` ends after a branch; the text of a failed `send` has the hint. -/
def exits (str : PyErr → String) (hint : String) : Except Failure String → Output
  | .ok out => { code := 0, out := out }
  | .error e =>
    if e.isValueError then { code := 2, err := line (e.text str ++ hint) }
    else { code := 1, err := line ("error: " ++ e.text str) }

theorem exits_error_code (str : PyErr → String) (hint : String) (e : Failure) :
    (exits str hint (.error e)).code ≠ 0 := by
  rw [exits]
  split
  · show (2 : ℤ) ≠ 0
    decide
  · show (1 : ℤ) ≠ 0
    decide

/-- `main` for the arguments of a `send`. -/
def mainSend {ε : Type} (str : PyErr → String) (genId : String → Prog Op Ans PyErr String)
    (send : SendArgs → Prog Op Ans PyErr String) (depth : ℕ) (argv : List String) :
    Prog Op Ans ε Output :=
  match parseSend argv with
  | none => .ret { code := 2, err := line SEND_EXAMPLE_HINT }
  | some a => do return exits str SEND_EXAMPLE_HINT (← (sendBranch genId send depth a).result)

end AiMeshChat.Mailbox.Cli
