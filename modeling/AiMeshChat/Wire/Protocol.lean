import AiMeshChat.Domain
import AiMeshChat.JsonText
import AiMeshChat.Lib.Utf8

/-!
# The wire protocol

`wire/protocol.py`: one JSON object for each line. `decode_line` reads an answer of
the helper and `decode_request` a request to it; both check the fields that the kind
of message requires and no others. `strict=False` lets a `ready` frame without a
version through as version 0, so that the caller can report the mismatch.

A line that is nested too deep raises `RecursionError`, which is no `ValueError`;
`d` is the number of levels that the interpreter has left.
-/

namespace AiMeshChat.Wire

open Lib

def WIRE_VERSION : ℤ := 2
def MAX_LINE_LENGTH : ℕ := 1048576
def MAX_CONSECUTIVE_BAD_FRAMES : ℕ := 5

def NO_TERMINAL_FRAME_MSG : String :=
  "wire error: no terminal frame (result/error/mailbox_result) received; " ++
    "the helper's response was lost or truncated"

/-- `ValueError` with its text, or `RecursionError`. -/
inductive WireErr
  | value (text : String)
  | recursion
  deriving DecidableEq

/-! ## Fields -/

/-- The types that the schemas name. -/
inductive FieldType
  | int
  | str
  | list
  | dict
  deriving DecidableEq

def FieldType.name : FieldType → String
  | .int => "int"
  | .str => "str"
  | .list => "list"
  | .dict => "dict"

/-- `isinstance(v, t)`; a `bool` is an `int`. -/
def isInstance : Json → FieldType → Bool
  | .int _, .int => true
  | .bool _, .int => true
  | .str _, .str => true
  | .arr _, .list => true
  | .obj _, .dict => true
  | _, _ => false

/-- `type(v).__name__`. -/
def typeName : Json → String
  | .null => "NoneType"
  | .bool _ => "bool"
  | .int _ => "int"
  | .float _ => "float"
  | .str _ => "str"
  | .arr _ => "list"
  | .obj _ => "dict"

/-- An `int`, also one that is a `bool`. -/
def intOf? : Json → Option ℤ
  | .int n => some n
  | .bool b => some (if b then 1 else 0)
  | _ => none

/-- `_RESPONSE_REQUIRED`. -/
def responseRequired : String → Option (List (String × FieldType))
  | "accepted" => some [("wire_version", .int)]
  | "ready" => some [("wire_version", .int)]
  | "session" => some [("id", .str)]
  | "result" => some [("exit_code", .int), ("stdout", .str), ("stderr", .str)]
  | "error" => some [("message", .str)]
  | "pong" => some [("wire_version", .int)]
  | "capabilities" => some []
  | "mailbox_result" => some [("exit_code", .int), ("stdout", .str), ("stderr", .str)]
  | "stream_event" =>
    some [("request_id", .str), ("session_id", .str), ("cursor", .str), ("payload", .dict)]
  | _ => none

/-- `_REQUEST_REQUIRED`. -/
def requestRequired : String → Option (List (String × FieldType))
  | "run" => some [("task", .str), ("workdir", .str), ("timeout", .int)]
  | "ping" => some []
  | "capabilities" => some []
  | "mailbox" => some [("args", .list)]
  | "stream" => some [("session_id", .str), ("cursor", .str)]
  | _ => none

/-- The loop over a schema; `who` begins the text of the error. -/
def checkFields (who : String) (obj : Json) : List (String × FieldType) → Except WireErr Unit
  | [] => .ok ()
  | (field, type) :: schema =>
    match obj.get? field with
    | none => .error (.value (who ++ " missing required field " ++ reprStr field))
    | some v =>
      if isInstance v type then checkFields who obj schema
      else .error (.value (who ++ " field " ++ reprStr field ++ " must be " ++ type.name ++
        ", got " ++ typeName v))

/-! ## Decoding -/

/-- The part that both decoders share: the line holds a JSON object. -/
def parseObject (d : ℕ) (what : String) (line : List Char) : Except WireErr Json :=
  if strip line = [] then .error (.value "empty wire line")
  else if MAX_LINE_LENGTH < (strip line).length then
    .error (.value ("wire line exceeds " ++ toString MAX_LINE_LENGTH ++ " bytes"))
  else
    match loads d (strip line) with
    | .error .invalid => .error (.value "invalid JSON")
    | .error .recursion => .error .recursion
    | .ok obj =>
      if obj.isDict then .ok obj
      else .error (.value (what ++ " must be a JSON object, got " ++ typeName obj))

/-- `obj.pop(key)`, what is left. -/
def popKey (obj : Json) (key : String) : Json :=
  match obj with
  | .obj fields => .obj (fields.filter fun kv => kv.1 ≠ key)
  | v => v

structure WireMessage where
  type : String
  payload : Json
  deriving DecidableEq

/-- A `ready` frame without a version gets version 0 when decoding is not strict. -/
def lenientVersion (strict : Bool) (type : String) (obj : Json) : Json :=
  if !strict && type = "ready" && (obj.get? "wire_version").isNone then
    obj.set "wire_version" (.int 0)
  else obj

/-- `decode_line`. -/
def decodeLine (d : ℕ) (strict : Bool) (line : List Char) : Except WireErr WireMessage := do
  let obj ← parseObject d "wire message" line
  match obj.get? "type" with
  | some (.str type) =>
    if type = "" then .error (.value "wire message 'type' must be a non-empty string")
    else do
      let payload := lenientVersion strict type (popKey obj "type")
      match responseRequired type with
      | some schema => checkFields (reprStr type ++ " message") payload schema
      | none => pure ()
      return ⟨type, payload⟩
  | _ => .error (.value "wire message 'type' must be a non-empty string")

/-- `decode_request`. -/
def decodeRequest (d : ℕ) (line : List Char) : Except WireErr Json := do
  let obj ← parseObject d "wire request" line
  match obj.get? "command" with
  | some (.str cmd) =>
    if cmd = "" then .error (.value "request 'command' must be a non-empty string")
    else
      match requestRequired cmd with
      | none => .error (.value ("unknown command: " ++ cmd))
      | some schema => do
        checkFields ("command " ++ reprStr cmd) obj schema
        return obj
  | _ => .error (.value "request 'command' must be a non-empty string")

/-! ## Encoding -/

/-- A field that is written only if its text is not empty. -/
def optField (key : String) (value : Option String) : List (String × Json) :=
  match truthyText value with
  | some s => [(key, .str s)]
  | none => []

/-- `make_request` for the command `run`, with the fields that both transports pass. -/
def makeRequest (request : RunRequest) (workdir : String) (sessionId : Option String) : Json :=
  .obj ([("wire_version", .int WIRE_VERSION), ("command", .str "run"), ("task", .str request.task),
      ("workdir", .str (orText (some workdir) request.workdir))] ++
    optField "backend" request.backend ++ optField "agent" request.agent ++
    optField "model" request.model ++ optField "skills" request.skills ++
    optField "resume_session_id" sessionId ++
    [("skip_permissions", .bool request.skipPermissions), ("timeout", .int request.timeout),
      ("session_key", .str (orText request.sessionKey "")), ("request_id", .str request.requestId),
      ("run_id", .str request.runId), ("review_key", .str request.reviewKey),
      ("require_ack", .bool request.requireAck)] ++
    if request.capabilities = [] then []
    else [("capabilities", .arr (request.capabilities.map .str))])

/-- `encode_line`. -/
def encodeLine (obj : Json) : List UInt8 := encode (compact obj) ++ [10]

end AiMeshChat.Wire
