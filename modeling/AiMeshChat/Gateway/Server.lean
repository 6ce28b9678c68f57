import AiMeshChat.JsonText
import AiMeshChat.Lib.Utf8
import Mathlib.Data.List.TakeWhile

/-!
# The server of the gateway

`_handle_connection` and `_read_frame` of `gateway/server.py` with the request and the
response of `gateway/model.py`. A client sends one line and gets one. What it sends comes
in chunks, as the socket cuts it; after each of them the newline is looked for, and only if
there is none the length of what has come so far is compared with the limit.

`packet_boundaries` says that the answer depends on the bytes and not on the cuts, although
a line that is too long may reach the handler whole or cut off.
-/

namespace AiMeshChat.Gateway.Server

open Lib

def GATEWAY_PROTOCOL_VERSION : ℤ := 1
def MAX_FRAME_LENGTH : ℕ := 1048576

def ERR_VERSION_INCOMPATIBLE : String := "VERSION_INCOMPATIBLE"
def ERR_FRAME_TOO_LARGE : String := "FRAME_TOO_LARGE"
def ERR_PROTOCOL : String := "PROTOCOL"

/-- What `recv` is asked for at most. -/
def CHUNK : ℕ := 65536

def newline : UInt8 := 10

/-! ## Requests and responses -/

/-- `GatewayError`. -/
structure GatewayError where
  code : String
  message : String
  context : List (String × Json) := []
  deriving DecidableEq

def GatewayError.toDict (e : GatewayError) : Json :=
  .obj [("code", .str e.code), ("message", .str e.message), ("context", .obj e.context)]

/-- `GatewayRequest`. -/
structure GatewayRequest where
  v : ℤ
  id : String
  method : String
  params : Json
  deriving DecidableEq

/-- A text that is not empty. -/
def nonEmpty? : Option Json → Option String
  | some (.str s) => if s = "" then none else some s
  | _ => none

/-- `GatewayRequest.from_dict`. -/
def GatewayRequest.fromDict (d : Json) : Except GatewayError GatewayRequest :=
  if !d.isDict then .error ⟨ERR_PROTOCOL, "request must be a JSON object", []⟩
  else match (d.get? "v").bind Json.int? with
    | none => .error ⟨ERR_PROTOCOL, "request v must be a positive int", []⟩
    | some v =>
      if v < 1 then .error ⟨ERR_PROTOCOL, "request v must be a positive int", []⟩
      else match nonEmpty? (d.get? "id") with
        | none => .error ⟨ERR_PROTOCOL, "request id must be a non-empty string", []⟩
        | some id =>
          match nonEmpty? (d.get? "method") with
          | none => .error ⟨ERR_PROTOCOL, "request method must be a non-empty string", []⟩
          | some method =>
            let params := (d.get? "params").getD (.obj [])
            if params.isDict then .ok ⟨v, id, method, params⟩
            else .error ⟨ERR_PROTOCOL, "request params must be an object", []⟩

/-- `GatewayResponse`. -/
structure GatewayResponse where
  v : ℤ
  id : String
  ok : Bool
  result : Json := .obj []
  error : Option Json := none
  deriving DecidableEq

def GatewayResponse.toJson (r : GatewayResponse) : List Char :=
  compact (.obj [("v", .int r.v), ("id", .str r.id), ("ok", .bool r.ok), ("result", r.result),
    ("error", r.error.getD .null)])

def GatewayResponse.okResponse (req : GatewayRequest) (result : Json) : GatewayResponse :=
  { v := req.v, id := req.id, ok := true, result := result }

def GatewayResponse.errorResponse (req : GatewayRequest) (e : GatewayError) : GatewayResponse :=
  { v := req.v, id := req.id, ok := false, error := some e.toDict }

/-! ## The connection -/

/-- How `json.loads` fails: with a `ValueError`, which the handler answers, or with another
exception. -/
inductive ParseErr
  | value (text : String)
  | other
  deriving DecidableEq

/-- How a method fails. -/
inductive Raised
  | gateway (e : GatewayError)
  | other (text : String)
  deriving DecidableEq

/-- What the handler calls: the parser of JSON, and the dispatcher of the gateway, whose
state is a `G`. -/
structure Service (G : Type) where
  loads : List UInt8 → Except ParseErr Json
  dispatch : String → Json → G → Except Raised Json × G

/-- What comes of a connection: the bytes that are sent, the method that is dispatched, and
the gateway afterwards. -/
structure Served (G : Type) where
  sent : Option (List UInt8) := none
  dispatched : Option (String × Json) := none
  gateway : G
  deriving DecidableEq

/-- `_write_frame`. -/
def writeFrame (r : GatewayResponse) : List UInt8 := encode r.toJson ++ [newline]

/-- `_read_frame`, with `buf` read so far. After the last chunk the client has closed its
side, or the socket times out; both end without a frame. -/
def readFrame (buf : List UInt8) : List (List UInt8) → Option (List UInt8)
  | [] => none
  | chunk :: chunks =>
    if chunk = [] then none
    else
      let buf := buf ++ chunk
      if newline ∈ buf then some (buf.takeWhile (· ≠ newline))
      else if MAX_FRAME_LENGTH < buf.length then some (buf.take (MAX_FRAME_LENGTH + 1))
      else readFrame buf chunks

/-- The answer to a line that is too long. -/
def tooLarge : GatewayResponse where
  v := GATEWAY_PROTOCOL_VERSION
  id := ""
  ok := false
  error := some (GatewayError.toDict
    ⟨ERR_FRAME_TOO_LARGE, "frame exceeds " ++ toString MAX_FRAME_LENGTH ++ " bytes", []⟩)

/-- The answer to a line that is no request. -/
def refused (e : GatewayError) : GatewayResponse where
  v := GATEWAY_PROTOCOL_VERSION
  id := ""
  ok := false
  error := some e.toDict

/-- The answer to a request of another version. -/
def otherVersion (req : GatewayRequest) : GatewayResponse :=
  .errorResponse { req with v := GATEWAY_PROTOCOL_VERSION }
    ⟨ERR_VERSION_INCOMPATIBLE, "gateway protocol v" ++ toString req.v ++ " != v" ++
      toString GATEWAY_PROTOCOL_VERSION, []⟩

/-- The answer to a dispatched request. -/
def answer (req : GatewayRequest) : Except Raised Json → GatewayResponse
  | .ok result => .okResponse req result
  | .error (.gateway e) => .errorResponse req e
  | .error (.other text) => .errorResponse req ⟨"INTERNAL", text, []⟩

section Handler

variable {G : Type} (svc : Service G) (g : G)

/-- A line of an admissible length. -/
def handleLine (line : List UInt8) : Served G :=
  match svc.loads line with
  | .error .other => { gateway := g }
  | .error (.value text) => { sent := some (writeFrame (refused ⟨ERR_PROTOCOL, text, []⟩)), gateway := g }
  | .ok d =>
    match GatewayRequest.fromDict d with
    | .error e => { sent := some (writeFrame (refused e)), gateway := g }
    | .ok req =>
      if req.v ≠ GATEWAY_PROTOCOL_VERSION then
        { sent := some (writeFrame (otherVersion req)), gateway := g }
      else
        let (result, g') := svc.dispatch req.method req.params g
        { sent := some (writeFrame (answer req result)), dispatched := some (req.method, req.params),
          gateway := g' }

/-- What is done with a frame. -/
def handleFrame : Option (List UInt8) → Served G
  | none => { gateway := g }
  | some line =>
    if MAX_FRAME_LENGTH < line.length then { sent := some (writeFrame tooLarge), gateway := g }
    else handleLine svc g line

/-- `_handle_connection`, for the chunks that the socket hands out. -/
def handleConnection (chunks : List (List UInt8)) : Served G :=
  handleFrame svc g (readFrame [] chunks)

end Handler

/-! ## Cuts -/

/-- A way to cut what a client sends. -/
structure Cut (bytes : List UInt8) (chunks : List (List UInt8)) : Prop where
  whole : chunks.flatten = bytes
  sizes : ∀ c ∈ chunks, c ≠ [] ∧ c.length ≤ CHUNK

/-- The first line, or what has come of it, is longer than the limit. -/
def TooLong (bytes : List UInt8) : Prop :=
  MAX_FRAME_LENGTH < (bytes.takeWhile (· ≠ newline)).length

instance (bytes : List UInt8) : Decidable (TooLong bytes) := inferInstanceAs (Decidable (_ < _))

theorem takeWhile_line {xs : List UInt8} (h : newline ∉ xs) : xs.takeWhile (· ≠ newline) = xs := by
  refine List.takeWhile_eq_self_iff.mpr fun x hx => decide_eq_true ?_
  rintro rfl
  exact h hx

theorem takeWhile_append_line {xs ys : List UInt8} (h : newline ∈ xs) :
    (xs ++ ys).takeWhile (· ≠ newline) = xs.takeWhile (· ≠ newline) := by
  induction xs with
  | nil => cases h
  | cons x xs ih =>
    by_cases hx : x = newline
    · simp [hx]
    · have hin : newline ∈ xs := by
        rcases List.mem_cons.mp h with he | hin
        · exact absurd he.symm hx
        · exact hin
      rw [List.cons_append, List.takeWhile_cons_of_pos (by simpa using hx),
        List.takeWhile_cons_of_pos (by simpa using hx), ih hin]

theorem le_takeWhile_append {xs ys : List UInt8} (h : newline ∉ xs) :
    xs.length ≤ ((xs ++ ys).takeWhile (· ≠ newline)).length := by
  have hline : ∀ x ∈ xs, decide (x ≠ newline) = true := by
    intro x hx
    refine decide_eq_true ?_
    rintro rfl
    exact h hx
  rw [List.takeWhile_append_of_pos hline, List.length_append]
  omega

theorem readFrame_spec {chunks : List (List UInt8)} (hchunks : ∀ c ∈ chunks, c ≠ [])
    {buf : List UInt8} (hbuf : newline ∉ buf) (hlen : buf.length ≤ MAX_FRAME_LENGTH) :
    (TooLong (buf ++ chunks.flatten) →
      ∃ line, readFrame buf chunks = some line ∧ MAX_FRAME_LENGTH < line.length) ∧
    (¬ TooLong (buf ++ chunks.flatten) → readFrame buf chunks =
      if newline ∈ buf ++ chunks.flatten then
        some ((buf ++ chunks.flatten).takeWhile (· ≠ newline))
      else none) := by
  induction chunks generalizing buf with
  | nil =>
    simp only [List.flatten_nil, List.append_nil]
    refine ⟨fun h => ?_, fun _ => (if_neg hbuf).symm⟩
    rw [TooLong, takeWhile_line hbuf] at h
    omega
  | cons chunk chunks ih =>
    have hne : chunk ≠ [] := hchunks chunk List.mem_cons_self
    rw [List.flatten_cons, ← List.append_assoc, readFrame, if_neg hne]
    dsimp only
    by_cases hline : newline ∈ buf ++ chunk
    · rw [if_pos hline, TooLong, takeWhile_append_line hline, if_pos (List.mem_append_left _ hline)]
      exact ⟨fun h => ⟨_, rfl, h⟩, fun _ => rfl⟩
    · rw [if_neg hline]
      by_cases hmax : MAX_FRAME_LENGTH < (buf ++ chunk).length
      · rw [if_pos hmax]
        have hall : (buf ++ chunk).length ≤
            ((buf ++ chunk ++ chunks.flatten).takeWhile (· ≠ newline)).length :=
          le_takeWhile_append hline
        refine ⟨fun _ => ⟨_, rfl, ?_⟩, fun h => absurd (lt_of_lt_of_le hmax hall) h⟩
        rw [List.length_take]
        omega
      · rw [if_neg hmax]
        exact ih (fun c hc => hchunks c (List.mem_cons_of_mem _ hc)) hline (by omega)

/-- **The answer does not depend on the cuts**, and a line that is too long is answered as
such and dispatches nothing. -/
theorem packet_boundaries {G : Type} (svc : Service G) (g : G) (bytes : List UInt8) :
    ∃ out : Served G, (∀ chunks, Cut bytes chunks → handleConnection svc g chunks = out) ∧
      (TooLong bytes → out = { sent := some (writeFrame tooLarge), gateway := g }) := by
  have hspec {chunks : List (List UInt8)} (h : Cut bytes chunks) :=
    readFrame_spec (fun c hc => (h.sizes c hc).1) List.not_mem_nil (Nat.zero_le MAX_FRAME_LENGTH)
  by_cases hlong : TooLong bytes
  · refine ⟨_, fun chunks h => ?_, fun _ => rfl⟩
    obtain ⟨line, hline, hmax⟩ := (hspec h).1 (by rwa [List.nil_append, h.whole])
    rw [handleConnection, hline, handleFrame, if_pos hmax]
  · refine ⟨handleFrame svc g (if newline ∈ bytes then some (bytes.takeWhile (· ≠ newline)) else none),
      fun chunks h => ?_, fun hyes => absurd hyes hlong⟩
    rw [handleConnection, (hspec h).2 (by rwa [List.nil_append, h.whole]), List.nil_append, h.whole]

end AiMeshChat.Gateway.Server
