import AiMeshChat.Gateway.Commands
import AiMeshChat.Ledger.Applied
import AiMeshChat.Lib.Sha256

/-!
# Artifacts and their digests

An attachment names the SHA-256 of its file as 64 hexadecimal digits, in upper or lower case,
and `attachment_error` takes a newline behind them too. `verify_artifact` compares the text
with the digest of the file as it writes it, in lower case, and `artifact_verify` records the
verdict as the terminal state of the request.

So a reference that names the right digest is verified if and only if it names it in lower case
(`verified_iff`); another one is recorded as BLOCKED, and that stays.
-/

namespace AiMeshChat.Gateway

open Lib Lib.Sha256 Ledger

/-! ## The file -/

/-- `Path(path).name`. -/
def pathName (path : String) : String :=
  String.ofList ((((path.toList.splitOn '/').filter fun cs => cs ≠ [] && cs ≠ ['.']).getLast?).getD [])

/-- `verify_artifact`, with the content of the file if it is one: the text of the `ValueError`. -/
def verifyArtifact (path : String) (content : Option (List UInt8)) (expectedSha256 : String)
    (expectedSize : ℤ) : Except String Unit :=
  match content with
  | none => .error ("not a file: " ++ path)
  | some bytes =>
    if (bytes.length : ℤ) ≠ expectedSize then
      .error ("size mismatch for " ++ pathName path ++ ": expected " ++ toString expectedSize ++
        ", got " ++ toString bytes.length)
    else
      let actual := String.ofList (hexDigest (bytes.map UInt8.toNat))
      if actual ≠ expectedSha256 then
        .error ("sha256 mismatch for " ++ pathName path ++ ": expected " ++ expectedSha256 ++
          ", got " ++ actual)
      else .ok ()

/-! ## The verdict -/

/-- The directory of a session: the agents in it, sorted, whether one of them has events of a
request, and the ledger of an agent. -/
structure SessionDir where
  children : List String
  hasEvents : String → String → Bool
  ledger : String → Logs

/-- The directory with another ledger of an agent. -/
def SessionDir.put (dir : SessionDir) (agent : String) (logs : Logs) : SessionDir :=
  { dir with ledger := Function.update dir.ledger agent logs }

@[simp] theorem SessionDir.ledger_put (dir : SessionDir) (agent : String) (logs : Logs) :
    (dir.put agent logs).ledger agent = logs := Function.update_self ..

structure VerifyParams where
  sessionId : String
  requestId : String
  runId : String
  path : String
  sha256 : String
  size : ℤ := 0
  agentId : String := ""

/-- The answer: `isOld` is the status `EXISTS`. -/
structure Verdict where
  verified : Bool
  terminal : String
  isOld : Bool
  deriving DecidableEq

/-- The agent that is named, or else the first one with events of the request. -/
def resolveAgent (dir : SessionDir) (p : VerifyParams) : Option String :=
  if p.agentId ≠ "" then some p.agentId
  else dir.children.find? fun child => dir.hasEvents child p.requestId

/-- The exceptions of the method: its own, and those of the ledger. -/
inductive VerifyErr
  | gateway (e : GatewayErr)
  | ledger (e : LedgerErr)

/-- `artifact_verify`. -/
def artifactVerify (d : ℕ) (files : String → Option (List UInt8)) (dir : SessionDir)
    (p : VerifyParams) (ts : FloatText) : Except VerifyErr (Verdict × SessionDir) :=
  if p.sessionId = "" ∨ p.requestId = "" ∨ p.runId = "" ∨ p.path = "" ∨ p.sha256 = "" then
    .error (.gateway (.gateway .protocol "artifact.verify: missing required params" (.obj [])))
  else if !Mailbox.agentIdOk p.sessionId then
    .error (.gateway (.other ("invalid agent id: " ++ reprStr p.sessionId)))
  else match resolveAgent dir p with
    | none => .error (.gateway (.gateway .notFound ("no agent found with events for request " ++
        reprStr p.requestId ++ " in session " ++ reprStr p.sessionId) (.obj [])))
    | some agent =>
      let record (verified : Bool) :=
        match recordArtifactVerdict d (dir.ledger agent) p.requestId p.runId verified ts with
        | .error e => .error (.ledger e)
        | .ok ((terminal, isNew), logs) =>
          .ok (⟨verified, terminal, !isNew⟩, dir.put agent logs)
      match verifyArtifact p.path (files p.path) p.sha256 p.size with
      | .ok _ => record true
      | .error text =>
        if Mailbox.contains "not a file" text then .error (.gateway (.other text))
        else record false

/-! ## Digests as texts -/

/-- The reference names the content: its size, and its digest as a number. -/
structure Names (att : Json) (bytes : List UInt8) (sha256 : String) (size : ℤ) : Prop where
  sha : att.get? "sha256" = some (.str sha256)
  sizeField : att.get? "size" = some (.int size)
  length : size = bytes.length
  digest : hexNumber (strip sha256.toList) = hexNumber (hexDigest (bytes.map UInt8.toNat))

/-- A text of hexadecimal digits in lower case. -/
def Lower (text : String) : Prop := ∀ c ∈ text.toList, isLowerHex c = true

instance (text : String) : Decidable (Lower text) := List.decidableBAll _ text.toList

theorem sha256Ok_of_attachment {att : Json} {sha256 : String}
    (h : Mailbox.attachmentError att = none) (hsha : att.get? "sha256" = some (.str sha256)) :
    Mailbox.sha256Ok sha256 = true := by
  unfold Mailbox.attachmentError at h
  rw [hsha] at h
  split at h
  · cases h
  · simp only [Option.orElse_eq_orElse] at h
    by_contra hok
    simp [hok] at h

theorem length_of_lower {sha256 : String} (h : Mailbox.sha256Ok sha256 = true)
    (hlower : Lower sha256) : sha256.toList.length = 64 := by
  rw [Mailbox.sha256Ok, dollar, Bool.or_eq_true, Bool.and_eq_true, Bool.and_eq_true,
    Bool.and_eq_true, decide_eq_true_eq, decide_eq_true_eq] at h
  rcases h with ⟨hlen, -⟩ | ⟨hlast, -⟩
  · exact hlen
  · exact absurd (hlower '\n' (List.mem_of_getLast? hlast)) (by decide)

theorem strip_of_lower {text : String} (h : Lower text) : strip text.toList = text.toList := by
  have hspace : ∀ c ∈ text.toList, ¬ isSpace c = true := by
    intro c hc
    have hmem := mem_of_isLowerHex (h c hc)
    have hall : lowerHex.all (fun c => !isSpace c) = true := by decide
    have hno := List.all_eq_true.mp hall c hmem
    intro hspace
    rw [hspace] at hno
    cases hno
  have hdrop (l : List Char) (hl : ∀ c ∈ l, ¬ isSpace c = true) : l.dropWhile isSpace = l := by
    cases l with
    | nil => rfl
    | cons c l => exact List.dropWhile_cons_of_neg (hl c List.mem_cons_self)
  rw [strip, hdrop _ hspace, hdrop _ fun c hc => hspace c (List.mem_reverse.mp hc),
    List.reverse_reverse]

/-- **A reference that names the content** is verified if and only if its digest is in lower
case. -/
theorem verified_iff {att : Json} {bytes : List UInt8} {sha256 : String} {size : ℤ}
    (hatt : Mailbox.attachmentError att = none) (h : Names att bytes sha256 size) (path : String) :
    verifyArtifact path (some bytes) sha256 size = .ok () ↔ Lower sha256 := by
  have hsize : ¬ (bytes.length : ℤ) ≠ size := not_not.mpr h.length.symm
  rw [verifyArtifact, if_neg hsize]
  dsimp only
  constructor
  · intro hverify
    split at hverify
    · cases hverify
    · next hsha =>
      rw [← not_not.mp hsha]
      intro c hc
      rw [String.toList_ofList] at hc
      exact hexDigest_lower _ c hc
  · intro hlower
    have hdigest := h.digest
    rw [strip_of_lower hlower] at hdigest
    have hlen : sha256.toList.length = (hexDigest (bytes.map UInt8.toNat)).length := by
      rw [length_hexDigest, length_of_lower (sha256Ok_of_attachment hatt h.sha) hlower]
    have htext := eq_of_hexNumber hlower (hexDigest_lower _) hlen hdigest
    rw [if_neg]
    rw [not_not, ← htext, String.ofList_toList]

/-! ## What is recorded -/

/-- The call can record a verdict: its parameters are there, its request has a ledger of
complete lines, and this has no terminal event. -/
structure Recordable (d : ℕ) (dir : SessionDir) (p : VerifyParams) (agent : String) : Prop where
  session : p.sessionId ≠ "" ∧ Mailbox.agentIdOk p.sessionId = true
  request : p.requestId ≠ "" ∧ eventsDir p.requestId = .ok ()
  run : p.runId ≠ "" ∧ NoSeparator p.runId
  given : p.path ≠ "" ∧ p.sha256 ≠ ""
  found : resolveAgent dir p = some agent
  whole : Whole (dir.ledger agent)
  free : getTerminal d (dir.ledger agent) p.requestId p.runId = .ok none

/-- The state is recorded, and is the terminal state in every later run of the ledger. -/
def RecordsFinal (d : ℕ) (files : String → Option (List UInt8)) (dir : SessionDir)
    (p : VerifyParams) (agent : String) (ts : FloatText) (verified : Bool) (state : String) :
    Prop :=
  ∃ dir', artifactVerify d files dir p ts = .ok (⟨verified, state, false⟩, dir') ∧
    ∀ d' ops, d = d' + 2 → (∀ op ∈ ops, LedgerOp.Clean (d' + 1) op) →
      getTerminal d (runOps d ops (dir'.ledger agent, [])).1 p.requestId p.runId = .ok (some state)

/-- **The verdict is final.** -/
theorem recordsFinal {d : ℕ} {files : String → Option (List UInt8)} {dir : SessionDir}
    {p : VerifyParams} {agent : String} (h : Recordable (d + 2) dir p agent) (ts : FloatText)
    {verified : Bool} (hverdict : match verifyArtifact p.path (files p.path) p.sha256 p.size with
      | .ok _ => verified = true
      | .error text => verified = false ∧ Mailbox.contains "not a file" text = false) :
    RecordsFinal (d + 2) files dir p agent ts verified (verdictEvent verified).1 := by
  obtain ⟨state, info, hevent, hmem, hclean⟩ : ∃ state info, verdictEvent verified = (state, info) ∧
      state ∈ TERMINAL_STATES ∧
      Entry.Clean (d + 1) ⟨p.requestId, p.runId, state, ts, info⟩ := by
    refine ⟨_, _, rfl, by cases verified <;> decide, ?_⟩
    have hcall := @call_clean d (dir.ledger agent) (.verdict p.requestId p.runId verified ts) _
      h.run.2 rfl
    exact ⟨noSeparator_of_eventsDir h.request.2, hcall.run, hcall.event, hcall.proper, hcall.info⟩
  have hrecord : recordArtifactVerdict (d + 2) (dir.ledger agent) p.requestId p.runId verified ts =
      .ok ((state, true), append (dir.ledger agent) p.requestId p.runId state ts info) := by
    rw [recordArtifactVerdict, hevent]
    simp only [recordEvent, decideEvent, h.request.2, hmem, if_true, bind, Except.bind, pure,
      Except.pure]
    rw [h.free]
    rfl
  have hcall : artifactVerify (d + 2) files dir p ts = .ok (⟨verified, state, false⟩,
      dir.put agent (append (dir.ledger agent) p.requestId p.runId state ts info)) := by
    rw [artifactVerify,
      if_neg (by simp [h.session.1, h.request.1, h.run.1, h.given.1, h.given.2]),
      if_neg (by simp [h.session.2]), h.found]
    dsimp only
    cases hverify : verifyArtifact p.path (files p.path) p.sha256 p.size with
    | ok u =>
      rw [hverify] at hverdict
      obtain rfl : verified = true := hverdict
      dsimp only
      rw [hrecord]
      rfl
    | error text =>
      rw [hverify] at hverdict
      obtain ⟨rfl, htext⟩ := hverdict
      dsimp only
      rw [if_neg (by simp [htext]), hrecord]
      rfl
  rw [hevent]
  refine ⟨_, hcall, fun d' ops hd hops => ?_⟩
  obtain rfl : d' = d := by omega
  rw [SessionDir.ledger_put]
  refine runOps_stays hops h.whole.append ?_
  rw [getTerminal_append h.whole hclean, h.free, if_pos ⟨rfl, rfl, hmem⟩]
  rfl

/-- A content that is verified under every path, and recorded as DONE for good. -/
def Verified (d : ℕ) (bytes : List UInt8) (sha256 : String) (size : ℤ) : Prop :=
  (∀ path, verifyArtifact path (some bytes) sha256 size = .ok ()) ∧
    ∀ files dir p agent ts, files p.path = some bytes → p.sha256 = sha256 → p.size = size →
      Recordable d dir p agent → RecordsFinal d files dir p agent ts true "DONE"

/-- **When validation and verification agree.**  A reference that is valid and names the content
is verified, and DONE is recorded for good, if and only if its digest is in lower case. -/
theorem verified_done_iff (d : ℕ) {att : Json} {bytes : List UInt8} {sha256 : String} {size : ℤ}
    (hatt : Mailbox.attachmentError att = none) (h : Names att bytes sha256 size) :
    Verified (d + 2) bytes sha256 size ↔ Lower sha256 := by
  constructor
  · intro hverified
    exact (verified_iff hatt h "").mp (hverified.1 "")
  · intro hlower
    have hverify (path : String) := (verified_iff hatt h path).mpr hlower
    refine ⟨hverify, fun files dir p agent ts hfile hsha hsize hp => ?_⟩
    refine @recordsFinal d files dir p agent hp ts true ?_
    rw [hfile, hsha, hsize, hverify]

theorem blocked_of_not_lower {d : ℕ} {att : Json} {files : String → Option (List UInt8)}
    {dir : SessionDir} {p : VerifyParams} {agent : String} {bytes : List UInt8}
    (hatt : Mailbox.attachmentError att = none) (h : Names att bytes p.sha256 p.size)
    (hlower : ¬ Lower p.sha256) (hfile : files p.path = some bytes)
    (hp : Recordable (d + 2) dir p agent) (ts : FloatText)
    (htext : ∀ text, verifyArtifact p.path (some bytes) p.sha256 p.size = .error text →
      Mailbox.contains "not a file" text = false) :
    RecordsFinal (d + 2) files dir p agent ts false "BLOCKED" := by
  refine @recordsFinal d files dir p agent hp ts false ?_
  rw [hfile]
  have hverify := mt (verified_iff hatt h p.path).mp hlower
  cases hresult : verifyArtifact p.path (some bytes) p.sha256 p.size with
  | ok u => exact absurd hresult hverify
  | error text => exact ⟨rfl, htext text hresult⟩

/-! ### The empty file -/

/-- A reference to the empty file. -/
def emptyFile (sha256 : String) : Json :=
  .obj [("artifact_id", .str "a"), ("source_host", .str "h"), ("remote_root", .str "/r"),
    ("relative_path", .str "f"), ("size", .int 0), ("sha256", .str sha256)]

theorem verified_done_empty :
    Verified 2 [] "e3b0c44298fc1c149afbf4c8996fb92427ae41e4649b934ca495991b7852b855" 0 :=
  (@verified_done_iff 0 (emptyFile
    "e3b0c44298fc1c149afbf4c8996fb92427ae41e4649b934ca495991b7852b855") _ _ _ (by decide)
    ⟨rfl, rfl, rfl, by decide +kernel⟩).mpr (by decide)

/-- The digest of the empty file in upper case. -/
theorem upper_digest_refused : ¬ ∀ (d : ℕ) (att : Json) (bytes : List UInt8) (sha256 : String)
    (size : ℤ), Mailbox.attachmentError att = none → Names att bytes sha256 size →
    Verified (d + 2) bytes sha256 size := by
  intro h
  have hverified := h 0
    (emptyFile "E3B0C44298FC1C149AFBF4C8996FB92427AE41E4649B934CA495991B7852B855") []
    "E3B0C44298FC1C149AFBF4C8996FB92427AE41E4649B934CA495991B7852B855" 0 (by decide)
    ⟨rfl, rfl, rfl, by decide +kernel⟩
  have hdigest : String.ofList (hexDigest []) =
      "e3b0c44298fc1c149afbf4c8996fb92427ae41e4649b934ca495991b7852b855" := by decide +kernel
  have hverify := hverified.1 "f"
  rw [verifyArtifact, if_neg (by decide), List.map_nil, hdigest] at hverify
  cases hverify

end AiMeshChat.Gateway
