import AiMeshChat.JsonText
import AiMeshChat.Lib.Sha256
import AiMeshChat.Lib.Utf8
import AiMeshChat.Oracle.FlatYaml
import Mathlib.Data.Char
import Mathlib.Data.List.Lex
import Mathlib.Data.List.Sort

/-!
# The model of an ask

`cmd_oracle_ask` decides for a model twice, before it resumes a session (warm) and before it
starts one anew (cold). Both copies read the local `ask_agent_type` for the fingerprint of the
configuration before they assign it, and an old manifest's own model goes before the `--model` of
the call.

`ask_model_iff` says for which manifests, models and files both resolve as they should.
-/

namespace AiMeshChat.Oracle

open Lib

/-! ## Files -/

/-- A file as `read_text` finds it. -/
inductive FileContent
  | missing
  | unreadable
  | bytes (content : List UInt8)

inductive AskErr
  | unboundLocal (name : String)
  | unicodeDecode
  deriving DecidableEq

/-- `read_text`, with universal newlines. -/
def readText (content : List UInt8) : Except AskErr (List Char) :=
  match utf8 content with
  | none => .error .unicodeDecode
  | some text => .ok ((joinCrLf text).map fun c => if c = '\r' then '\n' else c)

/-- The manifest of a review, as far as an ask reads it for the model. -/
structure AskManifest where
  agentType : String := ""
  model : String := ""
  primaryModel : String := ""
  configFingerprint : String := ""

/-- What an ask finds: the agent profiles, the configuration, and the answer of the gateway to
`runtime.context_get`, if the call comes from a runtime. -/
structure AskHost where
  profile : String → FileContent
  config : FileContent
  context : Option (Except Unit String)

/-! ## The profile and the fingerprint -/

/-- The first line with a model, in `_read_agent_model`. -/
def modelLine : List (List Char) → List Char
  | [] => []
  | line :: lines =>
    let line := strip line
    if "model:".toList.isPrefixOf line || "model=".toList.isPrefixOf line then
      if ':' ∈ line then strip (line.dropWhile (· ≠ ':')).tail
      else strip (line.dropWhile (· ≠ '=')).tail
    else modelLine lines

/-- `_read_agent_model`. -/
def readAgentModel (h : AskHost) (agentType : String) : Except AskErr String :=
  match h.profile agentType with
  | .missing => .ok ""
  | .unreadable => .ok ""
  | .bytes content => (readText content).map fun text => String.ofList (modelLine (splitLines text))

/-- `_normalize_oracle_agent`. -/
def normalizeOracleAgent (agentType : String) : String :=
  if agentType = "" ∨ agentType = "default" then "oracle" else agentType

/-- The first 16 digits of the digest of a text. -/
def shortDigest (text : List Char) : String :=
  String.ofList ((Sha256.hexDigest ((encode text).map UInt8.toNat)).take 16)

/-- Four hexadecimal digits behind `\u`. -/
def escapeUnit (n : ℕ) : List Char :=
  let digit (k : ℕ) : Char := Nat.digitChar (n / 16 ^ k % 16)
  ['\\', 'u', digit 3, digit 2, digit 1, digit 0]

/-- A character of a text as `ensure_ascii=True` writes it. -/
def asciiChar (c : Char) : List Char :=
  let n := c.toNat
  if 0x20 ≤ n ∧ n ≤ 0x7E then [c]
  else if n < 0x10000 then escapeUnit n
  else escapeUnit (0xD800 + (n - 0x10000) / 0x400) ++ escapeUnit (0xDC00 + (n - 0x10000) % 0x400)

/-- A section as a JSON object with its keys in order. -/
def sectionJson (kvs : FlatSection) : Json :=
  .obj ((kvs.list.mergeSort fun a b => decide (a.1 ≤ b.1)).map
    fun kv => (String.ofList kv.1, .str (String.ofList kv.2)))

/-- The digest of the sections that decide for a model, in the order of their names. -/
def sectionsDigest (parsed : Flat) : String :=
  let relevant := ["fallbackChains", "modelRoles", "retry"].filterMap fun name =>
    (parsed.get? name.toList).map fun r => (name, sectionJson r.2)
  if relevant = [] then ""
  else shortDigest ((spaced (.obj relevant)).flatMap asciiChar)

/-- The fingerprint of `config.yml`. -/
def configDigest (h : AskHost) : Except AskErr String :=
  match h.config with
  | .missing => .ok ""
  | .unreadable => .ok ""
  | .bytes content => (readText content).map fun text => sectionsDigest (parseFlatYaml text)

/-- `_config_fingerprint`. -/
def configFingerprint (h : AskHost) (agentType : String) : Except AskErr String :=
  if agentType = "" then configDigest h
  else match h.profile agentType with
    | .missing => configDigest h
    | .unreadable => configDigest h
    | .bytes content =>
      match readText content with
      | .error e => .error e
      | .ok text => if strip text ≠ [] then .ok (shortDigest (strip text)) else configDigest h

/-! ## The chain -/

/-- `_runtime_context_model`: none outside a runtime, or the model; the error is
`ModelContextUnavailable`. -/
def runtimeContextModel (h : AskHost) : Except Unit (Option String) :=
  match h.context with
  | none => .ok none
  | some (.error e) => .error e
  | some (.ok model) => if model = "" then .error () else .ok (some model)

/-- `_resolve_oracle_model_chain`. -/
def resolveOracleModelChain (h : AskHost) (agentType explicitModel : String) :
    Except AskErr (List String) :=
  if explicitModel ≠ "" then .ok [explicitModel]
  else (readAgentModel h (normalizeOracleAgent agentType)).map fun m => if m ≠ "" then [m] else []

/-- `a or b`. -/
def orElse (a b : String) : String := if a ≠ "" then a else b

/-- `_model_chain_from_manifest`. -/
def modelChainFromManifest (h : AskHost) (agentType : String) (m : AskManifest)
    (explicitOverride : String) : Except AskErr (List String) :=
  let explicit_ := orElse m.model explicitOverride
  if explicit_ ≠ "" then .ok [explicit_]
  else if m.primaryModel ≠ "" then .ok [m.primaryModel]
  else resolveOracleModelChain h agentType ""

/-- The end of `_ask_model_chain_realtime`: the manifest counts unless the configuration has
changed. -/
def chainByFingerprint (h : AskHost) (agentType : String) (m : AskManifest) :
    Except AskErr (List String) :=
  if m.configFingerprint ≠ "" then
    match configFingerprint h agentType with
    | .error e => .error e
    | .ok currentFp =>
      if currentFp ≠ "" ∧ currentFp ≠ m.configFingerprint then
        resolveOracleModelChain h agentType ""
      else modelChainFromManifest h agentType m ""
  else modelChainFromManifest h agentType m ""

/-- `_ask_model_chain_realtime`. -/
def askModelChainRealtime (h : AskHost) (agentType : String) (m : AskManifest)
    (explicitOverride : String) : Except AskErr (List String) :=
  let explicit_ := orElse m.model explicitOverride
  if explicit_ ≠ "" then .ok [explicit_]
  else match runtimeContextModel h with
    | .ok (some model) => .ok [model]
    | _ => chainByFingerprint h agentType m

/-- The agent of an ask: that of the manifest, or of the call. -/
def askAgent (m : AskManifest) (agent : String) : String := orElse m.agentType agent

/-- The model resolution of `cmd_oracle_ask`, with the local `ask_agent_type`, unassigned at first:
the primary model and the chain, and the local after it. `last` is the model for an empty chain,
in which alone the two copies differ. -/
def askModel (h : AskHost) (m : AskManifest) (explicitModel agent last : String)
    (askAgentType : Option String) : Except AskErr (String × List String) × Option String :=
  if m.primaryModel ≠ "" then
    if explicitModel = "" ∧ m.configFingerprint ≠ "" then
      match askAgentType with
      | none => (.error (.unboundLocal "ask_agent_type"), none)
      | some agentType =>
        match configFingerprint h agentType with
        | .error e => (.error e, askAgentType)
        | .ok curFp =>
          if curFp ≠ "" ∧ curFp ≠ m.configFingerprint then
            let agentType := askAgent m agent
            match resolveOracleModelChain h agentType "" with
            | .error e => (.error e, some agentType)
            | .ok [] => (.ok (m.primaryModel, [m.primaryModel]), some agentType)
            | .ok (primary :: chain) => (.ok (primary, primary :: chain), some agentType)
          else (.ok (m.primaryModel, [m.primaryModel]), askAgentType)
    else
      let primary := orElse explicitModel m.primaryModel
      (.ok (primary, [primary]), askAgentType)
  else
    let agentType := askAgent m agent
    (match askModelChainRealtime h agentType m explicitModel with
      | .error e => .error e
      | .ok chain => .ok (chain.headD last, chain), some agentType)

/-- The warm resolution. -/
def warmModel (h : AskHost) (m : AskManifest) (explicitModel agent : String)
    (askAgentType : Option String) : Except AskErr (String × List String) × Option String :=
  askModel h m explicitModel agent m.model askAgentType

/-- The cold resolution. -/
def coldModel (h : AskHost) (m : AskManifest) (explicitModel agent : String)
    (askAgentType : Option String) : Except AskErr (String × List String) × Option String :=
  askModel h m explicitModel agent (orElse m.model explicitModel) askAgentType

/-! ## What is promised -/

/-- The model for a manifest that has a primary one, without a `--model`. -/
def dueModel (h : AskHost) (m : AskManifest) (agent : String) : String :=
  match configFingerprint h (askAgent m agent) with
  | .error _ => m.primaryModel
  | .ok fp =>
    if fp ≠ "" ∧ fp ≠ m.configFingerprint then
      match readAgentModel h (normalizeOracleAgent (askAgent m agent)) with
      | .error _ => m.primaryModel
      | .ok model => orElse model m.primaryModel
    else m.primaryModel

/-- The resolution ends with this primary model. -/
def Ends (r : Except AskErr (String × List String) × Option String) (primary : String) : Prop :=
  ∃ chain, r.1 = .ok (primary, chain)

/-- The warm copy, and the cold one, also after the warm one, resolve without an error and for the
same primary model: the `--model`, or else the one that is due. -/
def AskResolves (h : AskHost) (m : AskManifest) (explicitModel agent : String) : Prop :=
  ∃ primary, Ends (warmModel h m explicitModel agent none) primary ∧
    Ends (coldModel h m explicitModel agent none) primary ∧
    Ends (coldModel h m explicitModel agent (warmModel h m explicitModel agent none).2) primary ∧
    (explicitModel ≠ "" → primary = explicitModel) ∧
    (explicitModel = "" → m.primaryModel ≠ "" → primary = dueModel h m agent)

/-- The file is a text, if it can be read. -/
def IsText (f : FileContent) : Prop := ∀ content, f = .bytes content → ∃ text, readText content = .ok text

/-- The file has nothing but white space, if it is a text. -/
def IsBlank (f : FileContent) : Prop :=
  ∀ content text, f = .bytes content → readText content = .ok text → strip text = []

/-- The files of a fingerprint are texts: the profile, and the configuration where the profile has
nothing. -/
def FingerprintReads (h : AskHost) (agentType : String) : Prop :=
  (agentType ≠ "" → IsText (h.profile agentType)) ∧
    ((agentType ≠ "" → IsBlank (h.profile agentType)) → IsText h.config)

/-- For a primary model: there is a `--model`, or else the manifest has no fingerprint, and the
profile no other model if there is a fingerprint now. Without one: the manifest has no model that
is not the `--model`; and without that too, it has one itself, or the gateway, or the files that
are read are texts. -/
def ModelSettled (h : AskHost) (m : AskManifest) (explicitModel agent : String) : Prop :=
  if m.primaryModel ≠ "" then
    explicitModel ≠ "" ∨ m.configFingerprint = "" ∧
      ∀ fp, configFingerprint h (askAgent m agent) = .ok fp → fp ≠ "" →
      ∀ model, readAgentModel h (normalizeOracleAgent (askAgent m agent)) = .ok model →
        model ≠ "" → model = m.primaryModel
  else if explicitModel ≠ "" then m.model = "" ∨ m.model = explicitModel
  else m.model ≠ "" ∨ (∃ model, model ≠ "" ∧ h.context = some (.ok model)) ∨
    IsText (h.profile (normalizeOracleAgent (askAgent m agent))) ∧
      (m.configFingerprint ≠ "" → FingerprintReads h (askAgent m agent))

/-! ## What raises -/

theorem readAgentModel_ok_iff (h : AskHost) (agentType : String) :
    (∃ model, readAgentModel h agentType = .ok model) ↔ IsText (h.profile agentType) := by
  rw [readAgentModel, IsText]
  cases h.profile agentType with
  | missing => simp
  | unreadable => simp
  | bytes content => cases hread : readText content <;> simp [hread, Except.map]

theorem configDigest_ok_iff (h : AskHost) : (∃ fp, configDigest h = .ok fp) ↔ IsText h.config := by
  rw [configDigest, IsText]
  cases h.config with
  | missing => simp
  | unreadable => simp
  | bytes content => cases hread : readText content <;> simp [hread, Except.map]

theorem configFingerprint_ok_iff (h : AskHost) (agentType : String) :
    (∃ fp, configFingerprint h agentType = .ok fp) ↔ FingerprintReads h agentType := by
  rw [configFingerprint, FingerprintReads]
  by_cases hempty : agentType = ""
  · simp [hempty, configDigest_ok_iff]
  · rw [if_neg hempty]
    cases hprofile : h.profile agentType with
    | missing => simp [hempty, configDigest_ok_iff, IsText, IsBlank]
    | unreadable => simp [hempty, configDigest_ok_iff, IsText, IsBlank]
    | bytes content =>
      cases hread : readText content with
      | error e => simp [hempty, hread, IsText]
      | ok text =>
        by_cases hstrip : strip text = []
        · have hblank : IsBlank (.bytes content) := by
            intro content' text' hcontent htext
            cases hcontent
            cases hread.symm.trans htext
            exact hstrip
          have htext : IsText (.bytes content) := by
            intro content' hcontent
            cases hcontent
            exact ⟨text, hread⟩
          simp [hempty, hread, hstrip, configDigest_ok_iff, hblank, htext]
        · simp [hempty, hread, hstrip, IsText, IsBlank]

theorem resolveOracleModelChain_ok_iff (h : AskHost) (agentType : String) :
    (∃ chain, resolveOracleModelChain h agentType "" = .ok chain) ↔
      IsText (h.profile (normalizeOracleAgent agentType)) := by
  rw [← readAgentModel_ok_iff, resolveOracleModelChain, if_neg (by simp)]
  cases readAgentModel h (normalizeOracleAgent agentType) with
  | error e => simp [Except.map]
  | ok model => simp [Except.map]

section

variable {h : AskHost} {m : AskManifest}

theorem chainByFingerprint_ok_iff (hprimary : m.primaryModel = "") (hmodel : m.model = "")
    (agentType : String) :
    (∃ chain, chainByFingerprint h agentType m = .ok chain) ↔
      IsText (h.profile (normalizeOracleAgent agentType)) ∧
        (m.configFingerprint ≠ "" → FingerprintReads h agentType) := by
  have hresolve : modelChainFromManifest h agentType m "" =
      resolveOracleModelChain h agentType "" := by
    simp [modelChainFromManifest, orElse, hprimary, hmodel]
  rw [chainByFingerprint, hresolve, ← resolveOracleModelChain_ok_iff, ← configFingerprint_ok_iff]
  by_cases hfp : m.configFingerprint = ""
  · simp [hfp]
  · cases configFingerprint h agentType with
    | error e => simp [hfp]
    | ok fp => simp [hfp]

/-- The chain of a manifest without any model, for a call without a `--model`. -/
theorem askModelChainRealtime_ok_iff (hprimary : m.primaryModel = "") (hmodel : m.model = "")
    (agentType : String) :
    (∃ chain, askModelChainRealtime h agentType m "" = .ok chain) ↔
      (∃ model, model ≠ "" ∧ h.context = some (.ok model)) ∨
        IsText (h.profile (normalizeOracleAgent agentType)) ∧
          (m.configFingerprint ≠ "" → FingerprintReads h agentType) := by
  have hnone : orElse m.model "" = "" := by rw [hmodel]; rfl
  rw [← chainByFingerprint_ok_iff hprimary hmodel, askModelChainRealtime, hnone, if_neg (by simp),
    runtimeContextModel]
  cases h.context with
  | none => simp
  | some answer =>
    cases answer with
    | error e => simp
    | ok model => by_cases hm : model = "" <;> simp [hm]

theorem askModel_old (hprimary : m.primaryModel = "") (explicitModel agent last : String)
    (loc : Option String) : askModel h m explicitModel agent last loc =
      ((askModelChainRealtime h (askAgent m agent) m explicitModel).map
        fun chain => (chain.headD last, chain), some (askAgent m agent)) := by
  unfold askModel
  rw [if_neg (by simp [hprimary])]
  dsimp only
  cases askModelChainRealtime h (askAgent m agent) m explicitModel with
  | error e => rfl
  | ok chain => rfl

theorem dueModel_eq_iff (hfp : m.configFingerprint = "")
    (agent : String) : dueModel h m agent = m.primaryModel ↔
      ∀ fp, configFingerprint h (askAgent m agent) = .ok fp → fp ≠ "" →
      ∀ model, readAgentModel h (normalizeOracleAgent (askAgent m agent)) = .ok model →
        model ≠ "" → model = m.primaryModel := by
  rw [dueModel]
  cases configFingerprint h (askAgent m agent) with
  | error e => simp
  | ok fp =>
    by_cases hempty : fp = ""
    · simp [hempty]
    · cases readAgentModel h (normalizeOracleAgent (askAgent m agent)) with
      | error e => simp
      | ok model => by_cases hmodel : model = "" <;> simp [hempty, hfp, hmodel, orElse]

end

theorem ends_ok (primary p : String) (chain : List String) (loc : Option String) :
    Ends (.ok (primary, chain), loc) p ↔ p = primary := by
  simp [Ends, eq_comm]

theorem not_ends_error (e : AskErr) (p : String) (loc : Option String) :
    ¬ Ends (.error e, loc) p := by
  simp [Ends]

/-- An ask resolves on both branches if and only if nothing raises and no model of the manifest is
before the one that is due. -/
theorem ask_model_iff (h : AskHost) (m : AskManifest) (explicitModel agent : String) :
    AskResolves h m explicitModel agent ↔ ModelSettled h m explicitModel agent := by
  unfold AskResolves ModelSettled
  by_cases hprimary : m.primaryModel = ""
  · rw [if_neg (by simpa using hprimary)]
    simp only [warmModel, coldModel, askModel_old hprimary]
    by_cases hexplicit : explicitModel = ""
    · rw [if_neg (by simpa using hexplicit), hexplicit]
      by_cases hmodel : m.model = ""
      · have hlast : orElse m.model "" = "" := by rw [hmodel]; rfl
        rw [← askModelChainRealtime_ok_iff hprimary hmodel, hlast, hmodel]
        cases askModelChainRealtime h (askAgent m agent) m "" with
        | error e => simp [Except.map, not_ends_error]
        | ok chain => simp [Except.map, ends_ok, hprimary]
      · simp [askModelChainRealtime, orElse, hmodel, Except.map, ends_ok, hprimary]
    · rw [if_pos hexplicit]
      have hne : orElse m.model explicitModel ≠ "" := by
        unfold orElse
        split
        · assumption
        · exact hexplicit
      rw [askModelChainRealtime, if_pos hne]
      by_cases hmodel : m.model = "" <;>
        simp [Except.map, ends_ok, orElse, hmodel, hexplicit]
  · rw [if_pos hprimary]
    by_cases hexplicit : explicitModel = ""
    · by_cases hfp : m.configFingerprint = ""
      · rw [← dueModel_eq_iff hfp]
        simp [warmModel, coldModel, askModel, hprimary, hexplicit, hfp, ends_ok, orElse, eq_comm]
      · simp [warmModel, coldModel, askModel, hprimary, hexplicit, hfp, not_ends_error]
    · simp [warmModel, coldModel, askModel, hprimary, hexplicit, ends_ok, orElse]

/-- A host without files, outside a runtime. -/
def bareHost : AskHost := ⟨fun _ => .missing, .missing, none⟩

/-- A manifest with a primary model and a fingerprint. -/
def printed : AskManifest := { primaryModel := "m", configFingerprint := "f" }

/-- The local is read before it is assigned. -/
theorem fingerprint_raises : ¬ AskResolves bareHost printed "" "oracle" := by
  rintro ⟨primary, ⟨chain, hchain⟩, -⟩
  cases hchain

end AiMeshChat.Oracle
