import AiMeshChat.Helper.Serve
import AiMeshChat.Lib.Joined
import AiMeshChat.Session.Registry

/-!
# The keys of the registry

`session/key.py`: the key of a session is the text `host:workdir:backend:agent`, that of an
oracle review ends in the last word of the model's name. `:` may occur in each field, and the
rest of the model's name is left out.

So two requests of one key have the same fields unless these are the same pieces divided in
another way (`keyIdentifies_iff`), and two models of one key are equal unless only their last
words are (`oracleIdentifies_iff`). A model whose name ends in `/` has no last word, and there
is no key for it.

`str.lower` is any function `lower` here.
-/

namespace AiMeshChat.Session

open Lib

/-! ## The working directory -/

/-- What `_normalize_workdir` asks the system: `os.environ`, the home of a user (of the name
`""`: of this one) and `os.getcwd`, which may raise. -/
structure Env where
  vars : String → Option String
  home : String → Option String
  cwd : Option String

/-- `\w` of a pattern with `re.ASCII`. -/
def isWordChar (c : Char) : Bool := c.isAlphanum || c = '_'

/-- The match of `\w+|\{[^}]*\}`: the text, the name in it and what follows. -/
def varMatch (cs : List Char) : Option (List Char × List Char × List Char) :=
  match cs with
  | '\x7b' :: rest =>
    match rest.dropWhile (· ≠ '\x7d') with
    | _ :: tail =>
      let name := rest.takeWhile (· ≠ '\x7d')
      some ('\x7b' :: name ++ ['\x7d'], name, tail)
    | [] => none
  | _ =>
    let name := cs.takeWhile isWordChar
    if name = [] then none else some (name, name, cs.dropWhile isWordChar)

theorem length_varMatch {cs text name tail : List Char}
    (h : varMatch cs = some (text, name, tail)) : tail.length ≤ cs.length := by
  unfold varMatch at h
  split at h
  · next rest =>
    split at h
    · next c tail' hdrop =>
      have hlen := (List.dropWhile_suffix (l := rest) (· ≠ '\x7d')).length_le
      rw [hdrop, List.length_cons] at hlen
      cases h
      rw [List.length_cons]
      omega
    · cases h
  · dsimp only at h
    split at h
    · cases h
    · cases h
      exact (List.dropWhile_suffix _).length_le

/-- The loop of `os.path.expandvars`: an unknown variable is left as it is. -/
def expandVars (vars : String → Option String) : List Char → List Char
  | [] => []
  | c :: rest =>
    if c = '$' then
      match h : varMatch rest with
      | some (text, name, tail) =>
        have := length_varMatch h
        ((vars (String.ofList name)).map String.toList).getD (c :: text) ++ expandVars vars tail
      | none => c :: expandVars vars rest
    else c :: expandVars vars rest
termination_by cs => cs.length

/-- One component of the path in `os.path.normpath`. -/
def normStep (slashes : ℕ) (comps : List (List Char)) (comp : List Char) : List (List Char) :=
  if comp = [] ∨ comp = ['.'] then comps
  else if comp ≠ ['.', '.'] ∨ (slashes = 0 ∧ comps = []) ∨ comps.getLast? = some ['.', '.'] then
    comps ++ [comp]
  else comps.dropLast

/-- `os.path.normpath`: two slashes at the front are kept, more are one. -/
def normPath (path : List Char) : List Char :=
  let slashes := match path with
    | '/' :: '/' :: '/' :: _ => 1
    | '/' :: '/' :: _ => 2
    | '/' :: _ => 1
    | _ => 0
  let comps := (path.splitOn '/').foldl (normStep slashes) []
  let text := List.replicate slashes '/' ++ ['/'].intercalate comps
  if text = [] then ['.'] else text

/-- `os.path.abspath`. -/
def absPath (cwd : Option String) (path : List Char) : Option (List Char) :=
  match path with
  | '/' :: _ => some (normPath path)
  | _ => cwd.map fun dir =>
    normPath (dir.toList ++ (if dir = "" ∨ endsWith "/" dir then [] else ['/']) ++ path)

/-- `_normalize_workdir`; `none` where it raises. -/
def normalizeWorkdir (env : Env) (path : String) : Option String := do
  let path ← if path = "" then env.cwd else some path
  let vars := if '$' ∈ path.toList then expandVars env.vars path.toList else path.toList
  let expanded ← Helper.expandUser env.home (String.ofList vars)
  let full ← absPath env.cwd expanded.toList
  return String.ofList (normPath full)

/-! ## The keys -/

/-- `compute_session_key`. -/
def computeSessionKey (env : Env) (lower : String → String) (request : RunRequest)
    (target : Target) : Option String := do
  let host := hostOf target
  let workdir ← normalizeWorkdir env (if target.workdir = "" then request.workdir else target.workdir)
  let backend := lower (orText request.backend "opencode")
  let agent := orText request.agent ""
  return host ++ ":" ++ workdir ++ ":" ++ backend ++ ":" ++ agent

/-- `model.split("/")[-1].split()[-1]`; `none` where this raises `IndexError`. -/
def lastWord (model : String) : Option String :=
  let component := ((model.toList.splitOn '/').getLast?).getD []
  ((component.splitOnP isSpace).filter (· ≠ [])).getLast?.map String.ofList

/-- `compute_oracle_session_key`. -/
def computeOracleSessionKey (lower : String → String) (project domain topic : String)
    (model : Option String) : Option String :=
  let base := project ++ ":oracle:" ++ domain ++ ":" ++ topic
  match truthyText model with
  | some model => (lastWord model).map fun word => base ++ ":" ++ lower word
  | none => some base

/-! ## What a session key identifies -/

/-- What a session key is for. -/
structure Namespace where
  host : String
  workdir : String
  backend : String
  agent : String
  deriving DecidableEq

namespace Namespace

def fields (n : Namespace) : List (List Char) :=
  [n.host.toList, n.workdir.toList, n.backend.toList, n.agent.toList]

def key (n : Namespace) : String := n.host ++ ":" ++ n.workdir ++ ":" ++ n.backend ++ ":" ++ n.agent

theorem toList_key (n : Namespace) : n.key.toList = [':'].intercalate n.fields := by
  simp [key, fields, List.intercalate, List.intersperse]

theorem fields_injective : Function.Injective fields := by
  intro n n' h
  cases n
  cases n'
  simpa [fields, String.toList_inj] using h

/-- The same pieces, divided in another way. -/
def Regrouped (n n' : Namespace) : Prop :=
  pieces ':' n.fields = pieces ':' n'.fields ∧
    n.fields.map (·.count ':') ≠ n'.fields.map (·.count ':')

theorem key_injective_iff (n n' : Namespace) : (n.key = n'.key → n = n') ↔ ¬ Regrouped n n' := by
  rw [Regrouped, ← String.toList_inj, toList_key, toList_key, ← fields_injective.eq_iff]
  exact joined_injective_iff

/-- Namespaces without `:` in three of their fields are not confused. -/
theorem not_regrouped {n n' : Namespace} (h : ∀ m ∈ [n, n'], ':' ∉ m.host.toList ∧
    ':' ∉ m.backend.toList ∧ ':' ∉ m.agent.toList) : ¬ Regrouped n n' := by
  rintro ⟨hpieces, hcount⟩
  obtain ⟨⟨hh, hb, ha⟩, ⟨hh', hb', ha'⟩⟩ : (':' ∉ n.host.toList ∧ ':' ∉ n.backend.toList ∧
      ':' ∉ n.agent.toList) ∧ (':' ∉ n'.host.toList ∧ ':' ∉ n'.backend.toList ∧
      ':' ∉ n'.agent.toList) := by simpa using h
  have hlen := congrArg List.length hpieces
  simp only [pieces, fields, List.flatMap_cons, List.flatMap_nil, List.length_append,
    length_splitOn, List.length_nil, List.count_eq_zero_of_not_mem, hh, hb, ha, hh', hb', ha',
    not_false_eq_true] at hlen
  apply hcount
  simp only [fields, List.map_cons, List.map_nil, List.count_eq_zero_of_not_mem, hh, hb, ha, hh',
    hb', ha', not_false_eq_true, List.cons.injEq, and_true, true_and]
  omega

end Namespace

/-- The namespace of a request. -/
def namespaceOf (env : Env) (lower : String → String) (request : RunRequest) (target : Target) :
    Option Namespace :=
  (normalizeWorkdir env (if target.workdir = "" then request.workdir else target.workdir)).map
    fun workdir => ⟨hostOf target, workdir, lower (orText request.backend "opencode"),
      orText request.agent ""⟩

theorem computeSessionKey_eq (env : Env) (lower : String → String) (request : RunRequest)
    (target : Target) : computeSessionKey env lower request target =
      (namespaceOf env lower request target).map Namespace.key := by
  unfold computeSessionKey namespaceOf
  cases normalizeWorkdir env (if target.workdir = "" then request.workdir else target.workdir) <;> rfl

/-- Two requests of one key are of one namespace. -/
def KeyIdentifies (lower : String → String) (env : Env) (request : RunRequest) (target : Target)
    (env' : Env) (request' : RunRequest) (target' : Target) : Prop :=
  ∀ key, computeSessionKey env lower request target = some key →
    computeSessionKey env' lower request' target' = some key →
    namespaceOf env lower request target = namespaceOf env' lower request' target'

/-- Two requests whose namespaces are of the same pieces, divided in different ways. -/
def Confusable (lower : String → String) (env : Env) (request : RunRequest) (target : Target)
    (env' : Env) (request' : RunRequest) (target' : Target) : Prop :=
  ∃ n ∈ namespaceOf env lower request target, ∃ n' ∈ namespaceOf env' lower request' target',
    n.Regrouped n'

theorem keyIdentifies_iff (lower : String → String) (env env' : Env) (request request' : RunRequest)
    (target target' : Target) : KeyIdentifies lower env request target env' request' target' ↔
      ¬ Confusable lower env request target env' request' target' := by
  rw [KeyIdentifies, Confusable, computeSessionKey_eq, computeSessionKey_eq]
  cases hn : namespaceOf env lower request target with
  | none => simp
  | some n =>
    cases hn' : namespaceOf env' lower request' target' with
    | none => simp
    | some n' =>
      simp only [Option.map_some, Option.some.injEq, Option.mem_def, exists_eq_left']
      rw [← Namespace.key_injective_iff]
      constructor
      · intro h hkey
        exact h n.key rfl hkey.symm
      · rintro h key rfl hkey
        exact h hkey.symm

/-! ## What an oracle key identifies -/

/-- There are keys for two models, and these differ if the models do. -/
def OracleIdentifies (lower : String → String) (project domain topic model model' : String) : Prop :=
  ∃ key key', computeOracleSessionKey lower project domain topic (some model) = some key ∧
    computeOracleSessionKey lower project domain topic (some model') = some key' ∧
    (key = key' → lower model = lower model')

/-- There is a character behind the last `/` that is no space. -/
def HasWord (model : String) : Prop :=
  ∃ c ∈ ((model.toList.splitOn '/').getLast?).getD [], isSpace c = false

/-- Two models of the same last word. -/
def SameWord (lower : String → String) (model model' : String) : Prop :=
  (lastWord model).map lower = (lastWord model').map lower

theorem pieces_nil_iff {p : Char → Bool} (cs : List Char) :
    (cs.splitOnP p).filter (· ≠ []) = [] ↔ ∀ c ∈ cs, p c = true := by
  induction cs with
  | nil => simp
  | cons c cs ih =>
    rw [List.splitOnP_cons_eq_if_modifyHead]
    split
    · next hc => simpa [hc] using ih
    · next hc =>
      obtain ⟨w, ws, hws⟩ := List.exists_cons_of_ne_nil (List.splitOnP_ne_nil p cs)
      simp [hws, hc]

theorem isSome_lastWord_iff (model : String) : (lastWord model).isSome ↔ HasWord model := by
  rw [lastWord, HasWord, Option.isSome_map, List.getLast?_isSome, ne_eq, pieces_nil_iff]
  simp

theorem oracleIdentifies_iff (lower : String → String) (project domain topic : String)
    {model model' : String} (h : model ≠ "") (h' : model' ≠ "") :
    OracleIdentifies lower project domain topic model model' ↔
      HasWord model ∧ HasWord model' ∧
        ¬ (SameWord lower model model' ∧ lower model ≠ lower model') := by
  have hmodel : truthyText (some model) = some model := by simp [truthyText, h]
  have hmodel' : truthyText (some model') = some model' := by simp [truthyText, h']
  rw [OracleIdentifies, ← isSome_lastWord_iff, ← isSome_lastWord_iff, SameWord]
  simp only [computeOracleSessionKey, hmodel, hmodel']
  cases lastWord model with
  | none => simp
  | some word =>
    cases lastWord model' with
    | none => simp
    | some word' => simp [String.append_right_inj]

/-! ## When keys identify -/

/-- **When keys identify their namespaces.**  Session keys do unless the fields of two requests
are the same pieces divided in different ways, oracle keys if the models have last words and
these differ where the models do. -/
theorem keys_identify_iff (lower : String → String) (env env' : Env) (request request' : RunRequest)
    (target target' : Target) (project domain topic : String) {model model' : String}
    (h : model ≠ "") (h' : model' ≠ "") :
    (KeyIdentifies lower env request target env' request' target' ∧
        OracleIdentifies lower project domain topic model model') ↔
      ¬ Confusable lower env request target env' request' target' ∧
        HasWord model ∧ HasWord model' ∧
          ¬ (SameWord lower model model' ∧ lower model ≠ lower model') :=
  and_congr (keyIdentifies_iff lower env env' request request' target target')
    (oracleIdentifies_iff lower project domain topic h h')

/-! ### Two directories, two models -/

/-- `str.lower`, of ASCII texts. -/
def lowerAscii (s : String) : String := String.ofList (s.toList.map Char.toLower)

/-- A system without variables. -/
def bare : Env := ⟨fun _ => none, fun _ => none, none⟩

/-- A request to an agent of codex. -/
def toAgent (agent : String) : RunRequest := { task := "", backend := some "codex", agent := some agent }

/-- A directory on a host. -/
def inDir (workdir : String) : Target := { host := { name := "box", sshAlias := "box" }, workdir := workdir }

theorem namespaceOf_dir (agent : String) : namespaceOf bare lowerAscii (toAgent agent) (inDir "/w") =
    some ⟨"box", "/w", "codex", agent⟩ := by
  have hagent : orText (some agent) "" = agent := by
    rw [orText]
    split
    · next h => exact h.symm
    · rfl
  have hdir : normalizeWorkdir bare "/w" = some "/w" := by decide
  have hbackend : lowerAscii (orText (some "codex") "opencode") = "codex" := by decide
  rw [namespaceOf, if_neg (by decide : (inDir "/w").workdir ≠ ""), show (inDir "/w").workdir = "/w" from rfl,
    hdir]
  simp only [toAgent, Option.map_some, hbackend, hagent]
  rfl

theorem keys_identify_reviews : KeyIdentifies lowerAscii bare (toAgent "dev") (inDir "/w") bare
      (toAgent "ops") (inDir "/w") ∧ OracleIdentifies lowerAscii "p" "d" "t" "openai/o3" "opus" := by
  refine (keys_identify_iff lowerAscii bare bare _ _ _ _ "p" "d" "t" (by decide) (by decide)).mpr
    ⟨?_, ?_, ?_, ?_⟩
  · rintro ⟨n, hn, n', hn', h⟩
    rw [namespaceOf_dir] at hn hn'
    cases hn
    cases hn'
    exact Namespace.not_regrouped (by decide) h
  · exact (isSome_lastWord_iff _).mp (by decide)
  · exact (isSome_lastWord_iff _).mp (by decide)
  · rw [SameWord]
    decide

/-- A directory whose name ends in the name of the backend, two models of one name at two
providers, and a model without a name. -/
theorem namespaces_confused : ¬ KeyIdentifies lowerAscii bare (toAgent "") (inDir "/w:codex") bare
      (toAgent "codex:") (inDir "/w") ∧ ¬ OracleIdentifies lowerAscii "p" "d" "t" "a/x" "b/x" ∧
    ¬ OracleIdentifies lowerAscii "p" "d" "t" "gpt/" "gpt/" := by
  refine ⟨fun h => ?_, ?_, ?_⟩
  · have hkey : computeSessionKey bare lowerAscii (toAgent "") (inDir "/w:codex") = some "box:/w:codex:codex:" := by
      decide
    have hkey' : computeSessionKey bare lowerAscii (toAgent "codex:") (inDir "/w") = some "box:/w:codex:codex:" := by
      decide
    have hsame := h _ hkey hkey'
    revert hsame
    decide
  · rintro ⟨key, key', hkey, hkey', h⟩
    have hone : some key = some key' := hkey.symm.trans (Eq.trans (by decide) hkey')
    exact absurd (h (Option.some.inj hone)) (by decide)
  · rintro ⟨key, -, hkey, -⟩
    have hnone : computeOracleSessionKey lowerAscii "p" "d" "t" (some "gpt/") = none := by decide
    rw [hnone] at hkey
    cases hkey

end AiMeshChat.Session
