import AiMeshChat.JsonText
import AiMeshChat.Lib.Fnmatch
import AiMeshChat.Lib.Lines
import AiMeshChat.Lib.PosixPath
import AiMeshChat.Lib.Rows
import AiMeshChat.Lib.Utf8
import Mathlib.Data.Int.Notation
import Mathlib.Data.List.ProdSigma

/-!
# `oracle_transcript_strip`

What a session has left behind is stripped after its end: the full logs are deleted, the other
logs cut to their heads, the transcript is filtered, and what advisors wrote is deleted.

A disk is a list of entries, in the order in which a directory is scanned, below the directory that
is searched: the one that is given, or `_SESSIONS_ROOT`. Symbolic links are left out, and so are a
session id with a `/` in it and a directory that is only removed in part. An exception that
escapes is `none`.
-/

namespace AiMeshChat.Oracle.Transcript

open Lib Lib.Posix Lib.Fnmatch

/-! ## Files -/

/-- A file with its content, or a directory. -/
structure Entry where
  path : List Name
  node : Option (List UInt8)
  deriving DecidableEq

abbrev Disk := Rows (List Name) Entry Entry.path

def Entry.isFile (e : Entry) : Bool := e.node.isSome

def Entry.size (e : Entry) : ℕ := (e.node.getD []).length

/-- A file gets another content. -/
def Entry.write (content : List UInt8) (e : Entry) : Entry :=
  { e with node := e.node.map fun _ => content }

/-- `f.read(n)`, and the file is overwritten with it. -/
def Entry.cut (n : ℤ) (e : Entry) : Entry :=
  { e with node := e.node.map fun content => if n < 0 then content else content.take n.toNat }

def Disk.isDir (t : Disk) (p : List Name) : Bool := (t.get? p).any fun e => !e.isFile

def Disk.content (t : Disk) (p : List Name) : Option (List UInt8) := (t.get? p).bind Entry.node

def Disk.write (t : Disk) (p : List Name) (content : List UInt8) : Disk :=
  t.update (fun e => e.path = p) (Entry.write content) fun _ => rfl

/-- The entry is one of `dir.glob(pattern)`. -/
def globbed (dir : List Name) (pattern : List Char) (e : Entry) : Bool :=
  e.path.getLast?.any fun name => e.path.dropLast = dir && fnmatch pattern name

def Disk.glob (t : Disk) (dir : List Name) (pattern : List Char) : List Entry :=
  t.select (globbed dir pattern)

/-- A disk with the times of its entries. -/
structure World where
  disk : Disk
  mtime : List Name → ℤ

/-- The interpreter, and the paths at which the file system lets it remove and write. -/
structure Machine where
  depth : ℕ
  removable : List Name → Bool
  writable : List Name → Bool

/-- Every path can be removed and written. -/
def Machine.permissive (depth : ℕ) : Machine where
  depth := depth
  removable _ := true
  writable _ := true

/-! ## Where the session is -/

structure Args where
  sid : List Char
  headBytes : ℤ := 2048
  force : Bool := false
  /-- `session_dir` is given. -/
  explicit : Bool := false

def jsonlEnd (sid : List Char) : List Char := '_' :: sid ++ ".jsonl".toList

/-- `_locate_session_dir`. -/
def locateSessionDir (w : World) (a : Args) : Option (List Name) :=
  if !w.disk.isDir [] then none
  else if a.explicit then
    if (w.disk.glob [] ('*' :: jsonlEnd a.sid)).isEmpty then none else some []
  else
    let files := w.disk.select fun e =>
      e.isFile && e.path.getLast?.any fun name => (jsonlEnd a.sid).isSuffixOf name
    let best := files.foldl (fun best e =>
      if best.all fun b => w.mtime b.path.dropLast < w.mtime e.path then some e else best) none
    best.map fun e => e.path.dropLast

/-- `_locate_session_jsonl`: the newest one. -/
def locateSessionJsonl (w : World) (sid : List Char) (dir : List Name) : Option (List Name) :=
  let best := (w.disk.glob dir ('*' :: jsonlEnd sid)).foldl (fun best e =>
    if best.all fun b => w.mtime b.path < w.mtime e.path then some e else best) none
  best.map Entry.path

/-! ## The live guard -/

def TERMINAL_CUSTOM_TYPES : List String :=
  ["session_exit", "agent_end", "agent_stop", "session_shutdown", "process_exit"]

/-- `v in names`; a list or a dict has no hash. -/
def inSet (v : Json) (names : List String) : Option Bool :=
  match v with
  | .arr _ | .obj _ => none
  | .str s => some (s ∈ names)
  | _ => some false

/-- `bytes.strip()`. -/
def stripBytes (bs : List UInt8) : List UInt8 :=
  let white := fun b : UInt8 => b.toNat = 32 || (9 ≤ b.toNat && b.toNat ≤ 13)
  ((bs.dropWhile white).reverse.dropWhile white).reverse

/-- The text that `json.loads` makes of bytes in UTF-8; what it takes for another encoding is left
out. -/
def jsonDecode (bs : List UInt8) : Option (List Char) :=
  (utf8 bs).map fun cs => if cs.head? = some '\ufeff' then cs.tail else cs

/-- The last line of the last 4096 bytes that is not blank. -/
def lastLine (content : List UInt8) : Option (List UInt8) :=
  let tail := content.drop (content.length - 4096)
  ((tail.splitOn 10).reverse.map stripBytes).find? fun line => !line.isEmpty

/-- `_is_session_terminal`. -/
def isSessionTerminal (m : Machine) (content : Option (List UInt8)) : Option Bool :=
  match content with
  | none => some false
  | some [] => some true
  | some content =>
    match lastLine content with
    | none => some false
    | some line =>
      match (jsonDecode line).map (loads m.depth) with
      | none | some (.error .recursion) => none
      | some (.error .invalid) => some false
      | some (.ok obj) =>
        if obj.isDict then inSet ((obj.get? "customType").getD (.str "")) TERMINAL_CUSTOM_TYPES
        else none

inductive LiveGuard
  | skipped
  | refused
  | passed
  | forced
  deriving DecidableEq

/-- The guard of `strip_oracle_session`. -/
def liveGuard (m : Machine) (t : Disk) (force : Bool) (jsonl : Option (List Name)) :
    Option LiveGuard :=
  if force then some .forced
  else match jsonl with
    | none => some .skipped
    | some p => (isSessionTerminal m (t.content p)).map fun b => if b then .passed else .refused

/-! ## The steps -/

/-- The directory of the session, and those in it that belong to the session. -/
def targets (t : Disk) (sid : List Char) (dir : List Name) : List (List Name) :=
  dir :: ((t.glob dir ('*' :: '_' :: sid)).filter fun e => !e.isFile).map Entry.path

/-- Step by step, what is found is reported, and the disk goes on. -/
def sweep {X ρ : Type} (hits : Disk → X → List ρ) (step : Disk → X → Disk) (xs : List X)
    (t : Disk) : List ρ × Disk :=
  xs.foldl (fun acc x => (acc.1 ++ hits acc.2 x, step acc.2 x)) ([], t)

/-- A full log that can be unlinked. -/
def bashOriginal (m : Machine) (d : List Name) (e : Entry) : Bool :=
  globbed d "*.bash-original.log".toList e && e.isFile && m.removable e.path

/-- `_delete_bash_original`. -/
def deleteBashOriginal (m : Machine) (sid : List Char) (dir : List Name) (t : Disk) :
    List (List Name) × Disk :=
  sweep (fun t d => (t.select (bashOriginal m d)).map Entry.path)
    (fun t d => t.delete (bashOriginal m d)) (targets t sid dir) t

def SIDECARS : List (List Char) :=
  ["*.bash.log".toList, "*.eval.log".toList, "*.read.*".toList]

/-- A log that is too long and can be written. -/
def sidecar (m : Machine) (head : ℤ) (x : List Name × List Char) (e : Entry) : Bool :=
  globbed x.1 x.2 e && e.isFile && m.writable e.path && head < e.size

def cutSidecars (m : Machine) (head : ℤ) (t : Disk) (x : List Name × List Char) : Disk :=
  t.update (sidecar m head x) (Entry.cut head) fun _ => rfl

/-- `_truncate_sidecar_logs`. -/
def truncateSidecarLogs (m : Machine) (head : ℤ) (sid : List Char) (dir : List Name) (t : Disk) :
    List (List Name × ℕ) × Disk :=
  sweep (fun t x => (t.select (sidecar m head x)).map fun e => (e.path, e.size))
    (cutSidecars m head) (targets t sid dir ×ˢ SIDECARS) t

/-- What advisors wrote and can be removed. -/
def advisor (m : Machine) (d : List Name) (e : Entry) : Bool :=
  globbed d "__advisor*".toList e && m.removable e.path

/-- Each is removed with what is below it. -/
def removeAdvisors (m : Machine) (t : Disk) (d : List Name) : Disk :=
  t.delete fun e => (t.select (advisor m d)).any fun top => top.path.isPrefixOf e.path

/-- `_delete_advisor_files`. -/
def deleteAdvisorFiles (m : Machine) (sid : List Char) (dir : List Name) (t : Disk) :
    List (List Name) × Disk :=
  sweep (fun t d => (t.select (advisor m d)).map Entry.path) (removeAdvisors m) (targets t sid dir) t

/-! ## The transcript -/

def KEEP_ROLES : List String := ["user", "assistant", "toolResult"]

def KEEP_HEADER_TYPES : List String := ["title", "session"]

/-- Whether `_filter_session_jsonl` keeps a record. -/
def keepsRecord (obj : Json) : Option Bool := do
  let t := (obj.get? "type").getD (.str "")
  if ← inSet t KEEP_HEADER_TYPES then some true
  else if t = .str "message" then
    let message := (obj.get? "message").getD (.obj [])
    if message.isDict then inSet ((message.get? "role").getD (.str "")) KEEP_ROLES else none
  else some (t = .str "custom" && obj.get? "customType" = some (.str "tool_execution_start"))

def keepsLine (m : Machine) (raw : List Char) : Option Bool :=
  match loads m.depth raw with
  | .error .invalid => some false
  | .error .recursion => none
  | .ok obj => if obj.isDict then keepsRecord obj else none

/-- The lines of a file that is read as text; blank ones are passed over. -/
def records (cs : List Char) : List (List Char) :=
  (linesOn (fun c => c = '\n' || c = '\r') (joinCrLf cs)).filter fun raw => !raw.isEmpty

/-- The lines that are kept, and the number of those that are not. -/
def filterLines (m : Machine) : List (List Char) → Option (List (List Char) × ℕ)
  | [] => some ([], 0)
  | raw :: rest => do
    let keep ← keepsLine m raw
    let (kept, dropped) ← filterLines m rest
    if keep then some (raw :: kept, dropped) else some (kept, dropped + 1)

def filterContent (m : Machine) (content : List UInt8) : Option (List (List Char) × ℕ) :=
  (utf8 content).bind fun cs => filterLines m (records cs)

/-- `"\n".join(kept_lines) + "\n" if kept_lines else ""`. -/
def joinLines (kept : List (List Char)) : List Char :=
  if kept.isEmpty then [] else ['\n'].intercalate kept ++ ['\n']

structure JsonlReport where
  kept : ℕ := 0
  dropped : ℕ := 0
  rewritten : Bool := false
  originalBytes : ℕ := 0
  filteredBytes : ℕ := 0
  note : Option String := none
  deriving DecidableEq

/-- `_filter_session_jsonl`. -/
def filterSessionJsonl (m : Machine) (dryRun : Bool) (t : Disk) (p : List Name) :
    Disk × Option JsonlReport :=
  match t.get? p with
  | none => (t, some {})
  | some e =>
    match e.node.bind (filterContent m) with
    | none => (t, none)
    | some (kept, dropped) =>
      let new := encode (joinLines kept)
      let report : JsonlReport :=
        { kept := kept.length, dropped := dropped, originalBytes := e.size,
          filteredBytes := new.length }
      if 0 < dropped && !dryRun then
        if m.writable p then (t.write p new, some { report with rewritten := true }) else (t, none)
      else (t, some report)

def filterJsonl (m : Machine) (dryRun : Bool) (t : Disk) (jsonl : Option (List Name)) :
    Disk × Option JsonlReport :=
  match jsonl with
  | none => (t, some { note := some "jsonl_not_found" })
  | some p => filterSessionJsonl m dryRun t p

/-! ## A run -/

inductive StripErr
  | emptySid
  | sessionNotFound
  | sessionLooksLive
  deriving DecidableEq

structure Report where
  sid : List Char
  sessionDir : Option (List Name) := none
  removed : List (List Name) := []
  truncated : List (List Name × ℕ) := []
  jsonl : Option JsonlReport := none
  advisorsRemoved : List (List Name) := []
  liveGuard : LiveGuard := .skipped
  error : Option StripErr := none
  hint : Option String := none
  deriving DecidableEq

def LIVE_HINT : String :=
  "会话无终端标记（session_exit 等），可能仍在运行。仅 release 后运行，或使用 --force 覆盖。"

/-- What was written, and the directories in which something was removed, are of this time. -/
def touch (mtime : List Name → ℤ) (now : ℤ) (ps : List (List Name)) : List Name → ℤ :=
  fun p => if p ∈ ps then now else mtime p

/-- The four steps. -/
def steps (m : Machine) (now : ℤ) (w : World) (a : Args) (dryRun : Bool) (dir : List Name)
    (report : Report) : World × Option Report :=
  let jsonl := locateSessionJsonl w a.sid dir
  let removed := deleteBashOriginal m a.sid dir w.disk
  let truncated := truncateSidecarLogs m a.headBytes a.sid dir removed.2
  let filtered := filterJsonl m dryRun truncated.2 jsonl
  let touched := removed.1.map List.dropLast ++ truncated.1.map Prod.fst
  match filtered.2 with
  | none => (⟨filtered.1, touch w.mtime now touched⟩, none)
  | some jr =>
    let advisors := deleteAdvisorFiles m a.sid dir filtered.1
    let touched := touched ++ (if jr.rewritten then jsonl.toList else []) ++
      advisors.1.map List.dropLast
    (⟨advisors.2, touch w.mtime now touched⟩,
      some { report with
        removed := removed.1, truncated := truncated.1, jsonl := some jr,
        advisorsRemoved := advisors.1 })

/-- `strip_oracle_session`, at the time `now`. -/
def stripOracleSession (m : Machine) (now : ℤ) (w : World) (a : Args) (dryRun : Bool) :
    World × Option Report :=
  let report : Report := { sid := a.sid }
  if a.sid.isEmpty then (w, some { report with error := some .emptySid })
  else match locateSessionDir w a with
    | none => (w, some { report with error := some .sessionNotFound })
    | some dir =>
      let report := { report with sessionDir := some dir }
      match liveGuard m w.disk a.force (locateSessionJsonl w a.sid dir) with
      | none => (w, none)
      | some .refused =>
        (w, some { report with
          liveGuard := .refused, error := some .sessionLooksLive, hint := some LIVE_HINT })
      | some guard => steps m now w a dryRun dir { report with liveGuard := guard }

end AiMeshChat.Oracle.Transcript
