import AiMeshChat.Gateway.Commands
import AiMeshChat.JsonIndent
import AiMeshChat.Lib.Rows
import AiMeshChat.Lib.TempFile
import AiMeshChat.Lib.Utf8

/-!
# Merge latches

`write_merge`, `merge_reset` and the file they keep, `merges.json`. A call changes the
latches under a lock, and then saves them without one: it takes a copy, under the lock
again, writes it to `merges.json.tmp` and renames that to `merges.json`. All calls share the
temporary file.

The calls run in any order of their operations; the write of a text may go on in any number
of pieces. The disk does not fail, and the locale is UTF-8.
-/

namespace AiMeshChat.Gateway

open Lib

/-! ## Latches -/

structure MergeKey where
  sessionId : String
  targetPath : String
  deriving DecidableEq

/-- An entry of `_merges`; both ways to it check that nothing is empty. -/
structure Latch where
  key : MergeKey
  sha256 : String
  named : key.sessionId ≠ "" ∧ key.targetPath ≠ "" ∧ sha256 ≠ ""
  deriving DecidableEq

abbrev Latches := Rows MergeKey Latch Latch.key

/-! ## The file -/

def Latch.json (l : Latch) : Json :=
  .obj [("session_id", .str l.key.sessionId), ("target_path", .str l.key.targetPath),
    ("artifact_sha256", .str l.sha256)]

/-- What `_save_merges` writes. -/
def mergesBytes (t : Latches) : List UInt8 :=
  encode (dumps 0 (.arr (t.list.map Latch.json))).toList

/-- One round of the loop of `_restore_merges`. A field that is no string, which is in no
file that was saved, counts as missing. -/
def restoreLatch (t : Latches) (d : Json) : Except String Latches :=
  if !d.isDict then .error "no attribute 'get'"
  else
    let sid := (d.getStr "session_id").getD ""
    let tgt := (d.getStr "target_path").getD ""
    let h := (d.getStr "artifact_sha256").getD ""
    if named : sid ≠ "" ∧ tgt ≠ "" ∧ h ≠ "" then .ok (t.put ⟨⟨sid, tgt⟩, h, named⟩) else .ok t

/-- What a loop over the value runs through. -/
def iterOf : Json → Except String (List Json)
  | .arr items => .ok items
  | .obj fields => .ok (fields.map fun f => .str f.1)
  | .str s => .ok (s.toList.map fun c => .str (String.singleton c))
  | _ => .error "object is not iterable"

/-- `_restore_merges` of a fresh gateway, with `d` levels of nesting left. A text that is no
JSON is logged; whatever else goes wrong is raised. -/
def restoreMerges (d : ℕ) (file : Option (List UInt8)) : Except String Latches :=
  match file with
  | none => .ok Rows.empty
  | some bytes =>
    match utf8 bytes with
    | none => .error "UnicodeDecodeError"
    | some cs =>
      match loads d cs with
      | .error .invalid => .ok Rows.empty
      | .error .recursion => .error "RecursionError"
      | .ok data => do (← iterOf data).foldlM restoreLatch Rows.empty

theorem restoreLatch_json (t : Latches) (l : Latch) : restoreLatch t l.json = .ok (t.put l) := by
  have hsid : (l.json.getStr "session_id").getD "" = l.key.sessionId := rfl
  have htgt : (l.json.getStr "target_path").getD "" = l.key.targetPath := rfl
  have hsha : (l.json.getStr "artifact_sha256").getD "" = l.sha256 := rfl
  have hdict : (!l.json.isDict) = false := rfl
  simp only [restoreLatch, hdict, Bool.false_eq_true, if_false, hsid, htgt, hsha, l.named, ne_eq,
    not_false_eq_true, and_self, dite_true]

/-- **What is saved is restored.** -/
theorem restoreMerges_mergesBytes (d : ℕ) (t : Latches) :
    restoreMerges (d + 2) (some (mergesBytes t)) = .ok t := by
  have hproper : Proper (d + 2) (.arr (t.list.map Latch.json)) := by
    refine properItems_iff.mpr fun v hv => ?_
    obtain ⟨l, -, rfl⟩ := List.mem_map.mp hv
    exact ⟨by simp, trivial, trivial, trivial, trivial⟩
  have hfold : ∀ (ls : List Latch) (acc : Latches),
      (ls.map Latch.json).foldlM restoreLatch acc = .ok (ls.foldl Rows.put acc) := by
    intro ls
    induction ls with
    | nil => exact fun acc => rfl
    | cons l ls ih =>
      intro acc
      rw [List.map_cons, List.foldlM_cons, restoreLatch_json]
      exact ih (acc.put l)
  unfold restoreMerges mergesBytes
  simp only [utf8_encode, loads_dumps hproper, iterOf]
  show (t.list.map Latch.json).foldlM restoreLatch Rows.empty = .ok t
  rw [hfold, Rows.foldl_put]

/-! ## Operations -/

/-- The keys that `merge_reset` clears: one of them, or those of the session. -/
def clears (sessionId targetPath : String) (l : Latch) : Bool :=
  if targetPath ≠ "" then l.key = ⟨sessionId, targetPath⟩ else l.key.sessionId = sessionId

/-- `set` and `clear` are what is done in one stretch under the lock. -/
inductive MergeOp
  | set (l : Latch)
  | clear (sessionId targetPath : String)
  | copy
  | openTmp
  | write (bytes : List UInt8)
  | closeTmp
  | replace

/-- `set` answers the hash of a latch that is in the way, `write` how much was written, and
`replace` whether there was a file to rename. -/
abbrev MergeAns : MergeOp → Type
  | .set _ => Option String
  | .clear _ _ => ℕ
  | .copy => Latches
  | .openTmp => Unit
  | .write _ => ℕ
  | .closeTmp => Unit
  | .replace => Bool

/-- How much of a write is done at once, less one. -/
structure MergeChoice where
  size : ℕ := 1000000

/-- What was, and is not in the program: the latches after each change of them, by their
number; the number that each process copied last, and the one in the file; and what a
process has latched that nobody has cleared since, with its number. -/
structure MergePast where
  version : ℕ := 0
  tables : ℕ → Latches
  copied : ℕ → ℕ := fun _ => 0
  published : ℕ := 0
  held : ℕ → Option (Latch × ℕ) := fun _ => none

structure MergeState where
  merges : Latches
  disk : TempFile
  past : MergePast

namespace MergeState

/-- The latches are changed. -/
def change (s : MergeState) (t : Latches) (held : ℕ → Option (Latch × ℕ)) : MergeState :=
  { s with
    merges := t
    past := { s.past with
      version := s.past.version + 1
      tables := Function.update s.past.tables (s.past.version + 1) t
      held := held } }

def latch (s : MergeState) (i : ℕ) (l : Latch) : MergeState :=
  s.change (s.merges.put l)
    (Function.update s.past.held i (some (l, s.past.version + 1)))

def perform (i : ℕ) (o : MergeOp) (c : MergeChoice) (s : MergeState) :
    Option (MergeAns o × MergeState) :=
  match o with
  | .set l =>
    match s.merges.get? l.key with
    | some existing =>
      if existing.sha256 ≠ l.sha256 then some (some existing.sha256, s)
      else some (none, s.latch i l)
    | none => some (none, s.latch i l)
  | .clear sessionId targetPath =>
    some ((s.merges.select (clears sessionId targetPath)).length,
      s.change (s.merges.delete (clears sessionId targetPath))
        fun j => (s.past.held j).filter fun x => !clears sessionId targetPath x.1)
  | .copy =>
    some (s.merges,
      { s with past := { s.past with copied := Function.update s.past.copied i s.past.version } })
  | .openTmp => some ((), { s with disk := s.disk.truncate i })
  | .write bytes =>
    let n := min (c.size + 1) bytes.length
    some (n, { s with disk := s.disk.write i (bytes.take n) })
  | .closeTmp => some ((), { s with disk := s.disk.close i })
  | .replace =>
    some (s.disk.tmp.isSome,
      { s with
        disk := s.disk.rename
        past := { s.past with
          published := match s.disk.tmp with
            | some ino => s.past.copied (s.disk.opener ino)
            | none => s.past.published } })

end MergeState

def mergeWorld : World MergeOp MergeAns MergeState MergeChoice :=
  ⟨MergeState.perform, fun i s => { s with disk := s.disk.close i }⟩

abbrev MergeCall := Prog MergeOp MergeAns GatewayErr

/-! ## The calls -/

/-- The text is written, in pieces; each takes at least one byte. -/
def writeAll : ℕ → List UInt8 → MergeCall Unit
  | _, [] => return ()
  | 0, _ => .hang
  | n + 1, bytes => do
    let k ← Prog.op (MergeOp.write bytes)
    writeAll n (bytes.drop k)

/-- `_save_merges`. That there is nothing to rename is logged. -/
def saveMerges : MergeCall Unit := do
  let t ← Prog.op MergeOp.copy
  let bytes := mergesBytes t
  Prog.op MergeOp.openTmp
  writeAll bytes.length bytes
  Prog.op MergeOp.closeTmp
  let _ ← Prog.op MergeOp.replace
  return ()

inductive MergeAnswer
  | merged
  | reset (n : ℕ)
  deriving DecidableEq

structure MergeParams where
  sessionId : String
  targetPath : String
  sha256 : String

/-- `write_merge`. -/
def writeMerge (p : MergeParams) : MergeCall MergeAnswer :=
  if named : p.sessionId ≠ "" ∧ p.targetPath ≠ "" ∧ p.sha256 ≠ "" then do
    match ← Prog.op (MergeOp.set ⟨⟨p.sessionId, p.targetPath⟩, p.sha256, named⟩) with
    | some existing =>
      throw (.gateway .protocolConflict ("conflict on " ++ reprStr p.targetPath ++
        ": existing sha256=" ++ reprStr existing ++ " != incoming sha256=" ++ reprStr p.sha256)
        (.obj []))
    | none =>
      saveMerges
      return .merged
  else throw (.gateway .notFound "write.merge requires session_id, target_path, artifact_sha256"
    (.obj []))

/-- `merge_reset`. -/
def mergeReset (sessionId targetPath : String) : MergeCall MergeAnswer :=
  if sessionId = "" then throw (.gateway .notFound "merge.reset requires session_id" (.obj []))
  else do
    let removed ← Prog.op (MergeOp.clear sessionId targetPath)
    if removed ≠ 0 then saveMerges
    return .reset removed

inductive MergeRequest
  | write (p : MergeParams)
  | reset (sessionId targetPath : String)

def MergeRequest.call : MergeRequest → MergeCall MergeAnswer
  | .write p => writeMerge p
  | .reset sessionId targetPath => mergeReset sessionId targetPath

/-- A gateway that has restored the latches `t`; there may be a temporary file left. -/
def MergeState.fresh (file tmp : Option (List UInt8)) (t : Latches) : MergeState where
  merges := t
  disk :=
    { saved := file.map fun _ => 0
      tmp := tmp.map fun _ => 1
      bytes := fun ino => ((if ino = 0 then file else tmp).getD [])
      next := 2 }
  past := { tables := fun _ => t }

/-- Process `i` makes the call `reqs i`, or none. -/
def mergePool (s : MergeState) (reqs : ℕ → Option MergeRequest) :
    Pool MergeOp MergeAns MergeState GatewayErr MergeAnswer :=
  ⟨s, fun i => match reqs i with
    | some r => r.call
    | none => .hang⟩

end AiMeshChat.Gateway
