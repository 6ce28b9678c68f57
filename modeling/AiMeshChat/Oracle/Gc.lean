import AiMeshChat.Mailbox.Protocol
import AiMeshChat.Park.Resurrect

/-!
# Garbage collection of reviews

`oracle.py`: `cmd_oracle_gc` selects the released rows of the park registry, and purges every
expired one of them step by step: the data of its backend session, its session files and the
directories of its swarm session, and last its row. No step looks at the table again.

The registry is that of the park, with its locks; the selection is one more statement on it.
What lies on the disk is left to the environment: whether a path is there, where the session
file of a review is, and whether a removal goes through. The backup, the checkpoints and the
vacuum of the backend store, and the time stamp of the last run, are not modelled.

The log of what was selected, revived and destroyed is kept for the statements; no call looks
at it. Beside one run of `gc` any number of `update` and `acquire` calls make reviews hot: `gc`
spares the hot reviews exactly if it destroys nothing of a review that has been made hot since
the selection (`gc_spares_hot`).
-/

namespace AiMeshChat.Oracle

open Lib Park

/-! ## Operations -/

/-- What `gc` destroys. -/
inductive Thing
  | backend (sid : String)
  | path (p : String)
  | row
  deriving DecidableEq

/-- The operations that destroy carry the review they are for, which has no effect. -/
inductive GcOp
  | park (o : ParkOp)
  | selectReleased
  | backendStoreExists
  | purgeBackend (reviewKey sid : String)
  | pathExists (p : String)
  | findSession (sid ompSessionDir ompSessionPath : String)
  | removePath (reviewKey p : String)

/-- A removal answers the text of its error, if there is one. -/
abbrev GcAns : GcOp → Type
  | .park o => ParkAns o
  | .selectReleased => Except String (List LeaseRow)
  | .backendStoreExists => Bool
  | .purgeBackend _ _ => Option String
  | .pathExists _ => Bool
  | .findSession _ _ _ => List String
  | .removePath _ _ => Option String

/-- What is on the disk, and whether the step fails. -/
structure GcChoice where
  park : ParkChoice := {}
  present : Bool := true
  sessionPaths : List String := []
  fault : Option String := none

/-- The keys that were hot at the selection, a key that is hot after it was written, and what
was destroyed for a review and whether that was hot. -/
inductive GcEvent
  | selected (hot : List String)
  | revived (key : String)
  | destroyed (key : String) (thing : Thing) (hot : Bool)
  deriving DecidableEq

/-- The registry, and what has happened, the last first. -/
structure GcState where
  registry : Registry
  log : List GcEvent := []

/-- The row of the key is hot. -/
def hotKey (key : String) (t : Leases) : Bool := (t.get? key).any (·.isHot)

/-- The key of the row that was written, if it is hot. -/
def revivedBy (row? : Option LeaseRow) (t : Leases) : List GcEvent :=
  match row? with
  | some row => if hotKey row.key t then [.revived row.key] else []
  | none => []

/-- What the step `o` adds to the log, the table before it and after it given. -/
def GcOp.events (c : GcChoice) (t t' : Leases) : GcOp → List GcEvent
  | .park (.delete key) => [.destroyed key .row (hotKey key t)]
  | .park o => revivedBy o.written? t'
  | .selectReleased => [.selected ((t.select (·.isHot)).map (·.key))]
  | .purgeBackend key sid =>
    if c.fault.isNone then [.destroyed key (.backend sid) (hotKey key t)] else []
  | .removePath key p => if c.fault.isNone then [.destroyed key (.path p) (hotKey key t)] else []
  | .backendStoreExists | .pathExists _ | .findSession _ _ _ => []

/-- `lifecycle IN ('released_soft', 'released_hard')`. -/
def isReleased (r : LeaseRow) : Bool :=
  r.lifecycle = Lifecycle.releasedSoft.value || r.lifecycle = Lifecycle.releasedHard.value

/-- The answer of the step and the registry after it. -/
def GcState.answer (i : ℕ) (c : GcChoice) (s : GcState) : (o : GcOp) → Option (GcAns o × Registry)
  | .park o => parkWorld.perform i o c.park s.registry
  | .selectReleased =>
    some (match c.fault with
      | some msg => .error msg
      | none => .ok (s.registry.rows.select isReleased), s.registry)
  | .backendStoreExists => some (c.present, s.registry)
  | .purgeBackend _ _ => some (c.fault, s.registry)
  | .pathExists _ => some (c.present, s.registry)
  | .findSession _ _ _ => some (c.sessionPaths, s.registry)
  | .removePath _ _ => some (c.fault, s.registry)

def gcWorld : World GcOp GcAns GcState GcChoice where
  perform i o c s := (s.answer i c o).map fun x =>
    (x.1, ⟨x.2, o.events c s.registry.rows x.2.rows ++ s.log⟩)
  crash i s := { s with registry := parkWorld.crash i s.registry }

abbrev GcCall := Prog GcOp GcAns ParkErr

/-- A call of the registry. -/
def ofPark {α : Type} (p : ParkCall α) : GcCall α := p.embed GcOp.park fun _ a => a

/-! ## The run of `gc` -/

/-- Those of the paths that exist. -/
def existing : List String → GcCall (List String)
  | [] => return []
  | p :: ps => do
    let present ← Prog.op (GcOp.pathExists p)
    let rest ← existing ps
    return if present then p :: rest else rest

/-- The paths in their order; those that were removed are returned. -/
def removeAll (reviewKey : String) : List String → List String → GcCall (List String)
  | [], removed => return removed
  | p :: ps, removed => do
    match ← Prog.op (GcOp.removePath reviewKey p) with
    | none => removeAll reviewKey ps (removed ++ [p])
    | some _ => removeAll reviewKey ps removed

/-- The session file that the manifest names. -/
def recordedPaths (m : ParkManifest) : GcCall (List String) :=
  if m.ompSessionPath ≠ "" then existing [m.ompSessionPath] else return []

/-- The session file of the backend session, with the directories beside it. -/
def boundPaths (m : ParkManifest) : GcCall (List String) :=
  if m.backendSessionId ≠ "" then
    Prog.op (GcOp.findSession m.backendSessionId m.ompSessionDir m.ompSessionPath)
  else return []

/-- The directory of the swarm session, and its outbox and dead letters. -/
def swarmPaths (root : String) (m : ParkManifest) : GcCall (List String) :=
  if m.swarmSessionId = "" then return []
  else if Mailbox.agentIdOk m.swarmSessionId then
    existing [root ++ "/" ++ m.swarmSessionId, root ++ "/_outbox/" ++ m.swarmSessionId,
      root ++ "/_dead_letter/" ++ m.swarmSessionId]
  else throw (.value m.swarmSessionId)

/-- What `_purge_omp_session` is to remove. -/
def purgeTargets (root : String) (m : ParkManifest) : GcCall (List String) := do
  let recorded ← recordedPaths m
  let bound ← boundPaths m
  let swarm ← swarmPaths root m
  return (recorded ++ bound ++ swarm).dedup

/-- `_purge_omp_session`, for a review. -/
def purgeOmpSession (root reviewKey : String) (m : ParkManifest) : GcCall (List String) := do
  let targets ← purgeTargets root m
  removeAll reviewKey (targets.insertionSort (· ≤ ·)) []

/-- `_purge_opencode_session`, for a review; the error is logged. -/
def purgeOpencodeSession (reviewKey sid : String) : GcCall Unit := do
  if ← Prog.op GcOp.backendStoreExists then
    let _ ← Prog.op (GcOp.purgeBackend reviewKey sid)
    return ()
  else return ()

/-- `_is_opencode_session_id`. -/
def isOpencodeSessionId (sid : String) : Bool := startsWith "ses_" sid

/-- Two days. -/
def staleAfter : ℤ := 2 * 24 * 3600 * second

/-- A selected row is expired: its hard deadline has passed, or it was released for good and its
soft one has, or it was last active before the threshold. Zero stands for no time. -/
def gcExpired (now : ℤ) (r : LeaseRow) : Bool :=
  let m := r.manifest
  if m.hardExpiresAt ≠ 0 ∧ m.hardExpiresAt ≤ now then true
  else if r.lifecycle = Lifecycle.releasedHard.value ∧ m.softExpiresAt ≠ 0 ∧ m.softExpiresAt ≤ now then
    true
  else m.lastActivityAt ≠ 0 ∧ m.lastActivityAt < now - staleAfter

inductive GcError
  | scan (msg : String)
  | sessionFiles (reviewKey : String) (e : ParkErr)
  | parkDelete (reviewKey : String) (e : ParkErr)
  deriving DecidableEq

structure GcReport where
  scanned : ℕ := 0
  skipped : ℕ := 0
  cleaned : ℕ := 0
  failed : ℕ := 0
  errors : List GcError := []
  deriving DecidableEq

/-- The purge of an expired row. -/
def purgeRow (root : String) (m : ParkManifest) (report : GcReport) : GcCall GcReport := do
  if m.backendSessionId ≠ "" ∧ isOpencodeSessionId m.backendSessionId then
    purgeOpencodeSession m.reviewKey m.backendSessionId
  let report ← tryCatch (do
    let _ ← purgeOmpSession root m.reviewKey m
    return report) fun e =>
      return { report with errors := report.errors ++ [.sessionFiles m.reviewKey e] }
  tryCatch (do
    ofPark (Park.delete m.reviewKey)
    return { report with cleaned := report.cleaned + 1 }) fun e =>
      return { report with
        failed := report.failed + 1
        errors := report.errors ++ [.parkDelete m.reviewKey e] }

/-- The loop over the selected rows. -/
def gcRows (root : String) (dryRun : Bool) (now : ℤ) : List LeaseRow → GcReport → GcCall GcReport
  | [], report => return report
  | r :: rs, report => do
    let report := { report with scanned := report.scanned + 1 }
    if gcExpired now r then
      if dryRun then
        gcRows root dryRun now rs { report with cleaned := report.cleaned + 1 }
      else
        gcRows root dryRun now rs (← purgeRow root r.manifest report)
    else gcRows root dryRun now rs { report with skipped := report.skipped + 1 }

/-- `cmd_oracle_gc`, with what it returns. -/
def cmdOracleGc (root : String) (dryRun : Bool) : GcCall (GcReport × ℕ) := do
  let now ← Prog.op (GcOp.park .clock)
  match ← Prog.op GcOp.selectReleased with
  | .error msg => return ({ failed := 1, errors := [.scan msg] }, 1)
  | .ok rows =>
    let report ← gcRows root dryRun now rows {}
    return (report, if report.failed = 0 then 0 else 1)

/-! ## `gc` beside calls that make reviews hot -/

/-- A call that makes a review hot. -/
inductive Revival
  | update (key : String) (m : ParkManifest)
  | acquire (key : String) (m : ParkManifest)

def Revival.call : Revival → ParkCall Unit
  | .update key m => Park.update key { m with lifecycle := .hotParked }
  | .acquire key m => do
    let _ ← Park.acquire key { m with lifecycle := .hotParked }
    return ()

/-- Process 0 runs `gc`, the others the calls. -/
def gcPool (root : String) (dryRun : Bool) (t : Leases) (start : ℤ)
    (revivals : ℕ → Option Revival) : Pool GcOp GcAns GcState ParkErr Unit where
  shared := { registry := { rows := t, clock := start } }
  procs
    | 0 => do
      let _ ← cmdOracleGc root dryRun
      return ()
    | i + 1 =>
      match revivals i with
      | some r => ofPark r.call
      | none => .hang

/-- The review for which the step destroys something. -/
def GcOp.destroys? (c : GcChoice) : GcOp → Option String
  | .park (.delete key) => some key
  | .purgeBackend key _ | .removePath key _ => if c.fault.isNone then some key else none
  | _ => none

/-- The key was hot at the selection, or has been made hot since. -/
def hotSince (key : String) : List GcEvent → Bool
  | [] => false
  | .selected hot :: _ => hot.contains key
  | .revived k :: log => k = key || hotSince key log
  | .destroyed _ _ _ :: log => hotSince key log

/-- Nothing is destroyed of a review that was hot at the selection or has been made hot since. -/
def Unrevived (s : GcState) (_ : ℕ) (o : GcOp) (c : GcChoice) : Prop :=
  ∀ key, o.destroys? c = some key → hotSince key s.log = false

/-- Nothing has been destroyed of a review that was hot at that moment. -/
def SparedHot (s : GcState) : Prop := ∀ key thing, GcEvent.destroyed key thing true ∉ s.log

/-! ### What the calls do -/

/-- A step of a call that makes a review hot. -/
def Revives (o : ParkOp) : Prop := o.Stores ∧ ∀ row ∈ o.written?, row.isHot = true

theorem revives_silent {o : ParkOp} (h : o.Stores) (hw : o.written? = none) : Revives o :=
  ⟨h, fun row hrow => by rw [hw] at hrow; cases hrow⟩

theorem acquire_revives (key : String) (m : ParkManifest) (hm : m.lifecycle = .hotParked) :
    (Park.acquire key m).Only Revives := by
  have hrow (now : ℤ) : (rowOf now key m).isHot = true := by simp [LeaseRow.isHot, rowOf, hm]
  refine withLock_only ⟨revives_silent trivial rfl, fun found => ?_⟩ (revives_silent trivial rfl)
    (revives_silent trivial rfl)
  cases found with
  | none =>
    refine ⟨revives_silent trivial rfl, fun now => ⟨⟨trivial, fun row h => ?_⟩, fun inserted => ?_⟩⟩
    · cases h
      exact hrow now
    · cases inserted <;> trivial
  | some text =>
    simp only [Prog.bind]
    cases Lifecycle.ofValue? text with
    | none => trivial
    | some existing =>
      dsimp only
      split
      · trivial
      · refine ⟨revives_silent trivial rfl, fun now => ⟨⟨trivial, fun row h => ?_⟩, fun _ => trivial⟩⟩
        cases h
        exact hrow now

theorem update_revives (key : String) (m : ParkManifest) (hm : m.lifecycle = .hotParked) :
    (Park.update key m).Only Revives := by
  refine withLock_only ⟨revives_silent trivial rfl, fun found => ?_⟩ (revives_silent trivial rfl)
    (revives_silent trivial rfl)
  cases found with
  | false => exact (acquire_revives key m hm).bind fun _ => trivial
  | true =>
    refine ⟨revives_silent trivial rfl, fun now => ⟨⟨trivial, fun row h => ?_⟩, fun _ => trivial⟩⟩
    cases h
    simp [LeaseRow.isHot, rowOf, hm]

theorem call_revives (r : Revival) : r.call.Only Revives := by
  cases r with
  | update key m => exact update_revives key _ rfl
  | acquire key m => exact (acquire_revives key _ rfl).bind fun _ => trivial

/-- `gc` writes no row. -/
def Collects : GcOp → Prop
  | .park o => (∃ key, o = .delete key) ∨ Revives o
  | _ => True

theorem existing_only (ps : List String) : (existing ps).Only Collects := by
  induction ps with
  | nil => trivial
  | cons p ps ih => exact ⟨trivial, fun _ => ih.bind fun _ => trivial⟩

theorem removeAll_only (reviewKey : String) (ps removed : List String) :
    (removeAll reviewKey ps removed).Only Collects := by
  induction ps generalizing removed with
  | nil => trivial
  | cons p ps ih =>
    refine ⟨trivial, fun failed => ?_⟩
    cases failed with
    | none => exact ih _
    | some msg => exact ih _

theorem purgeTargets_only (root : String) (m : ParkManifest) :
    (purgeTargets root m).Only Collects := by
  have hrecorded : (recordedPaths m).Only Collects := by
    unfold recordedPaths
    split
    · exact existing_only _
    · trivial
  have hbound : (boundPaths m).Only Collects := by
    unfold boundPaths
    split
    · exact ⟨trivial, fun _ => trivial⟩
    · trivial
  have hswarm : (swarmPaths root m).Only Collects := by
    unfold swarmPaths
    split
    · trivial
    · split
      · exact existing_only _
      · trivial
  exact hrecorded.bind fun _ => hbound.bind fun _ => hswarm.bind fun _ => Prog.only_ret _

theorem delete_only (key : String) : (ofPark (Park.delete key)).Only Collects := by
  refine Prog.Only.embed (φ := fun o : ParkOp => (∃ key, o = .delete key) ∨ Revives o)
    (fun _ h => h) ?_
  exact withLock_only ⟨.inl ⟨key, rfl⟩, fun _ => trivial⟩ (.inr (revives_silent trivial rfl))
    (.inr (revives_silent trivial rfl))

theorem purgeRow_only (root : String) (m : ParkManifest) (report : GcReport) :
    (purgeRow root m report).Only Collects := by
  have hrest (report : GcReport) : (tryCatch (do
      ofPark (Park.delete m.reviewKey)
      return { report with cleaned := report.cleaned + 1 }) fun e =>
        return { report with
          failed := report.failed + 1
          errors := report.errors ++ [.parkDelete m.reviewKey e] } : GcCall GcReport).Only Collects :=
    ((delete_only m.reviewKey).bind fun _ => Prog.only_ret _).tryCatch fun _ => trivial
  have hfiles : (tryCatch (do
      let _ ← purgeOmpSession root m.reviewKey m
      return report) fun e => return { report with
        errors := report.errors ++ [.sessionFiles m.reviewKey e] } : GcCall GcReport).Only Collects :=
    (((purgeTargets_only root m).bind fun _ => removeAll_only _ _ _).bind fun _ => Prog.only_ret _).tryCatch
      fun _ => trivial
  unfold purgeRow
  split
  · refine Prog.Only.bind ⟨trivial, fun present => ?_⟩ fun _ => hfiles.bind hrest
    cases present with
    | false => trivial
    | true => exact ⟨trivial, fun _ => trivial⟩
  · exact hfiles.bind hrest

theorem gcRows_only (root : String) (dryRun : Bool) (now : ℤ) (rows : List LeaseRow)
    (report : GcReport) : (gcRows root dryRun now rows report).Only Collects := by
  induction rows generalizing report with
  | nil => trivial
  | cons r rs ih =>
    unfold gcRows
    split
    · split
      · exact ih _
      · exact (purgeRow_only root r.manifest _).bind fun _ => ih _
    · exact ih _

/-- Whether the process has made its selection; `gc` destroys after it. -/
def gcRole : Role GcOp GcAns where
  St := Bool
  allows selected
    | .park o => (∃ key, o = .delete key ∧ selected = true) ∨ Revives o
    | .purgeBackend _ _ | .removePath _ _ => selected = true
    | _ => True
  assumes _ _ _ := True
  next selected
    | .selectReleased, _ => true
    | _, _ => selected

theorem gc_keeps (root : String) (dryRun : Bool) : (do
    let _ ← cmdOracleGc root dryRun
    return () : GcCall Unit).Keeps gcRole false fun _ _ => True := by
  have hafter : ∀ q o, q = true → Collects o →
      gcRole.allows q o ∧ ∀ a, gcRole.next q o a = true := by
    rintro q o rfl ho
    cases o with
    | park o => exact ⟨ho.imp (fun ⟨key, h⟩ => ⟨key, h, rfl⟩) id, fun _ => rfl⟩
    | purgeBackend key sid => exact ⟨rfl, fun _ => rfl⟩
    | removePath key p => exact ⟨rfl, fun _ => rfl⟩
    | _ => exact ⟨trivial, fun _ => rfl⟩
  have hrows (now : ℤ) (rows : List LeaseRow) :
      (gcRows root dryRun now rows {}).Keeps gcRole true fun _ _ => True :=
    ((gcRows_only root dryRun now rows {}).keeps_inv (I := fun q : Bool => q = true)
      (Prog.rets_true _) hafter rfl).mono fun _ _ _ => trivial
  have hgc : (cmdOracleGc root dryRun).Keeps gcRole false fun _ _ => True := by
    refine ⟨.inr (revives_silent trivial rfl), fun now _ => ⟨trivial, fun found _ => ?_⟩⟩
    cases found with
    | error msg => trivial
    | ok rows => exact (hrows now rows).bind (fun _ _ _ => trivial) fun _ _ _ => trivial
  exact hgc.bind (fun _ _ _ => trivial) fun _ _ _ => trivial

theorem revival_keeps (r : Revival) : (ofPark r.call).Keeps gcRole false fun _ _ => True := by
  have honly : (ofPark r.call).Only fun o => ∃ o', o = .park o' ∧ Revives o' :=
    (call_revives r).embed (f := GcOp.park) (g := fun _ a => a) fun o h => ⟨o, rfl, h⟩
  exact honly.keeps_of_allows (R := gcRole) (fun q o ⟨o', ho, h⟩ => by subst ho; exact .inr h) false

/-! ### The table and the log -/

theorem hotKey_put (t : Leases) (row : LeaseRow) (key : String) :
    hotKey key (t.put row) = if key = row.key then row.isHot else hotKey key t := by
  unfold hotKey
  rw [Rows.get?_put]
  split
  · rfl
  · rfl

theorem hotKey_delete (t : Leases) (k key : String) :
    hotKey key (t.delete (·.key = k)) = (decide (key ≠ k) && hotKey key t) := by
  unfold hotKey
  rw [Rows.get?_delete_key]
  by_cases h : key = k
  · simp [h]
  · simp [h]

theorem contains_selected (t : Leases) (key : String) :
    ((t.select (·.isHot)).map (·.key)).contains key = hotKey key t := by
  rw [Bool.eq_iff_iff, List.contains_iff_mem, List.mem_map, hotKey, Option.any_eq_true]
  constructor
  · rintro ⟨r, hr, rfl⟩
    obtain ⟨hmem, hhot⟩ := Rows.mem_select.mp hr
    exact ⟨r, Rows.get?_of_mem hmem, hhot⟩
  · rintro ⟨r, hr, hhot⟩
    exact ⟨r, Rows.mem_select.mpr ⟨Rows.mem_of_get? hr, hhot⟩, Rows.key_of_get? hr⟩

theorem hotSince_revives {o : ParkOp} (ho : Revives o) (c : GcChoice) {t : Leases}
    {log : List GcEvent} (h : ∀ key, hotSince key log = hotKey key t) (key : String) :
    hotSince key ((GcOp.park o).events c t (o.rowsAfter t) ++ log) = hotKey key (o.rowsAfter t) := by
  have hrevived (row : LeaseRow) :
      hotSince key (revivedBy (some row) t ++ log) = hotKey key t := by
    simp only [revivedBy]
    by_cases hhot : hotKey row.key t = true
    · rw [if_pos hhot]
      by_cases hkey : row.key = key
      · subst hkey
        simp [hotSince, hhot]
      · simp [hotSince, hkey, h]
    · rw [if_neg hhot]
      exact h key
  have hput (row : LeaseRow) (hrow : row.isHot = true) :
      hotSince key (revivedBy (some row) (t.put row) ++ log) = hotKey key (t.put row) := by
    simp only [revivedBy]
    have hself : hotKey row.key (t.put row) = true := by rw [hotKey_put, if_pos rfl, hrow]
    rw [if_pos hself, hotKey_put]
    by_cases hkey : row.key = key
    · simp [hotSince, hkey, hrow]
    · simp [hotSince, hkey, h, Ne.symm hkey]
  cases o with
  | insert row =>
    by_cases hthere : (t.get? row.key).isSome = true
    · rw [show (ParkOp.insert row).rowsAfter t = t from if_pos hthere]
      exact hrevived row
    · rw [show (ParkOp.insert row).rowsAfter t = t.put row from if_neg hthere]
      exact hput row (ho.2 row rfl)
  | overwrite row =>
    by_cases hthere : (t.get? row.key).isSome = true
    · rw [show (ParkOp.overwrite row).rowsAfter t = t.put row from if_pos hthere]
      exact hput row (ho.2 row rfl)
    · rw [show (ParkOp.overwrite row).rowsAfter t = t from if_neg hthere]
      exact hrevived row
  | lock n => exact h key
  | unlock n => exact h key
  | clock => exact h key
  | «exists» k => exact h key
  | lifecycleOf k => exact h key
  | _ => exact ho.1.elim

theorem events_of_destroys {c : GcChoice} {o : GcOp} {key : String} (h : o.destroys? c = some key)
    (i : ℕ) (s : GcState) : ∃ a s' thing, gcWorld.perform i o c s = some (a, s') ∧
      s'.log = .destroyed key thing (hotKey key s.registry.rows) :: s.log := by
  cases o with
  | park o =>
    cases o with
    | delete k =>
      cases h
      exact ⟨_, _, .row, rfl, rfl⟩
    | _ => cases h
  | purgeBackend k sid =>
    simp only [GcOp.destroys?] at h
    split at h
    · next hfault =>
      cases h
      exact ⟨_, _, .backend sid, rfl, by simp [GcOp.events, hfault]⟩
    · cases h
  | removePath k p =>
    simp only [GcOp.destroys?] at h
    split at h
    · next hfault =>
      cases h
      exact ⟨_, _, .path p, rfl, by simp [GcOp.events, hfault]⟩
    · cases h
  | _ => cases h

theorem destroys_of_events {c : GcChoice} {o : GcOp} {t t' : Leases} {key : String} {thing : Thing}
    {hot : Bool} (h : .destroyed key thing hot ∈ o.events c t t') :
    o.destroys? c = some key ∧ hot = hotKey key t := by
  have hwrites (row? : Option LeaseRow) : .destroyed key thing hot ∉ revivedBy row? t' := by
    intro hmem
    cases row? with
    | none => cases hmem
    | some row =>
      rw [revivedBy] at hmem
      split at hmem
      · simp at hmem
      · cases hmem
  cases o with
  | park o =>
    cases o with
    | delete k =>
      cases List.mem_singleton.mp h
      exact ⟨rfl, rfl⟩
    | _ =>
      simp only [GcOp.events] at h
      exact absurd h (hwrites _)
  | selectReleased => cases List.mem_singleton.mp h
  | purgeBackend k sid =>
    simp only [GcOp.events] at h
    split at h
    · next hfault =>
      cases List.mem_singleton.mp h
      exact ⟨if_pos hfault, rfl⟩
    · cases h
  | removePath k p =>
    simp only [GcOp.events] at h
    split at h
    · next hfault =>
      cases List.mem_singleton.mp h
      exact ⟨if_pos hfault, rfl⟩
    · cases h
  | _ => cases h

theorem selects_of_events {c : GcChoice} {o : GcOp} {t t' : Leases} {hot : List String}
    (h : .selected hot ∈ o.events c t t') : o = .selectReleased := by
  have hwrites (row? : Option LeaseRow) : .selected hot ∉ revivedBy row? t' := by
    intro hmem
    cases row? with
    | none => cases hmem
    | some row =>
      rw [revivedBy] at hmem
      split at hmem
      · simp at hmem
      · cases hmem
  cases o with
  | selectReleased => rfl
  | park o =>
    cases o with
    | delete k => cases List.mem_singleton.mp h
    | _ =>
      simp only [GcOp.events] at h
      exact absurd h (hwrites _)
  | purgeBackend k sid =>
    simp only [GcOp.events] at h
    split at h
    · cases List.mem_singleton.mp h
    · cases h
  | removePath k p =>
    simp only [GcOp.events] at h
    split at h
    · cases List.mem_singleton.mp h
    · cases h
  | _ => cases h

/-- Only `gc` destroys, and after its selection. -/
theorem selected_of_destroys {c : GcChoice} {o : GcOp} {key : String} {selected : Bool}
    (hallow : gcRole.allows selected o) (h : o.destroys? c = some key) : selected = true := by
  cases o with
  | park o =>
    rcases hallow with ⟨k, rfl, hselected⟩ | hrevives
    · exact hselected
    · cases o with
      | delete k => exact hrevives.1.elim
      | _ => cases h
  | purgeBackend k sid => exact hallow
  | removePath k p => exact hallow
  | _ => cases h

/-! ### What all of them keep -/

/-- A selection is in the log. -/
def Selected (s : GcState) : Prop := ∃ hot, .selected hot ∈ s.log

structure GcInv (s : GcState) (q : ℕ → Bool) : Prop where
  selected : ∀ i, q i = true → Selected s
  hot : Selected s → ∀ key, hotSince key s.log = hotKey key s.registry.rows
  spared : SparedHot s

theorem gc_op : Pool.OpKeeps gcWorld gcRole Unrevived GcInv := by
  intro s q i o c a s' hJ hallow hG hw
  obtain ⟨⟨b, reg⟩, hanswer, heq⟩ := Option.map_eq_some_iff.mp hw
  cases heq
  have hcold : ∀ key, o.destroys? c = some key → hotKey key s.registry.rows = false := by
    intro key hkey
    rw [← hJ.hot (hJ.selected i (selected_of_destroys hallow hkey)) key]
    exact hG key hkey
  have hgrown : Selected s → Selected ⟨reg, o.events c s.registry.rows reg.rows ++ s.log⟩ :=
    fun ⟨hot, hmem⟩ => ⟨hot, List.mem_append_right _ hmem⟩
  refine ⟨trivial, fun j hj => ?_, fun ⟨hot, hmem⟩ key => ?_, fun key thing hmem => ?_⟩
  · by_cases hij : j = i
    · subst hij
      rw [Function.update_self] at hj
      cases o with
      | selectReleased => exact ⟨_, List.mem_append_left _ (List.mem_singleton.mpr rfl)⟩
      | _ => exact hgrown (hJ.selected j hj)
    · rw [Function.update_of_ne hij] at hj
      exact hgrown (hJ.selected j hj)
  · -- the log accounts for the table
    have hold (ho : o ≠ .selectReleased) (k : String) : hotSince k s.log = hotKey k s.registry.rows := by
      refine hJ.hot ?_ k
      rcases List.mem_append.mp hmem with hnew | hold
      · exact absurd (selects_of_events hnew) ho
      · exact ⟨hot, hold⟩
    cases o with
    | selectReleased =>
      cases hanswer
      exact contains_selected s.registry.rows key
    | park o =>
      obtain ⟨-, -, rfl⟩ := perform_eq_some.mp hanswer
      rcases hallow with ⟨k, rfl, -⟩ | hrevives
      · show hotSince key s.log = hotKey key (s.registry.rows.delete (·.key = k))
        rw [hotKey_delete, hold nofun key]
        by_cases hkey : key = k
        · subst hkey
          rw [hcold key rfl]
          simp
        · simp [hkey]
      · exact hotSince_revives hrevives c (hold nofun) key
    | purgeBackend k sid =>
      cases hanswer
      refine Eq.trans ?_ (hold nofun key)
      simp only [GcOp.events]
      split <;> rfl
    | removePath k p =>
      cases hanswer
      refine Eq.trans ?_ (hold nofun key)
      simp only [GcOp.events]
      split <;> rfl
    | backendStoreExists =>
      cases hanswer
      exact hold nofun key
    | pathExists p =>
      cases hanswer
      exact hold nofun key
    | findSession sid dir path =>
      cases hanswer
      exact hold nofun key
  · rcases List.mem_append.mp hmem with hnew | hold
    · obtain ⟨hdestroys, hwas⟩ := destroys_of_events hnew
      rw [hcold key hdestroys] at hwas
      cases hwas
    · exact hJ.spared key thing hold

theorem gc_crash : Pool.CrashKeeps gcWorld gcRole GcInv := by
  intro s q i hJ
  refine ⟨q i, ?_⟩
  rw [Function.update_eq_self]
  exact ⟨hJ.selected, hJ.hot, hJ.spared⟩

theorem destroys_hot {s : GcState} {q : ℕ → Bool} {i : ℕ} {o : GcOp} {c : GcChoice}
    (hJ : GcInv s q) (hallow : gcRole.allows (q i) o) (hno : ¬ Unrevived s i o c) :
    ∃ a s', gcWorld.perform i o c s = some (a, s') ∧ ¬ SparedHot s' := by
  simp only [Unrevived] at hno
  push Not at hno
  obtain ⟨key, hkey, hhot⟩ := hno
  obtain ⟨a, s', thing, hw, hlog⟩ := events_of_destroys hkey i s
  refine ⟨a, s', hw, fun hspared => hspared key thing ?_⟩
  have hwas : hotKey key s.registry.rows = true := by
    rw [← hJ.hot (hJ.selected i (selected_of_destroys hallow hkey)) key]
    exact Bool.eq_true_of_not_eq_false hhot
  rw [hlog, hwas]
  exact List.mem_cons_self

theorem gcPool_kept (root : String) (dryRun : Bool) (t : Leases) (start : ℤ)
    (revivals : ℕ → Option Revival) :
    (gcPool root dryRun t start revivals).Kept gcRole GcInv fun _ _ _ => True := by
  refine ⟨fun _ => false, ⟨nofun, fun ⟨_, h⟩ => (by cases h), nofun⟩, fun i => ?_⟩
  match i with
  | 0 => exact gc_keeps root dryRun
  | i + 1 =>
    cases hcall : revivals i with
    | none =>
      simp only [gcPool, hcall]
      exact trivial
    | some r =>
      simp only [gcPool, hcall]
      exact revival_keeps r

theorem log_grows {es : List (Event GcChoice)} {s : Pool GcOp GcAns GcState ParkErr Unit} {e : GcEvent}
    (h : e ∈ s.shared.log) : e ∈ (Pool.run gcWorld s es).shared.log := by
  refine Pool.run_invariant (J := fun s : GcState => e ∈ s.log) (G := fun _ _ _ _ => True)
    (fun s i o c a s' he _ hw => ?_) (fun s i he => he) es h
    (Pool.admits_of_forall (fun _ _ _ _ => trivial) es)
  obtain ⟨x, -, heq⟩ := Option.map_eq_some_iff.mp hw
  cases heq
  exact List.mem_append_right _ he

/-- A released review whose time is over. -/
def expiredManifest : ParkManifest where
  reviewKey := "k"
  lifecycle := .releasedSoft
  hardExpiresAt := 1
  backendSessionId := "ses_1"

def releasedLease : Leases :=
  ⟨[⟨"k", expiredManifest, "released_soft", 0, 1, 0⟩], by decide⟩

/-- `gc` selects the review, it is made hot, and `gc` goes on. -/
def reviveAfterSelection : List (Event GcChoice) :=
  [.tick 0 {}, .tick 0 {}] ++ List.replicate 5 (.tick 1 {}) ++ List.replicate 6 (.tick 0 {})

end AiMeshChat.Oracle
