import AiMeshChat.Lib.Crash
import AiMeshChat.Lib.Rows
import AiMeshChat.Python

/-!
# The park registry

`park/registry.py` with the records of `domain/park.py`. A parked agent has a row in
the table `park_leases` under its review key. The row keeps the manifest as a JSON text
and, in columns of its own, the lifecycle, two deadlines and the time of the last
activity; so the lifecycle and the deadlines stand twice in it.

Every SQL statement is one step. A call holds the lock of its key while it works, and a
sweep the lock of all sweeps; a lock may be taken again by the process that holds it.
Time goes on between any two steps by as much as the environment likes.

A manifest is kept as the record that is written and read; its JSON text is not modelled.
The lifecycle column is a text, as in the table. What the snapshot files of a key hold is
left to the environment, and so is whether they can be read.

An eviction carries the row that was selected, of which the code keeps the key and the
manifest, and the rule by which it was selected. The deadlines of that row and the rule
have no effect, and no operation reads the list of the evictions that were made.
-/

namespace AiMeshChat.Park

open Lib

/-! ## Manifests and rows -/

inductive Lifecycle
  | hotParked
  | coldResumable
  | releasedSoft
  | releasedHard
  | broken
  deriving DecidableEq

def Lifecycle.value : Lifecycle → String
  | hotParked => "hot_parked"
  | coldResumable => "cold_resumable"
  | releasedSoft => "released_soft"
  | releasedHard => "released_hard"
  | broken => "broken"

/-- `Lifecycle(value)`, with the old name of `RELEASED_SOFT`. -/
def Lifecycle.ofValue? (value : String) : Option Lifecycle :=
  if value = "hot_parked" then some hotParked
  else if value = "cold_resumable" then some coldResumable
  else if value = "released_soft" ∨ value = "released" then some releasedSoft
  else if value = "released_hard" then some releasedHard
  else if value = "broken" then some broken
  else none

@[simp] theorem Lifecycle.ofValue?_value (l : Lifecycle) : ofValue? l.value = some l := by
  cases l <;> rfl

/-- `ParkManifest`. -/
structure ParkManifest where
  reviewKey : String
  swarmSessionId : String := ""
  agentType : String := ""
  model : String := ""
  primaryModel : String := ""
  host : String := ""
  workdir : String := ""
  lifecycle : Lifecycle := .hotParked
  peerAgentId : String := ""
  mailboxAgentId : String := ""
  backendSessionId : String := ""
  parentProcessGeneration : String := ""
  createdAt : ℤ := 0
  lastActivityAt : ℤ := 0
  softExpiresAt : ℤ := 0
  hardExpiresAt : ℤ := 0
  round : ℤ := 0
  lastMsgId : String := ""
  summaryUri : String := ""
  transcriptUri : String := ""
  artifactRefs : List String := []
  configFingerprint : String := ""
  schemaVersion : ℤ := 2
  releaseMode : String := ""
  ompSessionPath : String := ""
  provider : String := ""
  variant : String := ""
  systemPrompt : String := ""
  ompSessionDir : String := ""
  deriving DecidableEq

/-- A row of `park_leases`. -/
structure LeaseRow where
  key : String
  manifest : ParkManifest
  lifecycle : String
  softExpires : ℤ
  hardExpires : ℤ
  lastActivity : ℤ
  deriving DecidableEq

abbrev Leases := Rows String LeaseRow LeaseRow.key

namespace PARK_DEFAULTS

def maxHotParked : ℕ := 3
def ttlSeconds : ℤ := 3600 * second
def hardLimitSeconds : ℤ := 28800 * second
def maxRounds : ℤ := 5

end PARK_DEFAULTS

open PARK_DEFAULTS

/-- `value or default`, for a time. -/
def orTime (value default : ℤ) : ℤ := if value = 0 then default else value

/-- The row that `acquire` and `update` write at the time `now`. -/
def rowOf (now : ℤ) (key : String) (m : ParkManifest) : LeaseRow where
  key := key
  manifest := m
  lifecycle := m.lifecycle.value
  softExpires := orTime m.softExpiresAt (now + ttlSeconds)
  hardExpires := orTime m.hardExpiresAt (now + hardLimitSeconds)
  lastActivity := now

namespace LeaseRow

/-- `lifecycle = 'hot_parked'`. -/
def isHot (r : LeaseRow) : Bool := r.lifecycle = Lifecycle.hotParked.value

/-- A deadline of the row has passed; zero stands for no deadline. -/
def pastDeadline (now : ℤ) (r : LeaseRow) : Bool :=
  (0 < r.softExpires && r.softExpires < now) || (0 < r.hardExpires && r.hardExpires < now)

/-- A resumable row whose hard deadline has passed. -/
def coldDue (now : ℤ) (r : LeaseRow) : Bool :=
  r.lifecycle = Lifecycle.coldResumable.value && 0 < r.hardExpires && r.hardExpires < now

/-- A released row that was last active before the cutoff. -/
def releasedDue (cutoff : ℤ) (r : LeaseRow) : Bool :=
  (r.lifecycle = "released" || r.lifecycle = Lifecycle.releasedSoft.value) &&
    r.lastActivity < cutoff

/-- `ORDER BY last_activity ASC`; rows of the same time stay in their order. -/
def Before (r r' : LeaseRow) : Prop := r.lastActivity ≤ r'.lastActivity

instance : DecidableRel Before := fun r r' =>
  inferInstanceAs (Decidable (r.lastActivity ≤ r'.lastActivity))
instance : Std.Total Before := ⟨fun r r' => le_total r.lastActivity r'.lastActivity⟩
instance : IsTrans LeaseRow Before := ⟨fun _ _ _ => le_trans⟩

/-- The row after a renewal. -/
def renewed (last soft : ℤ) (r : LeaseRow) : LeaseRow :=
  { r with lastActivity := last, softExpires := soft }

/-- The row after a soft release. -/
def released (m : ParkManifest) (last : ℤ) (r : LeaseRow) : LeaseRow :=
  { r with lifecycle := Lifecycle.releasedSoft.value, manifest := m, lastActivity := last }

/-- The row after an eviction that was decided on `selected`. -/
def evicted (r selected : LeaseRow) (target : Lifecycle) : LeaseRow :=
  { r with
    lifecycle := target.value
    manifest := { selected.manifest with lifecycle := target } }

@[simp] theorem renewed_key (last soft : ℤ) (r : LeaseRow) : (r.renewed last soft).key = r.key :=
  rfl
@[simp] theorem released_key (m : ParkManifest) (last : ℤ) (r : LeaseRow) :
    (r.released m last).key = r.key := rfl
@[simp] theorem evicted_key (r selected : LeaseRow) (target : Lifecycle) :
    (r.evicted selected target).key = r.key := rfl

end LeaseRow

/-! ## Steps -/

/-- Whose lock: that of a key, or that of the sweeps. -/
inductive LockName
  | park (key : String)
  | sweep
  deriving DecidableEq

/-- Why a row is evicted. -/
inductive Rule
  | ttl
  | lru
  | rounds
  deriving DecidableEq

inductive ParkOp
  | lock (n : LockName)
  | unlock (n : LockName)
  | clock
  | exists (key : String)
  | lifecycleOf (key : String)
  | manifestOf (key : String)
  | insert (row : LeaseRow)
  | overwrite (row : LeaseRow)
  | renew (key : String) (last soft : ℤ)
  | markReleased (key : String) (m : ParkManifest) (last : ℤ)
  | delete (key : String)
  | expired (now : ℤ)
  | purgeCold (now : ℤ)
  | hotByActivity
  | hot
  | evict (rule : Rule) (selected : LeaseRow) (target : Lifecycle)
  | purgeReleased (cutoff : ℤ)
  | latestSnapshot (key : String)
  | saveSnapshot (key : String)

inductive ParkErr
  | value (text : String)
  | integrity
  | snapshot (msg : String)
  deriving DecidableEq

abbrev ParkAns : ParkOp → Type
  | .lock _ | .unlock _ => Unit
  | .clock => ℤ
  | .exists _ => Bool
  | .lifecycleOf _ => Option String
  | .manifestOf _ => Option ParkManifest
  | .insert _ => Bool
  | .overwrite _ | .renew _ _ _ | .markReleased _ _ _ | .delete _ => Unit
  | .expired _ | .hotByActivity | .hot => List LeaseRow
  | .purgeCold _ | .purgeReleased _ => Unit
  | .evict _ _ _ => Bool
  | .latestSnapshot _ => Except String Bool
  | .saveSnapshot _ => Unit

/-- A row that was demoted: why and when, how it stood, and the manifest it was given. -/
structure Eviction where
  rule : Rule
  time : ℤ
  row : LeaseRow
  manifest : ParkManifest
  deriving DecidableEq

/-- The table, who holds which lock how many times, the clock, and what was evicted. -/
structure Registry where
  rows : Leases
  locks : LockName → Option (ℕ × ℕ) := fun _ => none
  clock : ℤ
  evictions : List Eviction := []

/-- How much time has gone by, and whether the key has a snapshot that can be read. -/
structure ParkChoice where
  elapsed : ℕ := 0
  snapshot : Except String Bool := .ok true

namespace ParkOp

/-- The table after the step. -/
def rowsAfter (o : ParkOp) (t : Leases) : Leases :=
  match o with
  | .insert row => if (t.get? row.key).isSome then t else t.put row
  | .overwrite row => if (t.get? row.key).isSome then t.put row else t
  | .renew key last soft => t.update (·.key = key) (·.renewed last soft) (·.renewed_key last soft)
  | .markReleased key m last => t.update (·.key = key) (·.released m last) (·.released_key m last)
  | .delete key => t.delete (·.key = key)
  | .purgeCold now => t.delete (·.coldDue now)
  | .evict _ selected target =>
    t.update (fun r => r.key = selected.key && r.isHot) (·.evicted selected target)
      (·.evicted_key selected target)
  | .purgeReleased cutoff => t.delete (·.releasedDue cutoff)
  | .lock _ | .unlock _ | .clock | .exists _ | .lifecycleOf _ | .manifestOf _ | .expired _
  | .hotByActivity | .hot | .latestSnapshot _ | .saveSnapshot _ => t

/-- The answer, on the table before the step. -/
def answer (c : ParkChoice) (s : Registry) : (o : ParkOp) → ParkAns o
  | .clock => s.clock
  | .exists key => (s.rows.get? key).isSome
  | .lifecycleOf key => (s.rows.get? key).map (·.lifecycle)
  | .manifestOf key => (s.rows.get? key).map (·.manifest)
  | .insert row => (s.rows.get? row.key).isNone
  | .expired now => s.rows.select fun r => r.isHot && r.pastDeadline now
  | .hotByActivity => (s.rows.select (·.isHot)).insertionSort LeaseRow.Before
  | .hot => s.rows.select (·.isHot)
  | .evict _ selected _ => (s.rows.get? selected.key).any (·.isHot)
  | .latestSnapshot _ => c.snapshot
  | .lock _ | .unlock _ | .overwrite _ | .renew _ _ _ | .markReleased _ _ _ | .delete _
  | .purgeCold _ | .purgeReleased _ | .saveSnapshot _ => ()

/-- The row that the step evicts. -/
def evicts (o : ParkOp) (s : Registry) : List Eviction :=
  match o with
  | .evict rule selected target =>
    ((s.rows.get? selected.key).filter (·.isHot)).toList.map fun r =>
      ⟨rule, s.clock, r, (r.evicted selected target).manifest⟩
  | _ => []

/-- Process `i` has to wait for the lock. -/
def waits (i : ℕ) (s : Registry) : ParkOp → Bool
  | .lock n => (s.locks n).any (·.1 ≠ i)
  | _ => false

/-- The locks after the step. -/
def locksAfter (i : ℕ) (o : ParkOp) (locks : LockName → Option (ℕ × ℕ)) :
    LockName → Option (ℕ × ℕ) :=
  match o with
  | .lock n => Function.update locks n (some (i, ((locks n).map (·.2)).getD 0 + 1))
  | .unlock n => Function.update locks n ((locks n).bind fun (j, d) =>
      if d ≤ 1 then none else some (j, d - 1))
  | _ => locks

end ParkOp

/-- The registry when a step comes. -/
def Registry.later (s : Registry) (c : ParkChoice) : Registry :=
  { s with clock := s.clock + c.elapsed }

/-- The registry after a step of process `i`. -/
def Registry.next (s : Registry) (i : ℕ) (o : ParkOp) : Registry :=
  { s with
    rows := o.rowsAfter s.rows
    locks := o.locksAfter i s.locks
    evictions := s.evictions ++ o.evicts s }

def Registry.perform (i : ℕ) (o : ParkOp) (c : ParkChoice) (s : Registry) :
    Option (ParkAns o × Registry) :=
  if o.waits i s then none else some (o.answer c (s.later c), (s.later c).next i o)

/-- The locks of a process that dies are freed; the table stays. -/
def parkWorld : World ParkOp ParkAns Registry ParkChoice where
  perform := Registry.perform
  crash i s := { s with locks := fun n => (s.locks n).filter (·.1 ≠ i) }

theorem perform_eq_some {i : ℕ} {o : ParkOp} {c : ParkChoice} {s s' : Registry} {a : ParkAns o} :
    parkWorld.perform i o c s = some (a, s') ↔
      o.waits i s = false ∧ a = o.answer c (s.later c) ∧ s' = (s.later c).next i o := by
  simp only [parkWorld, Registry.perform]
  cases o.waits i s
  · rw [if_neg (by decide), Option.some.injEq, Prod.mk.injEq]
    exact ⟨fun ⟨ha, hs⟩ => ⟨rfl, ha.symm, hs.symm⟩, fun ⟨_, ha, hs⟩ => ⟨ha.symm, hs.symm⟩⟩
  · rw [if_pos rfl]
    exact ⟨nofun, nofun⟩

/-! ## The calls -/

abbrev ParkCall := Prog ParkOp ParkAns ParkErr

/-- `with lock:`. -/
def withLock {α : Type} (n : LockName) (p : ParkCall α) : ParkCall α := do
  Prog.op (ParkOp.lock n)
  p.ensure (Prog.op (ParkOp.unlock n))

/-- What `acquire` does under the lock. -/
def acquireLocked (key : String) (m : ParkManifest) : ParkCall Bool := do
  match ← Prog.op (ParkOp.lifecycleOf key) with
  | some text =>
    match Lifecycle.ofValue? text with
    | none => throw (.value text)
    | some existing =>
      if existing ≠ .releasedSoft then return false
      else
        let now ← Prog.op ParkOp.clock
        Prog.op (ParkOp.overwrite (rowOf now key m))
        return true
  | none =>
    let now ← Prog.op ParkOp.clock
    let inserted ← Prog.op (ParkOp.insert (rowOf now key m))
    if inserted then return true else throw .integrity

/-- `ParkRegistry.acquire`. -/
def acquire (key : String) (m : ParkManifest) : ParkCall Bool :=
  withLock (.park key) (acquireLocked key m)

/-- `ParkRegistry.renew`: the clock is read before the lock is taken. -/
def renew (key : String) : ParkCall Unit := do
  let now ← Prog.op ParkOp.clock
  withLock (.park key) (Prog.op (ParkOp.renew key now (now + ttlSeconds)))

/-- What `update` does under the lock. -/
def updateLocked (key : String) (m : ParkManifest) : ParkCall Unit := do
  let found ← Prog.op (ParkOp.exists key)
  if found then
    let now ← Prog.op ParkOp.clock
    Prog.op (ParkOp.overwrite (rowOf now key m))
  else
    let _ ← acquire key m
    return ()

/-- `ParkRegistry.update`. -/
def update (key : String) (m : ParkManifest) : ParkCall Unit :=
  withLock (.park key) (updateLocked key m)

/-- `ParkRegistry.delete`. -/
def delete (key : String) : ParkCall Unit := withLock (.park key) (Prog.op (ParkOp.delete key))

/-- What a soft release does under the lock. -/
def releaseLocked (key : String) : ParkCall Unit := do
  match ← Prog.op (ParkOp.manifestOf key) with
  | none => return ()
  | some d =>
    let now ← Prog.op ParkOp.clock
    Prog.op (ParkOp.markReleased key { d with lifecycle := .releasedSoft, releaseMode := "soft" } now)

/-- `ParkRegistry.release`. -/
def release (key mode : String) : ParkCall Unit :=
  if mode = "hard" then delete key else withLock (.park key) (releaseLocked key)

/-- `ParkRegistry.lookup`. -/
def lookup (key : String) : ParkCall (Option ParkManifest) := Prog.op (ParkOp.manifestOf key)

/-- What `_evict_one` does under the lock. A snapshot that cannot be written is logged. -/
def evictLocked (rule : Rule) (selected : LeaseRow) (target : Lifecycle) : ParkCall Bool := do
  match ← Prog.op (ParkOp.latestSnapshot selected.key) with
  | .error msg => throw (.snapshot msg)
  | .ok true => Prog.op (ParkOp.evict rule selected target)
  | .ok false =>
    Prog.op (ParkOp.saveSnapshot selected.key)
    Prog.op (ParkOp.evict rule selected target)

/-- `_evict_one`. -/
def evictOne (rule : Rule) (selected : LeaseRow) (target : Lifecycle) : ParkCall Bool :=
  withLock (.park selected.key) (evictLocked rule selected target)

/-- A loop of the sweep: the keys of the rows that this sweep evicted are added. -/
def evictAll (rule : Rule) : List LeaseRow → List String → ParkCall (List String)
  | [], evicted => return evicted
  | r :: rs, evicted => do
    let done ← evictOne rule r .coldResumable
    evictAll rule rs (if done then evicted ++ [r.key] else evicted)

/-- The rows beyond the limit, of those in the order of their last activity. -/
def excess (active : List LeaseRow) : List LeaseRow :=
  active.take (active.length - maxHotParked)

/-- A row that has had all its rounds. -/
def LeaseRow.overRounds (r : LeaseRow) : Bool := maxRounds ≤ r.manifest.round

/-- What `sweep` does under the lock of the sweeps. -/
def sweepLocked (now : ℤ) : ParkCall (List String) := do
  let expired ← Prog.op (ParkOp.expired now)
  let evicted ← evictAll .ttl expired []
  Prog.op (ParkOp.purgeCold now)
  let active ← Prog.op ParkOp.hotByActivity
  let evicted ← evictAll .lru (excess active) evicted
  let hot ← Prog.op ParkOp.hot
  let evicted ← evictAll .rounds (hot.filter (·.overRounds)) evicted
  Prog.op (ParkOp.purgeReleased (now - hardLimitSeconds))
  return evicted

/-- `ParkRegistry.sweep`. -/
def sweep : ParkCall (List String) := do
  let now ← Prog.op ParkOp.clock
  withLock .sweep (sweepLocked now)

/-! ## What `acquire` and `update` may call -/

/-- The steps of `acquire` and `update`. -/
def ParkOp.Stores : ParkOp → Prop
  | .lock _ | .unlock _ | .clock | .exists _ | .lifecycleOf _ | .insert _ | .overwrite _ => True
  | _ => False

theorem withLock_only {α : Type} {φ : ParkOp → Prop} {n : LockName} {p : ParkCall α} (hp : p.Only φ)
    (hl : φ (.lock n)) (hu : φ (.unlock n)) : (withLock n p).Only φ :=
  ⟨hl, fun _ => hp.ensure ((Prog.only_op _).mpr hu)⟩

theorem acquire_only (key : String) (m : ParkManifest) : (acquire key m).Only ParkOp.Stores := by
  refine withLock_only ⟨trivial, fun found => ?_⟩ trivial trivial
  cases found with
  | none =>
    refine ⟨trivial, fun now => ⟨trivial, fun inserted => ?_⟩⟩
    cases inserted <;> trivial
  | some text =>
    show Prog.Only ParkOp.Stores (match Lifecycle.ofValue? text with | none => _ | some existing => _)
    cases Lifecycle.ofValue? text with
    | none => trivial
    | some existing =>
      dsimp only
      split
      · trivial
      · exact ⟨trivial, fun now => ⟨trivial, fun _ => trivial⟩⟩

theorem update_only (key : String) (m : ParkManifest) : (update key m).Only ParkOp.Stores := by
  refine withLock_only ⟨trivial, fun found => ?_⟩ trivial trivial
  cases found with
  | false => exact (acquire_only key m).bind fun _ => trivial
  | true => exact ⟨trivial, fun now => ⟨trivial, fun _ => trivial⟩⟩

end AiMeshChat.Park
