import AiMeshChat.Kernel.State

/-!
# Several kernels on one root

Every process has a kernel of its own, loaded when it starts. `register` and `unregister`
rewrite the routing table in `swarm-meta.json` under its lock, so each call reads and
writes the table in one step. But a kernel writes every location that it remembers, and not
only the one that changed, so what another kernel has done since it was loaded is undone.

`routing_kept_iff`: the table follows the calls at every point of a run exactly when no call
finds another agent's location changed behind its kernel's back.
-/

namespace AiMeshChat.Kernel

open Mailbox (sortedSet)

/-- The kernels of all processes and the root they share. -/
structure Shared where
  kernels : ℕ → Mem
  disk : Disk

/-- A process starts, or its kernel registers or unregisters an agent. -/
inductive Event
  | load (i : ℕ)
  | register (i : ℕ) (loc : AgentLocation) (sid token now : String)
  | unregister (i : ℕ) (sid aid : String)

/-- The state of process `i` alone. -/
def Shared.state (s : Shared) (i : ℕ) : State := ⟨s.kernels i, s.disk⟩

/-- The state after process `i` did something. -/
def Shared.put (s : Shared) (i : ℕ) (st : State) : Shared :=
  ⟨Function.update s.kernels i st.mem, st.disk⟩

def Event.run (s : Shared) : Event → Shared
  | .load i => s.put i ⟨Kernel.load s.disk, s.disk⟩
  | .register i loc sid token now => s.put i (Kernel.register (s.state i) loc sid token now).2
  | .unregister i sid aid => s.put i (Kernel.unregister (s.state i) sid aid).2

def Shared.run (s : Shared) (es : List Event) : Shared := es.foldl Event.run s

/-- The routing tables of all sessions. -/
abbrev Tables := String → Dict RouteEntry

/-- The tables as `swarm-meta.json` has them. -/
def tables (disk : Disk) : Tables := fun sid =>
  ((disk sid).swarmMeta.map (·.routing)).getD Dict.empty

/-- `swarm-meta.json` can be written: no agent's directory is in its place. -/
def writable (disk : Disk) (sid : String) : Bool := META_FILE ∉ (disk sid).dirs

/-- A change of one agent's location. -/
structure Change where
  sid : String
  aid : String
  loc : Option AgentLocation

def Change.apply (t : Tables) (c : Change) : Tables :=
  Function.update t c.sid (Function.update (t c.sid) c.aid (c.loc.map AgentLocation.entry))

/-- The change that a call asks for, unless it is refused. -/
def Event.change? (s : Shared) : Event → Option Change
  | .load _ => none
  | .register i loc sid token _ =>
    match checkRegister (s.kernels i) loc sid token with
    | .ok _ => if writable s.disk sid then some ⟨sid, loc.agentId, some loc⟩ else none
    | .error _ => none
  | .unregister i sid aid =>
    match requireSession (s.kernels i) sid with
    | .ok _ => if writable s.disk sid then some ⟨sid, aid, none⟩ else none
    | .error _ => none

/-- The process that an event is one of. -/
def Event.process : Event → ℕ
  | .load i => i
  | .register i .. => i
  | .unregister i .. => i

/-- The tables that the calls of a run ask for: for each agent what the last call on it
said. -/
def lastCalls (s : Shared) (t : Tables) : List Event → Tables
  | [] => t
  | e :: es => lastCalls (e.run s) ((e.change? s).elim t (Change.apply t)) es

/-- What the kernel remembers of other agents is what the table has. -/
def Event.UpToDate (s : Shared) (e : Event) : Prop :=
  ∀ c, e.change? s = some c → ∀ aid, aid ≠ c.aid → ∀ loc,
    (s.kernels e.process).routing c.sid aid = some loc → tables s.disk c.sid aid = some loc.entry

/-- Every call of the run finds its kernel up to date. -/
def AllUpToDate : Shared → List Event → Prop
  | _, [] => True
  | s, e :: es => e.UpToDate s ∧ AllUpToDate (e.run s) es

/-! ## What a call does to the table -/

theorem ensureAgentDirs_swarmMeta (agents : List String) (d : SessionDir) :
    (ensureAgentDirs d agents).2.swarmMeta = d.swarmMeta := by
  induction agents generalizing d with
  | nil => rfl
  | cons aid rest ih =>
    rw [ensureAgentDirs]
    split
    · rfl
    · rw [ih]

theorem writeManifest_swarmMeta (d : SessionDir) (m : Manifest) :
    (writeManifest d m).2.swarmMeta = d.swarmMeta := by
  unfold writeManifest
  split <;> rfl

theorem mergeSession_swarmMeta (d : SessionDir) (m : Manifest) (a : InitArgs) :
    (mergeSession d m a).2.swarmMeta = d.swarmMeta := by
  have hdirs := ensureAgentDirs_swarmMeta (m.added a) d
  unfold mergeSession
  dsimp only
  split
  · rfl
  · split
    · rfl
    · split
      · next he => rw [he] at hdirs; exact hdirs
      · next d' he =>
        rw [he] at hdirs
        have hwrite := writeManifest_swarmMeta d' (m.merge a)
        split
        · next hw => rw [hw] at hwrite; exact hwrite.trans hdirs
        · next hw => rw [hw] at hwrite; exact hwrite.trans hdirs

theorem freshSession_swarmMeta (d : SessionDir) (a : InitArgs) (now : String) :
    (freshSession d a now).2.swarmMeta = d.swarmMeta := by
  unfold freshSession
  split
  · next hw =>
    have hwrite := congrArg (fun x => x.2.swarmMeta) hw
    exact hwrite.symm.trans (writeManifest_swarmMeta d _)
  · next d' hw =>
    have hwrite := (congrArg (fun x => x.2.swarmMeta) hw).symm.trans (writeManifest_swarmMeta d _)
    have hdirs := ensureAgentDirs_swarmMeta (sortedSet a.agentIds ++ [a.managerId]) d'
    split
    · next he => rw [he] at hdirs; exact hdirs.trans hwrite
    · next he => rw [he] at hdirs; exact hdirs.trans hwrite

/-- `session_init` leaves `swarm-meta.json` alone. -/
theorem sessionInit_swarmMeta (disk : Disk) (a : InitArgs) (now sid : String) :
    ((sessionInit disk a now).2 sid).swarmMeta = (disk sid).swarmMeta := by
  unfold sessionInit
  split
  · rfl
  · dsimp only
    by_cases he : sid = a.sessionId
    · subst he
      rw [Function.update_self]
      split
      · exact mergeSession_swarmMeta _ _ _
      · exact freshSession_swarmMeta _ _ _
    · rw [Function.update_of_ne he]

theorem tables_congr {d d' : Disk} (h : ∀ sid, (d sid).swarmMeta = (d' sid).swarmMeta) :
    tables d = tables d' := by
  funext sid
  simp only [tables, h]

/-- The table after `_persist_routing`. -/
theorem persistRouting_tables (k : Mem) (disk : Disk) (sid : String) (deleted : Option String) :
    tables (persistRouting k disk sid deleted).2 =
      if writable disk sid then
        Function.update (tables disk) sid
          (routingAfter (k.routing sid) deleted (tables disk sid))
      else tables disk := by
  funext sid'
  unfold persistRouting persistMeta tables writable
  by_cases hmeta : META_FILE ∈ (disk sid).dirs
  · simp [hmeta]
  · by_cases he : sid' = sid
    · subst he
      simp only [hmeta, if_false, not_false_eq_true, decide_true, if_true, Function.update_self,
        Option.map_some, Option.getD_some]
      cases (disk sid').swarmMeta with
      | none => rfl
      | some m => rfl
    · simp [hmeta, Function.update_of_ne he]

/-- A call that passes its checks leaves the table that `_persist_routing` writes. -/
theorem register_tables {st : State} {loc : AgentLocation} {sid token : String} {s : Session}
    (now : String) (h : checkRegister st.mem loc sid token = .ok s) :
    tables (register st loc sid token now).2.disk =
      tables (persistRouting (st.mem.setLocation sid loc.agentId (some loc)) st.disk sid none).2 := by
  unfold register
  rw [h]
  dsimp only
  split
  · next hp => rw [hp]
  · next disk hp =>
    rw [hp]
    split
    · rfl
    · have hinit := sessionInit_swarmMeta disk (modesInit sid s loc) now
      split
      · next hq => rw [hq] at hinit; exact tables_congr hinit
      · next hq => rw [hq] at hinit; exact tables_congr hinit

theorem unregister_tables {st : State} {sid : String} {s : Session} (aid : String)
    (h : requireSession st.mem sid = .ok s) :
    tables (unregister st sid aid).2.disk =
      tables (persistRouting (st.mem.setLocation sid aid none) st.disk sid (some aid)).2 := by
  unfold unregister
  rw [h]

theorem routingAfter_change (known : Dict AgentLocation) (routing : Dict RouteEntry)
    (aid : String) (loc : Option AgentLocation) :
    routingAfter (Function.update known aid loc) (if loc.isSome then none else some aid) routing =
      Function.update (routing.update fun a => (known a).map AgentLocation.entry) aid
        (loc.map AgentLocation.entry) := by
  funext a
  cases loc with
  | none =>
    by_cases he : a = aid
    · subst he
      simp [routingAfter, Dict.pop]
    · simp [routingAfter, Dict.pop, Dict.update, Function.update_of_ne he]
  | some l =>
    by_cases he : a = aid
    · subst he
      simp [routingAfter, Dict.update]
    · simp [routingAfter, Dict.update, Function.update_of_ne he]

/-- **What an event does to the tables**: nothing, or the change that it asks for, over the
table with everything the kernel remembers put in. -/
theorem tables_run (s : Shared) (e : Event) :
    tables (e.run s).disk = match e.change? s with
      | none => tables s.disk
      | some c => c.apply (Function.update (tables s.disk) c.sid ((tables s.disk c.sid).update
          fun a => ((s.kernels e.process).routing c.sid a).map AgentLocation.entry)) := by
  have hset (i : ℕ) (sid aid : String) (loc : Option AgentLocation) :
      ((s.kernels i).setLocation sid aid loc).routing sid =
        Function.update ((s.kernels i).routing sid) aid loc := Function.update_self ..
  cases e with
  | load i => rfl
  | register i loc sid token now =>
    cases hcheck : checkRegister (s.kernels i) loc sid token with
    | error err =>
      have hrun : (Event.register i loc sid token now).run s = s.put i (s.state i) := by
        simp only [Event.run, register, Shared.state, hcheck]
      simp only [hrun, Event.change?, hcheck]
      rfl
    | ok st =>
      show tables (register (s.state i) loc sid token now).2.disk = _
      rw [register_tables now hcheck, persistRouting_tables]
      simp only [Event.change?, hcheck]
      show (if writable s.disk sid then _ else tables s.disk) = _
      by_cases hw : writable s.disk sid = true
      · have hafter := routingAfter_change ((s.kernels i).routing sid) (tables s.disk sid)
          loc.agentId (some loc)
        simp only [hw, if_true, Change.apply, Function.update_self, Function.update_idem, Shared.state, hset]
        exact congrArg _ hafter
      · simp only [hw]
        rfl
  | unregister i sid aid =>
    cases hreq : requireSession (s.kernels i) sid with
    | error err =>
      have hrun : (Event.unregister i sid aid).run s = s.put i (s.state i) := by
        simp only [Event.run, unregister, Shared.state, hreq]
      simp only [hrun, Event.change?, hreq]
      rfl
    | ok st =>
      show tables (unregister (s.state i) sid aid).2.disk = _
      rw [unregister_tables aid hreq, persistRouting_tables]
      simp only [Event.change?, hreq]
      show (if writable s.disk sid then _ else tables s.disk) = _
      by_cases hw : writable s.disk sid = true
      · have hafter := routingAfter_change ((s.kernels i).routing sid) (tables s.disk sid) aid none
        simp only [hw, if_true, Change.apply, Function.update_self, Function.update_idem, Shared.state, hset]
        exact congrArg _ hafter
      · simp only [hw]
        rfl

/-! ## The table follows the calls -/

/-- One event: the tables are those that its call asks for exactly when its kernel was up to
date. -/
theorem follows_iff_upToDate (s : Shared) (e : Event) :
    tables (e.run s).disk = (e.change? s).elim (tables s.disk) (Change.apply (tables s.disk)) ↔
      e.UpToDate s := by
  rw [tables_run]
  unfold Event.UpToDate
  cases hc : e.change? s with
  | none => simp
  | some c =>
    simp only [Option.elim_some, Option.some.injEq, forall_eq']
    constructor
    · intro h aid hne loc hloc
      have haid := congrFun (congrFun h c.sid) aid
      simp only [Change.apply, Function.update_self, Function.update_of_ne hne, Dict.update, hloc,
        Option.map_some, Option.some_or] at haid
      exact haid.symm
    · intro h
      funext sid aid
      by_cases hsid : sid = c.sid
      · subst hsid
        simp only [Change.apply, Function.update_self]
        by_cases haid : aid = c.aid
        · subst haid
          simp only [Function.update_self]
        · simp only [Function.update_of_ne haid, Dict.update]
          cases hloc : (s.kernels e.process).routing c.sid aid with
          | none => rfl
          | some loc => exact (h aid haid loc hloc).symm
      · simp only [Change.apply, Function.update_of_ne hsid]

theorem routing_kept_from {s : Shared} {t : Tables} (ht : tables s.disk = t) (es : List Event) :
    (∀ n, tables (s.run (es.take n)).disk = lastCalls s t (es.take n)) ↔ AllUpToDate s es := by
  induction es generalizing s t with
  | nil =>
    refine ⟨fun _ => trivial, fun _ n => ?_⟩
    rw [List.take_nil]
    exact ht
  | cons e es ih =>
    subst ht
    constructor
    · intro h
      have hone : e.UpToDate s := by
        rw [← follows_iff_upToDate]
        exact h 1
      refine ⟨hone, (ih ((follows_iff_upToDate s e).mpr hone)).mp fun n => ?_⟩
      exact h (n + 1)
    · rintro ⟨hone, hrest⟩ n
      cases n with
      | zero => rfl
      | succ n => exact (ih ((follows_iff_upToDate s e).mpr hone)).mpr hrest n

/-- **The table follows the calls at every point of a run if and only if every call finds
its kernel up to date**: what the kernel remembers of the other agents of the session is
what the table has. -/
theorem routing_kept_iff (s : Shared) (es : List Event) :
    (∀ n, tables (s.run (es.take n)).disk = lastCalls s (tables s.disk) (es.take n)) ↔
      AllUpToDate s es :=
  routing_kept_from rfl es

/-! ### A stale kernel -/

/-- Two kernels, loaded from a session with two workers. -/
def twoKernels : Shared :=
  let st := (createSession ⟨load fun _ => {}, fun _ => {}⟩
    { sessionId := "s1", managerId := "m", roster := ["w1", "w2"] } "").2
  ⟨fun _ => load st.disk, st.disk⟩

/-- The second kernel has seen the first host of `w1`, and registers `w2` after the first
kernel has moved `w1` to another host. -/
def staleRun : List Event :=
  [.register 0 ⟨"w1", "host-a", "cli", none, "", none⟩ "s1" "" "",
    .load 1,
    .register 0 ⟨"w1", "host-b", "cli", none, "", none⟩ "s1" "" "",
    .register 1 ⟨"w2", "host-c", "cli", none, "", none⟩ "s1" "" ""]

/-- The move of `w1` is undone. -/
theorem stale_kernel_undoes : ¬ ∀ (s : Shared) (es : List Event),
    tables (s.run es).disk = lastCalls s (tables s.disk) es := by
  intro h
  have hw := congrFun (congrFun (h twoKernels staleRun) "s1") "w1"
  have hhost : ((tables (twoKernels.run staleRun).disk "s1" "w1").map (·.hostAlias)) = some "host-a" := by
    decide +kernel
  have hlast : ((lastCalls twoKernels (tables twoKernels.disk) staleRun "s1" "w1").map (·.hostAlias)) =
      some "host-b" := by
    decide +kernel
  rw [hw, hlast] at hhost
  exact absurd hhost (by decide)

end AiMeshChat.Kernel
