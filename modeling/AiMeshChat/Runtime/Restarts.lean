import AiMeshChat.Runtime.Supervisor

/-!
# Restarts of a supervisor

A restart that finds the process id in the identity file dead writes the next generation,
and the gateway takes it. It goes back to the generation of the spec if the process id is
in use again, by itself or by another process; and its reports are of the generation of
the spec in any case, which is stale once the gateway has registered a restart.
-/

namespace AiMeshChat.Supervisor

open Lib Gateway

variable {spec : RuntimeSpec} {w : World} {now : ℤ} {s : GatewayState}

/-! ## Registration -/

/-- The part of a record that `runtime_register` compares. -/
def owner (r : Record) : ℤ × ℤ × String := (r.generation, r.ownerPid, r.nonce)

variable {p : RegisterParams} {roster : Option (List String)} {x : Start}

theorem register_checked
    (h : checkRegister p roster s = .ok ()) : (runtimeRegister now p roster s).1 = .ok () ∧
      (runtimeRegister now p roster s).2.runtimes.get? p.runtimeId =
        some (registered now p (s.runtimes.get? p.runtimeId)) := by
  have hid : p.runtimeId ≠ "" ∧ p.sessionId ≠ "" := by
    unfold checkRegister at h
    split at h
    · cases h
    · tauto
  have hvalid {existing : Option Record} :
      ((registered now p existing).draft "RUNTIME_STATE" (registered now p existing).createdAt
        [("state", .str "active"), ("runtime", .str p.runtime),
          ("backend_session_id", .str p.backendSessionId)]).validate = .ok () :=
    EventStore.validate_eq_ok.mpr ⟨hid, by simp [Record.draft, EVENT_KINDS], rfl⟩
  simp only [runtimeRegister, h]
  rw [EventStore.appendLocal_eq_ok.mpr ⟨hvalid, rfl, rfl⟩]
  exact ⟨rfl, Rows.get?_put_self _ _⟩

theorem register_unchecked {e : GatewayErr}
    (h : checkRegister p roster s = .error e) : runtimeRegister now p roster s = (.error e, s) := by
  simp only [runtimeRegister, h]

theorem checkRegister_ok {names : List String} (hs : p.sessionId ≠ "") (ha : p.agentId ≠ "")
    (hr : p.runtimeId ≠ "") (hmem : p.agentId ∈ names)
    (howner : checkOwner p (s.runtimes.get? p.runtimeId) = .ok ()) :
    checkRegister p (some names) s = .ok () := by
  have hids : ¬ (p.sessionId = "" ∨ p.agentId = "" ∨ p.runtimeId = "") := by tauto
  simp only [checkRegister, if_neg hids, howner, checkRoster, if_pos hmem]
  rfl

/-! ## Signs of life -/

theorem setRecord_owner {r r' : Record} {id : String} (hr : s.runtimes.get? id = some r)
    (hid : r'.runtimeId = r.runtimeId) (howner : owner r' = owner r) (runtimeId : String) :
    ((s.setRecord r').runtimes.get? runtimeId).map owner =
      (s.runtimes.get? runtimeId).map owner := by
  have hkey : r'.runtimeId = id := hid.trans (runtimeId_of_get? hr)
  have hput : (s.setRecord r').runtimes.get? runtimeId =
      if runtimeId = r'.runtimeId then some r' else s.runtimes.get? runtimeId := Rows.get?_put _ _ _
  rw [hput]
  split
  · next h => rw [h, hkey, hr, Option.map_some, Option.map_some, howner]
  · rfl

theorem lived_owner {name : String} {r : Record} : owner (r.lived now name) = owner r := by
  unfold Record.lived reduceLifecycle
  repeat' split
  all_goals rfl

theorem sign_owner (x : Sign) (runtimeId : String) :
    ((x.request.perform now s).2.runtimes.get? runtimeId).map owner =
      (s.runtimes.get? runtimeId).map owner := by
  cases x with
  | heartbeat id =>
    simp only [Sign.request, Request.perform, runtimeHeartbeat]
    split
    · rfl
    · next r hr =>
      have hkept := @setRecord_owner s r (r.beat now) id hr rfl rfl runtimeId
      split
      · rwa [GatewayState.logEvent_runtimes]
      · exact hkept
  | event d =>
    simp only [Sign.request, Request.perform, runtimeEvent]
    split
    · rfl
    · next r hr =>
      have hkept := @setRecord_owner s r (r.noted now d) d.runtimeId hr rfl rfl runtimeId
      split
      · rfl
      · split
        · rfl
        · dsimp only
          split
          · rwa [consumeTurn_runtimes]
          · exact hkept
  | lifecycle id name =>
    simp only [Sign.request, Request.perform, runtimeLifecycle]
    split
    · rfl
    · split
      · rfl
      · next r hr =>
        rw [GatewayState.logEvent_runtimes]
        exact setRecord_owner hr lived_identity.1 lived_owner runtimeId

/-! ## Generations along the starts -/

/-- What the gateway has on record for the runtime. -/
def World.recorded (spec : RuntimeSpec) (w : World) : Option (ℤ × ℤ × String) :=
  (w.gateway.runtimes.get? spec.runtimeId).map owner

/-- The identities are numbered from the generation of the spec on, and the record is
that of the one that was registered; a launch is recorded without an owner. -/
structure Numbered (spec : RuntimeSpec) (w : World) : Prop where
  unwritten : w.identity = none → w.written = 0
  file : ∀ i, w.identity = some i → i.runtimeId = spec.runtimeId ∧ i.ownerPid ≠ 0 ∧
    0 < w.written ∧ i.generation + 1 = spec.generation + w.written
  behind : w.registered ≤ w.written
  unowned : w.registered = 0 → ∀ o, w.recorded spec = some o → o = (spec.generation, 0, "")
  owned : 0 < w.registered → ∃ o, w.recorded spec = some o ∧
    o.1 + 1 = spec.generation + w.registered ∧
    (w.registered = w.written → ∀ i, w.identity = some i → o.2 = (i.ownerPid, i.nonce))

theorem main_identity {old : Option LauncherIdentity} {i : LauncherIdentity}
    (h : (main spec x old).1 = some i) : i = launcherIdentity spec x old := by
  unfold main at h
  split at h
  · cases h
  · split at h
    · cases h
    · dsimp only at h
      split at h
      · cases h
      · exact (Option.some.inj h).symm

theorem succession_dead {old : LauncherIdentity} (hpid : old.ownerPid ≠ 0)
    (h : old.ownerPid ≠ x.pid ∧ x.gone old.ownerPid = true) :
    succession spec x (some old) = (old.generation + 1, x.secondHex) := by
  have hbump : old.ownerPid ≠ 0 ∧ old.ownerPid ≠ x.pid ∧ x.gone old.ownerPid = true := ⟨hpid, h⟩
  simp only [succession, if_pos hbump]

theorem succession_in_use {old : LauncherIdentity}
    (h : ¬ (old.ownerPid ≠ x.pid ∧ x.gone old.ownerPid = true)) :
    (succession spec x (some old)).1 = spec.generation := by
  have hkeep : ¬ (old.ownerPid ≠ 0 ∧ old.ownerPid ≠ x.pid ∧ x.gone old.ownerPid = true) := by tauto
  simp only [succession, if_neg hkeep]

theorem Numbered.checkOwner {i : LauncherIdentity} (h : Numbered spec w) (hi : w.identity = some i)
    (p : Plugin) :
    checkOwner (i.params p) (w.gateway.runtimes.get? (i.params p).runtimeId) = .ok () := by
  obtain ⟨hid, -, hpos, hgen⟩ := h.file i hi
  have hid' : (i.params p).runtimeId = spec.runtimeId := hid
  rw [hid']
  cases hr : w.gateway.runtimes.get? spec.runtimeId with
  | none => rfl
  | some r =>
    have hrec : w.recorded spec = some (owner r) := by rw [World.recorded, hr, Option.map_some]
    have hbehind := h.behind
    have hok : ¬ (i.params p).generation < r.generation ∧
        ¬ ((i.params p).generation = r.generation ∧ (r.ownerPid ≠ 0 ∨ r.nonce ≠ "") ∧
          (r.ownerPid ≠ (i.params p).ownerPid ∨ r.nonce ≠ (i.params p).nonce)) := by
      show ¬ i.generation < r.generation ∧ ¬ (i.generation = r.generation ∧
        (r.ownerPid ≠ 0 ∨ r.nonce ≠ "") ∧ (r.ownerPid ≠ i.ownerPid ∨ r.nonce ≠ i.nonce))
      rcases Nat.eq_zero_or_pos w.registered with hzero | hreg
      · have hown := h.unowned hzero _ hrec
        simp only [owner, Prod.mk.injEq] at hown
        obtain ⟨hgen', hpid, hnonce⟩ := hown
        exact ⟨by omega, fun ⟨_, hset, _⟩ => hset.elim (absurd hpid) (absurd hnonce)⟩
      · obtain ⟨o, ho, hgen', hsame⟩ := h.owned hreg
        cases hrec.symm.trans ho
        have hgen'' : r.generation + 1 = spec.generation + w.registered := hgen'
        refine ⟨by omega, fun ⟨heq, _, hdiff⟩ => ?_⟩
        -- the same generation: it is this identity that is on record
        have hown := hsame (by omega) i hi
        simp only [owner, Prod.mk.injEq] at hown
        exact hdiff.elim (absurd hown.1) (absurd hown.2)
    simp only [Gateway.checkOwner, if_neg hok.1, if_neg hok.2]

theorem Numbered.of_recorded {w' : World} (h : Numbered spec w) (hi : w'.identity = w.identity)
    (hw : w'.written = w.written) (hr : w'.registered = w.registered)
    (hrec : w'.recorded spec = w.recorded spec) : Numbered spec w' where
  unwritten := by rw [hi, hw]; exact h.unwritten
  file := by rw [hi, hw]; exact h.file
  behind := by rw [hr, hw]; exact h.behind
  unowned := by rw [hr, hrec]; exact h.unowned
  owned := by rw [hr, hw, hrec, hi]; exact h.owned

theorem Numbered.start (h : Numbered spec w) (hx : w.Sound spec (.start x)) :
    Numbered spec (w.step spec (.start x)) := by
  cases hmain : main spec x w.identity with
  | mk new reports =>
    cases new with
    | none =>
      simp only [World.step, hmain]
      exact h.of_recorded rfl rfl rfl rfl
    | some i =>
      have hfst : (main spec x w.identity).1 = some i := congrArg Prod.fst hmain
      have hi : i = launcherIdentity spec x w.identity := main_identity hfst
      have hgen : i.generation + 1 = spec.generation + (w.written + 1 : ℕ) := by
        have hsucc : i.generation = (succession spec x w.identity).1 := by rw [hi]; rfl
        rw [hsucc]
        cases hold : w.identity with
        | none =>
          have hzero := h.unwritten hold
          have hfirst : (succession spec x none).1 = spec.generation := rfl
          omega
        | some old =>
          obtain ⟨-, hpid, -, hnum⟩ := h.file old hold
          have hdead := hx old hold (by rw [hfst]; exact Option.some_ne_none i)
          rw [succession_dead hpid hdead]
          push_cast
          omega
      have hpos := x.pid_pos
      have hbehind := h.behind
      simp only [World.step, hmain]
      constructor
      · exact nofun
      · rintro _ ⟨⟩
        refine ⟨by rw [hi]; rfl, ?_, Nat.succ_pos _, hgen⟩
        rw [hi]
        show (x.pid : ℤ) ≠ 0
        omega
      · show w.registered ≤ w.written + 1
        omega
      · exact h.unowned
      · intro hreg
        obtain ⟨o, ho, hnum, -⟩ := h.owned hreg
        refine ⟨o, ho, hnum, fun heq => ?_⟩
        have heq' : w.registered = w.written + 1 := heq
        omega

theorem Numbered.register {p : Plugin} (h : Numbered spec w) :
    Numbered spec (w.step spec (.register now p roster)) := by
  cases hi : w.identity with
  | none =>
    simp only [World.step, hi]
    exact h
  | some i =>
    obtain ⟨hid, hpid, hpos, hgen⟩ := h.file i hi
    cases hcheck : checkRegister (i.params p) roster w.gateway with
    | error e =>
      simp only [World.step, hi, register_unchecked hcheck]
      exact h.of_recorded hi.symm rfl rfl rfl
    | ok u =>
      obtain ⟨hok, hget⟩ := @register_checked now w.gateway (i.params p) roster hcheck
      cases hout : runtimeRegister now (i.params p) roster w.gateway with
      | mk answer g =>
        rw [hout] at hok hget
        cases hok
        have hkey : (i.params p).runtimeId = spec.runtimeId := hid
        have hrec : (g.runtimes.get? spec.runtimeId).map owner =
            some (i.generation, i.ownerPid, i.nonce) := by
          rw [← hkey, hget]
          rfl
        simp only [World.step, hi, hout]
        constructor
        · exact fun hnone => h.unwritten (hi.trans hnone)
        · exact fun i' hi' => h.file i' (hi.trans hi')
        · exact le_refl _
        · intro hzero
          have hzero' : w.written = 0 := hzero
          omega
        · refine fun _ => ⟨_, hrec, hgen, fun _ i' hi' => ?_⟩
          cases Option.some.inj hi'
          rfl

theorem Numbered.step {a : Step} (h : Numbered spec w) (ha : w.Sound spec a) :
    Numbered spec (w.step spec a) := by
  cases a with
  | start x => exact h.start ha
  | report now =>
    cases htodo : w.todo with
    | nil =>
      simp only [World.step, htodo]
      exact h
    | cons r todo =>
      simp only [World.step, htodo]
      split
      · exact h.of_recorded rfl rfl rfl rfl
      · exact h.of_recorded rfl rfl rfl (sign_owner (.event (reportDraft spec now r)) _)
  | register now p roster => exact h.register
  | spawn now p backendSessionId hostAlias =>
    have hget := Rows.get?_put_self w.gateway.runtimes
      (spawned now p ⟨spec.runtimeId, spec.generation, backendSessionId, hostAlias⟩)
    refine ⟨h.unwritten, h.file, Nat.zero_le _, fun _ o ho => ?_, fun hpos => absurd hpos (lt_irrefl 0)⟩
    have hrec : (w.step spec (.spawn now p backendSessionId hostAlias)).recorded spec =
        some (spec.generation, 0, "") := congrArg (Option.map owner) hget
    exact (Option.some.inj (hrec.symm.trans ho)).symm
  | forget =>
    refine ⟨h.unwritten, h.file, Nat.zero_le _, fun _ o ho => ?_, fun hpos => absurd hpos (lt_irrefl 0)⟩
    have hget := Rows.get?_delete_key w.gateway.runtimes spec.runtimeId spec.runtimeId
    rw [if_pos rfl] at hget
    have hrec : (w.step spec .forget).recorded spec = none := congrArg (Option.map owner) hget
    cases hrec.symm.trans ho
  | sign now x => exact h.of_recorded rfl rfl rfl (sign_owner x _)

/-! ## What is promised -/

theorem Numbered.start_valid_iff (h : Numbered spec w) :
    w.Valid spec (.start x) ↔ w.Sound spec (.start x) := by
  constructor
  · intro hvalid old hold hwrites
    obtain ⟨i, hi⟩ := Option.ne_none_iff_exists'.mp hwrites
    have hlt := hvalid old hold i hi
    obtain ⟨-, -, hpos, hnum⟩ := h.file old hold
    by_contra huse
    have hgen : i.generation = spec.generation := by
      rw [main_identity hi]
      show (succession spec x w.identity).1 = _
      rw [hold]
      exact succession_in_use huse
    omega
  · intro hsound old hold i hi
    obtain ⟨-, hpid, -, -⟩ := h.file old hold
    have hdead := hsound old hold (hi ▸ Option.some_ne_none i)
    have hgen : i.generation = old.generation + 1 := by
      rw [main_identity hi]
      show (succession spec x w.identity).1 = _
      rw [hold, succession_dead hpid hdead]
    omega

theorem Numbered.report_valid_iff (h : Numbered spec w) :
    w.Valid spec (.report now) ↔ w.Sound spec (.report now) := by
  have hmatch : (∀ record ∈ w.gateway.runtimes.get? spec.runtimeId,
      spec.generation = record.generation) ↔ w.registered ≤ 1 := by
    constructor
    · intro hall
      by_contra hmany
      obtain ⟨o, ho, hnum, -⟩ := h.owned (by omega)
      obtain ⟨r, hr, rfl⟩ := Option.map_eq_some_iff.mp ho
      have heq := hall r hr
      have hnum' : r.generation + 1 = spec.generation + w.registered := hnum
      omega
    · intro hle r hr
      have hrec : w.recorded spec = some (owner r) := by
        rw [World.recorded, Option.mem_def.mp hr, Option.map_some]
      rcases Nat.eq_zero_or_pos w.registered with hzero | hpos
      · exact (congrArg Prod.fst (h.unowned hzero _ hrec)).symm
      · obtain ⟨o, ho, hnum, -⟩ := h.owned hpos
        cases hrec.symm.trans ho
        have hnum' : r.generation + 1 = spec.generation + w.registered := hnum
        omega
  show (∀ r ∈ w.todo.head?, ∀ record ∈ w.gateway.runtimes.get? spec.runtimeId,
    spec.generation = record.generation) ↔ (w.todo ≠ [] → w.registered ≤ 1)
  rw [← hmatch]
  cases htodo : w.todo with
  | nil => simp
  | cons r todo => simp

theorem Numbered.register_valid {p : Plugin}
    (h : Numbered spec w) : w.Valid spec (.register now p roster) := by
  intro i hi hsession hagent hruntime hmem hroster
  obtain ⟨names, rfl⟩ := Option.ne_none_iff_exists'.mp hroster
  have hchecked : checkRegister (i.params p) (some names) w.gateway = .ok () :=
    checkRegister_ok hsession hagent hruntime (hmem names rfl) (h.checkOwner hi p)
  exact (register_checked hchecked).1

theorem Numbered.valid_iff (h : Numbered spec w) (a : Step) : w.Valid spec a ↔ w.Sound spec a := by
  cases a with
  | start x => exact h.start_valid_iff
  | report now => exact h.report_valid_iff
  | register now p roster => exact ⟨fun _ => trivial, fun _ => h.register_valid⟩
  | spawn | forget | sign => exact Iff.rfl

theorem numbered_new (hnew : s.runtimes.get? spec.runtimeId = none) :
    Numbered spec { gateway := s } where
  unwritten _ := rfl
  file := nofun
  behind := le_refl 0
  unowned _ o ho := by
    have hnone : World.recorded spec { gateway := s } = none := congrArg (Option.map owner) hnew
    cases hnone.symm.trans ho
  owned hpos := absurd hpos (lt_irrefl 0)

/-- **Along the starts from one spec file, of a runtime that is new to the gateway, the
generations increase, the gateway accepts each identity and hears of no other generation
than the registered one, exactly if no start finds the process id in the file in use and
nothing is reported while the identity of a restart is registered.** -/
theorem restarts_valid_iff (spec : RuntimeSpec) (s : GatewayState) (steps : List Step)
    (hnew : s.runtimes.get? spec.runtimeId = none) :
    History.Admits (World.step spec) (World.Valid spec) { gateway := s } steps ↔
      History.Admits (World.step spec) (World.Sound spec) { gateway := s } steps :=
  History.admits_congr (fun _ a h => h.valid_iff a) (fun _ _ h ha => h.step ha) (numbered_new hnew)

def reviewer : RuntimeSpec where
  runtimeId := "omp-1"
  sessionId := "s"
  agentId := "a"
  gatewaySocket := "/run/gateway.sock"
  nonce := "n1"

/-- A supervisor of the process id whose agent runs under the next one; only what is in
`alive` can be signalled. -/
def startOf (pid : ℕ) (pid_pos : 0 < pid) (alive : List ℤ) (hex : String) : Start where
  pid := pid
  pid_pos := pid_pos
  gone p := p ∉ alive
  firstHex := hex
  secondHex := hex
  popen := .ok (pid + 1)

def quietGateway : GatewayState := { events := { sourceHost := "h" } }

theorem restarts_valid_iff_two :
    History.Admits (World.step reviewer) (World.Valid reviewer) { gateway := quietGateway }
      [.start (startOf 10 (by decide) [] "x"), .report 0, .register 1 {} (some ["a"]),
        .start (startOf 20 (by decide) [] "y"), .register 2 {} (some ["a"])] ↔
    History.Admits (World.step reviewer) (World.Sound reviewer) { gateway := quietGateway }
      [.start (startOf 10 (by decide) [] "x"), .report 0, .register 1 {} (some ["a"]),
        .start (startOf 20 (by decide) [] "y"), .register 2 {} (some ["a"])] :=
  restarts_valid_iff reviewer quietGateway _ rfl

/-- A restart is registered and reports that its agent runs, as of the generation of the
spec; and a start that finds its own process id in the file writes that generation again. -/
theorem restart_reports_stale :
    ¬ History.Admits (World.step reviewer) (World.Valid reviewer) { gateway := quietGateway }
      [.start (startOf 10 (by decide) [] "x"), .register 1 {} (some ["a"]),
        .start (startOf 20 (by decide) [] "y"), .register 2 {} (some ["a"]), .report 3] ∧
    ¬ History.Admits (World.step reviewer) (World.Valid reviewer) { gateway := quietGateway }
      [.start (startOf 10 (by decide) [] "x"), .start (startOf 10 (by decide) [] "y")] := by
  constructor
  · rintro ⟨-, -, -, -, hreport, -⟩
    have hall : ∀ record ∈ ((History.after (World.step reviewer) { gateway := quietGateway }
        [.start (startOf 10 (by decide) [] "x"), .register 1 {} (some ["a"]),
          .start (startOf 20 (by decide) [] "y"), .register 2 {} (some ["a"])]).gateway.runtimes.get?
        "omp-1"), (1 : ℤ) = record.generation := hreport _ rfl
    revert hall
    decide +kernel
  · rintro ⟨-, hstart, -⟩
    have hlt : (1 : ℤ) < 1 := hstart _ rfl _ rfl
    exact absurd hlt (by decide)

end AiMeshChat.Supervisor
