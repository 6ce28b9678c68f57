import AiMeshChat.Gateway.Commands
import AiMeshChat.Lib.History
import AiMeshChat.Lib.Rows

/-!
# Claims of roles

`session_claim`, `session_release` and the part of `_sweep_once` that prunes expired claims.
The dict of the claims has strings for keys, `session:agent`, so two roles may share one; and
a release that names no owner is not checked.

`claims_kept` says that a claim is exclusive, and that roles do not touch each other, in
every run where neither comes up.
-/

namespace AiMeshChat.Gateway

open Lib

/-! ## The calls -/

/-- An agent of a session. -/
structure AgentRole where
  sessionId : String
  agentId : String
  deriving DecidableEq

/-- `f"{session_id}:{agent_id}"`. -/
def AgentRole.key (r : AgentRole) : String := r.sessionId ++ ":" ++ r.agentId

/-- An entry of `_claims`, under its key. The role it was made for is not in the dict, and
nothing reads it. -/
structure Claim where
  key : String
  owner : String
  claimedAt : ℤ
  expiresAt : ℤ
  role : AgentRole

abbrev Claims := Rows String Claim Claim.key

/-- The parameters of `session_claim`; `ttlText` is how Python prints the `ttl`. -/
structure ClaimParams where
  role : AgentRole
  owner : String
  ttl : ℤ := 3600 * second
  ttlText : String := "3600.0"

inductive ClaimAnswer
  | claimed (role : AgentRole) (owner : String) (expiresAt : ℤ)
  | released (role : AgentRole)
  | noClaim
  deriving DecidableEq

def CLAIM_TTL_MAX : ℤ := 86400

/-- A time in whole seconds, as `:.0f` prints it. -/
def wholeSeconds (t : ℤ) : ℤ :=
  let n := t / second
  let rest := 2 * (t % second)
  if rest < second ∨ rest = second ∧ n % 2 = 0 then n else n + 1

/-- What `session_claim` checks before it takes the lock. -/
def checkClaim (p : ClaimParams) : Except GatewayErr Unit :=
  if p.role.sessionId = "" ∨ p.role.agentId = "" ∨ p.owner = "" then
    throw (.gateway .protocol "session.claim requires session_id/agent_id/owner" (.obj []))
  else if p.ttl ≤ 0 ∨ CLAIM_TTL_MAX * second < p.ttl then
    throw (.gateway .protocol ("session.claim ttl must be in (0, " ++ toString CLAIM_TTL_MAX ++
      "]; got " ++ p.ttlText) (.obj []))
  else return ()

/-- `session_claim`. -/
def sessionClaim (now : ℤ) (p : ClaimParams) (t : Claims) :
    Except GatewayErr ClaimAnswer × Claims :=
  match checkClaim p with
  | .error e => (.error e, t)
  | .ok () =>
    let granted : Except GatewayErr ClaimAnswer × Claims :=
      (.ok (.claimed p.role p.owner (now + p.ttl)),
        t.put ⟨p.role.key, p.owner, now, now + p.ttl, p.role⟩)
    match t.get? p.role.key with
    | none => granted
    | some existing =>
      if existing.owner ≠ p.owner ∧ now < existing.expiresAt then
        (.error (.gateway .protocolConflict ("role " ++ p.role.agentId ++ " in " ++
          p.role.sessionId ++ " already claimed by " ++ existing.owner ++ " until " ++
          toString (wholeSeconds existing.expiresAt)) (.obj [])), t)
      else granted

/-- `session_release`. -/
def sessionRelease (role : AgentRole) (owner : String) (t : Claims) :
    Except GatewayErr ClaimAnswer × Claims :=
  match t.get? role.key with
  | none => (.ok .noClaim, t)
  | some existing =>
    if owner ≠ "" ∧ existing.owner ≠ owner then
      (.error (.gateway .notAuthorized ("claim owned by " ++ existing.owner ++ ", not " ++ owner)
        (.obj [])), t)
    else (.ok (.released role), t.delete (·.key = role.key))

/-- The claims after `_sweep_once`. -/
def sweepClaims (now : ℤ) (t : Claims) : Claims := t.delete (·.expiresAt ≤ now)

inductive ClaimCall
  | claim (p : ClaimParams)
  | release (role : AgentRole) (owner : String)
  | sweep

/-- The role that a call is about. -/
def ClaimCall.role? : ClaimCall → Option AgentRole
  | claim p => some p.role
  | release role _ => some role
  | sweep => none

/-- The answer of a call, none for a sweep, and the claims after it. -/
def ClaimCall.perform (now : ℤ) (c : ClaimCall) (t : Claims) :
    Option (Except GatewayErr ClaimAnswer) × Claims :=
  match c with
  | .claim p =>
    let (r, t) := sessionClaim now p t
    (some r, t)
  | .release role owner =>
    let (r, t) := sessionRelease role owner t
    (some r, t)
  | .sweep => (none, sweepClaims now t)

namespace Claims

/-! ## Runs -/

/-- A call at its time. -/
def step (t : Claims) (x : ℤ × ClaimCall) : Claims := (x.2.perform x.1 t).2

def run (t : Claims) (calls : List (ℤ × ClaimCall)) : Claims := History.after step t calls

/-- The call finds no entry of another role under its key, and a release that names no owner
finds no claim in force. -/
def Meets (t : Claims) (x : ℤ × ClaimCall) : Prop :=
  match x.2 with
  | .claim p => checkClaim p = .ok () → ∀ c, t.get? p.role.key = some c → c.role = p.role
  | .release role owner => ∀ c, t.get? role.key = some c →
      c.role = role ∧ (owner = "" → c.expiresAt ≤ x.1)
  | .sweep => True

def Admits (t : Claims) (calls : List (ℤ × ClaimCall)) : Prop := History.Admits step Meets t calls

/-- The owner gives its role up, or claims it anew. -/
def GivenUp (p : ClaimParams) : ClaimCall → Prop
  | .claim q => checkClaim q = .ok () ∧ q.role = p.role ∧ q.owner = p.owner
  | .release role owner => role = p.role ∧ owner = p.owner
  | .sweep => False

/-- Between a claim that was accepted and its end, no other owner claims the role, unless the
first one has given it up. -/
def Exclusive (calls : List (ℤ × ClaimCall)) : Prop :=
  ∀ before after rest t now p q,
    calls = before ++ (t, .claim p) :: after ++ (now, .claim q) :: rest →
    (sessionClaim t p (run Rows.empty before)).1.isOk = true →
    (∀ x ∈ after, ¬ GivenUp p x.2) → q.role = p.role → q.owner ≠ p.owner → now < t + p.ttl →
    (sessionClaim now q (run Rows.empty (before ++ (t, .claim p) :: after))).1.isOk = false

/-- The answers to the calls about a role. -/
def answersTo (role : AgentRole) : Claims → List (ℤ × ClaimCall) → List (Except GatewayErr ClaimAnswer)
  | _, [] => []
  | t, x :: calls =>
    if x.2.role? = some role then (x.2.perform x.1 t).1.toList ++ answersTo role (step t x) calls
    else answersTo role (step t x) calls

/-- The calls about a role, and the sweeps. -/
def onlyAbout (role : AgentRole) (calls : List (ℤ × ClaimCall)) : List (ℤ × ClaimCall) :=
  calls.filter fun x => x.2.role? = some role || x.2.role? = none

/-- The calls about a role are answered as if there were no calls about another one. -/
def Independent (calls : List (ℤ × ClaimCall)) : Prop :=
  ∀ role, answersTo role Rows.empty calls = answersTo role Rows.empty (onlyAbout role calls)

/-! ## One call and one entry -/

variable {t u : Claims} {now : ℤ} {role : AgentRole}

theorem claim_local {p : ClaimParams} (h : t.get? p.role.key = u.get? p.role.key) :
    (sessionClaim now p t).1 = (sessionClaim now p u).1 ∧
      (sessionClaim now p t).2.get? p.role.key = (sessionClaim now p u).2.get? p.role.key := by
  have hput (c : Claim) (hc : c.key = p.role.key) :
      (t.put c).get? p.role.key = (u.put c).get? p.role.key := by
    rw [← hc, Rows.get?_put_self, Rows.get?_put_self]
  unfold sessionClaim
  cases checkClaim p with
  | error e => exact ⟨rfl, h⟩
  | ok =>
    dsimp only
    rw [← h]
    cases t.get? p.role.key with
    | none => exact ⟨rfl, hput _ rfl⟩
    | some existing =>
      dsimp only
      split
      · exact ⟨rfl, h⟩
      · exact ⟨rfl, hput _ rfl⟩

theorem release_local {owner : String} (h : t.get? role.key = u.get? role.key) :
    (sessionRelease role owner t).1 = (sessionRelease role owner u).1 ∧
      (sessionRelease role owner t).2.get? role.key = (sessionRelease role owner u).2.get? role.key := by
  unfold sessionRelease
  rw [← h]
  cases ht : t.get? role.key with
  | none => exact ⟨rfl, h⟩
  | some existing =>
    dsimp only
    split
    · exact ⟨rfl, h⟩
    · refine ⟨rfl, ?_⟩
      rw [Rows.get?_delete_key, Rows.get?_delete_key, if_pos rfl, if_pos rfl]

theorem perform_local (now : ℤ) {c : ClaimCall} (hc : c.role? = some role)
    (h : t.get? role.key = u.get? role.key) : (c.perform now t).1 = (c.perform now u).1 ∧
      (c.perform now t).2.get? role.key = (c.perform now u).2.get? role.key := by
  cases c with
  | claim p =>
    cases hc
    obtain ⟨hans, hget⟩ := @claim_local t u now p h
    exact ⟨congrArg some hans, hget⟩
  | release r owner =>
    cases hc
    obtain ⟨hans, hget⟩ := @release_local t u _ owner h
    exact ⟨congrArg some hans, hget⟩
  | sweep => cases hc

theorem perform_get? (now : ℤ) (t : Claims) {c : ClaimCall} (hc : c.role? = some role) (k : String) :
    (c.perform now t).2.get? k = t.get? k ∨ k = role.key ∧
      ((c.perform now t).2.get? k = none ∨ ∃ e, (c.perform now t).2.get? k = some e ∧ e.role = role) := by
  cases c with
  | claim p =>
    cases hc
    have hput (e : Claim) (he : e.key = p.role.key) (hrole : e.role = p.role) :
        (t.put e).get? k = t.get? k ∨ k = p.role.key ∧
          ((t.put e).get? k = none ∨ ∃ e', (t.put e).get? k = some e' ∧ e'.role = p.role) := by
      rw [Rows.get?_put, he]
      split
      · next hk => exact .inr ⟨hk, .inr ⟨e, rfl, hrole⟩⟩
      · exact .inl rfl
    simp only [ClaimCall.perform, sessionClaim]
    cases checkClaim p with
    | error e => exact .inl rfl
    | ok =>
      dsimp only
      split
      · exact hput _ rfl rfl
      · split
        · exact .inl rfl
        · exact hput _ rfl rfl
  | release r owner =>
    cases hc
    simp only [ClaimCall.perform, sessionRelease]
    split
    · exact .inl rfl
    · split
      · exact .inl rfl
      · dsimp only
        rw [Rows.get?_delete_key]
        split
        · next hk => exact .inr ⟨hk, .inl rfl⟩
        · exact .inl rfl
  | sweep => cases hc

theorem get?_sweepClaims (k : String) :
    (sweepClaims now t).get? k = (t.get? k).filter fun c => !decide (c.expiresAt ≤ now) :=
  Rows.get?_delete ..

theorem Meets.cases {c : ClaimCall} (h : Meets t (now, c)) (hc : c.role? = some role) :
    (∃ e, ∀ t', c.perform now t' = (some (.error e), t')) ∨
      ∀ e, t.get? role.key = some e → e.role = role := by
  cases c with
  | claim p =>
    cases hc
    cases hcheck : checkClaim p with
    | error e => exact .inl ⟨e, fun t' => by simp only [ClaimCall.perform, sessionClaim, hcheck]⟩
    | ok => exact .inr (h hcheck)
  | release r owner =>
    cases hc
    exact .inr fun e he => (h e he).1
  | sweep => cases hc

/-! ## Independence -/

/-- The entry under the key of a role, if it was made for the role. -/
def entry (role : AgentRole) (t : Claims) : Option Claim :=
  (t.get? role.key).filter fun c => c.role = role

theorem entry_eq {role : AgentRole} (h : ∀ e, t.get? role.key = some e → e.role = role) :
    entry role t = t.get? role.key := by
  unfold entry
  cases ht : t.get? role.key with
  | none => rfl
  | some e => simp [h e ht]

theorem entry_eq_none {role : AgentRole} (h : ∀ e, t.get? role.key = some e → e.role ≠ role) :
    entry role t = none := by
  unfold entry
  cases ht : t.get? role.key with
  | none => rfl
  | some e => simp [h e ht]

theorem own_call {c : ClaimCall} (hc : c.role? = some role) (h : Meets t (now, c))
    (hsame : entry role t = u.get? role.key) : (c.perform now t).1 = (c.perform now u).1 ∧
      entry role (c.perform now t).2 = (c.perform now u).2.get? role.key := by
  rcases h.cases hc with ⟨e, hrefused⟩ | hown
  · rw [hrefused, hrefused]
    exact ⟨rfl, hsame⟩
  · rw [entry_eq hown] at hsame
    obtain ⟨hans, hget⟩ := perform_local now hc hsame
    refine ⟨hans, ?_⟩
    rw [← hget]
    refine entry_eq fun e he => ?_
    rcases perform_get? now t hc role.key with hkept | ⟨-, hnone | ⟨e', he', hrole⟩⟩
    · exact hown e (hkept ▸ he)
    · rw [hnone] at he
      cases he
    · rw [he'] at he
      cases he
      exact hrole

theorem other_call {c : ClaimCall} {r : AgentRole} (hc : c.role? = some r) (hne : r ≠ role)
    (h : Meets t (now, c)) : entry role (c.perform now t).2 = entry role t := by
  rcases h.cases hc with ⟨e, hrefused⟩ | hown
  · rw [hrefused]
  · rcases perform_get? now t hc role.key with hkept | ⟨hkey, hafter⟩
    · unfold entry
      rw [hkept]
    · -- the keys are the same, and neither entry was made for the role
      rw [entry_eq_none (t := t) fun e he => (hown e (hkey ▸ he)).symm ▸ hne]
      refine entry_eq_none fun e he => ?_
      rcases hafter with hnone | ⟨e', he', hrole⟩
      · rw [hnone] at he
        cases he
      · rw [he'] at he
        cases he
        exact hrole.symm ▸ hne

theorem sweep_call (hsame : entry role t = u.get? role.key) :
    entry role (sweepClaims now t) = (sweepClaims now u).get? role.key := by
  rw [get?_sweepClaims, ← hsame]
  unfold entry
  rw [get?_sweepClaims, Option.filter_filter, Option.filter_filter]
  exact congrArg (Option.filter · _) (funext fun c => Bool.and_comm ..)

theorem answersTo_onlyAbout {calls : List (ℤ × ClaimCall)} (h : Admits t calls)
    (hsame : entry role t = u.get? role.key) :
    answersTo role t calls = answersTo role u (onlyAbout role calls) := by
  induction calls generalizing t u with
  | nil => rfl
  | cons x calls ih =>
    obtain ⟨hx, hrest⟩ := h
    obtain ⟨now, c⟩ := x
    cases hc : c.role? with
    | none =>
      have hsweep : c = .sweep := by cases c <;> first | rfl | cases hc
      subst hsweep
      exact ih hrest (sweep_call hsame)
    | some r =>
      by_cases hr : r = role
      · subst hr
        obtain ⟨hans, hget⟩ := own_call hc hx hsame
        simp only [answersTo, onlyAbout, List.filter_cons, hc, decide_true, Bool.true_or, if_true,
          hans]
        exact congrArg _ (ih hrest hget)
      · have hget : entry role (step t (now, c)) = u.get? role.key :=
          (other_call hc hr hx).trans hsame
        simp only [answersTo, onlyAbout, List.filter_cons, hc, Option.some.injEq, hr, decide_false,
          reduceCtorEq, Bool.or_self, Bool.false_eq_true, if_false]
        exact ih hrest hget

/-! ## Exclusivity -/

/-- The role is claimed by the owner, until then. -/
def Holds (role : AgentRole) (owner : String) (until' : ℤ) (t : Claims) : Prop :=
  ∃ c, t.get? role.key = some c ∧ c.role = role ∧ c.owner = owner ∧ c.expiresAt = until'

theorem claim_holds {p : ClaimParams} (h : (sessionClaim now p t).1.isOk = true) :
    Holds p.role p.owner (now + p.ttl) (sessionClaim now p t).2 := by
  have hput : Holds p.role p.owner (now + p.ttl)
      (t.put ⟨p.role.key, p.owner, now, now + p.ttl, p.role⟩) :=
    ⟨_, Rows.get?_put_self .., rfl, rfl, rfl⟩
  unfold sessionClaim at h ⊢
  cases hcheck : checkClaim p with
  | error e =>
    rw [hcheck] at h
    cases h
  | ok =>
    rw [hcheck] at h
    dsimp only at h ⊢
    split
    · exact hput
    · split
      · next existing hget hlater =>
        rw [hget] at h
        dsimp only at h
        rw [if_pos hlater] at h
        cases h
      · exact hput

theorem claim_refused (q : ClaimParams) {owner : String} {until' : ℤ}
    (h : Holds q.role owner until' t) (hne : q.owner ≠ owner) (hlt : now < until') :
    ∃ e, sessionClaim now q t = (.error e, t) := by
  obtain ⟨c, hget, -, rfl, rfl⟩ := h
  unfold sessionClaim
  cases checkClaim q with
  | error e => exact ⟨e, rfl⟩
  | ok =>
    dsimp only
    rw [hget]
    dsimp only
    rw [if_pos ⟨hne.symm, hlt⟩]
    exact ⟨_, rfl⟩

theorem holds_step {p : ClaimParams} {until' : ℤ} {x : ℤ × ClaimCall}
    (h : Holds p.role p.owner until' t) (hx : Meets t x) (hkeep : ¬ GivenUp p x.2)
    (hlt : x.1 < until') : Holds p.role p.owner until' (step t x) := by
  obtain ⟨now, c⟩ := x
  obtain ⟨e, hget, hrole, howner, hend⟩ := h
  have frame {r : AgentRole} (hc : c.role? = some r) (hne : p.role.key ≠ r.key) :
      Holds p.role p.owner until' (step t (now, c)) := by
    rcases perform_get? now t hc p.role.key with hkept | ⟨hkey, -⟩
    · exact ⟨e, hkept.trans hget, hrole, howner, hend⟩
    · exact absurd hkey hne
  cases c with
  | claim q =>
    by_cases hkey : p.role.key = q.role.key
    · cases hcheck : checkClaim q with
      | error err =>
        have hsame : step t (now, .claim q) = t := by
          simp only [step, ClaimCall.perform, sessionClaim, hcheck]
        exact hsame.symm ▸ ⟨e, hget, hrole, howner, hend⟩
      | ok =>
        have hq : q.role = p.role := (hx hcheck e (hkey ▸ hget)).symm.trans hrole
        have hne : q.owner ≠ p.owner := fun heq => hkeep ⟨hcheck, hq, heq⟩
        have hholds : Holds q.role p.owner until' t :=
          ⟨e, hkey ▸ hget, hrole.trans hq.symm, howner, hend⟩
        obtain ⟨err, hrefused⟩ := claim_refused q hholds hne hlt
        have hsame : step t (now, .claim q) = t := by
          simp only [step, ClaimCall.perform, hrefused]
        exact hsame.symm ▸ ⟨e, hget, hrole, howner, hend⟩
    · exact frame rfl hkey
  | release r owner =>
    by_cases hkey : p.role.key = r.key
    · obtain ⟨hr, hanon⟩ := hx e (hkey ▸ hget)
      have hnamed : owner ≠ "" := by
        intro heq
        have hover : e.expiresAt ≤ now := hanon heq
        have hbefore : now < until' := hlt
        omega
      have hne : e.owner ≠ owner :=
        fun heq => hkeep ⟨hr.symm.trans hrole, heq.symm.trans howner⟩
      have hsame : step t (now, .release r owner) = t := by
        have hget' : t.get? r.key = some e := hkey ▸ hget
        simp only [step, ClaimCall.perform, sessionRelease, hget', ne_eq, hnamed, not_false_eq_true,
          hne, and_self, if_true]
      exact hsame.symm ▸ ⟨e, hget, hrole, howner, hend⟩
    · exact frame rfl hkey
  | sweep =>
    refine ⟨e, ?_, hrole, howner, hend⟩
    have hlive : ¬ e.expiresAt ≤ now := by
      have hbefore : now < until' := hlt
      omega
    show (sweepClaims now t).get? p.role.key = some e
    rw [get?_sweepClaims, hget]
    simp [hlive]

theorem exclusive_of_admits {calls : List (ℤ × ClaimCall)}
    (clock : calls.Pairwise fun x y => x.1 ≤ y.1) (h : Admits Rows.empty calls) :
    Exclusive calls := by
  intro before after rest t now p q hcalls accepted hkept hrole hne hlt
  subst hcalls
  have hadm := (History.admits_append.mp (History.admits_append.mp h).1).2
  have hholds : Holds p.role p.owner (t + p.ttl)
      (run (step (run Rows.empty before) (t, .claim p)) after) := by
    have hbefore : ∀ x ∈ after, ¬ GivenUp p x.2 ∧ x.1 < t + p.ttl := by
      intro x hx
      have hle : x.1 ≤ now := by
        refine (List.pairwise_append.mp clock).2.2 x ?_ _ List.mem_cons_self
        exact List.mem_append_right _ (List.mem_cons_of_mem _ hx)
      exact ⟨hkept x hx, by omega⟩
    exact (hadm.2.and_mem hbefore).invariant
      (fun s x hs hx => holds_step hs hx.1 hx.2.1 hx.2.2) (claim_holds accepted)
  have hrun : run Rows.empty (before ++ (t, .claim p) :: after) =
      run (step (run Rows.empty before) (t, .claim p)) after := History.after_append _
  obtain ⟨e, hrefused⟩ := claim_refused q (hrole.symm ▸ hholds) hne hlt
  rw [hrun, hrefused]
  rfl

/-- **Claims are exclusive, and roles do not touch each other**, if no call finds an entry of
another role under its key and no release without an owner finds a claim in force. -/
theorem claims_kept {calls : List (ℤ × ClaimCall)}
    (clock : calls.Pairwise fun x y => x.1 ≤ y.1) (h : Admits Rows.empty calls) :
    Exclusive calls ∧ Independent calls :=
  ⟨exclusive_of_admits clock h, fun _ => answersTo_onlyAbout h rfl⟩

/-- A claim that another owner fails to release, and then to take over. -/
def contested : List (ℤ × ClaimCall) :=
  [(0, .claim { role := ⟨"s", "a"⟩, owner := "A" }), (1, .release ⟨"s", "a"⟩ "B"),
    (2, .claim { role := ⟨"s", "a"⟩, owner := "B" }), (3, .release ⟨"s", "a"⟩ "A")]

theorem claims_kept_contested : Exclusive contested ∧ Independent contested := by
  refine claims_kept (by decide) ⟨?_, ?_, ?_, ?_, trivial⟩
  · intro _ c h
    cases h
  · intro c h
    cases h
    exact ⟨rfl, nofun⟩
  · intro _ c h
    cases h
    rfl
  · intro c h
    cases h
    exact ⟨rfl, nofun⟩

/-- `A` claims a role and gives another one up, whose key is the same. -/
theorem claim_released_elsewhere : ¬ ∀ calls : List (ℤ × ClaimCall),
    (calls.Pairwise fun x y => x.1 ≤ y.1) → Exclusive calls ∧ Independent calls := by
  intro h
  have hlost := (h [(0, .claim { role := ⟨"a:b", "c"⟩, owner := "A" }),
    (1, .release ⟨"a", "b:c"⟩ "A"), (2, .claim { role := ⟨"a:b", "c"⟩, owner := "B" })]
    (by decide)).1 [] [(1, .release ⟨"a", "b:c"⟩ "A")] [] 0 2 _ _ rfl (by decide)
    (fun x hx => by
      cases List.mem_singleton.mp hx
      exact fun hgiven => absurd hgiven.1 (by decide))
    rfl (by decide) (by decide)
  exact absurd hlost (by decide)

end Claims

end AiMeshChat.Gateway
