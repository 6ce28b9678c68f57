import AiMeshChat.Mailbox.ReadLoop

/-!
# Whether a session still has work

`_session_has_unfinished_work`, the test that keeps `clean_older_than` from deleting a session
in use: a message that waits in an inbox or in `processing`, a claim whose lease has not run
out, or an entry in the session's outbox.

The outbox lies outside the mailbox tree and is looked at last, so whether it has an entry is
a parameter. The members are a set; `order` is the order in which they are gone through.
-/

namespace AiMeshChat.Mailbox.Unfinished

open Lib Recovery ReadLoop

/-! ## The test -/

/-- A visible JSON file. -/
def isWork (name : String) : Bool := endsWith ".json" name && !startsWith "." name

def anyFile (d : Dir) : List String → Call Bool
  | [] => return false
  | name :: rest => do
    if ← fileExists ⟨d, name⟩ then return true else anyFile d rest

/-- Whether one of the claims has a lease that has not run out; unreadable ones are skipped. -/
def anyFreshClaim (processing : Dir) (claimCutoff : ℤ) : List String → Call Bool
  | [] => return false
  | name :: rest => do
    match (← loadClaim ⟨processing, name⟩).bind claimTime with
    | some claimedTs =>
      if claimCutoff ≤ claimedTs then return true else anyFreshClaim processing claimCutoff rest
    | none => anyFreshClaim processing claimCutoff rest

/-- Whether a visible JSON file lies in the directory. -/
def hasWork (d : Dir) : Call Bool := do
  if ← isDir d then
    let names ← scan d
    anyFile d (names.filter isWork)
  else return false

/-- Whether a message or a lease is in `processing`. -/
def inFlight (processing : Dir) : Call Bool := do
  if ← isDir processing then
    let names ← scan processing
    if ← anyFile processing (names.filter isWork) then return true
    else
      let now ← clock
      let claims ← scan processing
      anyFreshClaim processing (leaseCutoff now) (claims.filter (globMatch ".claim-" ".json"))
  else return false

def agentHasUnfinishedWork (sid agent : String) : Call Bool := do
  validateAgentId agent
  validateAgentId sid
  if ← hasWork (.box sid agent .inbox) then return true
  else inFlight (.box sid agent .processing)

/-- `set(meta.get("agents", [])) | {meta.get("manager", "")}`, or `none` where building it
raises `TypeError`. -/
def memberSet (info : Json) : Option (List Json) :=
  let manager := (info.get? "manager").getD (.str "")
  if unhashable manager then none
  else match info.get? "agents" with
    | none => some [manager]
    | some (.arr as) => if as.any unhashable then none else some (as ++ [manager])
    | some (.str text) => some (text.toList.map (fun c => .str (String.singleton c)) ++ [manager])
    | some (.obj fields) => some (fields.map (fun kv => .str kv.1) ++ [manager])
    | some _ => none

/-- The loop over the members. -/
def anyAgentUnfinished (sid : String) : List Json → Call Bool
  | [] => return false
  | aid :: rest => do
    if !aid.truthy then anyAgentUnfinished sid rest
    else match aid with
      | .str agent =>
        if ← agentHasUnfinishedWork sid agent then return true else anyAgentUnfinished sid rest
      | _ => throw (.type "expected string or bytes-like object")

/-- `_session_has_unfinished_work`. -/
def sessionHasUnfinishedWork (order : List Json → List Json) (queued : Bool) (sid : String) :
    Call Bool := do
  let info := ((← readSession sid).filter Json.truthy).getD (.obj [])
  if !info.isDict then throw .attribute
  else match memberSet info with
    | none => throw (.type "unhashable type")
    | some agents =>
      if ← anyAgentUnfinished sid (order agents) then return true else return queued

/-! ## What it finds -/

/-- A claim file of the directory whose lease has not run out at the time `T`. -/
def FreshClaim (T : ℕ) (s : Disk) (processing : Dir) (name : String) : Prop :=
  globMatch ".claim-" ".json" name = true ∧ ∃ j t n ts,
    s.files.get? ⟨processing, name⟩ = some ⟨.json j, t, n⟩ ∧ claimTime j = some ts ∧
      leaseCutoff T ≤ ts

/-- A visible JSON file of the directory. -/
def Waiting (s : Disk) (d : Dir) : Prop :=
  d ∈ s.dirs ∧ ∃ name, isWork name = true ∧ (s.files.get? ⟨d, name⟩).isSome = true

/-- The agent has a message in its inbox or in `processing`, or a claim with a lease. -/
def Busy (T : ℕ) (s : Disk) (sid agent : String) : Prop :=
  Waiting s (.box sid agent .inbox) ∨ Waiting s (.box sid agent .processing) ∨
    (.box sid agent .processing ∈ s.dirs ∧ ∃ name, FreshClaim T s (.box sid agent .processing) name)

/-- The session file lists agents with well-formed names, and no claim of theirs is a JSON
document that is not an object. -/
structure Tidy (s : Disk) (sid : String) (agents : List String) : Prop where
  name : agentIdOk sid = true
  info : ∃ info t n members, s.files.get? ⟨.session sid, "session.json"⟩ = some ⟨.json info, t, n⟩ ∧
    info.isDict = true ∧ info.truthy = true ∧ memberSet info = some members ∧
    ∀ x, x ∈ members ∧ x.truthy = true ↔ ∃ agent ∈ agents, x = .str agent
  names : ∀ agent ∈ agents, agentIdOk agent = true
  claims : ∀ agent ∈ agents, ∀ name, globMatch ".claim-" ".json" name = true → ∀ j t n,
    s.files.get? ⟨.box sid agent .processing, name⟩ = some ⟨.json j, t, n⟩ → j.isDict = true

/-! ### One test after another -/

section Answers

variable {i T : ℕ} {ρ : String → ℕ} {s : Disk} {A B : Prop}

/-- On a disk that nobody else changes the test says whether `A`, and changes nothing. -/
def Answers (i T : ℕ) (ρ : String → ℕ) (s : Disk) (p : Call Bool) (A : Prop) : Prop :=
  p.Total world i (Still T ρ) (fun _ => True) s fun r t => t = s ∧ ∃ b, r = .ok b ∧ (b = true ↔ A)

theorem Answers.congr {p : Call Bool} (h : Answers i T ρ s p A) (hiff : A ↔ B) :
    Answers i T ρ s p B :=
  propext hiff ▸ h

theorem answers_ret {b : Bool} (h : b = true ↔ A) : Answers i T ρ s (return b) A :=
  Prog.total_ret trivial ⟨rfl, b, rfl, h⟩

theorem Answers.orElse {p q : Call Bool} (hp : Answers i T ρ s p A) (hq : Answers i T ρ s q B) :
    Answers i T ρ s (do if ← p then return true else q) (A ∨ B) := by
  refine Prog.Total.bind hp (fun b t _ h => ?_) fun e t _ h => ?_
  · obtain ⟨rfl, b', hb', hA⟩ := h
    cases hb'
    cases b with
    | true => exact answers_ret ⟨fun _ => .inl (hA.mp rfl), fun _ => rfl⟩
    | false =>
      refine hq.congr ⟨.inr, fun h => h.resolve_left fun ha => ?_⟩
      cases hA.mpr ha
  · obtain ⟨-, b, hb, -⟩ := h
    cases hb

theorem fileExists_answers (p : MPath) :
    Answers i T ρ s (fileExists p) ((s.files.get? p).isSome = true) := by
  refine Prog.total_op_bind (f := Prog.ret) trivial fun c _ => ⟨_, s, rfl, ?_⟩
  exact Prog.total_ret trivial ⟨rfl, _, rfl, Iff.rfl⟩

theorem answers_isDir {d : Dir} {p : Call Bool} (hp : d ∈ s.dirs → Answers i T ρ s p A) :
    Answers i T ρ s (do if ← isDir d then p else return false) (d ∈ s.dirs ∧ A) := by
  refine Prog.total_op_bind trivial fun c _ => ⟨_, s, rfl, ?_⟩
  by_cases hd : d ∈ s.dirs
  · simp only [hd, decide_true, if_true, true_and]
    exact hp hd
  · simp only [hd, decide_false, Bool.false_eq_true, if_false, false_and]
    exact answers_ret ⟨nofun, False.elim⟩

theorem answers_scan {d : Dir} {p : List String → Call Bool}
    (hp : ∀ names, (∀ name, name ∈ names ↔ (s.files.get? ⟨d, name⟩).isSome = true) →
      Answers i T ρ s (p names) A) : Answers i T ρ s (scan d >>= p) A := by
  refine Prog.total_op_bind trivial fun c _ => ⟨_, s, rfl, hp _ fun name => ?_⟩
  rw [List.mem_insertionSort, Files.mem_names, Option.isSome_iff_exists]

theorem answers_clock {p : ℕ → Call Bool} (hp : Answers i T ρ s (p T) A) :
    Answers i T ρ s (clock >>= p) A :=
  clock_still hp

theorem anyFile_answers (d : Dir) (names : List String) :
    Answers i T ρ s (anyFile d names) (∃ name ∈ names, (s.files.get? ⟨d, name⟩).isSome = true) := by
  induction names with
  | nil => exact answers_ret ⟨nofun, fun ⟨_, h, _⟩ => absurd h List.not_mem_nil⟩
  | cons name rest ih =>
    refine ((fileExists_answers ⟨d, name⟩).orElse ih).congr ?_
    rw [List.exists_mem_cons_iff]

theorem loadClaim_total {p : MPath} {α : Type} {f : Option Json → Call α}
    {Q : Except PyErr α → Disk → Prop}
    (hdict : ∀ j t n, s.files.get? p = some ⟨.json j, t, n⟩ → j.isDict = true)
    (hnone : (∀ j t n, s.files.get? p ≠ some ⟨.json j, t, n⟩) →
      (f none).Total world i (Still T ρ) (fun _ => True) s Q)
    (hsome : ∀ j t n, s.files.get? p = some ⟨.json j, t, n⟩ →
      (f (some j)).Total world i (Still T ρ) (fun _ => True) s Q) :
    (loadClaim p >>= f).Total world i (Still T ρ) (fun _ => True) s Q := by
  refine Prog.Total.bind (M := fun r t => t = s ∧ ∃ x, r = .ok x ∧
    (f x).Total world i (Still T ρ) (fun _ => True) s Q) ?_ ?_ ?_
  · refine readBytes_still ?_
    cases hp : s.files.get? p with
    | none =>
      refine Prog.total_ret trivial ⟨rfl, none, rfl, hnone fun j t n h => ?_⟩
      rw [hp] at h
      cases h
    | some g =>
      obtain ⟨x, t, n⟩ := g
      cases x with
      | junk =>
        refine Prog.total_ret trivial ⟨rfl, none, rfl, hnone fun j t n h => ?_⟩
        rw [hp] at h
        cases h
      | json j =>
        dsimp only
        rw [if_pos (hdict j t n hp)]
        exact Prog.total_ret trivial ⟨rfl, some j, rfl, hsome j t n hp⟩
  · rintro x t - ⟨rfl, x', hx', h⟩
    cases hx'
    exact h
  · rintro e t - ⟨-, x, hx, -⟩
    cases hx

theorem anyFreshClaim_answers {d : Dir} {names : List String}
    (hdict : ∀ name ∈ names, ∀ j t n, s.files.get? ⟨d, name⟩ = some ⟨.json j, t, n⟩ →
      j.isDict = true) :
    Answers i T ρ s (anyFreshClaim d (leaseCutoff T) names) (∃ name ∈ names, ∃ j t n ts,
      s.files.get? ⟨d, name⟩ = some ⟨.json j, t, n⟩ ∧ claimTime j = some ts ∧
        leaseCutoff T ≤ ts) := by
  induction names with
  | nil => exact answers_ret ⟨nofun, fun ⟨_, h, _⟩ => absurd h List.not_mem_nil⟩
  | cons name rest ih =>
    have ih := ih fun name hname => hdict name (List.mem_cons_of_mem _ hname)
    rw [List.exists_mem_cons_iff]
    -- a claim that is not fresh leaves the answer to the rest
    have hskip (hno : ¬ ∃ j t n ts, s.files.get? ⟨d, name⟩ = some ⟨.json j, t, n⟩ ∧
        claimTime j = some ts ∧ leaseCutoff T ≤ ts) := ih.congr (or_iff_right hno).symm
    refine loadClaim_total (hdict name List.mem_cons_self) (fun hnone => ?_) fun j t n hj => ?_
    · exact hskip fun ⟨j, t, n, ts, h, _⟩ => hnone j t n h
    · dsimp only [Option.bind_some]
      cases hts : claimTime j with
      | none =>
        refine hskip ?_
        rintro ⟨j', t', n', ts, h, hts', -⟩
        cases hj.symm.trans h
        cases hts.symm.trans hts'
      | some ts =>
        dsimp only
        split_ifs with hfresh
        · exact answers_ret ⟨fun _ => .inl ⟨j, t, n, ts, hj, hts, hfresh⟩, fun _ => rfl⟩
        · refine hskip ?_
          rintro ⟨j', t', n', ts', h, hts', hfresh'⟩
          cases hj.symm.trans h
          cases hts.symm.trans hts'
          exact hfresh hfresh'

theorem hasWork_answers (d : Dir) : Answers i T ρ s (hasWork d) (Waiting s d) := by
  refine answers_isDir fun _ => answers_scan fun names hnames => ?_
  refine (anyFile_answers d _).congr ⟨?_, ?_⟩
  · rintro ⟨name, hname, hsome⟩
    exact ⟨name, (List.mem_filter.mp hname).2, hsome⟩
  · rintro ⟨name, hwork, hsome⟩
    exact ⟨name, List.mem_filter.mpr ⟨(hnames name).mpr hsome, hwork⟩, hsome⟩

theorem inFlight_answers {d : Dir}
    (hdict : ∀ name, globMatch ".claim-" ".json" name = true → ∀ j t n,
      s.files.get? ⟨d, name⟩ = some ⟨.json j, t, n⟩ → j.isDict = true) :
    Answers i T ρ s (inFlight d)
      (Waiting s d ∨ d ∈ s.dirs ∧ ∃ name, FreshClaim T s d name) := by
  have hwork : Answers i T ρ s (inFlight d) (d ∈ s.dirs ∧
      ((∃ name, isWork name = true ∧ (s.files.get? ⟨d, name⟩).isSome = true) ∨
        ∃ name, FreshClaim T s d name)) := by
    refine answers_isDir fun _ => answers_scan fun names hnames => ?_
    refine Answers.orElse ((anyFile_answers d _).congr ⟨?_, ?_⟩) ?_
    · rintro ⟨name, hname, hsome⟩
      exact ⟨name, (List.mem_filter.mp hname).2, hsome⟩
    · rintro ⟨name, hwork, hsome⟩
      exact ⟨name, List.mem_filter.mpr ⟨(hnames name).mpr hsome, hwork⟩, hsome⟩
    refine answers_clock (answers_scan fun claims hclaims => ?_)
    refine (anyFreshClaim_answers fun name hname => ?_).congr ⟨?_, ?_⟩
    · exact hdict name (List.mem_filter.mp hname).2
    · rintro ⟨name, hname, hfresh⟩
      exact ⟨name, (List.mem_filter.mp hname).2, hfresh⟩
    · rintro ⟨name, hglob, j, t, n, ts, hj, hfresh⟩
      have hsome := Option.isSome_iff_exists.mpr ⟨_, hj⟩
      exact ⟨name, List.mem_filter.mpr ⟨(hclaims name).mpr hsome, hglob⟩, j, t, n, ts, hj, hfresh⟩
  exact hwork.congr and_or_left

theorem agentHasUnfinishedWork_answers {sid agent : String} (hsid : agentIdOk sid = true)
    (hagent : agentIdOk agent = true)
    (hdict : ∀ name, globMatch ".claim-" ".json" name = true → ∀ j t n,
      s.files.get? ⟨.box sid agent .processing, name⟩ = some ⟨.json j, t, n⟩ → j.isDict = true) :
    Answers i T ρ s (agentHasUnfinishedWork sid agent) (Busy T s sid agent) := by
  refine require_total hagent (require_total hsid ?_)
  exact (hasWork_answers _).orElse (inFlight_answers hdict)

theorem anyAgentUnfinished_answers {sid : String} {members : List Json}
    (hmembers : ∀ x ∈ members, x.truthy = true → ∃ agent, x = .str agent ∧
      Answers i T ρ s (agentHasUnfinishedWork sid agent) (Busy T s sid agent)) :
    Answers i T ρ s (anyAgentUnfinished sid members)
      (∃ agent, .str agent ∈ members ∧ (Json.str agent).truthy = true ∧ Busy T s sid agent) := by
  induction members with
  | nil => exact answers_ret ⟨nofun, fun ⟨_, h, _⟩ => absurd h List.not_mem_nil⟩
  | cons x rest ih =>
    have ih := ih fun y hy => hmembers y (List.mem_cons_of_mem x hy)
    unfold anyAgentUnfinished
    cases htruthy : x.truthy with
    | false =>
      refine ih.congr ⟨?_, ?_⟩
      · rintro ⟨agent, hin, h⟩
        exact ⟨agent, List.mem_cons_of_mem x hin, h⟩
      · rintro ⟨agent, hin, hagent, h⟩
        rcases List.mem_cons.mp hin with rfl | hin
        · rw [htruthy] at hagent
          cases hagent
        · exact ⟨agent, hin, hagent, h⟩
    | true =>
      obtain ⟨agent, rfl, hagent⟩ := hmembers x List.mem_cons_self htruthy
      refine (hagent.orElse ih).congr ⟨?_, ?_⟩
      · rintro (h | ⟨agent', hin, h⟩)
        · exact ⟨agent, List.mem_cons_self, htruthy, h⟩
        · exact ⟨agent', List.mem_cons_of_mem _ hin, h⟩
      · rintro ⟨agent', hin, hagent', h⟩
        rcases List.mem_cons.mp hin with he | hin
        · cases he
          exact .inl h
        · exact .inr ⟨agent', hin, hagent', h⟩

/-- **What counts as unfinished work** in a tidy session: an agent that is busy, or an entry in
the outbox. -/
theorem sessionHasUnfinishedWork_answers {order : List Json → List Json}
    (horder : ∀ l x, x ∈ order l ↔ x ∈ l) (queued : Bool) {sid : String} {agents : List String}
    (h : Tidy s sid agents) :
    Answers i T ρ s (sessionHasUnfinishedWork order queued sid)
      ((∃ agent ∈ agents, Busy T s sid agent) ∨ queued = true) := by
  obtain ⟨info, t, n, members, hf, hdict, htruthy, hset, hmembers⟩ := h.info
  unfold sessionHasUnfinishedWork
  refine Prog.Total.bind (M := fun r u => u = s ∧ r = .ok (some info)) ?_ ?_ ?_
  · refine require_total h.name (fileExists_total trivial ?_)
    rw [hf]
    refine readBytes_still ?_
    rw [hf]
    exact Prog.total_ret trivial ⟨rfl, rfl⟩
  · rintro x u - ⟨rfl, hx⟩
    cases hx
    rw [Option.filter_some, if_pos htruthy]
    dsimp only [Option.getD_some]
    rw [hdict, hset]
    refine Answers.orElse ?_ (answers_ret Iff.rfl)
    refine (anyAgentUnfinished_answers fun x hx hxt => ?_).congr ⟨?_, ?_⟩
    · obtain ⟨agent, hagent, rfl⟩ := (hmembers x).mp ⟨(horder _ _).mp hx, hxt⟩
      exact ⟨agent, rfl, agentHasUnfinishedWork_answers h.name (h.names agent hagent)
        (h.claims agent hagent)⟩
    · rintro ⟨agent, hin, ht, hbusy⟩
      obtain ⟨agent', hagent', he⟩ := (hmembers _).mp ⟨(horder _ _).mp hin, ht⟩
      cases he
      exact ⟨agent, hagent', hbusy⟩
    · rintro ⟨agent, hagent, hbusy⟩
      obtain ⟨hin, ht⟩ := (hmembers _).mpr ⟨agent, hagent, rfl⟩
      exact ⟨agent, (horder _ _).mpr hin, ht, hbusy⟩
  · rintro e u - ⟨-, he⟩
    cases he

end Answers

end AiMeshChat.Mailbox.Unfinished
