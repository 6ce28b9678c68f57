import AiMeshChat.Mailbox.ReadBack

/-!
# The loop of `read`

`read` alone on a disk that does not fail, with a clock that stands still. Every pass of
its loop takes a file out of the inbox or out of `processing`, gives up on a message, or
ends the call; only a call with a target does not give up. It looks again at the message
it cannot claim, for ever, when the claim in its way is not to be taken away (`Spins`).

`read_ends_iff` says that this is the only way for the loop not to end.
-/

namespace AiMeshChat.Mailbox.ReadLoop

open Lib Recovery Readable

/-- A disk that does not fail, a clock that stands at `T`, and one order of all listings. -/
structure Still (T : ℕ) (ρ : String → ℕ) (c : Choice) : Prop where
  fault : c.fault = false
  time : c.time = T
  rank : c.rank = ρ

/-! ## What a pass finds -/

def inbox (a : ReadArgs) : Dir := .box a.sessionId a.agentId .inbox
def processing (a : ReadArgs) : Dir := .box a.sessionId a.agentId .processing

/-- What `list_messages` returns. -/
def listing (ρ : String → ℕ) (s : Disk) (inbox : Dir) : List String :=
  if inbox ∈ s.dirs then
    (((((s.files.names inbox).insertionSort fun a b => ρ a ≤ ρ b).filter isMessageName).filterMap
      fun name => (s.files.get? ⟨inbox, name⟩).map fun f => (name, f.mtime)).insertionSort
        fun a b => a.2 ≤ b.2).map Prod.fst
  else []

/-- Whether the sender of the message is in the roster. -/
def senderCheck (s : Disk) (sid : String) (msg : Json) : Except PyErr Bool :=
  match s.files.get? ⟨.session sid, "session.json"⟩ with
  | some ⟨.json info, _, _⟩ =>
    if !info.truthy then .ok false
    else if !info.isDict then .error .attribute
    else match rosterSet info with
      | none => .error (.type "unhashable type")
      | some roster => .ok (decide (textOf msg "from" ∈ roster))
  | _ => .ok false

/-- What becomes of a file of the inbox that `read` comes to. -/
inductive Verdict
  | putAway
  | raises (e : PyErr)
  | passes (msg : Json)
  deriving DecidableEq

/-- The checks of `read` on the file `name`. -/
def verdict (s : Disk) (a : ReadArgs) (name : String) : Verdict :=
  match s.files.get? ⟨inbox a, name⟩ with
  | some ⟨.json msg, _, _⟩ =>
    match validateMessage msg (some a.sessionId) (some a.agentId) (some name) with
    | .error (.typeError why) => .raises (.type why)
    | .error (.reject _) => .putAway
    | .ok () =>
      match senderCheck s a.sessionId msg with
      | .error e => .raises e
      | .ok false => .putAway
      | .ok true => .passes msg
  | _ => .putAway

/-- What `_reap_expired_claim` makes of a claim. -/
inductive Judgement
  | held
  | expired
  | raises
  deriving DecidableEq

/-- A claim that is unreadable or has no readable time is held, and so is one whose lease
has not run out at the time `T`. -/
def judge (T : ℕ) : Data → Judgement
  | .junk => .held
  | .json claim =>
    if claim.isDict then
      match claimTime claim with
      | none => .held
      | some ts => if leaseCutoff T ≤ ts then .held else .expired
    else .raises

section Spins

variable (T : ℕ) (ρ : String → ℕ) (a : ReadArgs)

/-- The claim that is in the way of a reader of the message. -/
def claimAt (msgId : String) : MPath := ⟨processing a, claimName (claimKey msgId a.owner)⟩

/-- The file that a call with the target `t` comes to after those it puts away. -/
def aimedAt (s : Disk) (t : String) : Option String :=
  (listing ρ s (inbox a)).find? fun name =>
    stem name = t && verdict s a name ≠ .putAway

/-- A message is aimed at, it passes the checks, and its claim is held. -/
def Spins (s : Disk) : Prop :=
  ∃ t, a.targetMsgId = some t ∧ t ≠ "" ∧
    (∃ name msg, aimedAt ρ a s t = some name ∧ verdict s a name = .passes msg) ∧
    ∃ f, s.files.get? (claimAt a t) = some f ∧ judge T f.data = .held

end Spins

/-! ## Operations -/

section Rules

variable {α : Type} {i T : ℕ} {ρ : String → ℕ} {s : Disk} {Q : Except PyErr α → Disk → Prop}

theorem readBytes_still {p : MPath} {f : Except OsErr Data → Call α}
    (h : (f (match s.files.get? p with
      | none => .error .notFound
      | some x => .ok x.data)).Total world i (Still T ρ) (fun _ => True) s Q) :
    (readBytes p >>= f).Total world i (Still T ρ) (fun _ => True) s Q := by
  refine Prog.total_op_bind trivial fun c hc => ⟨_, s, ?_, h⟩
  cases hp : s.files.get? p <;> simp [world, Disk.perform, hc.fault, hp]

theorem clock_still {f : ℕ → Call α} (h : (f T).Total world i (Still T ρ) (fun _ => True) s Q) :
    (clock >>= f).Total world i (Still T ρ) (fun _ => True) s Q :=
  Prog.total_op_bind trivial fun c hc => ⟨_, s, rfl, by rw [hc.time]; exact h⟩

theorem unlink_still {p : MPath} {f : Unit → Call α}
    (h : (f ()).Total world i (Still T ρ) (fun _ => True) { s with files := s.files.del p } Q) :
    (unlinkMissingOk p >>= f).Total world i (Still T ρ) (fun _ => True) s Q := by
  refine Prog.total_op_bind trivial fun c hc => ?_
  cases hp : s.files.get? p with
  | none =>
    rw [Files.del_of_none hp] at h
    exact ⟨.error .notFound, s, by simp [world, Disk.perform, hc.fault, hp], h⟩
  | some g => exact ⟨.ok (), _, by simp [world, Disk.perform, hc.fault, hp], h⟩

theorem replace_still {src dst : MPath} {l : Option Lease}
    (hs : (s.files.get? src).isSome = true) (hd : dst.dir ∈ s.dirs) :
    (replace src dst l).Total world i (Still T ρ) (fun _ => True) s fun r t =>
      r = .ok () ∧ t = { s with files := s.files.move src dst } := by
  refine Prog.total_op_bind trivial fun c hc => ⟨.ok (), { s with files := s.files.move src dst },
    ?_, Prog.total_ret trivial ⟨rfl, rfl⟩⟩
  obtain ⟨g, hg⟩ := Option.isSome_iff_exists.mp hs
  simp [world, Disk.perform, hc.fault, hd, hg]

theorem writeNew_still {p : MPath} {x : Data} {f : Except OsErr Unit → Call α}
    (hd : p.dir ∈ s.dirs)
    (hold : ∀ g, s.files.get? p = some g →
      (f (.error .exists)).Total world i (Still T ρ) (fun _ => True) s Q)
    (hnew : s.files.get? p = none →
      (f (.ok ())).Total world i (Still T ρ) (fun _ => True) (s.write p x T) Q) :
    (tryWriteNew p x >>= f).Total world i (Still T ρ) (fun _ => True) s Q := by
  refine Prog.total_op_bind trivial fun c hc => ?_
  cases hp : s.files.get? p with
  | some g =>
    exact ⟨.error .exists, s, by simp [world, Disk.perform, hc.fault, hd, hp], hold g hp⟩
  | none =>
    exact ⟨.ok (), s.write p x T, by simp [world, Disk.perform, hc.fault, hc.time, hd, hp], hnew hp⟩

theorem link_still {src dst : MPath} {g : MFile} {f : Except OsErr Unit → Call α}
    (hsrc : s.files.get? src = some g) (hd : dst.dir ∈ s.dirs)
    (hold : ∀ x, s.files.get? dst = some x →
      (f (.error .exists)).Total world i (Still T ρ) (fun _ => True) s Q)
    (hnew : s.files.get? dst = none → (f (.ok ())).Total world i (Still T ρ) (fun _ => True)
      { s with files := s.files.put dst g } Q) :
    (tryLink src dst >>= f).Total world i (Still T ρ) (fun _ => True) s Q := by
  refine Prog.total_op_bind trivial fun c hc => ?_
  cases hp : s.files.get? dst with
  | some x =>
    exact ⟨.error .exists, s, by simp [world, Disk.perform, hc.fault, hd, hsrc, hp], hold x hp⟩
  | none => exact ⟨.ok (), _, by simp [world, Disk.perform, hc.fault, hd, hsrc, hp], hnew hp⟩

theorem claimLock_still {processing : Dir} {key : String} {body : Call α} (hfree : s.locks = [])
    (h : ∀ locks, body.Total world i (Still T ρ) (fun _ => True) { s with locks := locks }
      fun r s' => s'.locks = locks ∧ Q r { s' with locks := [] }) :
    (withClaimLock processing key body).Total world i (Still T ρ) (fun _ => True) s Q := by
  obtain ⟨p, hp⟩ : ∃ p, p = (⟨processing, claimLockName key⟩ : MPath) := ⟨_, rfl⟩
  unfold withClaimLock
  rw [← hp]
  refine Prog.total_op_bind trivial fun c _ => ⟨(), { s with locks := [(p, i)] },
    by simp [world, Disk.perform, hfree], ?_⟩
  refine (h [(p, i)]).ensure fun r s₁ _ hr => ⟨trivial, fun c _ => ⟨(), _, rfl, trivial, rfl, ?_⟩⟩
  rw [hr.1]
  simpa using hr.2

theorem listMessages_still (d : Dir) :
    (listMessages d).Total world i (Still T ρ) (fun _ => True) s fun r s' =>
      s' = s ∧ r = .ok (listing ρ s d) := by
  unfold listMessages listing
  refine Prog.total_op_bind trivial fun c _ => ⟨_, s, rfl, ?_⟩
  by_cases hd : d ∈ s.dirs
  · simp only [hd, decide_true, if_true]
    refine Prog.total_op_bind trivial fun c hc => ⟨_, s, rfl, ?_⟩
    rw [hc.rank]
    refine (statAll_total trivial d _).bind (fun found s₁ _ h => ?_) fun e s₁ _ h => by cases h.2
    obtain ⟨rfl, hfound⟩ := h
    cases hfound
    exact Prog.total_ret trivial ⟨rfl, rfl⟩
  · simp only [hd, decide_false, Bool.false_eq_true, if_false]
    exact Prog.total_ret trivial ⟨rfl, rfl⟩

theorem fromRoster_still {sid : String} (hsid : agentIdOk sid = true) (msg : Json) :
    (fromRoster sid msg).Total world i (Still T ρ) (fun _ => True) s fun r s' =>
      s' = s ∧ r = senderCheck s sid msg := by
  refine Prog.Total.bind (M := fun r s' => s' = s ∧
    r = .ok (match s.files.get? ⟨.session sid, "session.json"⟩ with
      | some ⟨.json info, _, _⟩ => some info
      | _ => none)) ?_ ?_ fun e s₁ _ h => by cases h.2
  · refine require_total hsid (fileExists_total trivial ?_)
    cases hf : s.files.get? ⟨.session sid, "session.json"⟩ with
    | none => exact Prog.total_ret trivial ⟨rfl, rfl⟩
    | some f =>
      refine readBytes_still ?_
      rw [hf]
      obtain ⟨x, m, n⟩ := f
      cases x with
      | json info => exact Prog.total_ret trivial ⟨rfl, rfl⟩
      | junk => exact Prog.total_ret trivial ⟨rfl, rfl⟩
  · intro info s₁ _ h
    obtain ⟨rfl, hinfo⟩ := h
    obtain rfl := Except.ok.inj hinfo
    unfold senderCheck
    rcases s₁.files.get? ⟨.session sid, "session.json"⟩ with _ | ⟨info | _, m, n⟩
    · exact Prog.total_ret trivial ⟨rfl, rfl⟩
    · dsimp only
      split_ifs
      · exact Prog.total_ret trivial ⟨rfl, rfl⟩
      · exact Prog.total_raise trivial ⟨rfl, rfl⟩
      · cases rosterSet info with
        | none => exact Prog.total_raise trivial ⟨rfl, rfl⟩
        | some roster => exact Prog.total_ret trivial ⟨rfl, rfl⟩
    · exact Prog.total_ret trivial ⟨rfl, rfl⟩

end Rules

/-! ## Changes of the disk -/

section Changes

variable (a : ReadArgs)

theorem inbox_ne_processing : inbox a ≠ processing a :=
  fun h => absurd (box_inj h).2.2 (by decide)

/-- The drafts of claims may come and go, and nothing else. -/
structure Undisturbed (s t : Disk) : Prop where
  inbox : ∀ name, t.files.get? ⟨inbox a, name⟩ = s.files.get? ⟨inbox a, name⟩
  names : t.files.names (ReadLoop.inbox a) = s.files.names (ReadLoop.inbox a)
  session : t.files.get? ⟨.session a.sessionId, "session.json"⟩ =
    s.files.get? ⟨.session a.sessionId, "session.json"⟩
  claims : ∀ key, t.files.get? ⟨processing a, claimName key⟩ =
    s.files.get? ⟨processing a, claimName key⟩
  processing : ∀ name, (t.files.get? ⟨ReadLoop.processing a, name⟩).isSome = true →
    (s.files.get? ⟨ReadLoop.processing a, name⟩).isSome = true
  dirs : ReadLoop.inbox a ∈ t.dirs ↔ ReadLoop.inbox a ∈ s.dirs
  locks : t.locks = []

/-- A claim has been taken away, and at most one message is back in the inbox. -/
structure Reaped (claim : MPath) (s t : Disk) : Prop where
  gone : t.files.get? claim = none
  processing : ∀ name, (t.files.get? ⟨processing a, name⟩).isSome = true →
    (s.files.get? ⟨processing a, name⟩).isSome = true
  inbox : ∃ m, ∀ name, name ≠ m → (t.files.get? ⟨inbox a, name⟩).isSome = true →
    (s.files.get? ⟨inbox a, name⟩).isSome = true
  locks : t.locks = []

/-- The file `name` of the inbox has been put away. -/
structure Removed (name : String) (s t : Disk) : Prop where
  gone : t.files.get? ⟨inbox a, name⟩ = none
  inbox : ∀ other, other ≠ name → t.files.get? ⟨inbox a, other⟩ = s.files.get? ⟨inbox a, other⟩
  session : t.files.get? ⟨.session a.sessionId, "session.json"⟩ =
    s.files.get? ⟨.session a.sessionId, "session.json"⟩
  processing : ∀ name, t.files.get? ⟨processing a, name⟩ = s.files.get? ⟨processing a, name⟩
  dirs : ReadLoop.inbox a ∈ t.dirs ↔ ReadLoop.inbox a ∈ s.dirs
  locks : t.locks = []

end Changes

theorem isSome_del {files : Files Dir Data} {p q : MPath}
    (h : ((files.del p).get? q).isSome = true) : (files.get? q).isSome = true := by
  rw [Files.get?_del] at h
  split_ifs at h
  · cases h
  · exact h

theorem isSome_move {files : Files Dir Data} {src dst p : MPath}
    (hsrc : (files.get? src).isSome = true) (hp : p ≠ dst)
    (h : ((files.move src dst).get? p).isSome = true) : (files.get? p).isSome = true := by
  obtain ⟨f, hf⟩ := Option.isSome_iff_exists.mp hsrc
  rw [Files.get?_move hf, if_neg hp] at h
  split_ifs at h
  · cases h
  · exact h

section Claiming

variable {i T : ℕ} {ρ : String → ℕ} {a : ReadArgs} {s : Disk}

theorem reapLocked_still {claim : MPath} {msgId : String} {m n : ℕ} {j : Json} {ts : ℤ}
    (hf : s.files.get? claim = some ⟨.json j, m, n⟩) (hdict : j.isDict = true)
    (hts : claimTime j = some ts) (hold : ¬ leaseCutoff T ≤ ts) (hinbox : inbox a ∈ s.dirs) :
    (reapLocked (inbox a) (processing a) claim msgId ts (leaseCutoff T)).Total world i (Still T ρ)
      (fun _ => True) s fun r t => t.locks = s.locks ∧ r = .ok true ∧
        Reaped a claim s { t with locks := [] } := by
  unfold reapLocked
  refine Prog.Total.bind (M := fun r t => t = s ∧ r = .ok ts) ?_ ?_ fun e s₁ _ h => by cases h.2
  · refine Prog.Total.bind (M := fun r t => t = s ∧ r = .ok (some j)) ?_ ?_
      fun e s₁ _ h => by cases h.2
    · refine readBytes_still ?_
      rw [hf]
      dsimp only
      rw [if_pos hdict]
      exact Prog.total_ret trivial ⟨rfl, rfl⟩
    · intro info s₁ _ h
      obtain ⟨rfl, hinfo⟩ := h
      cases hinfo
      dsimp only
      rw [hts]
      exact Prog.total_ret trivial ⟨rfl, rfl⟩
  · intro now s₁ _ h
    obtain ⟨rfl, hnow⟩ := h
    cases hnow
    rw [if_neg hold]
    refine Prog.Total.bind (M := fun r t => r = .ok () ∧ t.locks = s₁.locks ∧
      (∀ name, (t.files.get? ⟨processing a, name⟩).isSome = true →
        (s₁.files.get? ⟨processing a, name⟩).isSome = true) ∧
      ∀ name, name ≠ jsonName msgId → (t.files.get? ⟨inbox a, name⟩).isSome = true →
        (s₁.files.get? ⟨inbox a, name⟩).isSome = true) ?_ ?_ fun e s₂ _ h => by cases h.1
    · refine fileExists_total trivial ?_
      split_ifs with hmsg
      · refine (replace_still hmsg hinbox).mono (fun _ h => h) fun r t _ h => ?_
        obtain ⟨hr, rfl⟩ := h
        refine ⟨hr, rfl, fun name => ?_, fun name hname => ?_⟩
        · exact isSome_move hmsg fun hp => inbox_ne_processing a (congrArg Path.dir hp).symm
        · exact isSome_move hmsg fun hp => hname (congrArg Path.name hp)
      · exact Prog.total_ret trivial ⟨rfl, rfl, fun _ h => h, fun _ _ h => h⟩
    · intro _ s₂ _ h
      obtain ⟨-, hlocks, hprocessing, hin⟩ := h
      refine unlink_still (Prog.total_ret trivial ⟨hlocks, rfl, ?_, fun name h => ?_,
        ⟨jsonName msgId, fun name hname h => ?_⟩, rfl⟩)
      · exact Files.get?_del_self _ _
      · exact hprocessing name (isSome_del h)
      · exact hin name hname (isSome_del h)

/-- The end of `_reap_expired_claim` when nobody else is about. -/
inductive ReapEnd (T : ℕ) (a : ReadArgs) (claim : MPath) (x : Data) (s : Disk) :
    Except PyErr Bool → Disk → Prop
  | held (h : judge T x = .held) : ReapEnd T a claim x s (.ok false) s
  | raises (h : judge T x = .raises) (e : PyErr) (t : Disk) : ReapEnd T a claim x s (.error e) t
  | reaped {t : Disk} (h : judge T x = .expired) (ht : Reaped a claim s t) :
      ReapEnd T a claim x s (.ok true) t

theorem reapExpiredClaim_still {claim : MPath} {f : MFile} (hf : s.files.get? claim = some f)
    (hinbox : inbox a ∈ s.dirs) (hfree : s.locks = []) :
    (reapExpiredClaim (inbox a) (processing a) claim).Total world i (Still T ρ) (fun _ => True) s
      (ReapEnd T a claim f.data s) := by
  obtain ⟨x, m, n⟩ := f
  unfold reapExpiredClaim
  refine clock_still ?_
  refine Prog.Total.bind (M := fun r t => t = s ∧ r = match x with
    | .junk => .ok none
    | .json j => if j.isDict then .ok (some j) else .error .attribute) ?_ ?_ ?_
  · refine readBytes_still ?_
    rw [hf]
    cases x with
    | junk => exact Prog.total_ret trivial ⟨rfl, rfl⟩
    | json j =>
      dsimp only
      split_ifs
      · exact Prog.total_ret trivial ⟨rfl, rfl⟩
      · exact Prog.total_raise trivial ⟨rfl, rfl⟩
  · intro info s₁ _ h
    obtain ⟨rfl, hinfo⟩ := h
    cases x with
    | junk =>
      cases hinfo
      exact Prog.total_ret trivial (.held rfl)
    | json j =>
      dsimp only at hinfo
      split_ifs at hinfo with hdict
      cases hinfo
      dsimp only
      cases hts : claimTime j with
      | none => exact Prog.total_ret trivial (.held (by simp [judge, hdict, hts]))
      | some ts =>
        dsimp only
        split_ifs with hfresh
        · exact Prog.total_ret trivial (.held (by simp [judge, hdict, hts, hfresh]))
        · have hexpired : judge T (.json j) = .expired := by simp [judge, hdict, hts, hfresh]
          refine claimLock_still hfree fun locks => ?_
          refine (reapLocked_still (s := { s₁ with locks := locks }) hf hdict hts hfresh
            hinbox).mono (fun _ h => h) fun r t _ h => ?_
          obtain ⟨hlocks, rfl, hreaped⟩ := h
          exact ⟨hlocks, .reaped hexpired
            ⟨hreaped.gone, hreaped.processing, hreaped.inbox, rfl⟩⟩
  · intro e s₁ _ h
    obtain ⟨rfl, he⟩ := h
    cases x with
    | junk => cases he
    | json j =>
      dsimp only at he
      split_ifs at he with hdict
      exact .raises (by simp [judge, hdict]) _ _

theorem undisturbed_of_draft {t : Disk} {key : String} {n : ℕ}
    (hget : ∀ p, p ≠ ⟨processing a, tmpClaimName key n⟩ → t.files.get? p = s.files.get? p)
    (hdraft : (t.files.get? ⟨processing a, tmpClaimName key n⟩).isSome = true →
      (s.files.get? ⟨processing a, tmpClaimName key n⟩).isSome = true)
    (hnames : t.files.names (inbox a) = s.files.names (inbox a))
    (hdirs : inbox a ∈ t.dirs ↔ inbox a ∈ s.dirs) (hlocks : t.locks = []) :
    Undisturbed a s t where
  inbox name := hget _ fun h => inbox_ne_processing a (congrArg Path.dir h)
  names := hnames
  session := hget _ fun h => Dir.noConfusion (congrArg Path.dir h)
  claims key' := hget _ fun h => claimName_ne_tmpClaimName _ _ _ (congrArg Path.name h)
  processing name h := by
    by_cases hp : (⟨processing a, name⟩ : MPath) = ⟨processing a, tmpClaimName key n⟩
    · rw [hp] at h ⊢
      exact hdraft h
    · rwa [hget _ hp] at h
  dirs := hdirs
  locks := hlocks

/-- How publishing a claim ends, from the disk `s`. -/
inductive GrabEnd (T : ℕ) (a : ReadArgs) (claim : MPath) (s : Disk) :
    Except PyErr Grab → Disk → Prop
  | draft {t : Disk} {n : String} (ht : Undisturbed a s t)
      (hs : (s.files.get? ⟨processing a, n⟩).isSome = true)
      (hgone : t.files.get? ⟨processing a, n⟩ = none) : GrabEnd T a claim s (.ok .retry) t
  | mine {t : Disk} (h : s.files.get? claim = none)
      (hinbox : ∀ name, t.files.get? ⟨inbox a, name⟩ = s.files.get? ⟨inbox a, name⟩)
      (hdirs : t.dirs = s.dirs) : GrabEnd T a claim s (.ok .mine) t
  | held {f : MFile} {t : Disk} (hf : s.files.get? claim = some f) (h : judge T f.data = .held)
      (ht : Undisturbed a s t) : GrabEnd T a claim s (.ok .contested) t
  | raises {f : MFile} (hf : s.files.get? claim = some f) (h : judge T f.data = .raises)
      (e : PyErr) (t : Disk) : GrabEnd T a claim s (.error e) t
  | reaped {f : MFile} {t : Disk} (hf : s.files.get? claim = some f)
      (h : judge T f.data = .expired) (ht : Reaped a claim s t) : GrabEnd T a claim s (.ok .retry) t

theorem publishClaim_still {key : String} {n : ℕ} (x : Json) (hdir : processing a ∈ s.dirs)
    (hinbox : inbox a ∈ s.dirs) (hfree : s.locks = []) :
    (publishClaim (inbox a) (processing a) ⟨processing a, claimName key⟩
      ⟨processing a, tmpClaimName key n⟩ x).Total world i (Still T ρ) (fun _ => True) s
        (GrabEnd T a ⟨processing a, claimName key⟩ s) := by
  obtain ⟨draft, hdraft⟩ : ∃ p, p = (⟨processing a, tmpClaimName key n⟩ : MPath) := ⟨_, rfl⟩
  obtain ⟨claim, hclaim⟩ : ∃ p, p = (⟨processing a, claimName key⟩ : MPath) := ⟨_, rfl⟩
  have hne : claim ≠ draft := by
    rw [hclaim, hdraft]
    exact fun h => claimName_ne_tmpClaimName _ _ _ (congrArg Path.name h)
  have hdd : draft.dir ≠ inbox a := by
    rw [hdraft]
    exact (inbox_ne_processing a).symm
  rw [← hdraft, ← hclaim]
  refine writeNew_still (by rw [hdraft]; exact hdir) (fun g hg => ?_) fun hnew => ?_
  · refine unlink_still (Prog.total_ret trivial (.draft (n := tmpClaimName key n) ?_ ?_ ?_))
    · refine @undisturbed_of_draft a s _ key n (fun p hp => ?_) (fun h => ?_)
        (Files.names_del_ne _ hdd) Iff.rfl hfree
      · rw [← hdraft] at hp
        exact Files.get?_del_ne _ hp
      · exact isSome_del h
    · rw [← hdraft, hg]
      rfl
    · rw [← hdraft]
      exact Files.get?_del_self _ _
  · obtain ⟨m, hwrite⟩ := Files.get?_write s.files draft (.json x) T
    refine link_still (s := s.write draft (.json x) T) ((hwrite draft).trans (if_pos rfl))
      (by rw [hclaim]; exact hdir) (fun f hf => ?_) fun hfree' => ?_
    · -- the draft goes again, and the disk holds what it held
      refine unlink_still ?_
      have hget (p : MPath) : ((s.write draft (.json x) T).files.del draft).get? p =
          s.files.get? p := by
        rw [Files.get?_del]
        split_ifs with hp
        · rw [hp, hnew]
        · exact Files.get?_write_ne _ _ _ hp
      have hf : s.files.get? claim = some f := (Files.get?_write_ne _ _ _ hne).symm.trans hf
      have hsame : Undisturbed a s
          { s.write draft (.json x) T with files := (s.write draft (.json x) T).files.del draft } :=
        @undisturbed_of_draft a s _ key n (fun p _ => hget p) (fun h => hget _ ▸ h)
          ((Files.names_del_ne _ hdd).trans (Files.names_write_ne _ _ _ hdd)) Iff.rfl hfree
      refine (reapExpiredClaim_still (s := { s.write draft (.json x) T with
        files := (s.write draft (.json x) T).files.del draft }) ((hget claim).trans hf) hinbox
        hfree).bind
        (fun b t _ h => ?_) fun e t _ h => ?_
      · cases h with
        | held h => exact Prog.total_ret trivial (.held hf h hsame)
        | reaped h ht =>
          refine Prog.total_ret trivial (.reaped hf h ⟨ht.gone, fun name hn => ?_, ?_, ht.locks⟩)
          · exact hget _ ▸ ht.processing name hn
          · obtain ⟨m, hm⟩ := ht.inbox
            exact ⟨m, fun name hname hn => hget _ ▸ hm name hname hn⟩
      · cases h with
        | raises h => exact .raises hf h _ _
    · refine Prog.total_ret trivial (.mine ?_ (fun name => ?_) rfl)
      · exact (Files.get?_write_ne _ _ _ hne).symm.trans hfree'
      · have hp (q : MPath) (hq : q.dir = processing a) : (⟨inbox a, name⟩ : MPath) ≠ q :=
          fun h => inbox_ne_processing a ((congrArg Path.dir h).trans hq)
        refine (Files.get?_put_ne _ _ (hp claim (by rw [hclaim]))).trans ?_
        exact Files.get?_write_ne _ _ _ (hp draft (by rw [hdraft]))

/-- What a pass makes of a message that has passed the checks. -/
inductive ClaimEnd (T : ℕ) (a : ReadArgs) (contested : List String) (name : String) (s : Disk) :
    Except PyErr Pass → Disk → Prop
  | draft {t : Disk} {n : String} (h : Undisturbed a s t)
      (hs : (s.files.get? ⟨processing a, n⟩).isSome = true)
      (ht : t.files.get? ⟨processing a, n⟩ = none) :
      ClaimEnd T a contested name s (.ok (.again contested)) t
  | taken (h : s.files.get? (claimAt a (stem name)) = none) (m : Option Json) (t : Disk) :
      ClaimEnd T a contested name s (.ok (.done m)) t
  | held {f : MFile} {t : Disk} (hf : s.files.get? (claimAt a (stem name)) = some f)
      (h : judge T f.data = .held) (ht : Undisturbed a s t) :
      ClaimEnd T a contested name s (.ok (.again (stem name :: contested))) t
  | raises {f : MFile} (hf : s.files.get? (claimAt a (stem name)) = some f)
      (h : judge T f.data = .raises) (e : PyErr) (t : Disk) :
      ClaimEnd T a contested name s (.error e) t
  | reaped {f : MFile} {t : Disk} (hf : s.files.get? (claimAt a (stem name)) = some f)
      (h : judge T f.data = .expired) (ht : Reaped a (claimAt a (stem name)) s t) :
      ClaimEnd T a contested name s (.ok (.again contested)) t

theorem claimTarget_still {name : String} {g : MFile} (msg : Json) (contested : List String)
    (hname : s.files.get? ⟨inbox a, name⟩ = some g) (hinbox : inbox a ∈ s.dirs)
    (hfree : s.locks = []) :
    (claimTarget a contested name msg).Total world i (Still T ρ) (fun _ => True) s
      (ClaimEnd T a contested name s) := by
  unfold claimTarget
  refine mkdir_total trivial fun dirs hdirs => ?_
  refine Prog.total_op_bind trivial fun c _ => ⟨c.number, _, rfl, clock_still ?_⟩
  have hin : inbox a ∈ dirs := (hdirs _).mpr (.inr hinbox)
  have hof (t : Disk) (h : Undisturbed a { s with dirs := dirs } t) : Undisturbed a s t :=
    ⟨h.inbox, h.names, h.session, h.claims, h.processing,
      ⟨fun _ => hinbox, fun _ => h.dirs.mpr hin⟩, h.locks⟩
  refine (publishClaim_still (a := a) (s := { s with dirs := dirs })
    (claimMeta (stem name) a.owner T) ((hdirs _).mpr (.inl rfl)) hin hfree).bind
      (fun b t _ h => ?_) fun e t _ h => ?_
  · cases h with
    | draft ht hs hgone => exact Prog.total_ret trivial (.draft (hof t ht) hs hgone)
    | held hf h ht => exact Prog.total_ret trivial (.held hf h (hof t ht))
    | reaped hf h ht =>
      exact Prog.total_ret trivial (.reaped hf h ⟨ht.gone, ht.processing, ht.inbox, ht.locks⟩)
    | mine h hsame hd =>
      have hsrc : (t.files.get? ⟨inbox a, name⟩).isSome = true := by
        rw [hsame name]
        exact Option.isSome_iff_exists.mpr ⟨g, hname⟩
      refine tryReplace_total trivial hsrc (by rw [hd]; exact (hdirs _).mpr (.inl rfl)) ?_ ?_
      · intro hc
        obtain ⟨c, hc, hfault⟩ := hc
        rw [hc.fault] at hfault
        cases hfault
      · have h : s.files.get? (claimAt a (stem name)) = none := h
        exact unlink_still (Prog.total_ret trivial (.taken h _ _))
  · cases h with
    | raises hf h => exact .raises (s := s) hf h _ _

end Claiming

/-! ## The measure of the loop -/

section Measure

variable {a : ReadArgs} {s t : Disk} {d : Dir}

/-- The number of files in a directory. -/
def filesIn (s : Disk) (d : Dir) : ℕ := (s.files.names d).toFinset.card

theorem mem_namesIn {name : String} :
    name ∈ (s.files.names d).toFinset ↔ (s.files.get? ⟨d, name⟩).isSome = true := by
  rw [List.mem_toFinset, Files.mem_names, Option.isSome_iff_exists]

theorem filesIn_le (h : ∀ name, (t.files.get? ⟨d, name⟩).isSome = true →
    (s.files.get? ⟨d, name⟩).isSome = true) : filesIn t d ≤ filesIn s d :=
  Finset.card_le_card fun name hn => mem_namesIn.mpr (h name (mem_namesIn.mp hn))

theorem filesIn_lt {name : String} (h : ∀ name, (t.files.get? ⟨d, name⟩).isSome = true →
    (s.files.get? ⟨d, name⟩).isSome = true) (hs : (s.files.get? ⟨d, name⟩).isSome = true)
    (ht : t.files.get? ⟨d, name⟩ = none) : filesIn t d < filesIn s d := by
  refine Finset.card_lt_card ⟨fun n hn => mem_namesIn.mpr (h n (mem_namesIn.mp hn)), fun hsub => ?_⟩
  have hin := mem_namesIn.mp (hsub (mem_namesIn.mpr hs))
  rw [ht] at hin
  cases hin

theorem filesIn_le_succ {m : String} (h : ∀ name, name ≠ m →
    (t.files.get? ⟨d, name⟩).isSome = true → (s.files.get? ⟨d, name⟩).isSome = true) :
    filesIn t d ≤ filesIn s d + 1 := by
  have hsub : (t.files.names d).toFinset ⊆ insert m (s.files.names d).toFinset := by
    intro n hn
    rw [Finset.mem_insert]
    by_cases he : n = m
    · exact .inl he
    · exact .inr (mem_namesIn.mpr (h n he (mem_namesIn.mp hn)))
  exact (Finset.card_le_card hsub).trans (Finset.card_insert_le _ _)

/-- The files of the inbox whose message has not been given up. -/
def pending (a : ReadArgs) (s : Disk) (contested : List String) : ℕ :=
  ((s.files.names (inbox a)).toFinset.filter fun name => stem name ∉ contested).card

theorem pending_le (contested : List String) : pending a s contested ≤ filesIn s (inbox a) :=
  Finset.card_filter_le _ _

theorem pending_lt {contested : List String} {name : String}
    (hnames : t.files.names (inbox a) = s.files.names (inbox a))
    (hin : (s.files.get? ⟨inbox a, name⟩).isSome = true) (hname : stem name ∉ contested) :
    pending a t (stem name :: contested) < pending a s contested := by
  unfold pending
  rw [hnames]
  refine Finset.card_lt_card ⟨fun n hn => ?_, fun hsub => ?_⟩
  · rw [Finset.mem_filter, List.mem_cons, not_or] at hn
    exact Finset.mem_filter.mpr ⟨hn.1, hn.2.2⟩
  · have hmem := hsub (Finset.mem_filter.mpr ⟨mem_namesIn.mpr hin, hname⟩)
    exact (Finset.mem_filter.mp hmem).2 List.mem_cons_self

/-- A claim counts twice, since taking it away may bring a message back. -/
def burden (a : ReadArgs) (s : Disk) : ℕ :=
  2 * filesIn s (processing a) + filesIn s (inbox a)

/-- The passes that are left: a message may be given up between any two changes of the disk. -/
def weight (a : ReadArgs) (s : Disk) (contested : List String) : ℕ :=
  burden a s * (burden a s + 1) + pending a s contested

theorem weight_lt_of_burden {c c' : List String} (h : burden a t < burden a s) :
    weight a t c' < weight a s c := by
  have hpending : pending a t c' ≤ burden a t := by
    have := pending_le (a := a) (s := t) c'
    unfold burden
    omega
  have hmul : (burden a t + 1) * (burden a t + 2) ≤ burden a s * (burden a s + 1) :=
    Nat.mul_le_mul h (Nat.succ_le_succ h)
  have hexpand : (burden a t + 1) * (burden a t + 2) =
      burden a t * (burden a t + 1) + 2 * (burden a t + 1) := by
    rw [Nat.mul_comm, Nat.add_mul]
  unfold weight
  omega

theorem weight_lt_of_pending {c c' : List String} (h : burden a t = burden a s)
    (hp : pending a t c' < pending a s c) : weight a t c' < weight a s c := by
  unfold weight
  rw [h]
  exact Nat.add_lt_add_left hp _

theorem burden_lt_of_removed {name : String} (h : Removed a name s t)
    (hs : (s.files.get? ⟨inbox a, name⟩).isSome = true) : burden a t < burden a s := by
  have hin : filesIn t (inbox a) < filesIn s (inbox a) := by
    refine filesIn_lt (fun other ho => ?_) hs h.gone
    by_cases he : other = name
    · rw [he]; exact hs
    · rwa [h.inbox other he] at ho
  have hprocessing : filesIn t (processing a) ≤ filesIn s (processing a) :=
    filesIn_le fun n hn => by rwa [h.processing n] at hn
  unfold burden
  omega

theorem burden_lt_of_reaped {key : String} (h : Reaped a ⟨processing a, claimName key⟩ s t)
    (hs : (s.files.get? ⟨processing a, claimName key⟩).isSome = true) :
    burden a t < burden a s := by
  have hprocessing := filesIn_lt h.processing hs h.gone
  obtain ⟨m, hm⟩ := h.inbox
  have hin := filesIn_le_succ hm
  unfold burden
  omega

theorem burden_le_of_undisturbed (h : Undisturbed a s t) : burden a t ≤ burden a s := by
  have hprocessing := filesIn_le h.processing
  have hin : filesIn t (inbox a) = filesIn s (inbox a) :=
    congrArg (fun l : List String => l.toFinset.card) h.names
  unfold burden
  omega

theorem burden_lt_of_draft (h : Undisturbed a s t) {n : String}
    (hs : (s.files.get? ⟨processing a, n⟩).isSome = true)
    (ht : t.files.get? ⟨processing a, n⟩ = none) : burden a t < burden a s := by
  have hprocessing := filesIn_lt h.processing hs ht
  have hin : filesIn t (inbox a) = filesIn s (inbox a) :=
    congrArg (fun l : List String => l.toFinset.card) h.names
  unfold burden
  omega

end Measure

/-! ## One pass -/

section Pass

variable {i T : ℕ} {ρ : String → ℕ} {a : ReadArgs} {s t : Disk} {contested : List String}
  {name : String}

theorem mem_listing {d : Dir} : name ∈ listing ρ s d ↔
    d ∈ s.dirs ∧ isMessageName name = true ∧ (s.files.get? ⟨d, name⟩).isSome = true := by
  unfold listing
  split_ifs with hd
  · simp only [List.mem_map, List.mem_insertionSort, List.mem_filterMap, List.mem_filter,
      Files.mem_names, Option.map_eq_some_iff, Prod.exists, hd, true_and]
    constructor
    · intro h
      obtain ⟨_, time, ⟨n, ⟨-, hm⟩, f, hf, he⟩, rfl⟩ := h
      cases he
      exact ⟨hm, Option.isSome_iff_exists.mpr ⟨f, hf⟩⟩
    · intro h
      obtain ⟨f, hf⟩ := Option.isSome_iff_exists.mp h.2
      exact ⟨name, f.mtime, ⟨name, ⟨⟨f, hf⟩, h.1⟩, f, hf, rfl⟩, rfl⟩
  · exact ⟨fun h => absurd h List.not_mem_nil, fun h => absurd h.1 hd⟩

theorem listing_congr (h : Undisturbed a s t) :
    listing ρ t (inbox a) = listing ρ s (inbox a) := by
  unfold listing
  simp only [h.dirs, h.names, h.inbox]

theorem verdict_congr (hfile : t.files.get? ⟨inbox a, name⟩ = s.files.get? ⟨inbox a, name⟩)
    (hsession : t.files.get? ⟨.session a.sessionId, "session.json"⟩ =
      s.files.get? ⟨.session a.sessionId, "session.json"⟩) :
    verdict t a name = verdict s a name := by
  unfold verdict senderCheck
  rw [hfile, hsession]

theorem spins_congr (h : Undisturbed a s t) : Spins T ρ a t ↔ Spins T ρ a s := by
  have hverdict (n : String) : verdict t a n = verdict s a n :=
    verdict_congr (h.inbox n) h.session
  unfold Spins aimedAt claimAt
  simp only [hverdict, h.claims, listing_congr h]

/-- At most two message files have one stem, and the second is called `.json`. -/
theorem name_of_stem (h : isMessageName name = true) :
    name = ".json" ∨ name = jsonName (stem name) := by
  rw [isMessageName, Bool.and_eq_true, Bool.and_eq_true] at h
  by_cases hn : name = ".json"
  · exact .inl hn
  · exact .inr (jsonName_stem_of_ne h.1.1 hn).symm

theorem eq_of_stem {x y : String} (hname : isMessageName name = true)
    (hx : isMessageName x = true) (hy : isMessageName y = true) (hsx : stem x = stem name)
    (hsy : stem y = stem name) (hnx : x ≠ name) (hny : y ≠ name) : x = y := by
  have h₁ := name_of_stem hname
  have h₂ := name_of_stem hx
  have h₃ := name_of_stem hy
  rw [hsx] at h₂
  rw [hsy] at h₃
  grind

theorem find?_eq_of_unique {β : Type} {p q : β → Bool} {l l' : List β}
    (h : ∀ x, (x ∈ l ∧ p x = true) ↔ (x ∈ l' ∧ q x = true))
    (hone : ∀ x y, x ∈ l → p x = true → y ∈ l → p y = true → x = y) :
    l.find? p = l'.find? q := by
  cases hl : l.find? p with
  | none =>
    refine (List.find?_eq_none.mpr fun x hx hq => ?_).symm
    obtain ⟨hx', hp⟩ := (h x).mpr ⟨hx, hq⟩
    exact absurd hp (List.find?_eq_none.mp hl x hx')
  | some x =>
    have hx := (h x).mp ⟨List.mem_of_find?_eq_some hl, List.find?_some hl⟩
    cases hl' : l'.find? q with
    | none => exact absurd hx.2 (List.find?_eq_none.mp hl' x hx.1)
    | some y =>
      have hy := (h y).mpr ⟨List.mem_of_find?_eq_some hl', List.find?_some hl'⟩
      exact congrArg some (hone x y (List.mem_of_find?_eq_some hl) (List.find?_some hl) hy.1 hy.2)

/-! ### What a pass goes for -/

theorem pickTarget_aimed {files : List String} {u : String} (h : a.targetMsgId = some u)
    (hu : u ≠ "") : pickTarget a contested files = files.find? fun f => stem f = u := by
  simp only [pickTarget, h, if_pos hu]

theorem pickTarget_open {files : List String} (h : pickTarget a contested files = some name)
    (ha : ∀ u, a.targetMsgId = some u → u = "") : stem name ∉ contested := by
  have hfind : files.find? (fun f => stem f ∉ a.skipMsgIds && stem f ∉ contested) = some name := by
    unfold pickTarget at h
    split at h
    · next u hu =>
      rwa [if_neg (not_not.mpr (ha u hu))] at h
    · exact h
  have := List.find?_some hfind
  simp only [Bool.and_eq_true, decide_eq_true_eq] at this
  exact this.2

theorem not_spins_of_none (h : pickTarget a contested (listing ρ s (inbox a)) = none) :
    ¬ Spins T ρ a s := by
  rintro ⟨u, hu, hne, ⟨n, msg, hn, -⟩, -⟩
  rw [pickTarget_aimed hu hne] at h
  have hstem := List.find?_some hn
  rw [Bool.and_eq_true] at hstem
  exact absurd hstem.1 (List.find?_eq_none.mp h n (List.mem_of_find?_eq_some hn))

theorem spins_iff (h : pickTarget a contested (listing ρ s (inbox a)) = some name)
    (hv : verdict s a name ≠ .putAway) : Spins T ρ a s ↔
      (∃ u, a.targetMsgId = some u ∧ u ≠ "") ∧ (∃ msg, verdict s a name = .passes msg) ∧
        ∃ f, s.files.get? (claimAt a (stem name)) = some f ∧ judge T f.data = .held := by
  have haim {u : String} (hu : a.targetMsgId = some u) (hne : u ≠ "") :
      aimedAt ρ a s u = some name ∧ stem name = u := by
    rw [pickTarget_aimed hu hne] at h
    have hstem : stem name = u := by simpa using List.find?_some h
    refine ⟨?_, hstem⟩
    obtain ⟨-, l₁, l₂, hl, hbefore⟩ := List.find?_eq_some_iff_append.mp h
    refine List.find?_eq_some_iff_append.mpr ⟨by simp [hstem, hv], l₁, l₂, hl, fun x hx => ?_⟩
    have := hbefore x hx
    simp_all
  constructor
  · rintro ⟨u, hu, hne, ⟨n, msg, hn, hpass⟩, hclaim⟩
    obtain ⟨hname, hstem⟩ := haim hu hne
    rw [hname] at hn
    cases hn
    rw [hstem]
    exact ⟨⟨u, hu, hne⟩, ⟨msg, hpass⟩, hclaim⟩
  · rintro ⟨⟨u, hu, hne⟩, ⟨msg, hpass⟩, hclaim⟩
    obtain ⟨hname, hstem⟩ := haim hu hne
    rw [hstem] at hclaim
    exact ⟨u, hu, hne, ⟨name, msg, hname, hpass⟩, hclaim⟩

theorem spins_of_removed (h : pickTarget a contested (listing ρ s (inbox a)) = some name)
    (hv : verdict s a name = .putAway) (ht : Removed a name s t) :
    Spins T ρ a t ↔ Spins T ρ a s := by
  obtain ⟨-, hmessage, -⟩ := mem_listing.mp (pickTarget_mem h)
  have hverdict {x : String} (hx : x ≠ name) : verdict t a x = verdict s a x :=
    verdict_congr (ht.inbox x hx) ht.session
  have hclaim (u : String) : t.files.get? (claimAt a u) = s.files.get? (claimAt a u) :=
    ht.processing _
  have haim {u : String} (hu : a.targetMsgId = some u) (hne : u ≠ "") :
      aimedAt ρ a t u = aimedAt ρ a s u := by
    have hstem : stem name = u := by
      rw [pickTarget_aimed hu hne] at h
      simpa using List.find?_some h
    have hleft {x : String} (hx : verdict s a x ≠ .putAway) : x ≠ name := by
      rintro rfl
      exact hx hv
    refine (find?_eq_of_unique (fun x => ?_) fun x y hx hpx hy hpy => ?_).symm
    · by_cases hx : x = name
      · subst hx
        refine ⟨fun hin => ?_, fun hin => ?_⟩
        · rw [Bool.and_eq_true, decide_eq_true_eq] at hin
          exact absurd hv (of_decide_eq_true hin.2.2)
        · have hgone := (mem_listing.mp hin.1).2.2
          rw [ht.gone] at hgone
          cases hgone
      · rw [mem_listing, mem_listing, hverdict hx, ht.inbox x hx, ht.dirs]
    · rw [Bool.and_eq_true, decide_eq_true_eq] at hpx hpy
      exact eq_of_stem hmessage (mem_listing.mp hx).2.1 (mem_listing.mp hy).2.1
        (hpx.1.trans hstem.symm) (hpy.1.trans hstem.symm) (hleft (of_decide_eq_true hpx.2))
        (hleft (of_decide_eq_true hpy.2))
  refine exists_congr fun u => and_congr_right fun hu => and_congr_right fun hne => ?_
  rw [haim hu hne, hclaim]
  refine and_congr_left' (exists_congr fun n => exists_congr fun msg => and_congr_right fun hn => ?_)
  have hnotaway := List.find?_some hn
  rw [Bool.and_eq_true] at hnotaway
  rw [hverdict]
  rintro rfl
  exact of_decide_eq_true hnotaway.2 hv

/-! ### How a pass ends -/

/-- A pass that ends the call was not spinning; one that looks again has made progress, unless
the call spins before and after it. -/
def PassEnd (T : ℕ) (ρ : String → ℕ) (a : ReadArgs) (contested : List String) (s : Disk) :
    Except PyErr Pass → Disk → Prop
  | .ok (.again c), t => t.locks = [] ∧ (Spins T ρ a t ↔ Spins T ρ a s) ∧
    (Spins T ρ a s ∨ weight a t c < weight a s contested)
  | _, _ => ¬ Spins T ρ a s

theorem passEnd_of_removed (h : pickTarget a contested (listing ρ s (inbox a)) = some name)
    (hv : verdict s a name = .putAway) (ht : Removed a name s t) :
    PassEnd T ρ a contested s (.ok (.again contested)) t :=
  ⟨ht.locks, spins_of_removed h hv ht, .inr (weight_lt_of_burden
    (burden_lt_of_removed ht (mem_listing.mp (pickTarget_mem h)).2.2))⟩

theorem passEnd_of_claim (h : pickTarget a contested (listing ρ s (inbox a)) = some name)
    {msg : Json} (hv : verdict s a name = .passes msg) {r : Except PyErr Pass}
    (hend : ClaimEnd T a contested name s r t) : PassEnd T ρ a contested s r t := by
  have hspins := spins_iff (T := T) h (by rw [hv]; exact Verdict.noConfusion)
  have hnot {f : MFile} (hf : s.files.get? (claimAt a (stem name)) = some f)
      (hj : judge T f.data ≠ .held) : ¬ Spins T ρ a s := by
    rw [hspins]
    rintro ⟨-, -, g, hg, hheld⟩
    rw [hf] at hg
    cases hg
    exact hj hheld
  cases hend with
  | draft ht hs hgone =>
    exact ⟨ht.locks, spins_congr ht, .inr (weight_lt_of_burden (burden_lt_of_draft ht hs hgone))⟩
  | taken hfree =>
    refine fun hs => ?_
    obtain ⟨-, -, f, hf, -⟩ := hspins.mp hs
    rw [hfree] at hf
    cases hf
  | held hf hj ht =>
    refine ⟨ht.locks, spins_congr ht, ?_⟩
    by_cases ha : ∃ u, a.targetMsgId = some u ∧ u ≠ ""
    · exact .inl (hspins.mpr ⟨ha, ⟨msg, hv⟩, _, hf, hj⟩)
    · refine .inr ?_
      have hopen : stem name ∉ contested := pickTarget_open h fun u hu => by_contra fun hne =>
        ha ⟨u, hu, hne⟩
      have hpending := pending_lt ht.names (mem_listing.mp (pickTarget_mem h)).2.2 hopen
      rcases Nat.lt_or_eq_of_le (burden_le_of_undisturbed ht) with hless | hsame
      · exact weight_lt_of_burden hless
      · exact weight_lt_of_pending hsame hpending
  | raises hf hj => exact hnot hf (by rw [hj]; exact Judgement.noConfusion)
  | reaped hf hj ht =>
    have hbefore := hnot hf (by rw [hj]; exact Judgement.noConfusion)
    have hafter : ¬ Spins T ρ a t := by
      rintro ⟨u, hu, hne, -, g, hg, -⟩
      rw [pickTarget_aimed hu hne] at h
      have hstem : stem name = u := by simpa using List.find?_some h
      rw [← hstem, ht.gone] at hg
      cases hg
    exact ⟨ht.locks, iff_of_false hafter hbefore, .inr (weight_lt_of_burden
      (burden_lt_of_reaped ht (Option.isSome_iff_exists.mpr ⟨_, hf⟩)))⟩

theorem removed_of_move {dirs : List Dir} (hin : (s.files.get? ⟨inbox a, name⟩).isSome = true)
    (hdirs : inbox a ∈ dirs ↔ inbox a ∈ s.dirs) (hfree : s.locks = []) :
    Removed a name s { s with
      dirs := dirs
      files := s.files.move ⟨inbox a, name⟩ ⟨.box a.sessionId a.agentId .corrupt, name⟩ } := by
  have hbox {b : Box} {n : String} (hb : b ≠ .corrupt) : (⟨.box a.sessionId a.agentId b, n⟩ : MPath) ≠
      ⟨.box a.sessionId a.agentId .corrupt, name⟩ := fun h => hb (box_inj (congrArg Path.dir h)).2.2
  obtain ⟨f, hf⟩ := Option.isSome_iff_exists.mp hin
  refine ⟨?_, fun other ho => ?_, ?_, fun n => ?_, hdirs, hfree⟩
  · have hne : (⟨inbox a, name⟩ : MPath) ≠ ⟨.box a.sessionId a.agentId .corrupt, name⟩ :=
      hbox (by decide)
    exact (Files.get?_move hf _ _).trans ((if_neg hne).trans (if_pos rfl))
  · exact Files.get?_move_ne _ (fun h => ho (congrArg Path.name h)) (hbox (by decide))
  · exact Files.get?_move_ne _ (fun h => Dir.noConfusion (congrArg Path.dir h))
      fun h => Dir.noConfusion (congrArg Path.dir h)
  · exact Files.get?_move_ne _ (fun h => inbox_ne_processing a (congrArg Path.dir h).symm)
      (hbox (by decide))

theorem corrupt_dirs {dirs : List Dir} (h : ∀ d, d ∈ dirs ↔
    d = .box a.sessionId a.agentId .corrupt ∨ d ∈ s.dirs) : inbox a ∈ dirs ↔ inbox a ∈ s.dirs :=
  (h _).trans (or_iff_right fun hd => absurd (box_inj hd).2.2 (by decide))

theorem quarantine_still (hin : (s.files.get? ⟨inbox a, name⟩).isSome = true)
    (hfree : s.locks = []) :
    (quarantine a name).Total world i (Still T ρ) (fun _ => True) s fun r t =>
      r = .ok () ∧ Removed a name s t := by
  refine mkdir_total trivial fun dirs hdirs => ?_
  refine (replace_still (s := { s with dirs := dirs }) hin ((hdirs _).mpr (.inl rfl))).mono
    (fun _ h => h) fun r t _ h => ?_
  obtain ⟨hr, rfl⟩ := h
  exact ⟨hr, removed_of_move hin (corrupt_dirs hdirs) hfree⟩

theorem readPass_still (hsid : agentIdOk a.sessionId = true) (hfree : s.locks = []) :
    (readPass a contested).Total world i (Still T ρ) (fun _ => True) s
      (PassEnd T ρ a contested s) := by
  refine (listMessages_still (inbox a)).bind (fun files s₁ _ h => ?_) fun e s₁ _ h => by cases h.2
  obtain ⟨rfl, hfiles⟩ := h
  obtain rfl := Except.ok.inj hfiles
  cases hpick : pickTarget a contested (listing ρ s₁ (inbox a)) with
  | none => exact Prog.total_ret trivial (not_spins_of_none hpick)
  | some name =>
    obtain ⟨hinbox, -, hin⟩ := mem_listing.mp (pickTarget_mem hpick)
    obtain ⟨⟨x, m, n⟩, hf⟩ := Option.isSome_iff_exists.mp hin
    refine readBytes_still ?_
    rw [show s₁.files.get? ⟨.box a.sessionId a.agentId .inbox, name⟩ = _ from hf]
    cases x with
    | junk =>
      have hv : verdict s₁ a name = .putAway := by rw [verdict, hf]
      refine mkdir_total trivial fun dirs hdirs => ?_
      refine tryReplace_total trivial hin ((hdirs _).mpr (.inl rfl)) ?_ ?_
      · intro hc
        obtain ⟨c, hc, hfault⟩ := hc
        rw [hc.fault] at hfault
        cases hfault
      · exact Prog.total_ret trivial (passEnd_of_removed hpick hv
          (removed_of_move hin (corrupt_dirs hdirs) hfree))
    | json msg =>
      have hverdict := verdict.eq_def s₁ a name
      rw [hf] at hverdict
      have hquarantine (hv : verdict s₁ a name = .putAway) :
          (do quarantine a name; return .again contested : Call Pass).Total world i (Still T ρ)
            (fun _ => True) s₁ (PassEnd T ρ a contested s₁) := by
        refine (quarantine_still hin hfree).bind (fun _ t _ h => ?_) fun e t _ h => by cases h.1
        exact Prog.total_ret trivial (passEnd_of_removed hpick hv h.2)
      have hraises {e : PyErr} (hv : verdict s₁ a name = .raises e) : ¬ Spins T ρ a s₁ := by
        rw [spins_iff hpick (by rw [hv]; exact Verdict.noConfusion)]
        rintro ⟨-, ⟨msg', hmsg⟩, -⟩
        rw [hv] at hmsg
        cases hmsg
      dsimp only at hverdict ⊢
      unfold examine
      cases hvalid : validateMessage msg (some a.sessionId) (some a.agentId) (some name) with
      | error why =>
        rw [hvalid] at hverdict
        cases why with
        | typeError why => exact Prog.total_raise trivial (hraises hverdict)
        | reject why => exact hquarantine hverdict
      | ok u =>
        rw [hvalid] at hverdict
        refine (fromRoster_still hsid msg).bind (fun b t _ h => ?_) fun e t _ h => ?_
        · obtain ⟨rfl, hb⟩ := h
          rw [← hb] at hverdict
          cases b with
          | false => exact hquarantine hverdict
          | true =>
            exact (claimTarget_still msg contested hf hinbox hfree).mono (fun _ h => h)
              fun r t' _ h => passEnd_of_claim hpick hverdict h
        · obtain ⟨rfl, he⟩ := h
          rw [← he] at hverdict
          exact hraises hverdict

end Pass

/-! ## The loop -/

section Loop

variable {i T : ℕ} {ρ : String → ℕ} {a : ReadArgs}

theorem readLoop_total (hsid : agentIdOk a.sessionId = true) {n : ℕ} {s : Disk}
    {contested : List String} (hfree : s.locks = []) (hspins : ¬ Spins T ρ a s)
    (hn : weight a s contested < n) :
    (readLoop a n contested).Total world i (Still T ρ) (fun _ => True) s fun _ _ => True := by
  induction n generalizing s contested with
  | zero => exact absurd hn (Nat.not_lt_zero _)
  | succ n ih =>
    refine (readPass_still hsid hfree).bind (fun p t _ h => ?_) fun _ _ _ _ => trivial
    cases p with
    | done r => exact Prog.total_ret trivial trivial
    | again c =>
      obtain ⟨hfree', hiff, hless⟩ := h
      have hless := hless.resolve_left hspins
      exact ih hfree' (mt hiff.mp hspins) (by omega)

theorem readLoop_spins (hsid : agentIdOk a.sessionId = true) (n : ℕ) {s : Disk}
    {contested : List String} (hfree : s.locks = []) (hspins : Spins T ρ a s) :
    (readLoop a n contested).Ends world i (Still T ρ) s fun _ _ => False := by
  induction n generalizing s contested with
  | zero => exact fun r t h => by cases h
  | succ n ih =>
    refine (readPass_still (T := T) (ρ := ρ) hsid hfree).ends.bind (fun p t h => ?_) fun e t h => ?_
    · cases p with
      | done r => exact absurd hspins h
      | again c =>
        obtain ⟨hfree', hiff, -⟩ := h
        exact ih hfree' (hiff.mpr hspins)
    · exact h hspins

theorem read_eq (n : ℕ) (hsid : agentIdOk a.sessionId = true) (hagent : agentIdOk a.agentId = true) :
    read n a = readLoop a n [] := by
  rw [read, agentSubdir_bind, validateAgentId, validateAgentId, require, require, if_pos hagent,
    if_pos hsid]
  rfl

theorem read_refused (n : ℕ) (s : Disk)
    (h : ¬ (agentIdOk a.sessionId = true ∧ agentIdOk a.agentId = true)) :
    (read n a).Total world i (Still T ρ) (fun _ => True) s fun _ _ => True := by
  rw [read, agentSubdir_bind, validateAgentId, require]
  split_ifs with hagent
  · rw [validateAgentId, require, if_neg fun hsid => h ⟨hsid, hagent⟩]
    exact Prog.total_raise trivial trivial
  · exact Prog.total_raise trivial trivial

/-- **When `read` comes to an end.**  On a disk that nobody else uses, with a clock that
stands still, the loop of `read` ends after finitely many passes if and only if it does not
aim at a message that passes all checks and whose claim is held. -/
theorem read_ends_iff (i T : ℕ) (ρ : String → ℕ) (a : ReadArgs) (s : Disk) (hs : s.locks = []) :
    (∃ N, ∀ n ≥ N, (read n a).Total world i (Still T ρ) (fun _ => True) s fun _ _ => True) ↔
      ¬ (agentIdOk a.sessionId = true ∧ agentIdOk a.agentId = true ∧ Spins T ρ a s) := by
  constructor
  · rintro ⟨N, hN⟩ ⟨hsid, hagent, hspins⟩
    have htotal := hN N le_rfl
    rw [read_eq N hsid hagent] at htotal
    obtain ⟨r, t, hrun⟩ := htotal.runs (c := { time := T, rank := ρ }) ⟨rfl, rfl, rfl⟩
    exact readLoop_spins hsid N hs hspins r t hrun
  · intro h
    refine ⟨weight a s [] + 1, fun n hn => ?_⟩
    by_cases hids : agentIdOk a.sessionId = true ∧ agentIdOk a.agentId = true
    · rw [read_eq n hids.1 hids.2]
      exact readLoop_total hids.1 hs (fun hspins => h ⟨hids.1, hids.2, hspins⟩) hn
    · exact read_refused n s hids

end Loop

/-! ### A claim left behind -/

/-- Manager `a` and agent `b`; a message for `b`, and the claim of a reader that died before
it moved the message. -/
def claimedMessage : Disk where
  files := ((Files.empty.write ⟨.session "s", "session.json"⟩ (.json (.obj
      [("session_id", .str "s"), ("manager", .str "a"), ("agents", .arr [.str "b"])])) 0).write
    ⟨.box "s" "b" .inbox, "m.json"⟩ (.json (messageOf notice "m" (isoFormat 0) []).toDict) 0).write
    ⟨.box "s" "b" .processing, ".claim-m-w.json"⟩ (.json (claimMeta "m" "w" 0)) 0
  dirs := [.session "s", .box "s" "b" .inbox, .box "s" "b" .processing]
  locks := []
  inoLocks := []

/-- The call of the same owner for that message. -/
def again : ReadArgs where
  sessionId := "s"
  agentId := "b"
  owner := "w"
  targetMsgId := some "m"

theorem spins_again : Spins 0 (fun _ => 0) again claimedMessage :=
  ⟨"m", rfl, by decide, ⟨"m.json", (messageOf notice "m" (isoFormat 0) []).toDict,
    by decide +kernel, by decide +kernel⟩,
    ⟨.json (claimMeta "m" "w" 0), 0, 2⟩, by decide +kernel, by decide +kernel⟩

/-- An hour later the lease has run out, and the call ends. -/
theorem read_ends_iff_later : ∃ N, ∀ n ≥ N, (read n again).Total world 0
    (Still 3600000000 fun _ => 0) (fun _ => True) claimedMessage fun _ _ => True := by
  refine (read_ends_iff 0 3600000000 (fun _ => 0) again claimedMessage rfl).mpr ?_
  rintro ⟨-, -, u, hu, -, -, f, hf, hheld⟩
  cases hu
  have hclaim : claimedMessage.files.get? (claimAt again "m") =
      some ⟨.json (claimMeta "m" "w" 0), 0, 2⟩ := by decide +kernel
  rw [hclaim] at hf
  cases hf
  exact absurd hheld (by decide +kernel)

/-- `read` does not end on every disk. -/
theorem read_not_ending : ¬ ∀ (T : ℕ) (ρ : String → ℕ) (a : ReadArgs) (s : Disk), s.locks = [] →
    ∀ i, ∃ N, ∀ n ≥ N, (read n a).Total world i (Still T ρ) (fun _ => True) s fun _ _ => True := by
  intro h
  obtain ⟨N, hN⟩ := h 0 (fun _ => 0) again claimedMessage rfl 0
  have htotal := hN N le_rfl
  rw [read_eq N (by decide) (by decide)] at htotal
  obtain ⟨r, t, hrun⟩ := htotal.runs (c := {}) ⟨rfl, rfl, rfl⟩
  exact readLoop_spins (by decide) N rfl spins_again r t hrun

end AiMeshChat.Mailbox.ReadLoop
