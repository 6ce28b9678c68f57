import AiMeshChat.Mailbox.ClaimFiles

/-!
# Leases: the property, the condition, and the role of a call

`read`, `renew_claim`, `recover_stale`, `finalize` and `release` run interleaved
on one agent's mailbox, and any of them may crash between two operations. A
message should not be moved out of `processing` for an expired claim while some
claim on it is newer than the cutoff (`SparesActive`).

The code judges one claim file at a time, under a lock of that claim. So the
property needs the judged claim to be the only one on the message, and it needs
the claim to stay as it was read. Three holes let it change: a claim is
published without taking the lock, `renew_claim` may pick the claim of another
message whose name its pattern matches, and a re-read that fails falls back to
the time seen before the lock. `Guarded` is the condition that excludes these
steps.

The rest of the module watches one call through the phases of its critical
section. The invariant of all calls together is in `Mailbox/Lease.lean`.
-/

namespace AiMeshChat.Mailbox

open Lib

namespace Leases

/-! ## The property -/

/-- The claims in `d` on the message in the file `name`. -/
def claimsOn (s : Disk) (d : Dir) (name : String) : List (String × Json) :=
  ((s.files.names d).filter (globMatch ".claim-" ".json")).filterMap fun cf =>
    match s.files.get? ⟨d, cf⟩ with
    | some ⟨.json j, _, _⟩ => if jsonName (claimMsgId j cf) = name then some (cf, j) else none
    | _ => none

/-- The message a rename takes back because of an expired claim, and that claim. -/
def recycles : Op → Option (MPath × Lease)
  | .replace src _ (some l) => some (src, l)
  | _ => none

/-- A message is taken back only when every claim on it is older than the
cutoff. -/
def SparesActive (s : Disk) (_ : ℕ) (o : Op) (_ : Choice) : Prop :=
  ∀ x ∈ recycles o, ∀ cl ∈ claimsOn s x.1.dir x.1.name, ∀ ts ∈ claimTime cl.2, ts < x.2.cutoff

/-! ## The condition -/

/-- The lock of the claim at `p`. -/
def lockOf (p : MPath) : MPath := ⟨p.dir, claimLockName (between ".claim-" ".json" p.name)⟩

/-- The message that is taken back has no claim but the judged one. -/
def SoleClaim (s : Disk) (o : Op) : Prop :=
  ∀ x ∈ recycles o, ∀ cl ∈ claimsOn s x.1.dir x.1.name, (⟨x.1.dir, cl.1⟩ : MPath) = x.2.claim

/-- The path at which an operation creates a file without overwriting one. -/
def creates : Op → Option MPath
  | .link _ dst => some dst
  | .writeNew p _ => some p
  | _ => none

/-- A claim that is not there is published only while nobody holds its lock. -/
def PublishesUnlocked (s : Disk) (o : Op) : Prop :=
  ∀ p ∈ creates o, startsWith ".claim-" p.name = true → (s.files.get? p).isNone = true →
    ∀ x ∈ s.locks, x.1 ≠ lockOf p

/-- The two paths of a rename. -/
def renames : Op → Option (MPath × MPath)
  | .replace src dst _ => some (src, dst)
  | _ => none

/-- `renew_claim` writes the claim whose lock it holds. -/
def RenewsOwn (o : Op) : Prop :=
  ∀ x ∈ renames o, startsWith ".tmp-renew-" x.1.name = true →
    x.2.name = claimName (between ".tmp-renew-" ".json" x.1.name)

/-- The file that is read. -/
def reads : Op → Option MPath
  | .read p => some p
  | _ => none

/-- The disk does not fail at the re-read of a claim under a lock. -/
def RereadsWell (s : Disk) (i : ℕ) (o : Op) (c : Choice) : Prop :=
  c.fault = true → ∀ p ∈ reads o, startsWith ".claim-" p.name = true →
    (s.files.get? p).isSome = true → ∀ x ∈ s.locks, x.2 ≠ i

/-- The condition on the state before a step. -/
def Guarded (s : Disk) (i : ℕ) (o : Op) (c : Choice) : Prop :=
  SoleClaim s o ∧ PublishesUnlocked s o ∧ RenewsOwn o ∧ RereadsWell s i o c

instance (s : Disk) (i : ℕ) (o : Op) (c : Choice) : Decidable (SparesActive s i o c) := by
  unfold SparesActive; infer_instance

instance (s : Disk) (i : ℕ) (o : Op) (c : Choice) : Decidable (Guarded s i o c) := by
  unfold Guarded SoleClaim PublishesUnlocked RenewsOwn RereadsWell; infer_instance

/-- The consuming calls on the mailbox of `agent`. -/
def Consumes (sid agent : String) : Request → Prop
  | .read a => a.sessionId = sid ∧ a.agentId = agent
  | .finalize sid' agent' _ _ | .release sid' agent' _ _ | .renewClaim sid' agent' _ _
  | .recoverStale sid' agent' => sid' = sid ∧ agent' = agent
  | _ => False

/-- A mailbox without claims: no hidden file in `processing`, no lock, and only
message identifiers that `send` accepts in the inbox. -/
structure Start (sid agent : String) (s : Disk) : Prop where
  processing : ∀ name, dotted name = true → s.files.get? ⟨.box sid agent .processing, name⟩ = none
  inbox : ∀ name, isMessageName name = true → dotted name = true →
    s.files.get? ⟨.box sid agent .inbox, name⟩ = none
  locks : s.locks = []

/-! ## The role of a call -/

/-- Where a call is: outside, under the lock of the claim `key`, under it with
what the re-read answered, or with a renewed claim written beside it. -/
inductive Phase
  | idle
  | held (key : String)
  | seen (key : String) (answer : Except OsErr Data)
  | staged (key : String) (claim : Json)

/-- The claim whose lock is held. -/
def Phase.key : Phase → Option String
  | idle => none
  | held key | seen key _ | staged key _ => some key

section

variable (sid agent : String)

/-- The operations of a call in each phase. -/
inductive Allowed : Phase → Op → Prop
  | look {q : Phase} {o : Op} : o.looks = true → Allowed q o
  | lock (key : String) : Allowed .idle (.lock ⟨.box sid agent .processing, claimLockName key⟩)
  | unlock {q : Phase} {key : String} : q.key = some key →
      Allowed q (.unlock ⟨.box sid agent .processing, claimLockName key⟩)
  | unlink {q : Phase} {name : String} : dotted name = true →
      Allowed q (.unlink ⟨.box sid agent .processing, name⟩)
  | draft {key : String} {n : ℕ} {j : Json} : IsClaim key j →
      Allowed .idle (.writeNew ⟨.box sid agent .processing, tmpClaimName key n⟩ (.json j))
  | create {key : String} {j : Json} : IsClaim key j →
      Allowed .idle (.writeNew ⟨.box sid agent .processing, claimName key⟩ (.json j))
  | link (key : String) (n : ℕ) :
      Allowed .idle (.link ⟨.box sid agent .processing, tmpClaimName key n⟩
        ⟨.box sid agent .processing, claimName key⟩)
  | move {src dst : Box} {name : String} : dotted name = false →
      Allowed .idle (.replace ⟨.box sid agent src, name⟩ ⟨.box sid agent dst, name⟩ none)
  | quarantine (name : String) :
      Allowed .idle (.replace ⟨.box sid agent .inbox, name⟩ ⟨.box sid agent .corrupt, name⟩ none)
  | recycle {key name : String} {answer : Except OsErr Data} {cutoff : ℤ} : dotted name = false →
      (∀ j ts, answer = .ok (.json j) → claimTime j = some ts → ts < cutoff) →
      Allowed (.seen key answer) (.replace ⟨.box sid agent .processing, name⟩
        ⟨.box sid agent .inbox, name⟩ (some ⟨⟨.box sid agent .processing, claimName key⟩, cutoff⟩))
  | stage {q : Phase} {key : String} {j : Json} : q.key = some key →
      Allowed q (.write ⟨.box sid agent .processing, tmpRenewName key⟩ (.json j))
  | renew {key key' : String} {j : Json} : IsClaim key' j →
      Allowed (.staged key j) (.replace ⟨.box sid agent .processing, tmpRenewName key⟩
        ⟨.box sid agent .processing, claimName key'⟩ none)

/-- What the invariant promises about a file that was read. -/
def Promised (p : MPath) (x : Data) : Prop :=
  (∀ key, p = ⟨.box sid agent .processing, claimName key⟩ → ∃ j, x = .json j ∧ IsClaim key j) ∧
  ∀ name, p = ⟨.box sid agent .inbox, name⟩ → isMessageName name = true → dotted name = false

/-- Watch a call through its critical section. -/
abbrev role : Role Op Ans where
  St := Phase
  allows := Allowed sid agent
  assumes _ o a := match o, a with
    | .read p, .ok x => Promised sid agent p x
    | _, _ => True
  next q o a := match o, a with
    | .lock p, _ => .held (between ".claimlock-" ".lock" p.name)
    | .unlock _, _ => .idle
    | .read p, a => match q with
      | .held key =>
        if p = ⟨.box sid agent .processing, claimName key⟩ then .seen key a else .held key
      | q => q
    | .write _ (.json j), .ok () => match q.key with
      | some key => .staged key j
      | none => q
    | _, _ => q

end

variable {sid agent : String}

variable {o : Op} {α : Type} {key name msgId : String} {q : Phase}

theorem ignores_looks (h : o.looks = true) : (role sid agent).Ignores .idle o := by
  refine ⟨.look h, fun a => ?_⟩
  cases o <;> first | rfl | cases h

theorem ignores_finishOp (ho : FinishOp sid agent o) : (role sid agent).Ignores .idle o := by
  cases ho with
  | look h => exact ignores_looks h
  | dropClaim h => exact ⟨.unlink (dotted_of_claim h), fun _ => rfl⟩
  | archive h => exact ⟨.move (dotted_jsonName h), fun _ => rfl⟩
  | back h => exact ⟨.move (dotted_jsonName h), fun _ => rfl⟩

/-! ## The critical sections -/

theorem withClaimLock_keeps {body : Call α}
    (hb : body.Keeps (role sid agent) (.held key) fun q _ => q.key = some key) :
    (withClaimLock (.box sid agent .processing) key body).Keeps (role sid agent) .idle
      fun q _ => q = .idle := by
  refine Prog.keeps_op_bind (.lock key) fun _ _ => ?_
  have hkey : between ".claimlock-" ".lock" (claimLockName key) = key := between_append _ _ _
  simp only [hkey]
  exact hb.ensure fun q r hq => ⟨.unlock hq, fun _ _ => rfl⟩

theorem ignores_looks_seen (hq : ∀ key, q ≠ .held key)
    (h : o.looks = true) : (role sid agent).Ignores q o := by
  refine ⟨.look h, fun a => ?_⟩
  cases o with
  | read p =>
    cases q with
    | held key => exact absurd rfl (hq key)
    | _ => rfl
  | _ => first | rfl | cases h

/-- The re-read under the lock: what it answered is known to be a claim, and the
time it gives is the time of that claim. -/
def Judged (key : String) (q : Phase) (curTs : ℤ) : Prop :=
  ∃ answer, q = .seen key answer ∧
    ∀ j ts, answer = .ok (.json j) → claimTime j = some ts → ts = curTs

theorem loadClaim_held (key : String) :
    (loadClaim ⟨.box sid agent .processing, claimName key⟩).Keeps (role sid agent) (.held key)
      fun q r => ∃ answer, q = .seen key answer ∧ ∀ cl, r = .ok cl →
        ∀ j, answer = .ok (.json j) → cl = some j := by
  refine Prog.keeps_op_bind (.look rfl) fun answer ha => ?_
  simp only [if_true]
  rcases answer with e | x
  · exact ⟨_, rfl, nofun⟩
  · obtain ⟨j, rfl, hj⟩ := ha.1 key rfl
    obtain ⟨-, -, -, -, hd, -⟩ := hj
    simp only [hd, if_true]
    refine ⟨_, rfl, fun cl hcl j' hj' => ?_⟩
    cases hcl
    cases hj'
    rfl

theorem currentTime_held (key : String) (claimedTs : ℤ) :
    (currentTime ⟨.box sid agent .processing, claimName key⟩ claimedTs).Keeps (role sid agent)
      (.held key) fun q r => q.key = some key ∧ ∀ ts, r = .ok ts → Judged key q ts := by
  refine (loadClaim_held key).bind ?_ ?_
  · rintro q cl ⟨answer, rfl, hcl⟩
    cases cl with
    | none =>
      refine ⟨rfl, fun ts _ => ⟨answer, rfl, fun j ts' hj _ => ?_⟩⟩
      exact absurd (hcl none rfl j hj) nofun
    | some cur =>
      refine ⟨rfl, fun ts hts => ⟨answer, rfl, fun j ts' hj hts' => ?_⟩⟩
      cases hcl _ rfl j hj
      cases hts
      rw [hts']
      rfl
  · rintro q e ⟨answer, rfl, -⟩
    exact ⟨rfl, nofun⟩

theorem unlinkMissingOk_allowed (hd : dotted name = true) :
    (unlinkMissingOk ⟨.box sid agent .processing, name⟩).Keeps (role sid agent) q
      fun q' _ => q' = q :=
  unlinkMissingOk_keeps ⟨.unlink hd, fun _ => rfl⟩

theorem recycle_keeps {curTs cutoff : ℤ} (hq : Judged key q curTs) (hlt : curTs < cutoff)
    (hn : dotted name = false) :
    (replace ⟨.box sid agent .processing, name⟩ ⟨.box sid agent .inbox, name⟩
      (some ⟨⟨.box sid agent .processing, claimName key⟩, cutoff⟩)).Keeps (role sid agent) q
      fun q' _ => q' = q := by
  obtain ⟨answer, rfl, ha⟩ := hq
  refine Prog.keeps_ignored_bind ⟨.recycle hn fun j ts hj hts => ?_, fun _ => rfl⟩ fun r _ => ?_
  · rw [ha j ts hj hts]
    exact hlt
  · exact (orRaise_only (φ := fun _ => False) r).keeps fun _ h => h.elim

theorem Judged.ne_held {ts : ℤ} (h : Judged key q ts) :
    (∀ key', q ≠ .held key') ∧ q.key = some key := by
  obtain ⟨answer, rfl, -⟩ := h
  exact ⟨nofun, rfl⟩

theorem reapLocked_keeps (hm : dotted (jsonName msgId) = false) (claimedTs cutoff : ℤ) :
    (reapLocked (.box sid agent .inbox) (.box sid agent .processing)
      ⟨.box sid agent .processing, claimName key⟩ msgId claimedTs cutoff).Keeps (role sid agent)
      (.held key) fun q _ => q.key = some key := by
  refine (currentTime_held key claimedTs).bind (fun q curTs h => ?_) (fun q e h => h.1)
  have hq := h.2 curTs rfl
  split
  · exact h.1
  · next hlt =>
    have hmove : (moveBack (.box sid agent .inbox) (.box sid agent .processing)
        ⟨.box sid agent .processing, claimName key⟩ msgId cutoff).Keeps (role sid agent) q
        fun q' _ => q' = q := by
      refine Prog.keeps_ignored_bind (ignores_looks_seen hq.ne_held.1 rfl) fun b _ => ?_
      split
      · exact recycle_keeps hq (not_le.mp hlt) hm
      · exact rfl
    refine hmove.bind (fun q' _ hq' => ?_) (fun q' _ hq' => by rw [hq']; exact h.1)
    subst hq'
    exact (unlinkMissingOk_allowed (dotted_of_claim (startsWith_claimName key))).bind
      (fun q'' _ h'' => by rw [h'']; exact h.1) (fun q'' _ h'' => by rw [h'']; exact h.1)

theorem loadClaim_idle (key : String) :
    (loadClaim ⟨.box sid agent .processing, claimName key⟩).Keeps (role sid agent) .idle
      fun q r => q = .idle ∧ ∀ j, r = .ok (some j) → IsClaim key j := by
  refine Prog.keeps_ignored_bind (ignores_looks rfl) fun answer ha => ?_
  rcases answer with e | x
  · exact ⟨rfl, nofun⟩
  · obtain ⟨j, rfl, hj⟩ := ha.1 key rfl
    have hd : j.isDict = true := by obtain ⟨-, -, -, -, hd, -⟩ := id hj; exact hd
    simp only [hd, if_true]
    exact ⟨rfl, fun j' h => by cases h; exact hj⟩

theorem reapExpiredClaim_keeps (key : String) :
    (reapExpiredClaim (.box sid agent .inbox) (.box sid agent .processing)
      ⟨.box sid agent .processing, claimName key⟩).Keeps (role sid agent) .idle
      fun q _ => q = .idle := by
  refine Prog.keeps_ignored_bind (ignores_looks rfl) fun now _ => ?_
  refine (loadClaim_idle key).bind ?_ (fun q e h => h.1)
  rintro q cl ⟨rfl, hcl⟩
  split
  · exact rfl
  · next claim =>
    split
    · exact rfl
    · split
      · exact rfl
      · obtain ⟨hkey, hm⟩ := (hcl claim rfl).key_eq (claimName key)
        simp only [hkey]
        exact withClaimLock_keeps (reapLocked_keeps hm _ _)

theorem rewriteClaim_keeps {key' : String} {j : Json} (hq : q.key = some key)
    (hj : IsClaim key' j) :
    (rewriteClaim (.box sid agent .processing) key (claimName key') j).Keeps (role sid agent) q
      fun q' _ => q'.key = some key := by
  have hdrop (q' : Phase) (hq' : q'.key = some key) :
      (unlinkMissingOk ⟨.box sid agent .processing, tmpRenewName key⟩ >>=
        fun _ => pure false : Call Bool).Keeps (role sid agent) q' fun q'' _ => q''.key = some key :=
    (unlinkMissingOk_allowed (dotted_of_tmpRenew (startsWith_tmpRenewName key))).bind
      (fun _ _ h => by rw [h]; exact hq') (fun _ _ h => by rw [h]; exact hq')
  refine Prog.keeps_op_bind (.stage hq) fun r _ => ?_
  cases r with
  | error e => exact hdrop q hq
  | ok u =>
    simp only [hq]
    refine Prog.keeps_ignored_bind ⟨.renew hj, fun _ => rfl⟩ fun r _ => ?_
    cases r with
    | error e => exact hdrop _ rfl
    | ok u => exact rfl

theorem sortedGlob_bind_keeps {α : Type} {q : Phase} {d : Dir} {pre suf : String}
    {f : List String → Call α} {Q : Phase → Except PyErr α → Prop}
    (hf : ∀ names, (∀ name ∈ names, globMatch pre suf name = true) →
      (f names).Keeps (role sid agent) q Q) :
    (sortedGlob d pre suf >>= f).Keeps (role sid agent) q Q := by
  rw [sortedGlob, Prog.bind_assoc]
  refine Prog.keeps_ignored_bind ⟨.look rfl, fun _ => rfl⟩ fun names _ => hf _ fun name hn => ?_
  exact (List.mem_filter.mp ((List.mem_insertionSort _).mp hn)).2

theorem claimName_of_globMatch (h : globMatch (".claim-" ++ msgId ++ "-") ".json" name = true) :
    ∃ key, name = claimName key := by
  have hs := claim_of_globMatch h
  have hglob : globMatch ".claim-" ".json" name = true := by
    simp only [globMatch, Bool.and_eq_true, decide_eq_true_eq, String.length_append] at h ⊢
    exact ⟨⟨hs, h.1.2⟩, by omega⟩
  exact ⟨_, eq_of_globMatch hglob⟩

theorem loadClaim_keeps (key key' : String) (hq : q.key = some key) :
    (loadClaim ⟨.box sid agent .processing, claimName key'⟩).Keeps (role sid agent) q
      fun q' r => q'.key = some key ∧ ∀ j, r = .ok (some j) → IsClaim key' j := by
  refine Prog.keeps_op_bind (.look rfl) fun answer ha => ?_
  have hkey : ((role sid agent).next q
      (.read ⟨.box sid agent .processing, claimName key'⟩) answer).key = some key := by
    cases q with
    | held k =>
      simp only
      split
      · exact hq
      · exact hq
    | _ => exact hq
  rcases answer with e | x
  · exact ⟨hkey, nofun⟩
  · obtain ⟨j, rfl, hj⟩ := ha.1 key' rfl
    have hd : j.isDict = true := by obtain ⟨-, -, -, -, hd, -⟩ := id hj; exact hd
    simp only [hd, if_true]
    exact ⟨hkey, fun j' h => by cases h; exact hj⟩

theorem renewLocked_keeps (msgId owner : String) :
    (renewLocked (.box sid agent .processing) msgId owner).Keeps (role sid agent)
      (.held (claimKey msgId owner)) fun q _ => q.key = some (claimKey msgId owner) := by
  refine Prog.keeps_ignored_bind ⟨.look rfl, fun _ => rfl⟩ fun b _ => ?_
  split
  · refine sortedGlob_bind_keeps fun names hnames => ?_
    split
    · next claimFile =>
      obtain ⟨key', rfl⟩ := claimName_of_globMatch (hnames claimFile (by simp))
      refine (loadClaim_keeps _ key' rfl).bind (fun q cl h => ?_) (fun q e h => h.1)
      split
      · exact h.1
      · next claim =>
        split
        · refine Prog.keeps_ignored_bind ⟨.look rfl, fun _ => rfl⟩ fun now _ => ?_
          refine (rewriteClaim_keeps h.1 ((h.2 claim rfl).renewed _ _)).bind (fun q' b h' => ?_)
            (fun q' _ h' => h')
          split
          · refine Prog.keeps_ignored_bind ⟨.look rfl, fun _ => rfl⟩ fun b _ => ?_
            split
            · exact h'
            · exact (unlinkMissingOk_allowed (dotted_of_claim (startsWith_claimName key'))).bind
                (fun _ _ h'' => by rw [h'']; exact h') (fun _ _ h'' => by rw [h'']; exact h')
          · exact h'
        · exact h.1
    · exact rfl
  · exact rfl

theorem recoverLocked_keeps (hm : dotted (jsonName msgId) = false) (claimedTs cutoff gate : ℤ) :
    (recoverLocked (.box sid agent .inbox) (.box sid agent .processing)
      ⟨.box sid agent .processing, claimName key⟩ msgId claimedTs cutoff gate).Keeps
      (role sid agent) (.held key) fun q _ => q.key = some key := by
  have hdrop {q : Phase} (hq : q.key = some key) (b : Bool) :
      (unlink ⟨.box sid agent .processing, claimName key⟩ >>= fun _ => pure b : Call Bool).Keeps
        (role sid agent) q fun q' _ => q'.key = some key := by
    refine Prog.keeps_ignored_bind
      ⟨.unlink (dotted_of_claim (startsWith_claimName key)), fun _ => rfl⟩ fun r _ => ?_
    cases r with
    | error e => exact hq
    | ok u => exact hq
  refine (currentTime_held key claimedTs).bind (fun q curTs h => ?_) (fun q e h => h.1)
  have hq := h.2 curTs rfl
  refine Prog.keeps_ignored_bind ⟨.look rfl, fun _ => rfl⟩ fun b _ => ?_
  split
  · split
    · exact h.1
    · next hlt =>
      refine (recycle_keeps hq (not_le.mp hlt) hm).bind (fun q' _ hq' => ?_)
        (fun q' _ hq' => by rw [hq']; exact h.1)
      rw [hq']
      exact hdrop h.1 true
  · split
    · exact h.1
    · exact hdrop h.1 false

/-! ## The calls -/

theorem recoverClaim_keeps (key : String) (cutoff gate : ℤ) :
    (recoverClaim (.box sid agent .inbox) (.box sid agent .processing) cutoff gate
      ⟨.box sid agent .processing, claimName key⟩).Keeps (role sid agent) .idle
      fun q _ => q = .idle := by
  refine (loadClaim_idle key).bind ?_ (fun q e h => h.1)
  rintro q cl ⟨rfl, hcl⟩
  split
  · exact rfl
  · next claim =>
    split
    · exact rfl
    · obtain ⟨hkey, hm⟩ := (hcl claim rfl).key_eq (claimName key)
      simp only [hkey]
      exact withClaimLock_keeps (recoverLocked_keeps hm _ _ _)

theorem recoverClaims_keeps (cutoff gate : ℤ) :
    ∀ names : List String, (∀ name ∈ names, globMatch ".claim-" ".json" name = true) →
      (recoverClaims (.box sid agent .inbox) (.box sid agent .processing) cutoff gate names).Keeps
        (role sid agent) .idle fun q _ => q = .idle := by
  intro names
  induction names with
  | nil => intro _; exact rfl
  | cons name rest ih =>
    intro hnames
    have hname : name = claimName (between ".claim-" ".json" name) :=
      eq_of_globMatch (hnames name (by simp))
    have hone : (passErrors (recoverClaim (.box sid agent .inbox) (.box sid agent .processing)
        cutoff gate ⟨.box sid agent .processing, name⟩)).Keeps (role sid agent) .idle
        fun q _ => q = .idle := by
      rw [hname]
      refine (recoverClaim_keeps _ cutoff gate).tryCatch (fun _ _ h => h) (fun q e h => ?_)
      cases e <;> exact h
    refine hone.bind (fun q b hq => ?_) (fun _ _ h => h)
    rw [hq]
    exact (ih fun n hn => hnames n (by simp [hn])).bind (fun _ _ h => h) (fun _ _ h => h)

theorem sweepTmpClaims_keeps (gate : ℤ) :
    ∀ names : List String, (∀ name ∈ names, globMatch ".tmp-claim-" ".json" name = true) →
      (sweepTmpClaims (.box sid agent .processing) gate names).Keeps (role sid agent) .idle
        fun q _ => q = .idle := by
  intro names
  induction names with
  | nil => intro _; exact rfl
  | cons name rest ih =>
    intro hnames
    have hrest := ih fun n hn => hnames n (by simp [hn])
    have hd := dotted_of_tmpClaim (startsWith_of_globMatch (hnames name (by simp)))
    refine Prog.keeps_ignored_bind ⟨.look rfl, fun _ => rfl⟩ fun r _ => ?_
    split
    · split
      · exact Prog.keeps_ignored_bind ⟨.unlink hd, fun _ => rfl⟩ fun _ _ => hrest
      · exact hrest
    · exact hrest

/-- A step that every role ignores, as `agent_subdir` is, before the rest. -/
theorem agentSubdir_bind_keeps {a : String} {b : Box} {f : Dir → Call α}
    {Q : Phase → Except PyErr α → Prop} (hf : (f (.box sid a b)).Keeps (role sid agent) q Q)
    (herr : ∀ e, Q q (.error e)) : (agentSubdir sid a b >>= f).Keeps (role sid agent) q Q := by
  rw [agentSubdir_bind]
  refine (validateAgentId_only (φ := fun _ => False) a).keeps_bind (Prog.rets_true _)
    (fun _ h => h.elim) (fun _ _ => ?_) herr
  exact (validateAgentId_only (φ := fun _ => False) sid).keeps_bind (Prog.rets_true _)
    (fun _ h => h.elim) (fun _ _ => hf) herr

theorem recoverStale_keeps : (recoverStale sid agent).Keeps (role sid agent) .idle
    fun q _ => q = .idle := by
  refine agentSubdir_bind_keeps (agentSubdir_bind_keeps ?_ fun _ => rfl) fun _ => rfl
  refine Prog.keeps_ignored_bind ⟨.look rfl, fun _ => rfl⟩ fun b _ => ?_
  split
  · refine Prog.keeps_ignored_bind ⟨.look rfl, fun _ => rfl⟩ fun now _ => ?_
    refine Prog.keeps_ignored_bind ⟨.look rfl, fun _ => rfl⟩ fun now' _ => ?_
    refine sortedGlob_bind_keeps fun claims hclaims => ?_
    refine (recoverClaims_keeps _ _ claims hclaims).bind (fun q n hq => ?_) (fun _ _ h => h)
    rw [hq]
    refine sortedGlob_bind_keeps fun tmps htmps => ?_
    exact (sweepTmpClaims_keeps _ tmps htmps).bind (fun _ _ h => h) (fun _ _ h => h)
  · exact rfl

theorem renewClaim_keeps (msgId owner : String) :
    (renewClaim sid agent msgId owner).Keeps (role sid agent) .idle fun q _ => q = .idle := by
  refine (validateMsgId_only (φ := fun _ => False) msgId).keeps_bind (Prog.rets_true _)
    (fun _ h => h.elim) (fun _ _ => ?_) fun _ => rfl
  refine agentSubdir_bind_keeps ?_ fun _ => rfl
  refine Prog.keeps_ignored_bind ⟨.look rfl, fun _ => rfl⟩ fun b _ => ?_
  split
  · refine sortedGlob_bind_keeps fun names _ => ?_
    split
    · exact withClaimLock_keeps (renewLocked_keeps msgId owner)
    · exact rfl
  · exact rfl

/-- A name of a message in the inbox. -/
def MessageFile (name : String) : Prop := isMessageName name = true ∧ dotted name = false

theorem MessageFile.jsonName_stem (h : MessageFile name) : jsonName (stem name) = name := by
  have hj := h.1
  simp only [isMessageName, Bool.and_eq_true] at hj
  exact Mailbox.jsonName_stem hj.1.1 h.2

theorem reader {a : ReadArgs} (hs : a.sessionId = sid) (ha : a.agentId = agent) :
    Reader (role sid agent) .idle MessageFile a := by
  subst hs ha
  have hclaim {name : String} (h : MessageFile name) (now : ℕ) :
      IsClaim (claimKey (stem name) a.owner) (claimMeta (stem name) a.owner now) :=
    isClaim_claimMeta (by rw [h.jsonName_stem]; exact h.2) now
  exact {
    look := fun o ho => ignores_looks ho
    unlink := fun name h => ⟨.unlink h, fun _ => rfl⟩
    draft := fun name n now h => ⟨.draft (hclaim h now), fun _ => rfl⟩
    create := fun name now h => ⟨.create (hclaim h now), fun _ => rfl⟩
    link := fun name n _ => ⟨.link _ n, fun _ => rfl⟩
    quarantine := fun name => ⟨.quarantine name, fun _ => rfl⟩
    reap := fun key => reapExpiredClaim_keeps key
    good := fun name x hn h => ⟨hn, h.2 name rfl hn⟩
    claim := fun name h => ⟨.move h.2, fun _ => rfl⟩
    claimed := fun name tmp _ h => ⟨.unlink h, fun _ => rfl⟩ }

theorem call_keeps (fuel : ℕ) {r : Request} (hr : Consumes sid agent r) :
    (r.call fuel).Keeps (role sid agent) .idle fun _ _ => True := by
  cases r with
  | read a =>
    exact (read_keeps (reader hr.1 hr.2) fuel).bind (fun _ _ _ => trivial) (fun _ _ _ => trivial)
  | finalize sid' agent' m o =>
    obtain ⟨rfl, rfl⟩ := hr
    exact (finalize_finishOp _ _ _ _).keeps_bind (Prog.rets_true _)
      (fun o ho => ignores_finishOp ho) (fun _ _ => trivial) (fun _ => trivial)
  | release sid' agent' m o =>
    obtain ⟨rfl, rfl⟩ := hr
    exact (release_finishOp _ _ _ _).keeps_bind (Prog.rets_true _)
      (fun o ho => ignores_finishOp ho) (fun _ _ => trivial) (fun _ => trivial)
  | renewClaim sid' agent' m o =>
    obtain ⟨rfl, rfl⟩ := hr
    exact (renewClaim_keeps m o).bind (fun _ _ _ => trivial) (fun _ _ _ => trivial)
  | recoverStale sid' agent' =>
    obtain ⟨rfl, rfl⟩ := hr
    exact recoverStale_keeps.bind (fun _ _ _ => trivial) (fun _ _ _ => trivial)
  | send a => exact hr.elim
  | finalizeFromInbox => exact hr.elim

end Leases

end AiMeshChat.Mailbox
