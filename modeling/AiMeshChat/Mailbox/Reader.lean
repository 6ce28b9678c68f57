import AiMeshChat.Mailbox.Footprint

/-!
# The rule for `read`

`read` tries messages until it has moved one to `processing`. Everything before
that rename leaves a role where it is, and the call returns a message only after
it. `read_keeps` says this once for every role: it asks what the role makes of
the single operations (`Reader`) and gives what the whole call does.

The rest of the module lists the operations of `finalize`, `release` and of the
lease functions.
-/

namespace AiMeshChat.Mailbox

open Lib

/-! ## Listings -/

theorem statAll_rets (d : Dir) (names : List String) :
    (statAll d names).Rets fun found => ∀ x ∈ found, x.1 ∈ names := by
  induction names with
  | nil => simp [statAll]
  | cons name rest ih =>
    refine Prog.Rets.bind (Prog.rets_true _) fun st _ => ih.bind fun found hf => ?_
    split
    · simp only [Prog.pure_eq, Prog.rets_ret, List.mem_cons, forall_eq_or_imp, true_or, true_and]
      exact fun x hx => .inr (hf x hx)
    · exact fun x hx => List.mem_cons_of_mem _ (hf x hx)

theorem listMessages_rets (d : Dir) :
    (listMessages d).Rets fun files => ∀ name ∈ files, isMessageName name = true := by
  refine Prog.Rets.bind (Prog.rets_true _) fun b _ => ?_
  split
  · refine Prog.Rets.bind (Prog.rets_true _) fun names _ =>
      (statAll_rets d _).bind fun found hf => ?_
    simp only [Prog.pure_eq, Prog.rets_ret, List.mem_map, List.mem_insertionSort]
    rintro name ⟨x, hx, rfl⟩
    exact (List.mem_filter.mp (hf x hx)).2
  · simp

theorem sortedGlob_rets (d : Dir) (pre suf : String) :
    (sortedGlob d pre suf).Rets fun names => ∀ name ∈ names, globMatch pre suf name = true := by
  refine Prog.Rets.bind (Prog.rets_true _) fun names _ => ?_
  simp only [Prog.pure_eq, Prog.rets_ret, List.mem_insertionSort, List.mem_filter]
  exact fun name h => h.2

theorem pickTarget_mem {a : ReadArgs} {contested files : List String} {name : String}
    (h : pickTarget a contested files = some name) : name ∈ files := by
  unfold pickTarget at h
  split at h
  · split at h <;> exact List.mem_of_find?_eq_some h
  · exact List.mem_of_find?_eq_some h

/-! ## Names -/

theorem startsWith_claimName (key : String) : startsWith ".claim-" (claimName key) = true := by
  rw [claimName, String.append_assoc]; exact startsWith_append _ _

theorem startsWith_tmpClaimName (key : String) (n : ℕ) :
    startsWith ".tmp-claim-" (tmpClaimName key n) = true := by
  rw [tmpClaimName, String.append_assoc, String.append_assoc, String.append_assoc]
  exact startsWith_append _ _

theorem startsWith_tmpRenewName (key : String) :
    startsWith ".tmp-renew-" (tmpRenewName key) = true := by
  rw [tmpRenewName, String.append_assoc]; exact startsWith_append _ _

/-- Whether the name is hidden. -/
def dotted (name : String) : Bool := startsWith "." name

theorem startsWith_trans {p q s : String} (hp : startsWith p q = true)
    (hq : startsWith q s = true) : startsWith p s = true := by
  simp only [startsWith, List.isPrefixOf_iff_prefix] at *
  exact hp.trans hq

theorem dotted_of_claim {name : String} (h : startsWith ".claim-" name = true) :
    dotted name = true := startsWith_trans (by decide) h

theorem dotted_of_tmpClaim {name : String} (h : startsWith ".tmp-claim-" name = true) :
    dotted name = true := startsWith_trans (by decide) h

theorem dotted_of_tmpRenew {name : String} (h : startsWith ".tmp-renew-" name = true) :
    dotted name = true := startsWith_trans (by decide) h

theorem dotted_jsonName {m : String} (hm : msgIdOk m = true) : dotted (jsonName m) = false := by
  simp only [msgIdOk] at hm
  simp only [dotted, startsWith, jsonName, String.toList_append]
  cases h : m.toList with
  | nil => simp [h, idText] at hm
  | cons c cs =>
    simp only [h, idText, Bool.and_eq_true] at hm
    have hc : c ≠ '.' := by
      rintro rfl
      exact absurd hm.1.1 (by decide)
    simp [List.isPrefixOf, hc.symm]

theorem jsonName_ne_of_dotted {m name : String} (hm : msgIdOk m = true)
    (h : dotted name = true) : name ≠ jsonName m := by
  rintro rfl
  rw [dotted_jsonName hm] at h
  cases h

theorem jsonName_inj {a b : String} (h : jsonName a = jsonName b) : a = b := by
  have := congrArg String.toList h
  simp only [jsonName, String.toList_append] at this
  exact String.toList_inj.mp (List.append_cancel_right this)

theorem tmpName_ne_jsonName_of_ok {m mid : String} (hm : msgIdOk m = true) :
    tmpName mid ≠ jsonName m :=
  jsonName_ne_of_dotted hm (startsWith_trans (by decide) (startsWith_tmpName mid))

theorem startsWith_of_globMatch {pre suf name : String} (h : globMatch pre suf name = true) :
    startsWith pre name = true := by
  simp only [globMatch, Bool.and_eq_true] at h
  exact h.1.1

theorem claim_of_globMatch {msgId suf name : String}
    (h : globMatch (".claim-" ++ msgId ++ "-") suf name = true) :
    startsWith ".claim-" name = true := by
  refine startsWith_trans ?_ (startsWith_of_globMatch h)
  rw [String.append_assoc]
  exact startsWith_append _ _

/-! ## The rule -/

/-- The rename by which `read` takes a message. -/
def claimOp (a : ReadArgs) (name : String) : Op :=
  .replace ⟨.box a.sessionId a.agentId .inbox, name⟩
    ⟨.box a.sessionId a.agentId .processing, name⟩ none

/-- What a role has to make of the operations of `read` when the call starts in
`q`. `Good` is what it promises about the names of messages. -/
structure Reader (R : Role Op Ans) (q : R.St) (Good : String → Prop) (a : ReadArgs) : Prop where
  look : ∀ o : Op, o.looks = true → R.Ignores q o
  unlink : ∀ name, dotted name = true →
    R.Ignores q (.unlink ⟨.box a.sessionId a.agentId .processing, name⟩)
  draft : ∀ name n now, Good name → R.Ignores q
    (.writeNew ⟨.box a.sessionId a.agentId .processing,
      tmpClaimName (claimKey (stem name) a.owner) n⟩ (.json (claimMeta (stem name) a.owner now)))
  create : ∀ name now, Good name → R.Ignores q
    (.writeNew ⟨.box a.sessionId a.agentId .processing,
      claimName (claimKey (stem name) a.owner)⟩ (.json (claimMeta (stem name) a.owner now)))
  link : ∀ name n, Good name → R.Ignores q
    (.link ⟨.box a.sessionId a.agentId .processing,
      tmpClaimName (claimKey (stem name) a.owner) n⟩
      ⟨.box a.sessionId a.agentId .processing, claimName (claimKey (stem name) a.owner)⟩)
  quarantine : ∀ name, R.Ignores q (.replace ⟨.box a.sessionId a.agentId .inbox, name⟩
    ⟨.box a.sessionId a.agentId .corrupt, name⟩ none)
  reap : ∀ key, (reapExpiredClaim (.box a.sessionId a.agentId .inbox)
    (.box a.sessionId a.agentId .processing)
    ⟨.box a.sessionId a.agentId .processing, claimName key⟩).Keeps R q (fun q' _ => q' = q)
  good : ∀ name x, isMessageName name = true →
    R.assumes q (.read ⟨.box a.sessionId a.agentId .inbox, name⟩) (.ok x) → Good name
  claim : ∀ name, Good name →
    R.allows q (claimOp a name) ∧ ∀ e, R.next q (claimOp a name) (.error e) = q
  claimed : ∀ name tmp, Good name → dotted tmp = true →
    R.Ignores (R.next q (claimOp a name) (.ok ()))
      (.unlink ⟨.box a.sessionId a.agentId .processing, tmp⟩)

section Rule

variable {R : Role Op Ans} {q : R.St} {Good : String → Prop} {a : ReadArgs}

/-- The state in which a pass ends: unmoved and without a message, or after the
rename of the message it returns. -/
def PassEnd (R : Role Op Ans) (q : R.St) (Good : String → Prop) (a : ReadArgs) (q' : R.St)
    (r : Except PyErr Pass) : Prop :=
  (q' = q ∧ ∀ m, r ≠ .ok (.done (some m))) ∨
  ∃ name, Good name ∧ q' = R.next q (claimOp a name) (.ok ()) ∧ (∀ c, r ≠ .ok (.again c)) ∧
    ∀ m, r = .ok (.done (some m)) → textOf m "msg_id" ++ ".json" = name

theorem unlinkMissingOk_keeps {q : R.St} {p : MPath} (h : R.Ignores q (.unlink p)) :
    (unlinkMissingOk p).Keeps R q (fun q' _ => q' = q) := by
  refine Prog.keeps_ignored_bind h fun x _ => ?_
  split
  · exact rfl
  · exact (orRaise_only (φ := fun _ => False) _).keeps fun _ h => h.elim

theorem publishClaim_keeps (h : Reader R q Good a) {name : String} (hn : Good name) (n now : ℕ) :
    (publishClaim (.box a.sessionId a.agentId .inbox) (.box a.sessionId a.agentId .processing)
      ⟨.box a.sessionId a.agentId .processing, claimName (claimKey (stem name) a.owner)⟩
      ⟨.box a.sessionId a.agentId .processing, tmpClaimName (claimKey (stem name) a.owner) n⟩
      (claimMeta (stem name) a.owner now)).Keeps R q (fun q' _ => q' = q) := by
  have htmp := unlinkMissingOk_keeps
    (h.unlink _ (dotted_of_tmpClaim (startsWith_tmpClaimName (claimKey (stem name) a.owner) n)))
  have hblocked : (blocked (.box a.sessionId a.agentId .inbox)
      (.box a.sessionId a.agentId .processing)
      ⟨.box a.sessionId a.agentId .processing, claimName (claimKey (stem name) a.owner)⟩).Keeps R q
      (fun q' _ => q' = q) := by
    refine (h.reap _).bind (fun q' b hq => ?_) (fun _ _ hq => hq)
    subst hq
    split <;> exact rfl
  refine Prog.keeps_ignored_bind (h.draft name n now hn) fun x _ => ?_
  split
  · exact htmp.bind (fun _ _ hq => hq) (fun _ _ hq => hq)
  · exact rfl
  · refine Prog.keeps_ignored_bind (h.link name n hn) fun x _ => ?_
    split
    · exact rfl
    · exact htmp.bind (fun q' _ hq => by subst hq; exact hblocked) (fun _ _ hq => hq)
    · refine htmp.bind (fun q' _ hq => ?_) (fun _ _ hq => hq)
      subst hq
      refine Prog.keeps_ignored_bind (h.create name now hn) fun x _ => ?_
      split
      · exact rfl
      · exact htmp.bind (fun q' _ hq => by subst hq; exact hblocked) (fun _ _ hq => hq)
      · exact rfl

theorem claimTarget_keeps (h : Reader R q Good a) (contested : List String) {name : String}
    {msg : Json} (hn : Good name) (hmsg : textOf msg "msg_id" ++ ".json" = name) :
    (claimTarget a contested name msg).Keeps R q (PassEnd R q Good a) := by
  refine Prog.keeps_ignored_bind (h.look _ rfl) fun _ _ => ?_
  refine Prog.keeps_ignored_bind (h.look _ rfl) fun nonce _ => ?_
  refine Prog.keeps_ignored_bind (h.look _ rfl) fun now _ => ?_
  refine (publishClaim_keeps h hn _ now).bind (fun q' g hq => ?_)
    (fun _ _ hq => .inl ⟨hq, nofun⟩)
  subst hq
  cases g with
  | retry => exact .inl ⟨rfl, nofun⟩
  | contested => exact .inl ⟨rfl, nofun⟩
  | mine =>
    refine Prog.keeps_op_bind (h.claim name hn).1 fun x _ => ?_
    have hdraft := dotted_of_tmpClaim
      (startsWith_tmpClaimName (claimKey (stem name) a.owner) (1000 + nonce % 9000))
    cases x with
    | error e =>
      change Prog.Keeps R _ (R.next q' (claimOp a name) (.error e)) _
      rw [(h.claim name hn).2 e]
      refine (unlinkMissingOk_keeps (h.unlink _ hdraft)).bind (fun q' _ hq => ?_)
        (fun _ _ hq => .inl ⟨hq, nofun⟩)
      subst hq
      exact (unlinkMissingOk_keeps (h.unlink _ (dotted_of_claim (startsWith_claimName _)))).bind
        (fun _ _ hq => .inl ⟨hq, nofun⟩) (fun _ _ hq => .inl ⟨hq, nofun⟩)
    | ok u =>
      refine (unlinkMissingOk_keeps (h.claimed name _ hn hdraft)).bind (fun q' _ hq => ?_)
        (fun _ _ hq => .inr ⟨name, hn, hq, nofun, nofun⟩)
      refine .inr ⟨name, hn, hq, nofun, fun m hm => ?_⟩
      cases hm
      exact hmsg

theorem quarantine_keeps (h : Reader R q Good a) (contested : List String) (name : String) :
    ((quarantine a name >>= fun _ => pure (Pass.again contested)) : Call Pass).Keeps R q
      (PassEnd R q Good a) := by
  have hq : (quarantine a name).Keeps R q (fun q' _ => q' = q) := by
    refine Prog.keeps_ignored_bind (h.look _ rfl) fun _ _ => ?_
    refine Prog.keeps_ignored_bind (h.quarantine name) fun x _ => ?_
    exact (orRaise_only (φ := fun _ => False) x).keeps fun _ h => h.elim
  exact hq.bind (fun _ _ hq => .inl ⟨hq, nofun⟩) (fun _ _ hq => .inl ⟨hq, nofun⟩)

theorem examine_keeps (h : Reader R q Good a) (contested : List String) {name : String}
    (hn : Good name) (msg : Json) :
    (examine a contested name msg).Keeps R q (PassEnd R q Good a) := by
  unfold examine
  split
  · exact .inl ⟨rfl, nofun⟩
  · exact quarantine_keeps h contested name
  · next hv =>
    refine (fromRoster_only (fun _ ho => ho) _ _).keeps_bind (Prog.rets_true _) h.look
      (fun b _ => ?_) (fun e => .inl ⟨rfl, nofun⟩)
    split
    · exact claimTarget_keeps h contested hn (validateMessage_msgId hv)
    · exact quarantine_keeps h contested name

theorem readPass_keeps (h : Reader R q Good a) (contested : List String) :
    (readPass a contested).Keeps R q (PassEnd R q Good a) := by
  refine (listMessages_only (fun _ ho => ho) _).keeps_bind (listMessages_rets _) h.look
    (fun files hfiles => ?_) (fun e => .inl ⟨rfl, nofun⟩)
  split
  · exact .inl ⟨rfl, nofun⟩
  · next name hname =>
    refine Prog.keeps_ignored_bind (h.look _ rfl) fun x hx => ?_
    split
    · exact .inl ⟨rfl, nofun⟩
    · exact .inl ⟨rfl, nofun⟩
    · refine Prog.keeps_ignored_bind (h.look _ rfl) fun _ _ => ?_
      exact Prog.keeps_ignored_bind (h.quarantine name) fun _ _ => .inl ⟨rfl, nofun⟩
    · exact examine_keeps h contested (h.good name _ (hfiles name (pickTarget_mem hname)) hx) _

/-- **The rule for `read`.**  The call ends where it started, without a message,
or after the rename of the message it returns. -/
theorem read_keeps (h : Reader R q Good a) (fuel : ℕ) :
    (read fuel a).Keeps R q fun q' r =>
      (q' = q ∧ ∀ m, r ≠ .ok (some m)) ∨
      ∃ name, Good name ∧ q' = R.next q (claimOp a name) (.ok ()) ∧
        ∀ m, r = .ok (some m) → textOf m "msg_id" ++ ".json" = name := by
  refine (agentSubdir_only (φ := fun _ => False) _ _ _).keeps_bind (Prog.rets_true _)
    (fun _ h => h.elim) (fun _ _ => ?_) (fun e => .inl ⟨rfl, nofun⟩)
  generalize ([] : List String) = contested
  induction fuel generalizing contested with
  | zero => trivial
  | succ fuel ih =>
    refine (readPass_keeps h contested).bind (fun q' p hp => ?_) (fun q' e he => ?_)
    · rcases hp with ⟨rfl, hp⟩ | ⟨name, hn, rfl, hp, hm⟩
      · cases p with
        | done m =>
          refine .inl ⟨rfl, fun m' hm' => ?_⟩
          cases hm'
          exact hp m' rfl
        | again c => exact ih c
      · cases p with
        | done m =>
          refine .inr ⟨name, hn, rfl, fun m' hm' => ?_⟩
          cases hm'
          exact hm m' rfl
        | again c => exact absurd rfl (hp c)
    · rcases he with ⟨rfl, -⟩ | ⟨name, hn, rfl, -, -⟩
      · exact .inl ⟨rfl, nofun⟩
      · exact .inr ⟨name, hn, rfl, nofun⟩

end Rule

/-! ## The footprints of `finalize`, `release` and the reap -/

/-- The operations of `finalize` and `release` on the mailbox of `agent`. -/
inductive FinishOp (sid agent : String) : Op → Prop
  | look {o : Op} : o.looks = true → FinishOp sid agent o
  | dropClaim {name : String} : startsWith ".claim-" name = true →
      FinishOp sid agent (.unlink ⟨.box sid agent .processing, name⟩)
  | archive {msgId : String} : msgIdOk msgId = true →
      FinishOp sid agent (.replace ⟨.box sid agent .processing, jsonName msgId⟩
        ⟨.box sid agent .archive, jsonName msgId⟩ none)
  | back {msgId : String} : msgIdOk msgId = true →
      FinishOp sid agent (.replace ⟨.box sid agent .processing, jsonName msgId⟩
        ⟨.box sid agent .inbox, jsonName msgId⟩ none)

/-- The operations of `_reap_expired_claim` on the claim `claimFile`. -/
inductive ReapOp (sid agent : String) (claimFile : MPath) : Op → Prop
  | look {o : Op} : o.looks = true → ReapOp sid agent claimFile o
  | lock (p : MPath) : ReapOp sid agent claimFile (.lock p)
  | unlock (p : MPath) : ReapOp sid agent claimFile (.unlock p)
  | dropClaim : ReapOp sid agent claimFile (.unlink claimFile)
  | back (msgId : String) (l : Lease) :
      ReapOp sid agent claimFile (.replace ⟨.box sid agent .processing, jsonName msgId⟩
        ⟨.box sid agent .inbox, jsonName msgId⟩ (some l))

theorem tryUnlink_only {φ : Op → Prop} {p : MPath} (h : φ (.unlink p)) :
    (tryUnlink p).Only φ := by
  simpa [tryUnlink] using h

theorem unlinkMissingOk_only {φ : Op → Prop} {p : MPath} (h : φ (.unlink p)) :
    (unlinkMissingOk p).Only φ := by
  refine (tryUnlink_only h).bind fun r => ?_
  split
  · simp
  · exact orRaise_only _

theorem validateMsgId_rets (msgId : String) :
    (validateMsgId msgId).Rets fun _ => msgIdOk msgId = true := by
  unfold validateMsgId require
  split
  · next h => exact h
  · simp

theorem finalize_finishOp (sid agent msgId owner : String) :
    (finalize sid agent msgId owner).Only (FinishOp sid agent) := by
  have hφ : ∀ o : Op, o.looks = true → FinishOp sid agent o := fun o h => .look h
  refine (validateMsgId_only _).bind_rets (validateMsgId_rets msgId) fun _ hm =>
    agentSubdir_bind_only (agentSubdir_bind_only ((sortedGlob_only hφ _ _ _).bind_rets
      (sortedGlob_rets _ _ _) fun names hnames => ?_))
  split
  · simp
  · next claimFile =>
    have hc := claim_of_globMatch (hnames claimFile (by simp))
    refine (look_only hφ rfl).bind fun b => ?_
    split
    · refine (loadJson_only hφ _).bind fun claim => ?_
      split
      · simp
      · split
        · exact (look_only hφ rfl).bind fun _ => (replace_only (.archive hm)).bind fun _ =>
            (unlinkMissingOk_only (.dropClaim hc)).bind fun _ => by simp
        · simp
    · simp
  · simp

theorem release_finishOp (sid agent msgId owner : String) :
    (release sid agent msgId owner).Only (FinishOp sid agent) := by
  have hφ : ∀ o : Op, o.looks = true → FinishOp sid agent o := fun o h => .look h
  refine (validateMsgId_only _).bind_rets (validateMsgId_rets msgId) fun _ hm =>
    agentSubdir_bind_only (agentSubdir_bind_only ((sortedGlob_only hφ _ _ _).bind_rets
      (sortedGlob_rets _ _ _) fun names hnames => (look_only hφ rfl).bind fun b =>
      (require_only _ _).bind fun _ => ?_))
  split
  · exact (replace_only (.back hm)).bind fun _ => by simp
  · next claimFile =>
    have hc := claim_of_globMatch (hnames claimFile (by simp))
    refine Prog.Only.bind ?_ fun _ => (replace_only (.back hm)).bind fun _ =>
      (unlinkMissingOk_only (.dropClaim hc)).bind fun _ => by simp
    refine (look_only hφ rfl).bind fun b => ?_
    split
    · exact (loadJson_only hφ _).bind fun _ => (require_only _ _).bind fun _ => require_only _ _
    · simp
  · simp

theorem currentTime_only {φ : Op → Prop} (hφ : ∀ o : Op, o.looks = true → φ o) (p : MPath)
    (ts : ℤ) : (currentTime p ts).Only φ := by
  refine (loadClaim_only hφ p).bind fun r => ?_
  split <;> simp

/-! ### The critical sections -/

section Locked

variable {φ : Op → Prop} (hφ : ∀ o : Op, o.looks = true → φ o) {inbox processing : Dir}
  {claim : MPath} {msgId : String}

theorem withClaimLock_only {α : Type} {key : String} {body : Call α} (hlock : ∀ p, φ (.lock p))
    (hunlock : ∀ p, φ (.unlock p)) (h : body.Only φ) :
    (withClaimLock processing key body).Only φ :=
  Prog.Only.bind (by simpa [Mailbox.lock] using hlock _) fun _ =>
    h.ensure (by simpa [Mailbox.unlock] using hunlock _)

include hφ

theorem reapLocked_only (hdrop : φ (.unlink claim))
    (hback : ∀ l, φ (.replace ⟨processing, jsonName msgId⟩ ⟨inbox, jsonName msgId⟩ (some l)))
    (claimedTs cutoff : ℤ) : (reapLocked inbox processing claim msgId claimedTs cutoff).Only φ := by
  refine (currentTime_only hφ _ _).bind fun ts => ?_
  split
  · simp
  · refine Prog.Only.bind ?_ fun _ => (unlinkMissingOk_only hdrop).bind fun _ => by simp
    refine (look_only hφ rfl).bind fun b => ?_
    split
    · exact replace_only (hback _)
    · simp

theorem recoverLocked_only (hdrop : φ (.unlink claim))
    (hback : ∀ l, φ (.replace ⟨processing, jsonName msgId⟩ ⟨inbox, jsonName msgId⟩ (some l)))
    (claimedTs cutoff gate : ℤ) :
    (recoverLocked inbox processing claim msgId claimedTs cutoff gate).Only φ := by
  have hunlink : (unlink claim).Only φ := (tryUnlink_only hdrop).bind fun r => orRaise_only r
  refine (currentTime_only hφ _ _).bind fun ts => (look_only hφ rfl).bind fun b => ?_
  split
  · split
    · simp
    · exact (replace_only (hback _)).bind fun _ => hunlink.bind fun _ => by simp
  · split
    · simp
    · exact hunlink.bind fun _ => by simp

theorem sweepTmpClaims_only {names : List String}
    (hdrop : ∀ name ∈ names, φ (.unlink ⟨processing, name⟩)) (gate : ℤ) :
    (sweepTmpClaims processing gate names).Only φ := by
  induction names with
  | nil => simp [sweepTmpClaims]
  | cons name rest ih =>
    have hrest := ih fun n hn => hdrop n (List.mem_cons_of_mem _ hn)
    refine (look_only hφ rfl).bind fun st => ?_
    split
    · split
      · exact (tryUnlink_only (hdrop name List.mem_cons_self)).bind fun _ => hrest
      · exact hrest
    · exact hrest

omit hφ in
theorem rewriteClaim_only {key name : String} {j : Json}
    (hdrop : φ (.unlink ⟨processing, tmpRenewName key⟩))
    (hwrite : φ (.write ⟨processing, tmpRenewName key⟩ (.json j)))
    (hmove : φ (.replace ⟨processing, tmpRenewName key⟩ ⟨processing, name⟩ none)) :
    (rewriteClaim processing key name j).Only φ := by
  have hno : (unlinkMissingOk ⟨processing, tmpRenewName key⟩ >>= fun _ => pure false :
      Call Bool).Only φ := (unlinkMissingOk_only hdrop).bind fun _ => by simp
  refine Prog.Only.bind ((Prog.only_op _).mpr hwrite) fun r => ?_
  split
  · exact hno
  · refine Prog.Only.bind ((Prog.only_op _).mpr hmove) fun r => ?_
    split
    · exact hno
    · simp

theorem anyForeign_only (owner : String) (names : List String) :
    (anyForeign processing owner names).Only φ := by
  induction names with
  | nil => simp [anyForeign]
  | cons c rest ih =>
    refine Prog.Only.bind ?_ fun _ => ih.bind fun _ => by simp
    refine (look_only hφ rfl).bind fun r => ?_
    split
    · split <;> simp
    · simp

theorem finalizeFromInbox_only {sid agent : String}
    (hmove : ∀ b, msgIdOk msgId = true → φ (.replace ⟨.box sid agent b, jsonName msgId⟩
      ⟨.box sid agent .archive, jsonName msgId⟩ none)) (owner : String) :
    (finalizeFromInbox sid agent msgId owner).Only φ := by
  refine (validateMsgId_only _).bind_rets (validateMsgId_rets msgId) fun _ hm =>
    agentSubdir_bind_only (agentSubdir_bind_only (agentSubdir_bind_only ?_))
  have harchive (b : Box) : (do
      mkdir (.box sid agent .archive)
      replace ⟨.box sid agent b, jsonName msgId⟩ ⟨.box sid agent .archive, jsonName msgId⟩
      return "finalized → archive/" ++ jsonName msgId : Call String).Only φ :=
    (look_only (o := .mkdir _) hφ rfl).bind fun _ => (replace_only (hmove b hm)).bind fun _ => by simp
  refine (look_only hφ rfl).bind fun b => ?_
  split
  · refine (look_only hφ rfl).bind fun b => ?_
    split
    · exact harchive _
    · simp
  · refine (look_only hφ rfl).bind fun b => ?_
    split
    · refine (sortedGlob_only hφ _ _ _).bind fun claims =>
        (anyForeign_only hφ owner claims).bind fun foreign => ?_
      split
      · simp
      · exact harchive _
    · simp

end Locked

theorem reapExpiredClaim_reapOp (sid agent : String) (claimFile : MPath) :
    (reapExpiredClaim (.box sid agent .inbox) (.box sid agent .processing) claimFile).Only
      (ReapOp sid agent claimFile) := by
  have hφ : ∀ o : Op, o.looks = true → ReapOp sid agent claimFile o := fun o h => .look h
  refine (look_only hφ rfl).bind fun now => (loadClaim_only hφ _).bind fun r => ?_
  split
  · simp
  · split
    · simp
    · split
      · simp
      · exact withClaimLock_only .lock .unlock (reapLocked_only hφ .dropClaim (.back _) _ _)

end AiMeshChat.Mailbox
