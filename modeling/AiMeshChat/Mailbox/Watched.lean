import AiMeshChat.Mailbox.NewMessage
import AiMeshChat.Mailbox.Watch

/-!
# Every call keeps its role

Outside the lock of a session most operations are allowed whatever the call knows
(`Calm`), and a function made of them is dealt with by its footprint. What is left are
the places at which a call has to know something: `send` where it writes a message,
`read` where it puts one away, and `session_init` where it writes `session.json`.
-/

namespace AiMeshChat.Mailbox.Readable

open Lib Sessions

/-! ## Outside the lock of a session -/

/-- The call is outside the lock of a session and has forgotten nothing. -/
def Later (q q' : Watch) : Prop := q'.phase = .idle ∧ ∀ x ∈ q.known, x ∈ q'.known

theorem Later.refl {q : Watch} (h : q.phase = .idle) : Later q q := ⟨h, fun _ hx => hx⟩

theorem Later.trans {q q' q'' : Watch} (h : Later q q') (h' : Later q' q'') : Later q q'' :=
  ⟨h'.1, fun x hx => h'.2 x (h.2 x hx)⟩

theorem known_next (q : Watch) (o : Op) (a : Ans o) : ∀ x ∈ q.known, x ∈ (q.next o a).known := by
  intro x hx
  cases o with
  | read p => exact List.mem_append_right _ hx
  | fileExists p => cases a <;> exact hx
  | openFd p => cases a <;> exact hx
  | write p y => cases a <;> exact hx
  | replace src dst l => cases a <;> exact hx
  | _ => exact hx

theorem later_next {q : Watch} {o : Op} (hq : q.phase = .idle)
    (ho : ∀ sid, o ≠ .openFd (lockFile sid)) (a : Ans o) : Later q (q.next o a) := by
  refine ⟨?_, known_next q o a⟩
  cases o with
  | read p => simp [Watch.next, hq, Phase.look]
  | fileExists p => cases a <;> simp [Watch.next, hq, Phase.look]
  | flock fd => simp [Watch.next, hq, Phase.locks]
  | funlock fd => rfl
  | openFd p =>
    cases a with
    | error e => exact hq
    | ok fd =>
      simp only [Watch.next, hq, Phase.opens]
      split
      · next sid name =>
        have hname : name ≠ ".session.lock" := by
          rintro rfl
          exact ho sid rfl
        rw [if_neg hname]
      · rfl
  | write p x => cases a <;> simp [Watch.next, hq, Phase.writes]
  | replace src dst l => cases a <;> simp [Watch.next, hq, Phase.moves]
  | _ => exact hq

/-- An operation that is always allowed outside the lock of a session. -/
structure Calm (S : SendArgs → Prop) (o : Op) : Prop where
  allowed : ∀ q : Watch, q.phase = .idle → Allowed S q o
  outside : ∀ sid, o ≠ .openFd (lockFile sid)

/-- How a function ends that starts in `q` and stays outside. -/
def Outside {α : Type} (q : Watch) (M : Watch → α → Prop) (q' : Watch) (r : Except PyErr α) :
    Prop :=
  Later q q' ∧ ∀ a, r = .ok a → M q' a

variable {S : SendArgs → Prop} {α β : Type} {q : Watch}

theorem outside_ret {M : Watch → α → Prop} {a : α} (hq : q.phase = .idle) (h : M q a) :
    (Prog.ret a : Call α).Keeps (role S) q (Outside q M) :=
  ⟨.refl hq, fun b hb => by cases hb; exact h⟩

theorem outside_raise {M : Watch → α → Prop} {e : PyErr} (hq : q.phase = .idle) :
    (Prog.raise e : Call α).Keeps (role S) q (Outside q M) :=
  ⟨.refl hq, nofun⟩

theorem outside_bind {p : Call α} {f : α → Call β} {M : Watch → α → Prop} {N : Watch → β → Prop}
    (hp : p.Keeps (role S) q (Outside q M))
    (hf : ∀ q' a, Later q q' → M q' a → (f a).Keeps (role S) q' (Outside q' N)) :
    (p >>= f).Keeps (role S) q (Outside q N) := by
  refine hp.bind (fun q' a h => ?_) fun q' e h => ⟨h.1, nofun⟩
  exact (hf q' a h.1 (h.2 a rfl)).mono fun q'' r h'' => ⟨h.1.trans h''.1, h''.2⟩

theorem outside_calm {p : Call α} {M : α → Prop} (hq : q.phase = .idle) (hp : p.Only (Calm S))
    (hM : p.Rets M) : p.Keeps (role S) q (Outside q fun _ => M) :=
  hp.keeps_inv (R := role S) (I := Later q) hM
    (fun _ _ hI ho => ⟨ho.allowed _ hI.1, fun a => hI.trans (later_next hI.1 ho.outside a)⟩)
    (.refl hq)

theorem calm_bind {p : Call α} {f : α → Call β} {M : α → Prop} {N : Watch → β → Prop}
    (hq : q.phase = .idle) (hp : p.Only (Calm S)) (hM : p.Rets M)
    (hf : ∀ q' a, Later q q' → M a → (f a).Keeps (role S) q' (Outside q' N)) :
    (p >>= f).Keeps (role S) q (Outside q N) :=
  outside_bind (outside_calm hq hp hM) hf

theorem check_bind {p : Call α} {f : α → Call β} {M : α → Prop} {N : Watch → β → Prop}
    (hq : q.phase = .idle) (hp : p.Only fun _ => False) (hM : p.Rets M)
    (hf : ∀ a, M a → (f a).Keeps (role S) q (Outside q N)) :
    (p >>= f).Keeps (role S) q (Outside q N) :=
  hp.keeps_bind hM (fun _ h => h.elim) hf fun _ => ⟨.refl hq, nofun⟩

/-! ### The calm operations -/

theorem calm_glance {o : Op} (h : glances o = true) : Calm S o := by
  refine ⟨fun q _ => .glance h, ?_⟩
  rintro sid rfl
  cases h

theorem calm_flock (fd : ℕ) : Calm S (.flock fd) := ⟨fun _ hq => .flock fd (.inl hq), nofun⟩
theorem calm_funlock (fd : ℕ) : Calm S (.funlock fd) := ⟨fun _ _ => .funlock fd, nofun⟩

theorem calm_looks {o : Op} (h : o.looks = true) : Calm S o := by
  cases o with
  | flock fd => exact calm_flock fd
  | funlock fd => exact calm_funlock fd
  | _ => first | exact calm_glance rfl | cases h

theorem look_bind {o : Op} {f : Ans o → Call β} {N : Watch → β → Prop} (hq : q.phase = .idle)
    (ho : o.looks = true)
    (hf : ∀ q' a, Later q q' → (f a).Keeps (role S) q' (Outside q' N)) :
    ((Prog.op o : Call (Ans o)) >>= f).Keeps (role S) q (Outside q N) :=
  calm_bind hq ((Prog.only_op o).mpr (calm_looks ho)) (Prog.rets_true _) fun q' a hl _ => hf q' a hl

theorem calm_drop (sid agent name : String) :
    Calm S (.unlink ⟨.box sid agent .processing, name⟩) := ⟨fun _ _ => .drop sid agent name, nofun⟩

theorem calm_back (sid agent : String) {mid : String} (l : Option Lease)
    (h : dotted (jsonName mid) = false) :
    Calm S (.replace ⟨.box sid agent .processing, jsonName mid⟩
      ⟨.box sid agent .inbox, jsonName mid⟩ l) := ⟨fun _ hq => .back sid agent l hq h, nofun⟩

theorem calm_publish (sid agent : String) {mid : String} (h : dotted (jsonName mid) = false) :
    Calm S (.replace ⟨.box sid agent .inbox, tmpName mid⟩ ⟨.box sid agent .inbox, jsonName mid⟩
      none) := ⟨fun _ hq => .publish sid agent hq h, nofun⟩

theorem calm_finishOp {sid agent : String} {o : Op} (h : FinishOp sid agent o) : Calm S o := by
  cases h with
  | look h => exact calm_looks h
  | dropClaim _ => exact calm_drop _ _ _
  | archive _ => exact ⟨fun _ hq => .archive _ _ _ hq, nofun⟩
  | back h => exact calm_back _ _ _ (dotted_jsonName h)

/-! ## `read` -/

theorem tryWriteNew_claim (sid agent : String) {name key : String} {j : Json}
    (h : claimLike name = true) (hj : IsClaim key j) :
    (tryWriteNew ⟨.box sid agent .processing, name⟩ (.json j)).Only (Calm S) :=
  ⟨⟨fun _ _ => .claimNew sid agent h hj, nofun⟩, fun _ => trivial⟩

theorem unlinkMissingOk_calm (sid agent name : String) :
    (unlinkMissingOk ⟨.box sid agent .processing, name⟩).Only (Calm S) :=
  unlinkMissingOk_only (calm_drop sid agent name)

theorem claimLike_claimName (key : String) : claimLike (claimName key) = true := by
  rw [claimLike, startsWith_claimName]
  rfl

theorem claimLike_tmpClaimName (key : String) (n : ℕ) : claimLike (tmpClaimName key n) = true := by
  rw [claimLike, startsWith_tmpClaimName, Bool.or_true]

theorem loadClaim_outside (sid agent : String) {name : String} (h : claimLike name = true)
    (hq : q.phase = .idle) :
    (loadClaim ⟨.box sid agent .processing, name⟩).Keeps (role S) q (Outside q fun _ cl =>
      ∀ j, cl = some j → ∃ key, IsClaim key j) := by
  refine Prog.keeps_op_bind (.glance rfl) fun r hr => ?_
  have hlater : Later q (q.next (.read ⟨.box sid agent .processing, name⟩) r) :=
    later_next hq (fun _ h => by cases h) r
  rcases r with e | x
  · exact ⟨hlater, fun cl hcl => by cases hcl; nofun⟩
  · obtain ⟨key, j, rfl, hj⟩ := (hr.sound x rfl).claim sid agent name h rfl
    have hdict : j.isDict = true := by obtain ⟨-, -, -, -, hd, -⟩ := id hj; exact hd
    simp only [hdict, if_true]
    refine ⟨hlater, fun cl hcl => ?_⟩
    cases hcl
    exact fun j' hj' => by cases hj'; exact ⟨key, hj⟩

theorem withClaimLock_calm {processing : Dir} {key : String} {body : Call α}
    (h : body.Only (Calm S)) : (withClaimLock processing key body).Only (Calm S) :=
  withClaimLock_only (fun _ => calm_glance rfl) (fun _ => calm_glance rfl) h

theorem reapExpiredClaim_outside (sid agent : String) {name : String} (h : claimLike name = true)
    (hq : q.phase = .idle) :
    (reapExpiredClaim (.box sid agent .inbox) (.box sid agent .processing)
      ⟨.box sid agent .processing, name⟩).Keeps (role S) q (Outside q fun _ _ => True) := by
  refine look_bind hq rfl fun q₁ now hl₁ => ?_
  refine outside_bind (loadClaim_outside sid agent h hl₁.1) fun q₂ cl hl₂ hcl => ?_
  split
  · exact outside_ret hl₂.1 trivial
  · next claim =>
    split
    · exact outside_ret hl₂.1 trivial
    · split
      · exact outside_ret hl₂.1 trivial
      · obtain ⟨key, hkey⟩ := hcl claim rfl
        exact outside_calm hl₂.1
          (withClaimLock_calm (reapLocked_only (fun _ h => calm_looks h) (calm_drop _ _ _)
            (fun l => calm_back _ _ _ (hkey.key_eq name).2) _ _)) (Prog.rets_true _)

theorem blocked_outside (sid agent : String) {name : String} (h : claimLike name = true)
    (hq : q.phase = .idle) :
    (blocked (.box sid agent .inbox) (.box sid agent .processing)
      ⟨.box sid agent .processing, name⟩).Keeps (role S) q (Outside q fun _ _ => True) := by
  refine outside_bind (reapExpiredClaim_outside sid agent h hq) fun q₁ b hl₁ _ => ?_
  split <;> exact outside_ret hl₁.1 trivial

theorem publishClaim_outside (sid agent : String) {name tmp key : String} {claim : Json}
    (hname : claimLike name = true) (htmp : claimLike tmp = true) (hclaim : IsClaim key claim)
    (hq : q.phase = .idle) :
    (publishClaim (.box sid agent .inbox) (.box sid agent .processing)
      ⟨.box sid agent .processing, name⟩ ⟨.box sid agent .processing, tmp⟩ claim).Keeps (role S) q
        (Outside q fun _ _ => True) := by
  refine calm_bind hq (tryWriteNew_claim sid agent htmp hclaim) (Prog.rets_true _)
    fun q₁ r hl₁ _ => ?_
  split
  · exact outside_calm hl₁.1 ((unlinkMissingOk_calm _ _ _).bind fun _ => by simp) (Prog.rets_true _)
  · exact outside_raise hl₁.1
  · have hlink : (tryLink ⟨.box sid agent .processing, tmp⟩
        ⟨.box sid agent .processing, name⟩).Only (Calm S) :=
      ⟨⟨fun _ _ => .claimLink sid agent htmp hname, nofun⟩, fun _ => trivial⟩
    refine calm_bind hl₁.1 hlink (Prog.rets_true _) fun q₂ r hl₂ _ => ?_
    split
    · exact outside_ret hl₂.1 trivial
    · exact calm_bind hl₂.1 (unlinkMissingOk_calm _ _ _) (Prog.rets_true _)
        fun q₃ _ hl₃ _ => blocked_outside sid agent hname hl₃.1
    · refine calm_bind hl₂.1 (unlinkMissingOk_calm _ _ _) (Prog.rets_true _)
        fun q₃ _ hl₃ _ => ?_
      refine calm_bind hl₃.1 (tryWriteNew_claim sid agent hname hclaim) (Prog.rets_true _)
        fun q₄ r hl₄ _ => ?_
      split
      · exact outside_ret hl₄.1 trivial
      · exact calm_bind hl₄.1 (unlinkMissingOk_calm _ _ _) (Prog.rets_true _)
          fun q₅ _ hl₅ _ => blocked_outside sid agent hname hl₅.1
      · exact outside_raise hl₄.1

/-- The name of a listed message that is not hidden. -/
structure Visible (name : String) : Prop where
  listed : isMessageName name = true
  shown : dotted name = false

theorem Visible.stem {name : String} (h : Visible name) : jsonName (stem name) = name := by
  have hend := h.listed
  simp only [isMessageName, Bool.and_eq_true] at hend
  exact jsonName_stem hend.1.1 h.shown

theorem claimTarget_outside (a : ReadArgs) (contested : List String) {name : String} (msg : Json)
    (h : Visible name) (hq : q.phase = .idle) :
    (claimTarget a contested name msg).Keeps (role S) q (Outside q fun _ _ => True) := by
  refine look_bind hq rfl fun q₁ _ hl₁ => ?_
  refine look_bind (o := .random) hl₁.1 rfl fun q₂ nonce hl₂ => ?_
  refine look_bind (o := .clock) hl₂.1 rfl fun q₃ now hl₃ => ?_
  have hclaim : IsClaim (claimKey (stem name) a.owner) (claimMeta (stem name) a.owner now) :=
    isClaim_claimMeta (by rw [h.stem]; exact h.shown) now
  refine outside_bind (publishClaim_outside _ _ (claimLike_claimName _)
    (claimLike_tmpClaimName _ _) hclaim hl₃.1) fun q₄ g hl₄ _ => ?_
  split
  · exact outside_ret hl₄.1 trivial
  · exact outside_ret hl₄.1 trivial
  · have hmove : (tryReplace ⟨.box a.sessionId a.agentId .inbox, name⟩
        ⟨.box a.sessionId a.agentId .processing, name⟩).Only (Calm S) :=
      ⟨⟨fun _ hq => .claim _ _ hq h.shown, nofun⟩, fun _ => trivial⟩
    refine calm_bind hl₄.1 hmove (Prog.rets_true _) fun q₅ r hl₅ _ => ?_
    refine outside_calm hl₅.1 ?_ (Prog.rets_true _)
    split
    · exact (unlinkMissingOk_calm _ _ _).bind fun _ =>
        (unlinkMissingOk_calm _ _ _).bind fun _ => by simp
    · exact (unlinkMissingOk_calm _ _ _).bind fun _ => by simp

theorem tryReplace_corrupt (sid agent : String) {name : String} (h : wellNamed name = false) :
    (tryReplace ⟨.box sid agent .inbox, name⟩ ⟨.box sid agent .corrupt, name⟩).Only (Calm S) :=
  ⟨⟨fun _ hq => .quarantine sid agent h hq, nofun⟩, fun _ => trivial⟩

theorem quarantine_calm (a : ReadArgs) {name : String} (h : wellNamed name = false) :
    (quarantine a name).Only (Calm S) :=
  (look_only (fun _ h => calm_looks h) rfl).bind fun _ =>
    (tryReplace_corrupt _ _ h).bind fun r => orRaise_only r

theorem fromRoster_known {sid : String} {msg : Json} (hq : q.phase = .idle)
    (h : (sid, sender msg) ∈ q.known) :
    (fromRoster sid msg).Keeps (role S) q (Outside q fun _ b => b = true) := by
  refine outside_bind (M := fun _ info => ∃ doc, info = some doc ∧ doc.isDict = true ∧
    doc.truthy = true ∧ TextMembers doc ∧ sender msg ∈ rosterOf doc) ?_ ?_
  · refine check_bind hq (validateAgentId_only sid) (Prog.rets_true _) fun _ _ => ?_
    refine Prog.keeps_op_bind (.glance rfl) fun b hb => ?_
    obtain rfl : b = true := hb sid _ rfl h
    refine Prog.keeps_op_bind (.glance rfl) fun r hr => ?_
    obtain ⟨doc, hdoc, hdict, htruthy, hmem⟩ := hr.found sid _ rfl h
    have hlater : Later q (q.next (.read (sessionFile sid)) r) :=
      later_next hq (fun _ h => by cases h) r
    rcases r with e | (j | _)
    · cases hdoc
    · simp only [docOf] at hdoc
      split at hdoc
      · cases hdoc
      · refine ⟨hlater, fun info hinfo => ?_⟩
        cases hinfo
        obtain rfl := Option.some.inj hdoc
        have hplain := hr.plain sid j rfl (by simp [docOf, ‹¬j = .null›])
        exact ⟨j, rfl, hdict, htruthy, hplain.text, hmem⟩
    · cases hdoc
  · rintro q' info hl ⟨doc, rfl, hdict, htruthy, htext, hmem⟩
    simp only [htruthy, hdict, htext.rosterSet, Bool.not_true, Bool.false_eq_true, if_false]
    refine outside_ret hl.1 ?_
    exact decide_eq_true hmem

/-- What the call knows of a message it has read under the name `name`. -/
def Vouched (S : SendArgs → Prop) (sid agent name : String) (msg : Json) (q : Watch) : Prop :=
  wellNamed name = true → Fit S sid agent (stem name) msg ∧ (sid, sender msg) ∈ q.known

theorem examine_outside (a : ReadArgs) (contested : List String) {name : String} {msg : Json}
    (hq : q.phase = .idle) (hv : Visible name) (h : Vouched S a.sessionId a.agentId name msg q) :
    (examine a contested name msg).Keeps (role S) q (Outside q fun _ _ => True) := by
  have haway (hno : wellNamed name = false) : ((quarantine a name >>= fun _ =>
      pure (Pass.again contested)) : Call Pass).Only (Calm S) :=
    (quarantine_calm a hno).bind fun _ => by simp
  unfold examine
  by_cases hname : wellNamed name = true
  · obtain ⟨hfit, hknown⟩ := h hname
    have hvalid := hfit.valid
    rw [(eq_jsonName_of_wellNamed hname).2] at hvalid
    rw [hvalid]
    refine outside_bind (fromRoster_known hq hknown) ?_
    rintro q' b hl rfl
    exact claimTarget_outside a contested msg hv hl.1
  · rw [Bool.not_eq_true] at hname
    split
    · exact outside_raise hq
    · exact outside_calm hq (haway hname) (Prog.rets_true _)
    · refine calm_bind hq (fromRoster_only (fun _ h => calm_looks h) _ _) (Prog.rets_true _)
        fun q' b hl _ => ?_
      split
      · exact claimTarget_outside a contested msg hv hl.1
      · exact outside_calm hl.1 (haway hname) (Prog.rets_true _)

theorem readBytes_inbox (sid agent : String) {name : String} (h : isMessageName name = true)
    (hq : q.phase = .idle) :
    (readBytes ⟨.box sid agent .inbox, name⟩).Keeps (role S) q (Outside q fun q' r =>
      (r = .ok .junk → wellNamed name = false) ∧
      ∀ msg, r = .ok (.json msg) → Visible name ∧ Vouched S sid agent name msg q') := by
  refine ⟨.glance rfl, fun r hr => ⟨later_next hq (fun _ h => by cases h) r, fun r' hr' => ?_⟩⟩
  cases hr'
  constructor
  · rintro rfl
    by_contra hname
    rw [Bool.not_eq_false] at hname
    obtain ⟨hm, hstem⟩ := eq_jsonName_of_wellNamed hname
    obtain ⟨j, hj, -⟩ := (hr.sound _ rfl).message sid agent (stem name) .inbox hm (.inl rfl)
      (by rw [hstem])
    cases hj
  · rintro msg rfl
    refine ⟨⟨h, (hr.sound _ rfl).plain sid agent name h rfl⟩, fun hname => ?_⟩
    obtain ⟨hm, hstem⟩ := eq_jsonName_of_wellNamed hname
    obtain ⟨j, hj, hfit, -⟩ := (hr.sound _ rfl).message sid agent (stem name) .inbox hm (.inl rfl)
      (by rw [hstem])
    cases hj
    refine ⟨hfit, ?_⟩
    simp [role, Watch.next, seenIn, hname]

theorem readPass_outside (a : ReadArgs) (contested : List String) (hq : q.phase = .idle) :
    (readPass a contested).Keeps (role S) q (Outside q fun _ _ => True) := by
  refine calm_bind hq (listMessages_only (fun _ h => calm_looks h) _) (listMessages_rets _)
    fun q' files hl hfiles => ?_
  split
  · exact outside_ret hl.1 trivial
  · next name hname =>
    have hlisted := hfiles name (pickTarget_mem hname)
    refine outside_bind (readBytes_inbox a.sessionId a.agentId hlisted hl.1) ?_
    rintro q'' r hl' ⟨hjunk, hmsg⟩
    split
    · exact outside_ret hl'.1 trivial
    · exact outside_raise hl'.1
    · refine outside_calm hl'.1 ?_ (Prog.rets_true _)
      exact (look_only (fun _ h => calm_looks h) rfl).bind fun _ =>
        (tryReplace_corrupt _ _ (hjunk rfl)).bind fun _ => by simp
    · next msg =>
      obtain ⟨hv, hvouched⟩ := hmsg msg rfl
      exact examine_outside a contested hl'.1 hv hvouched

theorem read_outside (fuel : ℕ) (a : ReadArgs) (hq : q.phase = .idle) :
    (read fuel a).Keeps (role S) q (Outside q fun _ _ => True) := by
  refine check_bind hq (agentSubdir_only _ _ _) (Prog.rets_true _) fun _ _ => ?_
  generalize ([] : List String) = contested
  induction fuel generalizing contested q with
  | zero => trivial
  | succ fuel ih =>
    refine outside_bind (readPass_outside a contested hq) fun q' p hl _ => ?_
    split
    · exact outside_ret hl.1 trivial
    · exact ih hl.1 _

/-! ## `recover_stale` -/

theorem recoverClaim_outside (sid agent : String) {name : String} (h : claimLike name = true)
    (cutoff gate : ℤ) (hq : q.phase = .idle) :
    (recoverClaim (.box sid agent .inbox) (.box sid agent .processing) cutoff gate
      ⟨.box sid agent .processing, name⟩).Keeps (role S) q (Outside q fun _ _ => True) := by
  refine outside_bind (loadClaim_outside sid agent h hq) fun q₁ cl hl₁ hcl => ?_
  split
  · exact outside_ret hl₁.1 trivial
  · next claim =>
    split
    · exact outside_ret hl₁.1 trivial
    · obtain ⟨key, hkey⟩ := hcl claim rfl
      exact outside_calm hl₁.1
        (withClaimLock_calm (recoverLocked_only (fun _ h => calm_looks h) (calm_drop _ _ _)
          (fun l => calm_back _ _ _ (hkey.key_eq name).2) _ _ _)) (Prog.rets_true _)

theorem recoverClaims_outside (sid agent : String) (cutoff gate : ℤ) {names : List String}
    (h : ∀ name ∈ names, claimLike name = true) (hq : q.phase = .idle) :
    (recoverClaims (.box sid agent .inbox) (.box sid agent .processing) cutoff gate names).Keeps
      (role S) q (Outside q fun _ _ => True) := by
  induction names generalizing q with
  | nil => exact outside_ret hq trivial
  | cons name rest ih =>
    refine outside_bind (M := fun _ _ => True) ?_ fun q₁ moved hl₁ _ => ?_
    · refine (recoverClaim_outside sid agent (h name List.mem_cons_self) cutoff gate hq).tryCatch
        (fun _ _ h => h) fun q₁ e hl => ?_
      split
      · exact ⟨hl.1, nofun⟩
      · exact ⟨hl.1, fun _ _ => trivial⟩
    · refine outside_bind (ih (fun name' hmem => h name' (List.mem_cons_of_mem _ hmem)) hl₁.1)
        fun q₂ n hl₂ _ => outside_ret hl₂.1 trivial

theorem recoverStale_outside (sid agent : String) (hq : q.phase = .idle) :
    (recoverStale sid agent).Keeps (role S) q (Outside q fun _ _ => True) := by
  unfold recoverStale
  rw [agentSubdir_bind, agentSubdir_bind]
  refine check_bind hq (validateAgentId_only _) (Prog.rets_true _) fun _ _ =>
    check_bind hq (validateAgentId_only _) (Prog.rets_true _) fun _ _ =>
    check_bind hq (validateAgentId_only _) (Prog.rets_true _) fun _ _ =>
    check_bind hq (validateAgentId_only _) (Prog.rets_true _) fun _ _ => ?_
  refine look_bind hq rfl fun q₁ b hl₁ => ?_
  split
  · refine look_bind (o := .clock) hl₁.1 rfl fun q₂ _ hl₂ => ?_
    refine look_bind (o := .clock) hl₂.1 rfl fun q₃ _ hl₃ => ?_
    refine calm_bind hl₃.1 (sortedGlob_only (fun _ h => calm_looks h) _ _ _)
      (sortedGlob_rets _ _ _) fun q₄ claims hl₄ hclaims => ?_
    refine outside_bind (recoverClaims_outside _ _ _ _ (fun name hmem => ?_) hl₄.1)
      fun q₅ n hl₅ _ => ?_
    · rw [claimLike, startsWith_of_globMatch (hclaims name hmem)]
      rfl
    · exact outside_calm hl₅.1 ((sortedGlob_only (fun _ h => calm_looks h) _ _ _).bind fun _ =>
        (sweepTmpClaims_only (fun _ h => calm_looks h) (fun n _ => calm_drop _ _ n) _).bind
          fun _ => by simp)
        (Prog.rets_true _)
  · exact outside_ret hl₁.1 trivial

/-! ## `send` -/

/-- What `send` has found out at its head. -/
structure Checked (a : SendArgs) (q : Watch) (x : List String × List AttachmentRef) : Prop where
  sessionOk : agentIdOk a.sessionId = true
  sender : (a.sessionId, a.fromId) ∈ q.known
  shown : dotted a.fromId = false
  recipients : ∀ rid ∈ x.1, a.toId = rid ∨ a.toId = BROADCAST_TO
  refs : x.2 = (a.attachments.getD []).map refOf

theorem Checked.later {a : SendArgs} {x : List String × List AttachmentRef} {q' : Watch}
    (h : Checked a q x) (hl : Later q q') : Checked a q' x :=
  ⟨h.sessionOk, hl.2 _ h.sender, h.shown, h.recipients, h.refs⟩

theorem require_rets (c : Bool) (e : PyErr) : (require c e).Rets fun _ => c = true := by
  unfold require
  split
  · next h => exact h
  · exact trivial

theorem readSession_outside (sid : String) (hq : q.phase = .idle) :
    (readSession sid).Keeps (role S) q (Outside q fun q' info =>
      ∀ doc, info = some doc → doc ≠ .null →
        ∀ y ∈ rosterOf doc, (sid, y) ∈ q'.known ∧ dotted y = false) := by
  refine check_bind hq (validateAgentId_only sid) (Prog.rets_true _) fun _ _ => ?_
  refine look_bind hq rfl fun q' b hl => ?_
  split
  · refine Prog.keeps_op_bind (.glance rfl) fun r hr => ?_
    have hlater : Later q' (q'.next (.read (sessionFile sid)) r) :=
      later_next hl.1 (fun _ h => by cases h) r
    rcases r with e | (j | _)
    · exact ⟨hlater, fun info hinfo => by cases hinfo; nofun⟩
    · refine ⟨hlater, fun info hinfo => ?_⟩
      cases hinfo
      rintro doc hdoc hnull y hy
      cases hdoc
      refine ⟨List.mem_append_left _ ?_, (hr.plain sid j rfl (by simp [docOf, hnull])).visible y hy⟩
      simp [seenIn, docOf, hnull, hy]
    · exact ⟨hlater, fun info hinfo => by cases hinfo; nofun⟩
  · exact outside_ret hl.1 nofun

theorem recipientsOf_to {a : SendArgs} {roster : List String} :
    ∀ rid ∈ recipientsOf a roster, a.toId = rid ∨ a.toId = BROADCAST_TO := by
  intro rid h
  unfold recipientsOf at h
  split at h
  · next hb => exact .inr hb
  · exact .inl (List.mem_singleton.mp h).symm

theorem checkSend_outside (a : SendArgs) (hq : q.phase = .idle) :
    (checkSend a).Keeps (role S) q (Outside q (Checked a)) := by
  unfold checkSend
  refine check_bind hq (require_only _ _) (require_rets _ _) fun _ hsid => ?_
  refine look_bind hq rfl fun q' b hl => ?_
  refine check_bind hl.1 (require_only _ _) (Prog.rets_true _) fun _ _ => ?_
  refine outside_bind (readSession_outside a.sessionId hl.1) fun q'' info hl' hinfo => ?_
  refine check_bind hl'.1 (require_only _ _) (require_rets _ _) fun _ hnull => ?_
  refine check_bind hl'.1 (require_only _ _) (Prog.rets_true _) fun _ _ => ?_
  refine check_bind hl'.1 (require_only _ _) (require_rets _ _) fun _ hfrom => ?_
  rcases NewMessage.attachmentRefs_eq (a.attachments.getD []) with ⟨-, hrefs⟩ | ⟨-, e, hrefs⟩
  · rw [hrefs, Prog.ret_bind]
    have hknown : (a.sessionId, a.fromId) ∈ q''.known ∧ dotted a.fromId = false := by
      rw [decide_eq_true_eq] at hnull hfrom
      cases info with
      | none => exact absurd rfl hnull
      | some doc => exact hinfo doc rfl hnull _ hfrom
    refine check_bind hl'.1 (require_only _ _) (Prog.rets_true _) fun _ _ => ?_
    refine calm_bind hl'.1 (checkInboxes_only (fun _ h => calm_looks h) _ _) (Prog.rets_true _)
      fun q₃ _ hl₃ _ => ?_
    refine check_bind hl₃.1 (require_only _ _) (Prog.rets_true _) fun _ _ => ?_
    refine check_bind hl₃.1 (require_only _ _) (Prog.rets_true _) fun _ _ => ?_
    exact outside_ret hl₃.1 ⟨hsid, hl₃.2 _ hknown.1, hknown.2, recipientsOf_to, rfl⟩
  · rw [hrefs]
    exact outside_raise hl'.1

/-- What a call that writes a message knows of it. -/
structure Letter (S : SendArgs → Prop) (sid mid : String) (j : Json) (q : Watch) : Prop where
  recorded : Recorded S sid mid j
  sender : (sid, sender j) ∈ q.known

theorem Letter.later {sid mid : String} {j : Json} {q' : Watch} (h : Letter S sid mid j q)
    (hl : Later q q') : Letter S sid mid j q' := ⟨h.recorded, hl.2 _ h.sender⟩

/-- The checks of `agent_subdir`, and then the rest in the directory. -/
theorem agentSubdir_outside {sid agent : String} {b : Box} {f : Dir → Call β}
    {N : Watch → β → Prop} (hq : q.phase = .idle)
    (hf : agentIdOk agent = true → agentIdOk sid = true →
      (f (.box sid agent b)).Keeps (role S) q (Outside q N)) :
    (agentSubdir sid agent b >>= f).Keeps (role S) q (Outside q N) := by
  rw [agentSubdir_bind]
  exact check_bind hq (require_only _ _) (require_rets _ _) fun _ hagent =>
    check_bind hq (require_only _ _) (require_rets _ _) fun _ hsid => hf hagent hsid

theorem deliver_bind {sid rid mid : String} {j : Json} {f : Call β} {N : Watch → β → Prop}
    (hq : q.phase = .idle) (h : Letter S sid mid j q) (hrid : agentIdOk rid = true)
    (hsid : agentIdOk sid = true) (hto : textOf j "to" = rid ∨ textOf j "to" = BROADCAST_TO)
    (hm : dotted (jsonName mid) = false)
    (hf : ∀ q', Later q q' → f.Keeps (role S) q' (Outside q' N)) :
    (write ⟨.box sid rid .inbox, tmpName mid⟩ (.json j) >>= fun _ =>
      replace ⟨.box sid rid .inbox, tmpName mid⟩ ⟨.box sid rid .inbox, jsonName mid⟩ >>= fun _ =>
        f).Keeps (role S) q (Outside q N) := by
  refine outside_bind (M := fun _ _ => True) ?_ fun q' _ hl _ => ?_
  · refine Prog.keeps_op_bind (.envelope hq fun _ => ⟨h.recorded.fit hsid hrid hto, h.sender⟩)
      fun r _ => ?_
    have hlater := later_next (o := .write ⟨.box sid rid .inbox, tmpName mid⟩ (.json j)) hq
      (fun _ h => by cases h) r
    cases r with
    | error e => exact ⟨hlater, nofun⟩
    | ok u => exact ⟨hlater, fun _ _ => trivial⟩
  · exact calm_bind hl.1 (replace_only (calm_publish _ _ hm)) (Prog.rets_true _)
      fun q'' _ hl' _ => hf q'' (hl.trans hl')

theorem publish_outside {sid mid : String} {j : Json} {rs : List String} (hq : q.phase = .idle)
    (h : Letter S sid mid j q) (hm : dotted (jsonName mid) = false)
    (hto : ∀ rid ∈ rs, textOf j "to" = rid ∨ textOf j "to" = BROADCAST_TO) :
    (publish sid mid j rs).Keeps (role S) q (Outside q fun _ _ => True) := by
  induction rs generalizing q with
  | nil => exact outside_ret hq trivial
  | cons rid rest ih =>
    refine agentSubdir_outside hq fun hrid hsid => ?_
    refine deliver_bind hq h hrid hsid (hto rid List.mem_cons_self) hm fun q' hl => ?_
    exact ih hl.1 (h.later hl) fun rid' hmem => hto rid' (List.mem_cons_of_mem _ hmem)

theorem backfill_outside {sid mid : String} {j : Json} {rs : List String} (hq : q.phase = .idle)
    (h : Letter S sid mid j q) (hm : dotted (jsonName mid) = false)
    (hto : ∀ rid ∈ rs, textOf j "to" = rid ∨ textOf j "to" = BROADCAST_TO) :
    (backfill sid mid j rs).Keeps (role S) q (Outside q fun _ _ => True) := by
  induction rs generalizing q with
  | nil => exact outside_ret hq trivial
  | cons rid rest ih =>
    have hrest : ∀ rid' ∈ rest, textOf j "to" = rid' ∨ textOf j "to" = BROADCAST_TO :=
      fun rid' hmem => hto rid' (List.mem_cons_of_mem _ hmem)
    refine agentSubdir_outside hq fun hrid hsid => ?_
    refine look_bind hq rfl fun q' b hl => ?_
    split
    · exact ih hl.1 (h.later hl) hrest
    · refine deliver_bind hl.1 (h.later hl) hrid hsid (hto rid List.mem_cons_self) hm
        fun q'' hl' => ?_
      exact outside_bind (ih hl'.1 (h.later (hl.trans hl')) hrest)
        fun q₃ n hl₃ _ => outside_ret hl₃.1 trivial

theorem requireValid_rets (what : String) (r : Except Refusal Unit) :
    (requireValid what r).Rets fun _ => r = .ok () := by
  rcases r with (why | why) | u
  · exact trivial
  · exact trivial
  · exact rfl

theorem appendHistory_outside {sid : String} {j : Json} (hq : q.phase = .idle)
    (h : Sent S sid (textOf j "msg_id") j) :
    (appendHistory sid j).Keeps (role S) q (Outside q fun _ _ => True) := by
  refine check_bind hq (validateAgentId_only _) (Prog.rets_true _) fun _ _ => ?_
  refine look_bind hq rfl fun q₁ b hl₁ => ?_
  refine check_bind hl₁.1 (require_only _ _) (Prog.rets_true _) fun _ _ => ?_
  refine check_bind hl₁.1 (require_only _ _) (Prog.rets_true _) fun _ _ => ?_
  refine check_bind hl₁.1 (requireValid_only _ _) (requireValid_rets _ _) fun _ hvalid => ?_
  refine check_bind hl₁.1 (validateMsgId_only _) (validateMsgId_rets _) fun _ hm => ?_
  refine look_bind hl₁.1 rfl fun q₂ _ hl₂ => ?_
  refine look_bind hl₂.1 rfl fun q₃ _ hl₃ => ?_
  refine check_bind hl₃.1 (require_only _ _) (Prog.rets_true _) fun _ _ => ?_
  refine outside_bind (M := fun _ _ => True) ?_ fun q₄ _ hl₄ _ => ?_
  · refine Prog.keeps_op_bind (.recordDraft ⟨hvalid, rfl, h⟩) fun r _ => ?_
    have hlater := later_next (o := .writeNew ⟨.history sid, tmpName (textOf j "msg_id")⟩ (.json j))
      hl₃.1 (fun _ h => by cases h) r
    rcases r with (_ | _ | _) | u
    · exact ⟨hlater, nofun⟩
    · exact ⟨hlater, nofun⟩
    · exact ⟨hlater, nofun⟩
    · exact ⟨hlater, fun _ _ => trivial⟩
  · refine outside_calm hl₄.1 ?_ (Prog.rets_true _)
    have hmove : Calm S (.replace ⟨.history sid, tmpName (textOf j "msg_id")⟩
        ⟨.history sid, jsonName (textOf j "msg_id")⟩ none) :=
      ⟨fun _ hq => .record sid hq (dotted_jsonName hm), fun _ h => by cases h⟩
    exact (replace_only hmove).bind fun _ => by simp

theorem advanceCursor_calm (sid : String) : (advanceCursor sid).Only (Calm S) := by
  have hopen : Calm S (.openFd ⟨.session sid, STREAM_CURSOR_FILE⟩) := by
    refine ⟨fun _ hq => .cursorFd sid hq, fun sid' h => ?_⟩
    injection h with h
    injection h with _ hname
    exact absurd hname (by decide)
  have hwrite (x : Data) : (write ⟨.session sid, ".tmp-stream-cursor"⟩ x).Only (Calm S) := by
    refine Prog.Only.bind ((Prog.only_op _).mpr ?_) fun r => orRaise_only r
    exact ⟨fun _ hq => .cursorDraft sid x hq, fun _ h => by cases h⟩
  have hmove : (replace ⟨.session sid, ".tmp-stream-cursor"⟩
      ⟨.session sid, STREAM_CURSOR_FILE⟩).Only (Calm S) :=
    replace_only ⟨fun _ hq => .cursorMove sid hq, fun _ h => by cases h⟩
  refine (validateAgentId_only _).bind fun _ =>
    (look_only (fun _ h => calm_looks h) rfl).bind fun _ =>
    (look_only (fun _ h => calm_looks h) rfl).bind fun _ =>
    ((Prog.only_op _).mpr hopen).bind fun fd => (orRaise_only fd).bind fun n =>
    (look_only (fun _ h => calm_looks h) rfl).bind fun _ => Prog.Only.bind ?_ fun _ => by simp
  refine Prog.Only.ensure (Prog.Only.bind ?_ fun prev => ?_)
    (look_only (fun _ h => calm_looks h) rfl)
  · refine (look_only (fun _ h => calm_looks h) rfl).bind fun b => ?_
    split
    · refine (look_only (fun _ h => calm_looks h) rfl).bind fun r => ?_
      split
      · split <;> simp
      · simp
    · simp
  · exact (hwrite _).bind fun _ => hmove.bind fun _ => by simp

theorem sendNew_outside {a : SendArgs} {mid : String} {rs : List String}
    {refs : List AttachmentRef} (ha : S a) (hmid : ∀ m, a.msgId = some m → m = mid)
    (hm : dotted (jsonName mid) = false) (hq : q.phase = .idle) (h : Checked a q (rs, refs)) :
    (sendNew a mid rs refs).Keeps (role S) q (Outside q fun _ _ => True) := by
  unfold sendNew
  refine look_bind (o := .clock) hq rfl fun q₁ now hl₁ => ?_
  obtain ⟨payload, hpayload⟩ : ∃ j, j = (messageOf a mid (isoFormat now) refs).toDict := ⟨_, rfl⟩
  have hid : textOf payload "msg_id" = mid := by rw [hpayload]; rfl
  have hto : textOf payload "to" = a.toId := by rw [hpayload]; rfl
  have hfrom : sender payload = a.fromId := by rw [hpayload]; rfl
  have hsent (j : Json) (hj : j = payload ∨ ∃ cursor, j = payload.set "_cursor" (.str cursor)) :
      Sent S a.sessionId mid j :=
    ⟨a, isoFormat now, ha, rfl, hmid, payload, by rw [hpayload, ← h.refs], hj⟩
  rw [← hpayload]
  refine check_bind hl₁.1 (requireValid_only _ _) (requireValid_rets _ _) fun _ hvalid => ?_
  have hletter : Letter S a.sessionId mid payload q₁ :=
    ⟨⟨hvalid, hid, hsent _ (.inl rfl)⟩, by rw [hfrom]; exact hl₁.2 _ h.sender⟩
  refine outside_bind (publish_outside hl₁.1 hletter hm (by rw [hto]; exact h.recipients))
    fun q₂ _ hl₂ _ => ?_
  refine calm_bind hl₂.1 (advanceCursor_calm _) (Prog.rets_true _) fun q₃ cursor hl₃ _ => ?_
  have hsame := sameChecked_set_cursor payload (.str cursor)
  have hstamped : Letter S a.sessionId mid (payload.set "_cursor" (.str cursor)) q₃ := by
    refine ⟨⟨?_, ?_, hsent _ (.inr ⟨cursor, rfl⟩)⟩, ?_⟩
    · rw [hsame.validateMessage]; exact hvalid
    · rw [hsame.textOf (by decide)]; exact hid
    · rw [sender, hsame.textOf (by decide)]
      exact (hletter.later (hl₂.trans hl₃)).sender
  refine outside_bind (publish_outside hl₃.1 hstamped hm ?_) fun q₄ _ hl₄ _ => ?_
  · rw [hsame.textOf (by decide), hto]
    exact h.recipients
  · refine outside_bind (appendHistory_outside hl₄.1 ?_) fun q₅ _ hl₅ _ => outside_ret hl₅.1 trivial
    rw [hstamped.recorded.msgId]
    exact hstamped.recorded.sent

/-- What is found as the earlier copy of a message: nothing, or a message. -/
def Earlier (S : SendArgs → Prop) (sid mid : String) (j : Json) : Prop :=
  j = .obj [] ∨ Recorded S sid mid j

theorem loadOrEmpty_outside {p : MPath} {sid mid : String} (hq : q.phase = .idle)
    (hp : ∀ ρ x, Sound S ρ p x → ∃ j, x = .json j ∧ Recorded S sid mid j) :
    (loadOrEmpty p).Keeps (role S) q (Outside q fun _ => Earlier S sid mid) := by
  refine Prog.keeps_op_bind (.glance rfl) fun r hr => ?_
  have hlater : Later q (q.next (.read p) r) := later_next hq (fun _ h => by cases h) r
  rcases r with e | x
  · exact ⟨hlater, fun j hj => by cases hj; exact .inl rfl⟩
  · obtain ⟨j, rfl, hj⟩ := hp _ x (hr.1 x rfl)
    exact ⟨hlater, fun j' hj' => by cases hj'; exact .inr hj⟩

theorem findInInboxes_outside {sid mid : String} (hm : msgIdOk mid = true) {rs : List String}
    {found : Option Json} (hq : q.phase = .idle) (h : ∀ e, found = some e → Earlier S sid mid e) :
    (findInInboxes sid mid rs found).Keeps (role S) q (Outside q fun _ r =>
      ∀ e, r = some e → Earlier S sid mid e) := by
  induction rs generalizing q found with
  | nil => exact outside_ret hq h
  | cons rid rest ih =>
    refine agentSubdir_outside hq fun _ _ => ?_
    refine look_bind hq rfl fun q₁ b hl₁ => ?_
    split
    · refine outside_bind (M := fun _ => Earlier S sid mid)
        (loadOrEmpty_outside hl₁.1 fun ρ x hx => ?_) fun q₂ j hl₂ hj => ?_
      · obtain ⟨j, hj, hfit, -⟩ := hx.message sid rid mid .inbox hm (.inl rfl) rfl
        exact ⟨j, hj, hfit.recorded⟩
      · exact ih hl₂.1 fun e he => by cases he; exact hj
    · exact ih hl₁.1 h

theorem findExisting_outside {sid mid : String} (hm : msgIdOk mid = true) (rs : List String)
    (hq : q.phase = .idle) :
    (findExisting sid mid rs).Keeps (role S) q (Outside q fun _ r =>
      ∀ e, r = some e → Earlier S sid mid e) := by
  refine outside_bind (findInInboxes_outside hm hq nofun) fun q₁ r hl₁ hr => ?_
  split
  · exact outside_ret hl₁.1 hr
  · refine look_bind hl₁.1 rfl fun q₂ b hl₂ => ?_
    split
    · refine outside_bind (M := fun _ => Earlier S sid mid)
        (loadOrEmpty_outside hl₂.1 fun ρ x hx => ?_) fun q₃ j hl₃ hj => ?_
      · exact hx.record sid mid hm (.inl rfl)
      · exact outside_ret hl₃.1 fun e he => by cases he; exact hj
    · exact outside_ret hl₂.1 nofun

theorem samePayload_text {e : Json} {a : SendArgs} {refs : List AttachmentRef}
    (h : samePayload e a refs = true) :
    textOf e "from" = a.fromId ∧ textOf e "to" = a.toId ∧ e ≠ .obj [] := by
  simp only [samePayload, Bool.and_eq_true, decide_eq_true_eq] at h
  obtain ⟨⟨⟨⟨⟨⟨⟨⟨⟨⟨⟨⟨⟨⟨-, hfrom⟩, hto⟩, -⟩, -⟩, -⟩, -⟩, -⟩, -⟩, -⟩, -⟩, -⟩, -⟩, -⟩, -⟩ := h
  refine ⟨by rw [textOf, hfrom]; rfl, by rw [textOf, hto]; rfl, ?_⟩
  rintro rfl
  cases hfrom

theorem replay_outside {a : SendArgs} {mid : String} {rs : List String}
    {refs : List AttachmentRef} {e : Json} (hm : dotted (jsonName mid) = false)
    (hq : q.phase = .idle) (h : Checked a q (rs, refs)) (he : Earlier S a.sessionId mid e) :
    (replay a mid rs refs e).Keeps (role S) q (Outside q fun _ _ => True) := by
  unfold replay
  refine check_bind hq (require_only _ _) (Prog.rets_true _) fun _ _ => ?_
  refine check_bind hq (require_only _ _) (require_rets _ _) fun _ hsame => ?_
  obtain ⟨hfrom, hto, hne⟩ := samePayload_text hsame
  have hrecorded : Recorded S a.sessionId mid e := he.resolve_left hne
  have hletter : Letter S a.sessionId mid e q := ⟨hrecorded, by rw [sender, hfrom]; exact h.sender⟩
  refine outside_bind (backfill_outside hq hletter hm (by rw [hto]; exact h.recipients))
    fun q₁ n hl₁ _ => ?_
  refine outside_bind (M := fun _ _ => True) ?_ fun q₂ _ hl₂ _ => outside_ret hl₂.1 trivial
  refine look_bind hl₁.1 rfl fun q₂ b hl₂ => ?_
  split
  · exact outside_ret hl₂.1 trivial
  · refine outside_bind (appendHistory_outside hl₂.1 ?_) fun q₃ _ hl₃ _ => outside_ret hl₃.1 trivial
    rw [hrecorded.msgId]
    exact hrecorded.sent

theorem dotted_append {s t : String} (hs : dotted s = false) (ht : dotted t = false) :
    dotted (s ++ t) = false := by
  simp only [dotted, startsWith, String.toList_append] at hs ht ⊢
  cases h : s.toList with
  | nil => exact ht
  | cons c cs => rwa [h] at hs

theorem freshMsgId_rets {a : SendArgs} (h : dotted a.fromId = false) (rs : List String) (fuel : ℕ) :
    (freshMsgId a rs fuel).Rets fun mid => dotted (jsonName mid) = false := by
  have hgen : (genMsgId a.fromId).Rets fun mid => dotted (jsonName mid) = false := by
    have htail (x : String) : dotted ("_" ++ x) = false := by
      simp [dotted, startsWith, String.toList_append, List.isPrefixOf]
    have hname (x y : String) : dotted (jsonName (a.fromId ++ "_" ++ x ++ "_" ++ y)) = false := by
      rw [jsonName, String.append_assoc, String.append_assoc, String.append_assoc,
        String.append_assoc]
      exact dotted_append h (htail _)
    exact fun now suffix => hname _ suffix
  induction fuel with
  | zero => trivial
  | succ fuel ih =>
    refine hgen.bind fun mid hmid => (Prog.rets_true _).bind fun b _ => ?_
    split
    · exact ih
    · refine Prog.Rets.bind (Prog.rets_true _) fun b _ => ?_
      split
      · exact ih
      · exact hmid

theorem send_outside {a : SendArgs} (ha : S a) (fuel : ℕ) (hq : q.phase = .idle) :
    (send fuel a).Keeps (role S) q (Outside q fun _ _ => True) := by
  refine outside_bind (checkSend_outside a hq) fun q₁ x hl₁ hx => ?_
  obtain ⟨rs, refs⟩ := x
  dsimp only
  split
  · next mid hmid =>
    refine check_bind hl₁.1 (validateMsgId_only _) (validateMsgId_rets mid) fun _ hm => ?_
    refine outside_bind (findExisting_outside hm rs hl₁.1) fun q₂ r hl₂ hr => ?_
    have hx₂ := hx.later hl₂
    split
    · next e => exact replay_outside (dotted_jsonName hm) hl₂.1 hx₂ (hr e rfl)
    · exact sendNew_outside ha (fun m h => Option.some.inj (h.symm.trans hmid)) (dotted_jsonName hm)
        hl₂.1 hx₂
  · next hmid =>
    refine calm_bind hl₁.1 (freshMsgId_only (fun _ h => calm_looks h) a rs fuel)
      (freshMsgId_rets hx.shown rs fuel) fun q₂ mid hl₂ hm => ?_
    have hx₂ := hx.later hl₂
    exact sendNew_outside ha (fun m h => by rw [hmid] at h; cases h) hm hl₂.1 hx₂

/-! ## `session_init` -/

theorem get?_setModes {doc : Json} {key k : String} (modes : Option (List (String × String)))
    (h : k ≠ key) : (setModes doc key modes).get? k = doc.get? k := by
  cases modes with
  | none => rfl
  | some modes => exact Json.get?_set_ne _ _ h

theorem isDict_setModes (doc : Json) (key : String) (modes : Option (List (String × String))) :
    (setModes doc key modes).isDict = doc.isDict := by
  cases modes with
  | none => rfl
  | some modes => exact Json.isDict_set _ _ _

theorem truthy_of_get? {j v : Json} {key : String} (h : j.get? key = some v) : j.truthy = true := by
  cases j with
  | obj fields =>
    refine decide_eq_true ?_
    rintro rfl
    cases h
  | _ => cases h

theorem mergedOf_members {doc : Json} (hdict : doc.isDict = true) (a : InitArgs) :
    (mergedOf doc a).isDict = true ∧
      (mergedOf doc a).get? "agents" =
        some (.arr ((sortedSet (agentsOf doc ++ a.agentIds)).map .str)) ∧
      (mergedOf doc a).get? "manager" = doc.get? "manager" := by
  unfold mergedOf
  refine ⟨?_, ?_, ?_⟩
  · rw [isDict_setModes, isDict_setModes]
    cases a.acl <;> simp [Json.isDict_set, hdict]
  · rw [get?_setModes _ (by decide), get?_setModes _ (by decide)]
    have hagents := Json.get?_set_self
      (.arr ((sortedSet (agentsOf doc ++ a.agentIds)).map .str)) "agents" hdict
    cases a.acl <;> simp [Json.get?_set_ne, hagents]
  · rw [get?_setModes _ (by decide), get?_setModes _ (by decide)]
    cases a.acl <;> simp [Json.get?_set_ne]

/-- The names that a call of `session_init` brings are not hidden. -/
structure Proper (a : InitArgs) : Prop where
  manager : dotted a.managerId = false
  agents : ∀ y ∈ a.agentIds, dotted y = false

theorem grows_mergedOf {doc : Json} (hdict : doc.isDict = true) (hdoc : Plain doc) {a : InitArgs}
    (ha : Proper a) : Grows (some doc) (mergedOf doc a) := by
  obtain ⟨hdict', hagents, hmanager⟩ := mergedOf_members hdict a
  refine ⟨hdict', truthy_of_get? hagents, ⟨⟨?_, _, hagents⟩, ?_⟩, ?_⟩
  · rw [hmanager]
    exact hdoc.text.manager
  · intro y hy
    simp only [rosterOf, Json.getStr, hmanager, hagents, filterMap_str, List.mem_cons,
      mem_sortedSet, List.mem_append] at hy
    rcases hy with rfl | hy | hy
    · exact hdoc.visible _ List.mem_cons_self
    · exact hdoc.visible y (List.mem_cons_of_mem _ hy)
    · exact ha.agents y hy
  rintro old hold x hx
  obtain rfl := Option.some.inj hold
  simp only [rosterOf, Json.getStr, hmanager, hagents] at hx ⊢
  rcases List.mem_cons.mp hx with rfl | hx
  · exact List.mem_cons_self
  · refine List.mem_cons_of_mem _ ?_
    rw [filterMap_str, mem_sortedSet]
    exact List.mem_append_left _ hx

theorem grows_metaOf {a : InitArgs} (ha : Proper a) (now : ℕ) : Grows none (metaOf a now) := by
  have hversion : (metaOf a now).get? "protocol_version" = some (.str "2") := rfl
  refine ⟨rfl, truthy_of_get? hversion, ⟨⟨⟨_, rfl⟩, _, rfl⟩, ?_⟩, nofun⟩
  intro y hy
  have hroster : rosterOf (metaOf a now) = a.managerId :: sortedSet a.agentIds :=
    congrArg (a.managerId :: ·) (filterMap_str _)
  rw [hroster, List.mem_cons, mem_sortedSet] at hy
  rcases hy with rfl | hy
  · exact ha.manager
  · exact ha.agents y hy

/-- Once `session.json` has been read, looking changes nothing. -/
theorem seen_next {sid : String} {fd : ℕ} {doc : Option Json} {o : Op}
    (hq : q.phase = .seen sid fd doc) (ho : glances o = true) (a : Ans o) :
    (q.next o a).phase = .seen sid fd doc := by
  cases o with
  | read p => simp [Watch.next, hq, Phase.look]
  | fileExists p => cases a <;> simp [Watch.next, hq, Phase.look]
  | _ => first | exact hq | cases ho

theorem ensureAgentDirs_glances (sid aid : String) :
    (ensureAgentDirs sid aid).Only fun o => glances o = true := by
  have hglance {o : Op} (ho : glances o = true) :
      (Prog.op o : Call (Ans o)).Only fun o => glances o = true := (Prog.only_op o).mpr ho
  exact (validateAgentId_only _).bind fun _ => (validateAgentId_only _).bind fun _ =>
    (hglance (o := .fileExists _) rfl).bind fun _ => (require_only _ _).bind fun _ =>
    (hglance (o := .mkdir _) rfl).bind fun _ => (hglance (o := .mkdir _) rfl).bind fun _ =>
    (hglance (o := .mkdir _) rfl).bind fun _ => hglance (o := .mkdir _) rfl

theorem ensureAllDirs_glances (sid : String) (l : List String) :
    (ensureAllDirs sid l).Only fun o => glances o = true := by
  induction l with
  | nil => simp [ensureAllDirs]
  | cons aid rest ih => exact (ensureAgentDirs_glances sid aid).bind fun _ => ih

theorem glances_keeps {p : Call α} (hp : p.Only fun o => glances o = true) :
    p.Keeps (role S) q fun _ _ => True :=
  hp.keeps_of_allows (R := role S) (fun _ _ h => .glance h) q

theorem writeSession_keeps {sid : String} {fd : ℕ} {doc : Option Json} {new : Json}
    (hq : q.phase = .seen sid fd doc) (hnew : Grows doc new) :
    (writeSession sid new).Keeps (role S) q fun _ _ => True := by
  refine Prog.Keeps.bind (M := fun (q' : Watch) r =>
    r = .ok () → q'.phase = .drafted sid fd doc new) ?_ ?_ fun _ _ _ => trivial
  · refine Prog.keeps_op_bind (.sessionDraft hq hnew) fun r _ => ?_
    rcases r with e | u
    · exact nofun
    · rintro -
      simp [role, Watch.next, hq, Phase.writes]
  · rintro q' u h
    refine Prog.keeps_op_bind (.sessionMove (h rfl)) fun r _ => ?_
    exact (orRaise_only (φ := fun _ => False) r).keeps_of_allows (R := role S)
      (fun _ _ h => h.elim) _

/-- `read_session` under the lock of the session. -/
theorem readSession_holding {sid : String} {fd : ℕ} (hq : q.phase = .holding sid fd) :
    (readSession sid).Keeps (role S) q fun q' r => ∀ info, r = .ok info →
      (info.getD .null = .null ∧ q'.phase = .seen sid fd none) ∨
      ∃ j, info = some j ∧ j ≠ .null ∧ Plain j ∧ q'.phase = .seen sid fd (some j) := by
  refine (validateAgentId_only (φ := fun _ => False) sid).keeps_bind (Prog.rets_true _)
    (fun _ h => h.elim) (fun _ _ => ?_) fun e => nofun
  refine Prog.keeps_op_bind (.glance rfl) fun b _ => ?_
  cases b with
  | false =>
    rintro info hinfo
    cases hinfo
    exact .inl ⟨rfl, by simp [role, Watch.next, hq, Phase.look, sessionFile]⟩
  | true =>
    refine Prog.keeps_op_bind (.glance rfl) fun r hr => ?_
    have hphase : (q.next (.read (sessionFile sid)) r).phase = .seen sid fd (docOf r) := by
      simp [Watch.next, hq, Phase.look]
    rcases r with e | (j | _)
    · rintro info hinfo
      cases hinfo
      exact .inl ⟨rfl, hphase⟩
    · rintro info hinfo
      cases hinfo
      by_cases hj : j = .null
      · refine .inl ⟨hj, hphase.trans ?_⟩
        simp [docOf, hj]
      · have hdoc : docOf (.ok (.json j)) = some j := by simp [docOf, hj]
        exact .inr ⟨j, rfl, hj, hr.plain sid j rfl hdoc, hphase.trans (by rw [hdoc])⟩
    · rintro info hinfo
      cases hinfo
      exact .inl ⟨rfl, hphase⟩

theorem createSession_keeps {fd : ℕ} {a : InitArgs} (ha : Proper a)
    (hq : q.phase = .seen a.sessionId fd none) :
    (createSession a).Keeps (role S) q fun _ _ => True := by
  refine Prog.keeps_op_bind (.glance rfl) fun now _ => ?_
  refine (writeSession_keeps (seen_next (o := .clock) hq rfl now) (grows_metaOf ha now)).bind
    (fun q' _ _ => ?_) fun _ _ _ => trivial
  exact glances_keeps ((ensureAllDirs_glances _ _).bind fun _ =>
    (ensureAgentDirs_glances _ _).bind fun _ => by simp)

theorem mergeSession_keeps {fd : ℕ} {doc : Json} {a : InitArgs} (ha : Proper a)
    (hdoc : Plain doc) (hq : q.phase = .seen a.sessionId fd (some doc)) :
    (mergeSession a doc).Keeps (role S) q fun _ _ => True := by
  unfold mergeSession
  have hcheck (c : Bool) (e : PyErr) {f : Unit → Call String}
      (hf : c = true → (f ()).Keeps (role S) q fun _ _ => True) :
      (require c e >>= f).Keeps (role S) q fun _ _ => True :=
    (require_only (φ := fun _ => False) c e).keeps_bind (require_rets c e) (fun _ h => h.elim)
      (fun _ hc => hf hc) fun _ => trivial
  refine hcheck _ _ fun hdict => hcheck _ _ fun _ => ?_
  split
  · trivial
  · refine ((ensureAllDirs_glances a.sessionId (added doc a)).keeps_inv (R := role S)
      (I := fun q' : Watch => q'.phase = .seen a.sessionId fd (some doc)) (Prog.rets_true _)
      (fun q' o hq' ho => ⟨.glance ho, seen_next hq' ho⟩) hq).bind (fun q' _ h => ?_)
      fun _ _ _ => trivial
    refine (require_only (φ := fun _ => False) _ _).keeps_bind (Prog.rets_true _)
      (fun _ h => h.elim) (fun _ _ => ?_) fun _ => trivial
    refine (writeSession_keeps h.1 (grows_mergedOf hdict hdoc ha)).bind (fun q'' _ _ => ?_)
      fun _ _ _ => trivial
    split <;> trivial

theorem head_of_agentIdOk {aid : String} (h : agentIdOk aid = true) :
    ∃ c rest, aid.toList = c :: rest ∧ isAlnum c = true := by
  have hhead (cs : List Char) (hcs : idText 31 cs = true) :
      ∃ c rest, cs = c :: rest ∧ isAlnum c = true := by
    cases cs with
    | nil => cases hcs
    | cons c rest =>
      simp only [idText, Bool.and_eq_true] at hcs
      exact ⟨c, rest, rfl, hcs.1.1⟩
  simp only [agentIdOk, dollar, Bool.or_eq_true, Bool.and_eq_true] at h
  rcases h with h | ⟨-, h⟩
  · exact hhead _ h
  · obtain ⟨c, rest, hc, halnum⟩ := hhead _ h
    cases hl : aid.toList with
    | nil => rw [hl] at hc; cases hc
    | cons c' rest' =>
      refine ⟨c', rest', rfl, ?_⟩
      rw [hl] at hc
      cases rest' with
      | nil => cases hc
      | cons d ds =>
        rw [List.dropLast_cons_of_ne_nil (by simp)] at hc
        rw [(List.cons.inj hc).1]
        exact halnum

theorem not_startsWith_of_agentIdOk {aid : String} (h : agentIdOk aid = true) {c : Char}
    (hc : isAlnum c = false) : startsWith (String.singleton c) aid = false := by
  obtain ⟨d, rest, haid, hd⟩ := head_of_agentIdOk h
  have hne : c ≠ d := by
    rintro rfl
    rw [hc] at hd
    cases hd
  simp [startsWith, haid, List.isPrefixOf, hne]

theorem dotted_of_agentIdOk {aid : String} (h : agentIdOk aid = true) : dotted aid = false :=
  not_startsWith_of_agentIdOk h (c := '.') (by decide)

theorem validateAll_rets (l : List String) :
    (validateAll l).Rets fun _ => ∀ y ∈ l, dotted y = false := by
  induction l with
  | nil => exact nofun
  | cons aid rest ih =>
    refine Prog.Rets.bind (require_rets _ _) fun _ haid => ih.mono fun _ hrest => ?_
    rintro y hy
    rcases List.mem_cons.mp hy with rfl | hy
    · exact dotted_of_agentIdOk haid
    · exact hrest y hy

theorem sessionInit_keeps (a : InitArgs) (hq : q.phase = .idle) :
    (sessionInit a).Keeps (role S) q fun _ _ => True := by
  have hcheck {p : Call Unit} {f : Unit → Call String} {M : Unit → Prop}
      (hp : p.Only fun _ => False) (hM : p.Rets M)
      (hf : M () → (f ()).Keeps (role S) q fun _ _ => True) :
      (p >>= f).Keeps (role S) q fun _ _ => True :=
    hp.keeps_bind hM (fun _ h => h.elim) (fun _ h => hf h) fun _ => trivial
  refine hcheck (validateAgentId_only _) (Prog.rets_true _) fun _ =>
    hcheck (validateAgentId_only _) (require_rets _ _) fun hmanager =>
    hcheck ?_ (validateAll_rets a.agentIds) fun hagents => ?_
  · induction a.agentIds with
    | nil => simp [validateAll]
    | cons aid rest ih => exact (validateAgentId_only aid).bind fun _ => ih
  have ha : Proper a := ⟨dotted_of_agentIdOk hmanager, hagents⟩
  refine Prog.keeps_op_bind (.glance rfl) fun _ _ => ?_
  refine Prog.keeps_op_bind (.sessionFd a.sessionId hq) fun r _ => ?_
  rcases r with e | fd
  · trivial
  have hopened : (q.next (.openFd (lockFile a.sessionId)) (.ok fd)).phase =
      .opened a.sessionId fd := by
    simp [Watch.next, hq, Phase.opens, lockFile]
  refine Prog.keeps_op_bind (.flock fd (.inr ⟨a.sessionId, hopened⟩)) fun _ _ => ?_
  have hholding : ((q.next (.openFd (lockFile a.sessionId)) (.ok fd)).next (.flock fd) ()).phase =
      .holding a.sessionId fd := by
    simp only [Watch.next] at hopened ⊢
    rw [hopened]
    rfl
  refine Prog.Keeps.ensure (M := fun _ _ => True) ?_ fun q' r _ =>
    ⟨.funlock fd, fun _ _ => trivial⟩
  refine (readSession_holding hholding).bind (fun q' info h => ?_) fun _ _ _ => trivial
  rcases h info rfl with ⟨hnull, hseen⟩ | ⟨j, rfl, hj, hplain, hseen⟩
  · rw [hnull]
    exact createSession_keeps ha hseen
  · cases j with
    | null => exact absurd rfl hj
    | _ => exact mergeSession_keeps ha hplain hseen

end AiMeshChat.Mailbox.Readable
