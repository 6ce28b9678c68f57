import AiMeshChat.Lib.Crash
import AiMeshChat.Mailbox.EachFile
import AiMeshChat.Mailbox.Rejected
import AiMeshChat.Mailbox.Watched

/-!
# `stats`

`mailbox/store.py`: `stats` counts what `list_messages` lists in the four folders of a
mailbox. The listing leaves out temporary files, and nothing else that is hidden.

In every state that the calls reach, a folder holds messages and temporary files, and
`processing` holds the files of claims besides (`FileFits`). Claim files match `*.json` and
are listed, so `stats` counts the messages and, in `processing`, the claims (`stats_total`).
-/

namespace AiMeshChat.Mailbox

open Lib

/-! ## The function -/

def boxes : List Box := [.inbox, .processing, .archive, .corrupt]

/-- The folders of a mailbox with the length of their listings. -/
def countBoxes (sid agent : String) : List Box → Call (List (Box × ℕ))
  | [] => .ret []
  | b :: rest => do
    let files ← listMessages (.box sid agent b)
    let counts ← countBoxes sid agent rest
    return (b, files.length) :: counts

/-- `MailboxStore.stats`. -/
def stats (sid agent : String) : Call (List (Box × ℕ)) := do
  validateAgentId agent
  validateAgentId sid
  countBoxes sid agent boxes

/-! ## What lies in a folder -/

/-- The file `<msg_id>.json` of a message: an identifier begins with no dot. -/
def isMessageFile (name : String) : Bool := endsWith ".json" name && !dotted name

/-- The file of a claim, `.claim-<key>.json`. -/
def isClaimFile (name : String) : Bool := startsWith ".claim-" name && endsWith ".json" name

/-- The number of messages in a folder. -/
def messageCount (s : Disk) (sid agent : String) (b : Box) : ℕ :=
  (s.files.names (.box sid agent b)).countP isMessageFile

/-- Nothing in the mailbox is claimed. -/
def Unclaimed (s : Disk) (sid agent : String) : Prop :=
  ∀ name ∈ s.files.names (.box sid agent .processing), isClaimFile name = false

/-- A name that a call gives to a file in the folder. -/
inductive BoxName (b : Box) (name : String) : Prop
  | message (h : isMessageFile name = true)
  | temporary (h : startsWith ".tmp-" name = true)
  | claim (hb : b = .processing) (h : startsWith ".claim-" name = true)

/-- Files in a folder have the names of its kind, the hidden ones in `processing` are claims
on messages, and no member of a session has a hidden name. -/
def FileFits (p : MPath) (x : Data) : Prop :=
  match p.dir with
  | .box _ _ b => BoxName b p.name ∧
      (b = .processing → dotted p.name = true → ∃ key j, x = .json j ∧ IsClaim key j)
  | .session _ => p.name = "session.json" → ∀ j, x = .json j → ∀ y ∈ rosterOf j, dotted y = false
  | .history _ => True

section Names

variable {name : String} {b : Box}

theorem dotted_of_tmp (h : startsWith ".tmp-" name = true) : dotted name = true :=
  startsWith_trans (by decide) h

theorem isMessageFile_jsonName {mid : String} (h : dotted (jsonName mid) = false) :
    isMessageFile (jsonName mid) = true := by
  have hend : endsWith ".json" (jsonName mid) = true := by
    simp [endsWith, jsonName, String.toList_append]
  rw [isMessageFile, hend, h]
  rfl

theorem dotted_of_isMessageFile (h : isMessageFile name = true) : dotted name = false := by
  simp only [isMessageFile, Bool.and_eq_true, Bool.not_eq_true'] at h
  exact h.2

theorem isMessageName_eq (h : BoxName b name) :
    isMessageName name = (isMessageFile name || isClaimFile name) := by
  cases h with
  | message h =>
    have hno (pre : String) (hpre : startsWith "." pre = true) : startsWith pre name = false := by
      by_contra hs
      rw [Bool.not_eq_false] at hs
      have hd := startsWith_trans hpre hs
      rw [show startsWith "." name = dotted name from rfl, dotted_of_isMessageFile h] at hd
      cases hd
    rw [h, isMessageName, hno ".sync-conflict-" (by decide), hno ".tmp-" (by decide)]
    simp only [isMessageFile, Bool.and_eq_true] at h
    simp [h.1]
  | temporary h =>
    have hclaim : startsWith ".claim-" name = false := by
      by_contra hs
      rw [Bool.not_eq_false] at hs
      exact not_startsWith_both (by decide) (by decide) h hs
    simp [isMessageName, isMessageFile, isClaimFile, h, dotted_of_tmp h, hclaim]
  | claim hb h =>
    have htmp : startsWith ".tmp-" name = false := by
      by_contra hs
      rw [Bool.not_eq_false] at hs
      exact not_startsWith_both (by decide) (by decide) h hs
    have hsync : startsWith ".sync-conflict-" name = false := by
      by_contra hs
      rw [Bool.not_eq_false] at hs
      exact not_startsWith_both (by decide) (by decide) h hs
    simp [isMessageName, isMessageFile, isClaimFile, h, htmp, hsync, dotted_of_claim h]

theorem not_isClaimFile (h : isMessageFile name = true) : isClaimFile name = false := by
  by_contra hc
  simp only [Bool.not_eq_false, isClaimFile, Bool.and_eq_true] at hc
  have hd := dotted_of_claim hc.1
  rw [dotted_of_isMessageFile h] at hd
  cases hd

theorem countP_isMessageName {names : List String} (h : ∀ name ∈ names, BoxName b name) :
    names.countP isMessageName = names.countP isMessageFile + names.countP isClaimFile := by
  induction names with
  | nil => rfl
  | cons name rest ih =>
    have hrest := ih fun n hn => h n (List.mem_cons_of_mem _ hn)
    have hname := isMessageName_eq (h name List.mem_cons_self)
    rw [List.countP_cons, List.countP_cons, List.countP_cons, hrest, hname]
    cases hm : isMessageFile name with
    | false =>
      simp only [Bool.false_or]
      split <;> simp
      omega
    | true =>
      simp only [not_isClaimFile hm, Bool.or_false, if_true]
      simp
      omega

end Names

/-! ## What the operations put there -/

section Fits

variable {sid agent : String} {b : Box} {name key : String} {x : Data} {j : Json}

theorem fits_message (h : isMessageFile name = true) : FileFits ⟨.box sid agent b, name⟩ x := by
  refine ⟨.message h, fun _ hd => ?_⟩
  rw [dotted_of_isMessageFile h] at hd
  cases hd

theorem fits_temporary (hb : b ≠ .processing) (h : startsWith ".tmp-" name = true) :
    FileFits ⟨.box sid agent b, name⟩ x :=
  ⟨.temporary h, fun hp => absurd hp hb⟩

theorem fits_session (h : name ≠ "session.json") : FileFits ⟨.session sid, name⟩ x :=
  fun hname => absurd hname h

theorem fits_claim (hname : BoxName .processing name) (hj : IsClaim key j) :
    FileFits ⟨.box sid agent .processing, name⟩ (.json j) :=
  ⟨hname, fun _ _ => ⟨key, j, rfl, hj⟩⟩

theorem boxName_claimName (key : String) : BoxName .processing (claimName key) :=
  .claim rfl (startsWith_claimName key)

theorem boxName_tmpClaimName (key : String) (n : ℕ) : BoxName .processing (tmpClaimName key n) :=
  .temporary (startsWith_trans (by decide) (startsWith_tmpClaimName key n))

theorem boxName_tmpRenewName (key : String) : BoxName .processing (tmpRenewName key) :=
  .temporary (startsWith_trans (by decide) (startsWith_tmpRenewName key))

/-- What a hidden file of `processing` holds may go to another. -/
theorem fits_hidden {src : String} (hsrc : dotted src = true) (hname : BoxName .processing name)
    (h : FileFits ⟨.box sid agent .processing, src⟩ x) :
    FileFits ⟨.box sid agent .processing, name⟩ x := by
  obtain ⟨key, j, rfl, hj⟩ := h.2 rfl hsrc
  exact fits_claim hname hj

theorem fits_move {d : Dir} {src : String} {mid : String} {l : Option Lease}
    (h : dotted (jsonName mid) = false) :
    Op.Fits FileFits (.replace ⟨d, src⟩ ⟨.box sid agent b, jsonName mid⟩ l) :=
  fun _ _ => fits_message (isMessageFile_jsonName h)

theorem fits_finishOp {o : Op} (h : FinishOp sid agent o) : o.Fits FileFits := by
  cases h with
  | look h => exact fits_of_looks h
  | dropClaim h => trivial
  | archive h => exact fits_move (dotted_jsonName h)
  | back h => exact fits_move (dotted_jsonName h)

theorem fits_storeOp {mid : String} {o : Op} (hmid : dotted (jsonName mid) = false)
    (h : StoreOp sid mid o) : o.Fits FileFits := by
  cases h with
  | look h => exact fits_of_looks h
  | envelope agent x => exact fits_temporary (by decide) (startsWith_tmpName mid)
  | publish agent => exact fits_move hmid
  | openCursor => exact fits_session (by decide)
  | cursorDraft h => exact fits_session (by decide)
  | cursor => exact fun x _ => fits_session (by decide)
  | draft x => trivial
  | record => intro x _; trivial

theorem fits_historyOp {o : Op} (h : HistoryOp sid o) : o.Fits FileFits := by
  cases h with
  | look h => exact fits_of_looks h
  | draft mid x => trivial
  | record a b => intro x _; trivial

end Fits

/-! ## The calls -/

section Calls

variable {sid agent : String} {name : String}

/-- The checks of `agent_subdir`, and then the rest in the directory. -/
theorem agentSubdir_vouches {α : Type} {b : Box} {f : Dir → Call α} {M : α → Prop}
    (hf : Vouches FileFits (f (.box sid agent b)) M) :
    Vouches FileFits (agentSubdir sid agent b >>= f) M := by
  rw [agentSubdir_bind]
  exact Vouches.bind (vouches_only (validateAgentId_only _) (Prog.rets_true _)) fun _ _ =>
    Vouches.bind (vouches_only (validateAgentId_only _) (Prog.rets_true _)) fun _ _ => hf

theorem look_vouches {α : Type} {o : Op} {f : Ans o → Call α} {M : α → Prop} (ho : o.looks = true)
    (hf : ∀ a, Vouches FileFits (f a) M) : Vouches FileFits (Prog.op o >>= f) M :=
  Vouches.bind (vouches_only (look_only (fun _ h => fits_of_looks h) ho) (Prog.rets_true _))
    fun a _ => hf a

theorem sortedGlob_vouches {α : Type} {d : Dir} {pre suf : String} {f : List String → Call α}
    {M : α → Prop} (hf : ∀ names, (∀ name ∈ names, globMatch pre suf name = true) →
      Vouches FileFits (f names) M) : Vouches FileFits (sortedGlob d pre suf >>= f) M :=
  Vouches.bind (vouches_only (sortedGlob_only (fun _ h => fits_of_looks h) _ _ _)
    (sortedGlob_rets _ _ _)) hf

theorem isDict_of_isClaim {key : String} {j : Json} (h : IsClaim key j) : j.isDict = true := by
  obtain ⟨m, o, -, -, hd, -⟩ := h
  exact hd

theorem loadClaim_vouches (h : dotted name = true) :
    Vouches FileFits (loadClaim ⟨.box sid agent .processing, name⟩)
      fun cl => ∀ j, cl = some j → ∃ key, IsClaim key j := by
  refine vouches_read fun r hr => ?_
  rcases r with e | x
  · refine vouches_ret fun j hj => ?_
    cases hj
  · obtain ⟨key, j, rfl, hj⟩ := (hr x rfl).2 rfl h
    simp only [isDict_of_isClaim hj, if_true]
    refine vouches_ret fun j' hj' => ?_
    cases hj'
    exact ⟨key, hj⟩

theorem reapExpiredClaim_vouches (h : dotted name = true) :
    Vouches FileFits (reapExpiredClaim (.box sid agent .inbox) (.box sid agent .processing)
      ⟨.box sid agent .processing, name⟩) fun _ => True := by
  refine look_vouches rfl fun now => (loadClaim_vouches h).bind fun cl hcl => ?_
  split
  · exact vouches_ret trivial
  · next claim =>
    split
    · exact vouches_ret trivial
    · split
      · exact vouches_ret trivial
      · obtain ⟨key, hkey⟩ := hcl claim rfl
        exact withClaimLock_vouches (vouches_only (reapLocked_only (fun _ h => fits_of_looks h)
          trivial (fun l => fits_move (hkey.key_eq name).2) _ _) (Prog.rets_true _))

theorem reader_fits (a : ReadArgs) :
    Reader (fileRole FileFits) () (fun name => isMessageFile name = true) a := by
  have hclaim {name : String} (h : isMessageFile name = true) (now : ℕ) :
      IsClaim (claimKey (stem name) a.owner) (claimMeta (stem name) a.owner now) := by
    refine isClaim_claimMeta ?_ now
    have hname := h
    simp only [isMessageFile, Bool.and_eq_true, Bool.not_eq_true'] at hname
    rw [jsonName_stem hname.1 hname.2]
    exact hname.2
  have hignores {o : Op} (h : o.Fits FileFits) : (fileRole FileFits).Ignores () o :=
    ⟨h, fun _ => rfl⟩
  exact {
    look := fun o h => hignores (fits_of_looks h)
    unlink := fun name _ => hignores trivial
    draft := fun name n now h => hignores (fits_claim (boxName_tmpClaimName _ n) (hclaim h now))
    create := fun name now h => hignores (fits_claim (boxName_claimName _) (hclaim h now))
    link := fun name n _ => hignores fun x =>
      fits_hidden (dotted_of_tmpClaim (startsWith_tmpClaimName _ n)) (boxName_claimName _)
    quarantine := fun name => hignores fun x h => by
      refine ⟨?_, fun hb => by cases hb⟩
      cases h.1 with
      | message h => exact .message h
      | temporary h => exact .temporary h
      | claim hb => cases hb
    reap := fun key => (reapExpiredClaim_vouches (dotted_of_claim (startsWith_claimName key))).mono
      fun _ _ _ => rfl
    good := fun name x hn h => by
      cases h.1 with
      | message h => exact h
      | temporary h => simp [isMessageName, h] at hn
      | claim hb => cases hb
    claim := fun name h => ⟨fun x _ => fits_message h, fun _ => rfl⟩
    claimed := fun name tmp _ _ => hignores trivial }

theorem renewLocked_vouches (msgId owner : String) :
    Vouches FileFits (renewLocked (.box sid agent .processing) msgId owner) fun _ => True := by
  refine look_vouches rfl fun b => ?_
  split
  · refine sortedGlob_vouches fun names hnames => ?_
    split
    · next claimFile =>
      have hc := claim_of_globMatch (hnames claimFile (by simp))
      refine (loadClaim_vouches (dotted_of_claim hc)).bind fun cl hcl => ?_
      split
      · exact vouches_ret trivial
      · next claim =>
        obtain ⟨key, hkey⟩ := hcl claim rfl
        split
        · refine look_vouches (o := .clock) rfl fun now => vouches_only ?_ (Prog.rets_true _)
          have htmp := startsWith_tmpRenewName (claimKey msgId owner)
          refine (rewriteClaim_only trivial (fits_claim (boxName_tmpRenewName _) (hkey.renewed _ _))
            fun x => fits_hidden (dotted_of_tmpRenew htmp) (.claim rfl hc)).bind fun done => ?_
          split
          · refine (look_only (fun _ h => fits_of_looks h) rfl).bind fun b => ?_
            split
            · simp
            · exact (unlinkMissingOk_fits _).bind fun _ => by simp
          · simp
        · exact vouches_ret trivial
    · exact vouches_ret trivial
  · exact vouches_ret trivial

theorem renewClaim_vouches (msgId owner : String) :
    Vouches FileFits (renewClaim sid agent msgId owner) fun _ => True := by
  refine Vouches.bind (vouches_only (validateMsgId_only _) (Prog.rets_true _)) fun _ _ =>
    agentSubdir_vouches (look_vouches rfl fun b => ?_)
  split
  · refine sortedGlob_vouches fun names _ => ?_
    split
    · exact withClaimLock_vouches (renewLocked_vouches msgId owner)
    · exact vouches_ret trivial
  · exact vouches_ret trivial

theorem recoverClaim_vouches (h : dotted name = true) (cutoff gate : ℤ) :
    Vouches FileFits (recoverClaim (.box sid agent .inbox) (.box sid agent .processing) cutoff gate
      ⟨.box sid agent .processing, name⟩) fun _ => True := by
  refine (loadClaim_vouches h).bind fun cl hcl => ?_
  split
  · exact vouches_ret trivial
  · next claim =>
    split
    · exact vouches_ret trivial
    · obtain ⟨key, hkey⟩ := hcl claim rfl
      exact withClaimLock_vouches (vouches_only (recoverLocked_only (fun _ h => fits_of_looks h)
        trivial (fun l => fits_move (hkey.key_eq name).2) _ _ _) (Prog.rets_true _))

theorem recoverClaims_vouches (cutoff gate : ℤ) {names : List String}
    (h : ∀ name ∈ names, globMatch ".claim-" ".json" name = true) :
    Vouches FileFits (recoverClaims (.box sid agent .inbox) (.box sid agent .processing) cutoff gate
      names) fun _ => True := by
  induction names with
  | nil => exact vouches_ret trivial
  | cons name rest ih =>
    have hname := dotted_of_claim (startsWith_of_globMatch (h name List.mem_cons_self))
    have hrest := ih fun n hn => h n (List.mem_cons_of_mem _ hn)
    have hone : Vouches FileFits (passErrors (recoverClaim (.box sid agent .inbox)
        (.box sid agent .processing) cutoff gate ⟨.box sid agent .processing, name⟩))
        fun _ => True := by
      refine (recoverClaim_vouches hname cutoff gate).tryCatch fun e => ?_
      split
      · exact vouches_raise _
      · exact vouches_ret trivial
    exact hone.bind fun moved _ => hrest.bind fun n _ => vouches_ret trivial

theorem recoverStale_vouches : Vouches FileFits (recoverStale sid agent) fun _ => True := by
  refine agentSubdir_vouches (agentSubdir_vouches (look_vouches rfl fun b => ?_))
  split
  · refine look_vouches (o := .clock) rfl fun _ => look_vouches (o := .clock) rfl fun _ =>
      sortedGlob_vouches fun claims hclaims => ?_
    refine (recoverClaims_vouches _ _ hclaims).bind fun n _ => sortedGlob_vouches fun tmps _ => ?_
    exact vouches_only ((sweepTmpClaims_only (fun _ h => fits_of_looks h) (fun _ _ => trivial)
      _).bind fun _ => by simp) (Prog.rets_true _)
  · exact vouches_ret trivial

/-! ### `send` -/

theorem readSession_vouches (sid : String) :
    Vouches FileFits (readSession sid) fun info =>
      ∀ doc, info = some doc → ∀ y ∈ rosterOf doc, dotted y = false := by
  refine Vouches.bind (vouches_only (validateAgentId_only _) (Prog.rets_true _)) fun _ _ =>
    look_vouches rfl fun b => ?_
  split
  · refine vouches_read fun r hr => ?_
    split
    · next j =>
      refine vouches_ret fun doc hdoc => ?_
      cases hdoc
      exact hr _ rfl rfl j rfl
    · exact vouches_ret fun doc hdoc => (by cases hdoc)
  · exact vouches_ret fun doc hdoc => (by cases hdoc)

theorem checkSend_vouches (a : SendArgs) :
    Vouches FileFits (checkSend a) fun _ => dotted a.fromId = false := by
  have hcheck {α : Type} {p : Call Unit} {M : Unit → Prop} {f : Unit → Call α} {N : α → Prop}
      (hp : p.Only fun _ => False) (hM : p.Rets M) (hf : M () → Vouches FileFits (f ()) N) :
      Vouches FileFits (p >>= f) N :=
    Vouches.bind (vouches_only (hp.mono fun _ h => h.elim) hM) fun _ h => hf h
  refine hcheck (validateAgentId_only _) (Prog.rets_true _) fun _ => look_vouches rfl fun b =>
    hcheck (require_only _ _) (Prog.rets_true _) fun _ => ?_
  refine (readSession_vouches a.sessionId).bind fun info hinfo => ?_
  refine hcheck (require_only _ _) (Readable.require_rets _ _) fun hnull =>
    hcheck (require_only _ _) (Prog.rets_true _) fun _ =>
    hcheck (require_only _ _) (Readable.require_rets _ _) fun hfrom => ?_
  have hsender : dotted a.fromId = false := by
    rw [decide_eq_true_eq] at hnull hfrom
    cases info with
    | none => exact absurd rfl hnull
    | some doc => exact hinfo doc rfl _ hfrom
  refine vouches_only ?_ ((Prog.rets_true _).mono fun _ _ => hsender)
  exact (attachmentRefs_only _).bind fun _ => (require_only _ _).bind fun _ =>
    (checkInboxes_only (fun _ h => fits_of_looks h) _ _).bind fun _ =>
    (require_only _ _).bind fun _ => (require_only _ _).bind fun _ => by simp

theorem replay_fits {a : SendArgs} {mid : String} (rs : List String) (refs : List AttachmentRef)
    (existing : Json) (hmid : dotted (jsonName mid) = false) :
    (replay a mid rs refs existing).Only (Op.Fits FileFits) := by
  refine (require_only _ _).bind fun _ => (require_only _ _).bind fun _ =>
    ((backfill_storeOp a.sessionId mid existing rs).mono fun _ h => fits_storeOp hmid h).bind
      fun n => Prog.Only.bind ?_ fun _ => by simp
  refine (look_only (fun _ h => fits_of_looks h) rfl).bind fun b => ?_
  split
  · simp
  · exact ((appendHistory_historyOp a.sessionId existing).mono fun _ h => fits_historyOp h).bind
      fun _ => by simp

theorem send_vouches (fuel : ℕ) (a : SendArgs) : Vouches FileFits (send fuel a) fun _ => True := by
  have hφ : ∀ o : Op, o.looks = true → o.Fits FileFits := fun _ h => fits_of_looks h
  have hnew {mid : String} (rs : List String) (refs : List AttachmentRef)
      (hmid : dotted (jsonName mid) = false) : Vouches FileFits (sendNew a mid rs refs) fun _ => True :=
    vouches_only ((Rejected.sendNew_storeOp a mid rs refs).mono fun _ h => fits_storeOp hmid h)
      (Prog.rets_true _)
  refine (checkSend_vouches a).bind fun x hsender => ?_
  obtain ⟨rs, refs⟩ := x
  dsimp only
  split
  · next mid hmid =>
    refine Vouches.bind (vouches_only (validateMsgId_only _) (validateMsgId_rets mid)) fun _ hm => ?_
    refine Vouches.bind (vouches_only (findExisting_only hφ _ _ _) (Prog.rets_true _)) fun r _ => ?_
    split
    · exact vouches_only (replay_fits rs refs _ (dotted_jsonName hm)) (Prog.rets_true _)
    · exact hnew rs refs (dotted_jsonName hm)
  · exact Vouches.bind (vouches_only (freshMsgId_only hφ a rs fuel)
      (Readable.freshMsgId_rets hsender rs fuel)) fun mid hm => hnew rs refs hm

/-- **Every call** puts messages, temporary files and claims in their places. -/
theorem call_vouches (fuel : ℕ) (r : Request) : Vouches FileFits (r.call fuel) fun _ => True := by
  have hwrap {α : Type} {p : Call α} (f : α → Result) (hp : Vouches FileFits p fun _ => True) :
      Vouches FileFits (p >>= fun a => pure (f a)) fun _ => True :=
    hp.bind fun _ _ => vouches_ret trivial
  cases r with
  | send a => exact hwrap .text (send_vouches fuel a)
  | read a => exact hwrap .message (vouches_of_keeps (read_keeps (reader_fits a) fuel))
  | finalize sid agent m o =>
    exact hwrap .text (vouches_only ((finalize_finishOp sid agent m o).mono
      fun _ h => fits_finishOp h) (Prog.rets_true _))
  | finalizeFromInbox sid agent m o =>
    exact hwrap .text (vouches_only (finalizeFromInbox_only (fun _ h => fits_of_looks h)
      (fun _ hm => fits_move (dotted_jsonName hm)) o) (Prog.rets_true _))
  | release sid agent m o =>
    exact hwrap .text (vouches_only ((release_finishOp sid agent m o).mono
      fun _ h => fits_finishOp h) (Prog.rets_true _))
  | renewClaim sid agent m o => exact hwrap .flag (renewClaim_vouches m o)
  | recoverStale sid agent => exact hwrap .text recoverStale_vouches

end Calls

/-! ## What `stats` returns -/

section Count

variable {s : Disk} {i : ℕ} {P : Choice → Prop} {sid agent : String}

theorem listMessages_total {d : Dir} (h : ∀ name ∈ s.files.names d, d ∈ s.dirs) :
    (listMessages d).Total world i P (· = s) s fun r _ =>
      ∃ files, r = .ok files ∧ files.length = (s.files.names d).countP isMessageName := by
  refine Prog.total_op_bind rfl fun c _ => ⟨decide (d ∈ s.dirs), s, rfl, ?_⟩
  by_cases hd : d ∈ s.dirs
  · rw [decide_eq_true hd, if_pos rfl]
    refine Prog.total_op_bind rfl fun c _ => ⟨_, s, rfl, ?_⟩
    have hperm := List.perm_insertionSort (fun a b => c.rank a ≤ c.rank b) (s.files.names d)
    refine (Readable.statAll_total (I := (· = s)) rfl d _).bind (fun found t ht hfound => ?_)
      fun e t _ hfound => (by cases hfound.2)
    cases hfound.2
    refine Prog.total_ret ht ⟨_, rfl, ?_⟩
    rw [List.length_map, List.length_insertionSort, List.length_filterMap_eq_countP,
      List.countP_eq_length.mpr, ← List.countP_eq_length_filter]
    · exact hperm.countP_eq _
    · intro name hname
      obtain ⟨f, hf⟩ := Files.mem_names.mp (hperm.mem_iff.mp (List.mem_of_mem_filter hname))
      rw [hf]
      rfl
  · rw [decide_eq_false hd, if_neg Bool.false_ne_true]
    refine Prog.total_ret rfl ⟨[], rfl, ?_⟩
    have hnone : s.files.names d = [] := List.eq_nil_iff_forall_not_mem.mpr fun name hname =>
      hd (h name hname)
    rw [hnone]
    rfl

/-- The number of claims in a folder. -/
def claimCount (s : Disk) (sid agent : String) (b : Box) : ℕ :=
  (s.files.names (.box sid agent b)).countP isClaimFile

theorem boxName_of_mem (h : EachFile FileFits s) {b : Box} {name : String}
    (hname : name ∈ s.files.names (.box sid agent b)) : BoxName b name := by
  obtain ⟨f, hf⟩ := Files.mem_names.mp hname
  exact (h _ f hf).2.1

theorem countBoxes_total (h : EachFile FileFits s) (l : List Box) :
    (countBoxes sid agent l).Total world i P (· = s) s fun r _ =>
      r = .ok (l.map fun b => (b, messageCount s sid agent b + claimCount s sid agent b)) := by
  induction l with
  | nil => exact Prog.total_ret rfl rfl
  | cons b rest ih =>
    have hdir : ∀ name ∈ s.files.names (.box sid agent b), Dir.box sid agent b ∈ s.dirs := by
      intro name hname
      obtain ⟨f, hf⟩ := Files.mem_names.mp hname
      exact (h _ f hf).1
    refine (listMessages_total hdir).bind (fun files t ht hfiles => ?_) fun e t ht hfiles => ?_
    · obtain ⟨files', hok, hlength⟩ := hfiles
      cases hok
      subst ht
      refine ih.bind (fun counts t ht hcounts => ?_) fun e t ht hcounts => (by cases hcounts)
      cases hcounts
      refine Prog.total_ret ht ?_
      rw [hlength, countP_isMessageName fun name => boxName_of_mem h]
      rfl
    · obtain ⟨files', hok, -⟩ := hfiles
      cases hok

/-- **What `stats` counts**: messages and claims. -/
theorem stats_total (h : EachFile FileFits s) (hsid : agentIdOk sid = true)
    (hagent : agentIdOk agent = true) :
    (stats sid agent).Total world i P (· = s) s fun r _ =>
      r = .ok (boxes.map fun b => (b, messageCount s sid agent b + claimCount s sid agent b)) := by
  have hcheck {aid : String} (hok : agentIdOk aid = true) : validateAgentId aid = .ret () := by
    rw [validateAgentId, hok]
    rfl
  rw [stats, hcheck hagent, hcheck hsid]
  exact countBoxes_total h boxes

/-- Only `processing` has claims. -/
theorem claimCount_eq_zero_iff (h : EachFile FileFits s) (b : Box) :
    claimCount s sid agent b = 0 ↔ (b = .processing → Unclaimed s sid agent) := by
  have hzero : claimCount s sid agent b = 0 ↔
      ∀ name ∈ s.files.names (.box sid agent b), isClaimFile name = false := by
    simp only [claimCount, List.countP_eq_zero, Bool.not_eq_true]
  rw [hzero]
  constructor
  · intro hno hb
    subst hb
    exact hno
  · intro hno name hname
    cases boxName_of_mem h hname with
    | message h => exact not_isClaimFile h
    | temporary h =>
      by_contra hc
      simp only [Bool.not_eq_false, isClaimFile, Bool.and_eq_true] at hc
      exact not_startsWith_both (by decide) (by decide) h hc.1
    | claim hb _ =>
      subst hb
      exact hno rfl name hname

end Count

/-! ## Every state that the calls reach -/

/-- Sessions have been created, and nothing has been sent. -/
structure NothingSent (s : Disk) : Prop where
  placed : ∀ p f, s.files.get? p = some f → p.dir ∈ s.dirs
  empty : ∀ sid agent b name, s.files.get? ⟨.box sid agent b, name⟩ = none
  members : ∀ sid f j, s.files.get? ⟨.session sid, "session.json"⟩ = some f → f.data = .json j →
    ∀ y ∈ rosterOf j, dotted y = false

theorem NothingSent.eachFile {s : Disk} (h : NothingSent s) : EachFile FileFits s := by
  intro p f hf
  refine ⟨h.placed p f hf, ?_⟩
  obtain ⟨d, name⟩ := p
  cases d with
  | session sid =>
    intro hname j hj
    subst hname
    exact h.members sid f j hf hj
  | history sid => trivial
  | box sid agent b =>
    rw [h.empty sid agent b name] at hf
    cases hf

/-- What `session_init` leaves behind for a new session. -/
theorem nothingSent_newSession (sid : String) {manager : String} {agents : List String}
    (hmanager : agentIdOk manager = true) (hagents : ∀ y ∈ agents, agentIdOk y = true) (now : ℕ) :
    NothingSent (newSession sid manager agents now) := by
  have hfile : ∀ p f, (newSession sid manager agents now).files.get? p = some f →
      p = ⟨.session sid, "session.json"⟩ ∧ ∀ j, f.data = .json j →
        rosterOf j = manager :: sortedSet agents := by
    intro p f hf
    have hwrite (x : Data)
        (h : ((Files.empty : Files Dir Data).write ⟨.session sid, "session.json"⟩ x now).get? p =
          some f) : p = ⟨.session sid, "session.json"⟩ ∧ f.data = x := by
      obtain ⟨n, hn⟩ := Files.get?_write (Files.empty : Files Dir Data)
        ⟨.session sid, "session.json"⟩ x now
      rw [hn, Files.get?_empty] at h
      split_ifs at h with hp
      cases h
      exact ⟨hp, rfl⟩
    obtain ⟨hp, hdata⟩ := hwrite _ hf
    refine ⟨hp, fun j hj => ?_⟩
    rw [hdata] at hj
    cases hj
    exact congrArg (manager :: ·) (Sessions.filterMap_str _)
  constructor
  · intro p f hf
    rw [(hfile p f hf).1]
    exact List.mem_cons_self
  · intro sid' agent b name
    by_contra hsome
    obtain ⟨f, hf⟩ := Option.ne_none_iff_exists'.mp hsome
    cases (hfile _ f hf).1
  · intro sid' f j hf hj y hy
    rw [(hfile _ f hf).2 j hj, List.mem_cons, mem_sortedSet] at hy
    rcases hy with hy | hy
    · exact hy ▸ Readable.dotted_of_agentIdOk hmanager
    · exact Readable.dotted_of_agentIdOk (hagents y hy)

/-- A state that any calls reach, in any order and with crashes, after nothing was sent. -/
def Reachable (t : Disk) : Prop :=
  ∃ s fuel reqs es, NothingSent s ∧ t = ((pool fuel s reqs).run world es).shared

theorem Reachable.eachFile {t : Disk} (h : Reachable t) : EachFile FileFits t := by
  obtain ⟨s, fuel, reqs, es, hs, rfl⟩ := h
  refine eachFile_run es hs.eachFile fun j => ?_
  simp only [pool]
  cases reqs j with
  | none => trivial
  | some r => exact (call_vouches fuel r).keeps

/-- In every state that the calls reach `stats` comes to its end, and a number it returns is that
of the messages in the folder, unless the folder is `processing` and a claim lies there. -/
theorem stats_counts_messages_iff {t : Disk} (ht : Reachable t) {sid agent : String}
    (hsid : agentIdOk sid = true) (hagent : agentIdOk agent = true) (i : ℕ) (b : Box) :
    (stats sid agent).Total world i (fun _ => True) (· = t) t fun r _ =>
      ∃ counts n, r = .ok counts ∧ counts.lookup b = some n ∧
        (n = messageCount t sid agent b ↔ (b = .processing → Unclaimed t sid agent)) := by
  refine (stats_total ht.eachFile hsid hagent).mono (fun _ h => h) fun r _ _ hr => ?_
  refine ⟨_, messageCount t sid agent b + claimCount t sid agent b, hr, ?_, ?_⟩
  · cases b <;> rfl
  · rw [← claimCount_eq_zero_iff ht.eachFile b]
    omega

/-! ## A claimed message -/

/-- The notice is sent, and its recipient reads it. -/
def sendThenRead (i : ℕ) : Option Request :=
  if i = 0 then some (.send notice)
  else if i = 1 then some (.read { sessionId := "s", agentId := "b", owner := "w" })
  else none

/-- The disk when both calls have returned. -/
def claimedNotice : Disk :=
  ((pool 2 (newSession "s" "a" ["b"] 0) sendThenRead).run world (steps 0 60 ++ steps 1 60)).shared

theorem reachable_claimedNotice : Reachable claimedNotice :=
  ⟨_, _, _, _, nothingSent_newSession "s" (by decide) (by simp; decide) 0, rfl⟩

theorem stats_counts_claimedNotice :
    (stats "s" "b").Total world 2 (fun _ => True) (· = claimedNotice) claimedNotice fun r _ =>
      ∃ counts n, r = .ok counts ∧ counts.lookup .processing = some n ∧
        (n = messageCount claimedNotice "s" "b" .processing ↔
          (Box.processing = .processing → Unclaimed claimedNotice "s" "b")) :=
  stats_counts_messages_iff reachable_claimedNotice (by decide) (by decide) 2 .processing

/-- The one message that was read counts twice: its claim is counted with it. -/
theorem claim_counted_as_message : Reachable claimedNotice ∧
    messageCount claimedNotice "s" "b" .processing = 1 ∧
    (((stats "s" "b").exec world 2 {} 40 claimedNotice).bind fun x => x.1.toOption) =
      some [(.inbox, 0), (.processing, 2), (.archive, 0), (.corrupt, 0)] := by
  refine ⟨reachable_claimedNotice, ?_, ?_⟩
  · decide +kernel
  · decide +kernel

end AiMeshChat.Mailbox
