import AiMeshChat.Mailbox.Holdings
import AiMeshChat.Mailbox.NewMessage

/-!
# The consuming calls keep the messages

Each call of the consuming half, alone on a disk that does not fail and shows a holding,
leaves a disk that shows a holding of the same messages (`Kept`); `clear` removes those of the
archive (`Emptied`). The one exception is `finalize_from_inbox` of a message of
`processing`: it archives the message and leaves its claim there (`Stranded`).
-/

namespace AiMeshChat.Mailbox.Keeping

open Lib Replay Holdings

/-! ## `check` and `clear` -/

/-- `l[:n]`. -/
def takeSlice {α : Type} (l : List α) (n : ℤ) : List α :=
  if 0 ≤ n then l.take n.toNat else l.take (l.length - (-n).toNat)

/-- Move a message of the inbox to another box. -/
def putInto (sid agent : String) (b : Box) (name : String) : Call Unit := do
  mkdir (.box sid agent b)
  replace ⟨.box sid agent .inbox, name⟩ ⟨.box sid agent b, name⟩

/-- The body of the loop of `check`: the message, if it is valid. -/
def checkEntry (sid agent name : String) : Call (List Json) := do
  match ← orRaise (← readBytes ⟨.box sid agent .inbox, name⟩) with
  | .junk => do
    putInto sid agent .corrupt name
    return []
  | .json msg =>
    match validateMessage msg none (some agent) (some name) with
    | .error (.typeError why) => throw (.type why)
    | .error (.reject _) => do
      putInto sid agent .corrupt name
      return []
    | .ok () => do
      putInto sid agent .archive name
      return [msg]

def checkEntries (sid agent : String) : List String → Call (List Json)
  | [] => .ret []
  | name :: rest => do
    let found ← checkEntry sid agent name
    return found ++ (← checkEntries sid agent rest)

/-- `check`: archive the valid messages of the inbox, without a claim. -/
def check (sid agent : String) (maxMessages : ℤ) : Call (List Json) := do
  let inbox ← agentSubdir sid agent .inbox
  let files ← listMessages inbox
  checkEntries sid agent (takeSlice files (if maxMessages = 0 then files.length else maxMessages))

/-- Remove the files; their number. -/
def unlinkAll (d : Dir) : List String → Call ℕ
  | [] => .ret 0
  | name :: rest => do
    unlink ⟨d, name⟩
    return (← unlinkAll d rest) + 1

/-- `clear`; `lease` is what `_check_park_lease` raises, which looks at the park registry
alone. -/
def clear (sid agent : String) (lease : Option PyErr) (pruneStale : Bool) : Call String := do
  match lease with
  | some e => throw e
  | none =>
    let archive ← agentSubdir sid agent .archive
    let total ← (do
      if ← isDir archive then unlinkAll archive ((← scan archive).filter (endsWith ".json"))
      else return 0)
    if pruneStale then
      let _ ← recoverStale sid agent
      return "cleared " ++ toString total
    else return "cleared " ++ toString total

/-! ## The calls keep the messages -/

section Keeping

variable {sid agent : String} {x : Option MFile} {h : Holding} {s : Disk}

/-- The document of the session. -/
def sessionPath (sid : String) : MPath := ⟨.session sid, "session.json"⟩

/-- The disk shows the holding, and the session has the document `x`. -/
structure Shown (sid agent : String) (x : Option MFile) (h : Holding) (s : Disk) : Prop where
  shows : Shows sid agent s h
  info : s.files.get? (sessionPath sid) = x

/-- The disk shows the messages of `h`, wherever they are. -/
def Kept (sid agent : String) (x : Option MFile) (h : Holding) (s : Disk) : Prop :=
  ∃ h', Shown sid agent x h' s ∧ ∀ m, h' m = none ↔ h m = none

theorem Shown.kept (hs : Shown sid agent x h s) : Kept sid agent x h s := ⟨h, hs, fun _ => Iff.rfl⟩

variable {s' : Disk} {name m o : String} {k : Spot} {α : Type} {a : ReadArgs}

theorem Shown.congr (hs : Shown sid agent x h s) (hd : Drafts s s') : Shown sid agent x h s' := by
  have hplain : startsWith ".tmp-" "session.json" = false := by decide
  exact ⟨hs.shows.congr hd, (hd (sessionPath sid) hplain).trans hs.info⟩

theorem Shown.files (hs : Shown sid agent x h s) (hf : s'.files = s.files) :
    Shown sid agent x h s' := hs.congr (drafts_of_files hf)

theorem Kept.files (hs : Kept sid agent x h s) (hf : s'.files = s.files) :
    Kept sid agent x h s' := by
  obtain ⟨h', hs', hdom⟩ := hs
  exact ⟨h', hs'.files hf, hdom⟩

theorem Kept.trans {s : Disk} (hs : Kept sid agent x h s)
    (hs' : ∀ h', Shown sid agent x h' s → Kept sid agent x h' s') : Kept sid agent x h s' := by
  obtain ⟨h₁, hs₁, hdom₁⟩ := hs
  obtain ⟨h₂, hs₂, hdom₂⟩ := hs' h₁ hs₁
  exact ⟨h₂, hs₂, fun m => (hdom₂ m).trans (hdom₁ m)⟩

theorem info_moves {b b' : Box} {name' : String}
    (h : Moves s ⟨.box sid agent b, name⟩ ⟨.box sid agent b', name'⟩ s') :
    s'.files.get? (sessionPath sid) = s.files.get? (sessionPath sid) := by
  obtain ⟨f, -, hget⟩ := h
  rw [hget, if_neg nofun, if_neg nofun]

theorem info_sets {b : Box} {y : Option MFile} (h : Sets s ⟨.box sid agent b, name⟩ y s') :
    s'.files.get? (sessionPath sid) = s.files.get? (sessionPath sid) := by
  rw [h, if_neg nofun]

theorem kept_update {spot : Spot} (hm : h m = some spot)
    (hs : Shown sid agent x (Function.update h m (some k)) s) : Kept sid agent x h s := by
  refine ⟨_, hs, fun m' => ?_⟩
  by_cases he : m' = m
  · rw [he, Function.update_self, hm]
    exact ⟨nofun, nofun⟩
  · rw [Function.update_of_ne he]

theorem Shown.shift (hs : Shown sid agent x h s) (hm : h m = some .inbox) (hnew : ∀ o, k ≠ .held o)
    (hmove : Moves s ⟨.box sid agent .inbox, jsonName m⟩ ⟨.box sid agent k.box, jsonName m⟩ s') :
    Kept sid agent x h s' :=
  kept_update hm ⟨hs.shows.shift hm nofun hnew hmove, (info_moves hmove).trans hs.info⟩

/-- A claimed message leaves `processing`, and then its claim is dropped. -/
theorem Shown.leave {s₁ s₂ : Disk} (hs : Shown sid agent x h s) (hm : h m = some (.held o))
    (hnew : ∀ o, k ≠ .held o)
    (hmove : Moves s ⟨.box sid agent .processing, jsonName m⟩ ⟨.box sid agent k.box, jsonName m⟩ s₁)
    (hset : Sets s₁ ⟨.box sid agent .processing, claimName (claimKey m o)⟩ none s₂) :
    Kept sid agent x h s₂ :=
  kept_update hm ⟨hs.shows.leave hm hnew hmove hset, ((info_sets hset).trans (info_moves hmove)).trans hs.info⟩

variable {i : ℕ}

theorem currentTime_same (p : MPath) (ts : ℤ) :
    (currentTime p ts).Ends world i NoFault s fun _ s' => s' = s := by
  refine (loadClaim_ends p).bind ?_ fun _ _ h => h.1
  rintro cl s₁ ⟨rfl, -⟩
  split <;> exact Prog.ends_ret rfl

theorem loadClaim_shown (hs : Shown sid agent x h s) (hname : startsWith ".claim-" name = true) :
    (loadClaim ⟨.box sid agent .processing, name⟩).Ends world i NoFault s fun r s' =>
      s' = s ∧ ∀ j, r = .ok (some j) → ∃ m o, name = claimName (claimKey m o) ∧ IsOn m o j ∧
        dotted (jsonName m) = false ∧ h m = some (.held o) := by
  refine (loadClaim_ends _).mono ?_
  rintro r s' ⟨rfl, hload⟩
  refine ⟨rfl, fun j hj => ?_⟩
  obtain ⟨f, hf, hdata⟩ := hload j hj
  obtain ⟨m, o, j', heq, hdata', hon, hm⟩ := hs.shows.claims.named name f hname hf
  rw [hdata] at hdata'
  cases hdata'
  exact ⟨m, o, heq, hon, hs.shows.boxes.plain m _ hm, hm⟩

theorem withClaimLock_kept {processing : Dir} {key : String} {body : Call α}
    (hb : ∀ s', s'.files = s.files → body.Ends world i NoFault s' fun _ t => Kept sid agent x h t) :
    (withClaimLock processing key body).Ends world i NoFault s fun _ t => Kept sid agent x h t := by
  refine Prog.ends_op_bind fun c a s₁ _ hp => ?_
  have hfiles : s₁.files = s.files := by
    simp only [world, Disk.perform] at hp
    split_ifs at hp
    cases hp
    rfl
  refine (hb s₁ hfiles).ensure fun r s₂ hk => ?_
  refine Prog.ends_op_bind fun c a s₃ _ hp => ?_
  cases hp
  exact Prog.ends_ret ⟨rfl, hk.files rfl⟩

/-! ### The lease runs out -/

theorem reapLocked_kept (hs : Shown sid agent x h s) (hm : h m = some (.held o)) (ts cutoff : ℤ) :
    (reapLocked (.box sid agent .inbox) (.box sid agent .processing)
      ⟨.box sid agent .processing, claimName (claimKey m o)⟩ m ts cutoff).Ends world i NoFault s
      fun _ t => Kept sid agent x h t := by
  refine (currentTime_same _ _).bind ?_ fun e s₁ he => he ▸ hs.kept
  rintro cur s₁ rfl
  split
  · exact Prog.ends_ret hs.kept
  · unfold moveBack
    rw [Prog.bind_assoc]
    refine fileExists_ends ?_
    rw [if_pos (hs.shows.isSome_held hm)]
    refine rename_ends (fun e => hs.kept) fun s₂ hmove => ?_
    refine unlinkMissingOk_ends fun s₃ hset => Prog.ends_ret ?_
    exact hs.leave hm (k := .inbox) nofun hmove hset

theorem reapExpiredClaim_kept (hs : Shown sid agent x h s) (key : String) :
    (reapExpiredClaim (.box sid agent .inbox) (.box sid agent .processing)
      ⟨.box sid agent .processing, claimName key⟩).Ends world i NoFault s
      fun _ t => Kept sid agent x h t := by
  refine look_ends rfl fun now s₁ hf => ?_
  have hs₁ := hs.files hf
  refine (loadClaim_shown hs₁ (startsWith_claimName key)).bind ?_ fun e s₂ he => he.1 ▸ hs₁.kept
  rintro cl s₂ ⟨rfl, hcl⟩
  split
  · exact Prog.ends_ret hs₁.kept
  · next claim =>
    obtain ⟨m, o, hname, hon, hplain, hm⟩ := hcl claim rfl
    obtain rfl := claimName_inj hname
    split
    · exact Prog.ends_ret hs₁.kept
    · split
      · exact Prog.ends_ret hs₁.kept
      · dsimp only
        rw [hon.claimMsgId hplain]
        exact withClaimLock_kept fun s' hf' => reapLocked_kept (hs₁.files hf') hm _ _

/-! ### `read` -/

/-- The claim on the message `m` has been published, and nothing else. -/
def Published (sid agent : String) (x : Option MFile) (h : Holding) (m o : String) (t : Disk) : Prop :=
  ∃ s₁ f j, Shown sid agent x h s₁ ∧ f.data = .json j ∧ IsOn m o j ∧
    s₁.files.get? ⟨.box sid agent .processing, claimName (claimKey m o)⟩ = none ∧
    Sets s₁ ⟨.box sid agent .processing, claimName (claimKey m o)⟩ (some f) t

theorem blocked_kept (hs : Shown sid agent x h s) (key : String) :
    (blocked (.box sid agent .inbox) (.box sid agent .processing)
      ⟨.box sid agent .processing, claimName key⟩).Ends world i NoFault s
      fun r t => r ≠ .ok .mine ∧ Kept sid agent x h t := by
  refine (reapExpiredClaim_kept hs key).bind ?_ fun e t ht => ⟨nofun, ht⟩
  intro b t ht
  split <;> exact Prog.ends_ret ⟨nofun, ht⟩

theorem publishClaim_kept (hs : Shown sid agent x h s) {j : Json} (hon : IsOn m o j)
    (n : ℕ) : (publishClaim (.box sid agent .inbox) (.box sid agent .processing)
      ⟨.box sid agent .processing, claimName (claimKey m o)⟩
      ⟨.box sid agent .processing, tmpClaimName (claimKey m o) n⟩ j).Ends world i NoFault s
      fun r t => (r ≠ .ok .mine ∧ Kept sid agent x h t) ∨
        r = .ok .mine ∧ Published sid agent x h m o t := by
  have htmp : startsWith ".tmp-" (tmpClaimName (claimKey m o) n) = true :=
    startsWith_trans (by decide) (startsWith_tmpClaimName _ n)
  unfold publishClaim
  refine tryWriteNew_ends (fun e => ?_) fun g s₁ hg _ hset₁ => ?_
  · cases e with
    | «exists» =>
      refine unlinkMissingOk_ends fun s₁ hset => Prog.ends_ret (.inl ⟨fun h => (by cases h), ?_⟩)
      exact (hs.congr (hset.drafts htmp)).kept
    | _ => exact Prog.ends_raise (.inl ⟨fun h => (by cases h), hs.kept⟩)
  · have hs₁ := hs.congr (hset₁.drafts htmp)
    refine tryLink_ends (fun e => ?_) fun f s₂ hf hfree hset₂ => ?_
    · -- the fallback without hard links is reached with the draft gone again
      have hretry (b : Call Grab) (hb : ∀ s₂, Shown sid agent x h s₂ → b.Ends world i NoFault s₂
          fun r t => (r ≠ .ok .mine ∧ Kept sid agent x h t) ∨
            r = .ok .mine ∧ Published sid agent x h m o t) {s₁ : Disk}
          (hs₁ : Shown sid agent x h s₁) :
          (unlinkMissingOk ⟨.box sid agent .processing, tmpClaimName (claimKey m o) n⟩ >>= fun _ =>
            b).Ends world i NoFault s₁ fun r t => (r ≠ .ok .mine ∧ Kept sid agent x h t) ∨
            r = .ok .mine ∧ Published sid agent x h m o t :=
        unlinkMissingOk_ends fun s₂ hset => hb s₂ (hs₁.congr (hset.drafts htmp))
      have hblocked {s₂ : Disk} (hs₂ : Shown sid agent x h s₂) :=
        (blocked_kept (i := i) hs₂ (claimKey m o)).mono fun r t ht =>
          (Or.inl ht : (r ≠ .ok .mine ∧ Kept sid agent x h t) ∨
            r = .ok .mine ∧ Published sid agent x h m o t)
      cases e with
      | «exists» => exact hretry _ (fun s₂ hs₂ => hblocked hs₂) hs₁
      | notFound | other =>
        refine hretry _ (fun s₂ hs₂ => ?_) hs₁
        refine tryWriteNew_ends (fun e => ?_) fun g' s₃ hg' hfree hset => ?_
        · cases e with
          | «exists» => exact hretry _ (fun s₃ hs₃ => hblocked hs₃) hs₂
          | _ => exact Prog.ends_raise (.inl ⟨fun h => (by cases h), hs₂.kept⟩)
        · exact Prog.ends_ret (.inr ⟨rfl, s₂, g', j, hs₂, hg', hon, hfree, hset⟩)
    · refine Prog.ends_ret (.inr ⟨rfl, s₁, f, j, hs₁, ?_, hon, hfree, hset₂⟩)
      rw [hset₁, if_pos rfl] at hf
      cases hf
      exact hg

theorem claimTarget_kept (hs : Shown sid agent x h s) (hsid : a.sessionId = sid)
    (hagent : a.agentId = agent) (hm : h m = some .inbox) (hname : name = jsonName m)
    (hstem : stem name = m) (contested : List String) (msg : Json) :
    (claimTarget a contested name msg).Ends world i NoFault s fun _ t => Kept sid agent x h t := by
  subst hsid hagent
  unfold claimTarget
  refine look_ends rfl fun _ s₁ hf₁ => look_ends rfl fun nonce s₂ hf₂ => look_ends rfl fun now s₃ hf₃ => ?_
  have hs₃ := hs.files (hf₃.trans (hf₂.trans hf₁))
  have htmp : startsWith ".tmp-" (tmpClaimName (claimKey m a.owner) (1000 + nonce % 9000)) = true :=
    startsWith_trans (by decide) (startsWith_tmpClaimName _ _)
  dsimp only
  rw [hstem]
  refine (publishClaim_kept hs₃ (isOn_claimMeta m a.owner now) _).bind ?_ fun e t ht => ?_
  · rintro g t (⟨hne, ht⟩ | ⟨hmine, s₄, f, j, hs₄, hdata, hon, hfree, hset⟩)
    · cases g with
      | mine => exact absurd rfl hne
      | retry => exact Prog.ends_ret ht
      | contested => exact Prog.ends_ret ht
    · cases hmine
      refine tryReplace_ends (fun e => ?_) fun s₅ hmove => ?_
      · refine unlinkMissingOk_ends fun s₅ hdraft => unlinkMissingOk_ends fun s₆ hclaim =>
          Prog.ends_ret (hs₄.congr fun p hp => ?_).kept
        rw [hclaim]
        split_ifs with he
        · rw [he, hfree]
        · rw [hdraft.drafts htmp p hp, hset, if_neg he]
      · refine unlinkMissingOk_ends fun s₆ hdraft => Prog.ends_ret ?_
        subst hname
        have hs₅ : Shown a.sessionId a.agentId x (Function.update h m (some (.held a.owner))) s₅ :=
          ⟨hs₄.shows.enter hm hfree hdata hon hset hmove,
            ((info_moves hmove).trans (info_sets hset)).trans hs₄.info⟩
        exact kept_update hm (hs₅.congr (hdraft.drafts htmp))
  · rcases ht with ⟨-, ht⟩ | ⟨he, -⟩
    · exact ht
    · cases he

theorem quarantine_kept (hs : Shown sid agent x h s) (hsid : a.sessionId = sid)
    (hagent : a.agentId = agent) (hm : h m = some .inbox) (contested : List String) :
    (quarantine a (jsonName m) >>= fun _ => (pure (Pass.again contested) : Call Pass)).Ends world i
      NoFault s fun _ t => Kept sid agent x h t := by
  subst hsid hagent
  unfold quarantine
  rw [Prog.bind_assoc]
  refine look_ends rfl fun _ s₁ hf => ?_
  have hs₁ := hs.files hf
  refine rename_ends (fun e => hs₁.kept) fun s₂ hmove => Prog.ends_ret ?_
  exact hs₁.shift hm (k := .corrupt) nofun hmove

theorem Shown.inbox_name (hs : Shown sid agent x h s) (hname : isMessageName name = true)
    (hf : (s.files.get? ⟨.box sid agent .inbox, name⟩).isSome = true) :
    name = jsonName (stem name) ∧ h (stem name) = some .inbox := by
  have hplain : dotted name = false := by
    rw [← Bool.not_eq_true]
    intro hdot
    rw [hs.shows.boxes.hidden name hname hdot] at hf
    cases hf
  have hend : endsWith ".json" name = true := by
    simp only [isMessageName, Bool.and_eq_true] at hname
    exact hname.1.1
  have heq := jsonName_stem hend hplain
  rw [← heq] at hplain hf
  exact ⟨heq.symm, hs.shows.at_inbox hplain hf⟩

theorem readPass_kept (hs : Shown sid agent x h s) (hsid : a.sessionId = sid)
    (hagent : a.agentId = agent) (contested : List String) :
    (readPass a contested).Ends world i NoFault s fun _ t => Kept sid agent x h t := by
  refine looks_ends (listMessages_only (fun _ ho => ho) _) (listMessages_rets _)
    (fun files s₁ hfiles hf₁ => ?_) fun e t ht => (hs.files ht).kept
  have hs₁ := hs.files hf₁
  split
  · exact Prog.ends_ret hs₁.kept
  · next name hpick =>
    have hname := hfiles name (pickTarget_mem hpick)
    refine readBytes_ends ?_
    cases hf : s₁.files.get? ⟨.box a.sessionId a.agentId .inbox, name⟩ with
    | none => exact Prog.ends_ret hs₁.kept
    | some g =>
      obtain ⟨y, t, n⟩ := g
      have hin : (s₁.files.get? ⟨.box sid agent .inbox, name⟩).isSome = true := by
        rw [← hsid, ← hagent, hf]
        rfl
      obtain ⟨heq, hm⟩ := hs₁.inbox_name hname hin
      cases y with
      | junk =>
        subst hsid hagent
        refine look_ends rfl fun _ s₂ hf₂ => ?_
        have hs₂ := hs₁.files hf₂
        refine tryReplace_ends (fun e => Prog.ends_ret hs₂.kept) fun s₃ hmove => Prog.ends_ret ?_
        rw [heq] at hmove
        exact hs₂.shift hm (k := .corrupt) nofun hmove
      | json msg =>
        dsimp only
        unfold examine
        split
        · exact Prog.ends_raise hs₁.kept
        · rw [heq]
          exact quarantine_kept hs₁ hsid hagent hm contested
        · refine looks_ends (fromRoster_only (fun _ ho => ho) _ _) (Prog.rets_true _)
            (fun b s₂ _ hf₂ => ?_) fun e t ht => (hs₁.files ht).kept
          have hs₂ := hs₁.files hf₂
          split
          · exact claimTarget_kept hs₂ hsid hagent hm heq rfl contested msg
          · rw [heq]
            exact quarantine_kept hs₂ hsid hagent hm contested

theorem read_kept (hs : Shown sid agent x h s) (hsid : a.sessionId = sid)
    (hagent : a.agentId = agent) (fuel : ℕ) :
    (read fuel a).Ends world i NoFault s fun _ t => Kept sid agent x h t := by
  refine agentSubdir_bind_ends (fun _ _ => ?_) fun e => hs.kept
  generalize ([] : List String) = contested
  induction fuel generalizing contested s h with
  | zero => exact Prog.ends_hang
  | succ fuel ih =>
    refine (readPass_kept hs hsid hagent contested).bind (fun p t ht => ?_) fun e t ht => ht
    cases p with
    | done r => exact Prog.ends_ret ht
    | again c =>
      obtain ⟨h', hs', hdom⟩ := ht
      refine (ih hs' c).mono ?_
      rintro r t' ⟨h'', hs'', hdom'⟩
      exact ⟨h'', hs'', fun m => (hdom' m).trans (hdom m)⟩

/-! ### The calls on a claimed message -/

/-- The names that the pattern of the message `m` matches. -/
def Matching (sid agent m : String) (s : Disk) (names : List String) : Prop :=
  ∀ name, name ∈ names ↔ globMatch (".claim-" ++ m ++ "-") ".json" name = true ∧
    (s.files.get? ⟨.box sid agent .processing, name⟩).isSome = true

theorem Shown.claim_mem (hs : Shown sid agent x h s) (hm : h m = some (.held o))
    {names : List String} (hnames : Matching sid agent m s names) :
    claimName (claimKey m o) ∈ names := by
  obtain ⟨f, j, hf, -⟩ := hs.shows.claims.held m o hm
  exact (hnames _).mpr ⟨globMatch_claimName m o, by rw [hf]; rfl⟩

/-- If the message is in `processing` and its pattern matches one file, that is its claim. -/
theorem Shown.sole_claim (hs : Shown sid agent x h s) (hok : msgIdOk m = true)
    (hnames : Matching sid agent m s [name])
    (hin : (s.files.get? ⟨.box sid agent .processing, jsonName m⟩).isSome = true) :
    ∃ o, h m = some (.held o) ∧ name = claimName (claimKey m o) := by
  obtain ⟨o, hm⟩ := hs.shows.at_processing (dotted_jsonName hok) hin
  exact ⟨o, hm, (List.mem_singleton.mp (hs.claim_mem hm hnames)).symm⟩

theorem finalize_kept (hs : Shown sid agent x h s) (m owner : String) :
    (finalize sid agent m owner).Ends world i NoFault s fun _ t => Kept sid agent x h t := by
  refine require_bind_ends (fun hok => ?_) hs.kept
  refine agentSubdir_bind_ends (fun _ _ => agentSubdir_bind_ends (fun _ _ => ?_) fun _ => hs.kept)
    fun _ => hs.kept
  refine sortedGlob_ends fun names hnames => ?_
  split
  · exact Prog.ends_raise hs.kept
  · next name =>
    refine fileExists_ends ?_
    split
    · next hin =>
      obtain ⟨o, hm, rfl⟩ := hs.sole_claim hok hnames hin
      refine looks_ends (loadJson_only (fun _ ho => ho) _) (Prog.rets_true _)
        (fun claim s₁ _ hf => ?_) fun e t ht => (hs.files ht).kept
      have hs₁ := hs.files hf
      split
      · exact Prog.ends_raise hs₁.kept
      · split
        · refine look_ends rfl fun _ s₂ hf₂ => ?_
          have hs₂ := hs₁.files hf₂
          refine rename_ends (fun e => hs₂.kept) fun s₃ hmove => ?_
          refine unlinkMissingOk_ends fun s₄ hset => Prog.ends_ret ?_
          exact hs₂.leave hm (k := .archive) (fun _ h => by cases h) hmove hset
        · exact Prog.ends_raise hs₁.kept
    · exact Prog.ends_raise hs.kept
  · exact Prog.ends_raise hs.kept

theorem release_kept (hs : Shown sid agent x h s) (m owner : String) :
    (release sid agent m owner).Ends world i NoFault s fun _ t => Kept sid agent x h t := by
  refine require_bind_ends (fun hok => ?_) hs.kept
  refine agentSubdir_bind_ends (fun _ _ => agentSubdir_bind_ends (fun _ _ => ?_) fun _ => hs.kept)
    fun _ => hs.kept
  refine sortedGlob_ends fun names hnames => fileExists_ends (require_bind_ends (fun hin => ?_) hs.kept)
  split
  · -- a message in `processing` has a claim
    obtain ⟨o, hm⟩ := hs.shows.at_processing (dotted_jsonName hok) hin
    exact absurd (hs.claim_mem hm hnames) List.not_mem_nil
  · next name =>
    obtain ⟨o, hm, rfl⟩ := hs.sole_claim hok hnames hin
    have hcheck : (checkRelease ⟨.box sid agent .processing, claimName (claimKey m o)⟩ owner).Only
        fun o => o.looks = true := by
      refine (look_only (fun _ ho => ho) rfl).bind fun b => ?_
      split
      · exact (loadJson_only (fun _ ho => ho) _).bind fun _ =>
          (require_only _ _).bind fun _ => require_only _ _
      · simp
    refine looks_ends hcheck (Prog.rets_true _) (fun _ s₁ _ hf => ?_) fun e t ht => (hs.files ht).kept
    have hs₁ := hs.files hf
    refine rename_ends (fun e => hs₁.kept) fun s₂ hmove => ?_
    refine unlinkMissingOk_ends fun s₃ hset => Prog.ends_ret ?_
    exact hs₁.leave hm (k := .inbox) nofun hmove hset
  · exact Prog.ends_raise hs.kept

theorem rewriteClaim_kept (hs : Shown sid agent x h s) (hm : h m = some (.held o)) {j : Json}
    (hon : IsOn m o j) (key : String) :
    (rewriteClaim (.box sid agent .processing) key (claimName (claimKey m o)) j).Ends world i NoFault s
      fun r t => Shown sid agent x h t ∧ ∀ e, r ≠ .error e := by
  have htmp : startsWith ".tmp-" (tmpRenewName key) = true :=
    startsWith_trans (by decide) (startsWith_tmpRenewName key)
  have hback {s₁ : Disk} (hs₁ : Shown sid agent x h s₁) :
      (unlinkMissingOk ⟨.box sid agent .processing, tmpRenewName key⟩ >>= fun _ =>
        (pure false : Call Bool)).Ends world i NoFault s₁
          fun r t => Shown sid agent x h t ∧ ∀ e, r ≠ .error e :=
    unlinkMissingOk_ends fun s₂ hset => Prog.ends_ret ⟨hs₁.congr (hset.drafts htmp), nofun⟩
  refine tryWrite_ends (fun e => hback hs) fun g s₁ hg hset₁ => ?_
  have hs₁ := hs.congr (hset₁.drafts htmp)
  refine tryReplace_ends (fun e => hback hs₁) fun s₂ hmove => Prog.ends_ret ⟨?_, nofun⟩
  obtain ⟨f, hf, hget⟩ := hmove
  rw [hset₁, if_pos rfl] at hf
  cases hf
  -- the draft goes, and the claim holds what it held
  have hset₂ : Sets { s₁ with files := s₁.files.del ⟨.box sid agent .processing, tmpRenewName key⟩ }
      ⟨.box sid agent .processing, claimName (claimKey m o)⟩ (some g) s₂ := by
    intro q
    rw [hget]
    split_ifs with hq ht
    · rfl
    · rw [ht]
      exact (Files.get?_del_self _ _).symm
    · exact (Files.get?_del_ne _ ht).symm
  have hs₃ : Shown sid agent x h
      { s₁ with files := s₁.files.del ⟨.box sid agent .processing, tmpRenewName key⟩ } := by
    refine hs₁.congr fun p hp => Files.get?_del_ne _ ?_
    rintro rfl
    rw [htmp] at hp
    cases hp
  exact ⟨hs₃.shows.rewrite hm hg hon hset₂, (info_sets hset₂).trans hs₃.info⟩

theorem renewLocked_kept (hs : Shown sid agent x h s) (hok : msgIdOk m = true)
    (owner : String) : (renewLocked (.box sid agent .processing) m owner).Ends world i NoFault s
      fun _ t => Kept sid agent x h t := by
  refine fileExists_ends ?_
  split
  · next hin =>
    refine sortedGlob_ends fun names hnames => ?_
    split
    · next name =>
      obtain ⟨o, hm, rfl⟩ := hs.sole_claim hok hnames hin
      refine (loadClaim_shown hs (startsWith_claimName _)).bind ?_ fun e t ht => ht.1 ▸ hs.kept
      rintro cl s₁ ⟨rfl, hcl⟩
      split
      · exact Prog.ends_ret hs.kept
      · next claim =>
        obtain ⟨m', o', hname, hon, -, hm'⟩ := hcl claim rfl
        split
        · refine look_ends rfl fun now s₂ hf₂ => ?_
          have hs₂ := hs.files hf₂
          -- the claim of the name is the claim on the message
          obtain ⟨f, j, hf, hdata, hon₀⟩ := hs.shows.claims.held m o hm
          have hown : IsOn m o claim := by
            obtain ⟨f', j', hf', hdata', hon'⟩ := hs.shows.claims.held m' o' hm'
            rw [← hname, hf] at hf'
            cases hf'
            rw [hdata] at hdata'
            cases hdata'
            obtain ⟨rfl, rfl⟩ := hon₀.inj hon'
            exact hon
          dsimp only
          refine (rewriteClaim_kept hs₂ hm (hown.renewed _ _) _).bind ?_ fun e t ht => absurd rfl (ht.2 e)
          rintro done s₃ ⟨hs₃, -⟩
          split
          · refine fileExists_ends ?_
            rw [if_pos (hs₃.shows.isSome_held hm)]
            exact Prog.ends_ret hs₃.kept
          · exact Prog.ends_ret hs₃.kept
        · exact Prog.ends_ret hs.kept
    · exact Prog.ends_ret hs.kept
  · exact Prog.ends_ret hs.kept

theorem renewClaim_kept (hs : Shown sid agent x h s) (m owner : String) :
    (renewClaim sid agent m owner).Ends world i NoFault s fun _ t => Kept sid agent x h t := by
  refine require_bind_ends (fun hok => ?_) hs.kept
  refine agentSubdir_bind_ends (fun _ _ => fileExists_ends ?_) fun _ => hs.kept
  split
  · refine sortedGlob_ends fun names hnames => ?_
    split
    · exact withClaimLock_kept fun s' hf => renewLocked_kept (hs.files hf) hok owner
    · exact Prog.ends_ret hs.kept
  · exact Prog.ends_ret hs.kept

/-! ### `recover_stale` -/

theorem kept_bind {α β : Type} {p : Call α} {f : α → Call β}
    (hp : p.Ends world i NoFault s fun _ t => Kept sid agent x h t)
    (hf : ∀ a h' t, Shown sid agent x h' t →
      (f a).Ends world i NoFault t fun _ t' => Kept sid agent x h' t') :
    (p >>= f).Ends world i NoFault s fun _ t => Kept sid agent x h t := by
  refine hp.bind (fun a t ht r t' hr => ?_) fun e t ht => ht
  exact ht.trans fun h' hs' => hf a h' t hs' r t' hr

theorem recoverLocked_kept (hs : Shown sid agent x h s) (hm : h m = some (.held o))
    (ts cutoff gate : ℤ) : (recoverLocked (.box sid agent .inbox) (.box sid agent .processing)
      ⟨.box sid agent .processing, claimName (claimKey m o)⟩ m ts cutoff gate).Ends world i NoFault s
      fun _ t => Kept sid agent x h t := by
  refine (currentTime_same _ _).bind ?_ fun e s₁ he => he ▸ hs.kept
  rintro cur s₁ rfl
  refine fileExists_ends ?_
  rw [if_pos (hs.shows.isSome_held hm)]
  split
  · exact Prog.ends_ret hs.kept
  · obtain ⟨f, j, hclaim, -⟩ := hs.shows.claims.held m o hm
    refine rename_ends (fun e => hs.kept) fun s₂ hmove => ?_
    have hstill : s₂.files.get? ⟨.box sid agent .processing, claimName (claimKey m o)⟩ = some f := by
      have hne : claimName (claimKey m o) ≠ jsonName m :=
        claimName_ne_jsonName (hs.shows.boxes.plain m _ hm)
      obtain ⟨g, -, hget⟩ := hmove
      rw [hget, if_neg fun hp => hne (congrArg Path.name hp),
        if_neg fun hp => hne (congrArg Path.name hp), hclaim]
    refine unlink_ends (fun hgone => ?_) fun s₃ hset => Prog.ends_ret ?_
    · rw [hstill] at hgone
      cases hgone
    · exact hs.leave hm (k := .inbox) nofun hmove hset

theorem recoverClaim_kept (hs : Shown sid agent x h s) (hname : startsWith ".claim-" name = true)
    (cutoff gate : ℤ) :
    (recoverClaim (.box sid agent .inbox) (.box sid agent .processing) cutoff gate
      ⟨.box sid agent .processing, name⟩).Ends world i NoFault s fun _ t => Kept sid agent x h t := by
  refine (loadClaim_shown hs hname).bind ?_ fun e t ht => ht.1 ▸ hs.kept
  rintro cl s₁ ⟨rfl, hcl⟩
  split
  · exact Prog.ends_ret hs.kept
  · next claim =>
    obtain ⟨m, o, rfl, hon, hplain, hm⟩ := hcl claim rfl
    split
    · exact Prog.ends_ret hs.kept
    · dsimp only
      rw [hon.claimMsgId hplain]
      exact withClaimLock_kept fun s' hf => recoverLocked_kept (hs.files hf) hm _ _ _

theorem passErrors_kept {p : Call Bool} (hp : p.Ends world i NoFault s fun _ t => Kept sid agent x h t) :
    (passErrors p).Ends world i NoFault s fun _ t => Kept sid agent x h t := by
  refine Prog.Ends.tryCatch hp (fun _ _ ht => ht) fun e t ht => ?_
  split
  · exact Prog.ends_raise ht
  · exact Prog.ends_ret ht

theorem recoverClaims_kept (cutoff gate : ℤ) (names : List String) : ∀ {h : Holding} {s : Disk},
    Shown sid agent x h s → (∀ name ∈ names, startsWith ".claim-" name = true) →
    (recoverClaims (.box sid agent .inbox) (.box sid agent .processing) cutoff gate names).Ends world i
      NoFault s fun _ t => Kept sid agent x h t := by
  induction names with
  | nil => exact fun hs _ => Prog.ends_ret hs.kept
  | cons name rest ih =>
    intro h s hs hnames
    have hfirst := recoverClaim_kept (i := i) hs (hnames name List.mem_cons_self) cutoff gate
    refine kept_bind (passErrors_kept hfirst) fun moved h' t hs' => ?_
    refine kept_bind (ih hs' fun n hn => hnames n (List.mem_cons_of_mem _ hn)) fun n h'' t' hs'' => ?_
    exact Prog.ends_ret hs''.kept

theorem sweepTmpClaims_kept (gate : ℤ) (names : List String) : ∀ {s : Disk},
    Shown sid agent x h s → (∀ name ∈ names, startsWith ".tmp-claim-" name = true) →
    (sweepTmpClaims (.box sid agent .processing) gate names).Ends world i NoFault s
      fun _ t => Kept sid agent x h t := by
  induction names with
  | nil => exact fun hs _ => Prog.ends_ret hs.kept
  | cons name rest ih =>
    intro s hs hnames
    have hrest : ∀ n ∈ rest, startsWith ".tmp-claim-" n = true :=
      fun n hn => hnames n (List.mem_cons_of_mem _ hn)
    have htmp : startsWith ".tmp-" name = true :=
      startsWith_trans (by decide) (hnames name List.mem_cons_self)
    refine look_ends rfl fun st s₁ hf => ?_
    have hs₁ := hs.files hf
    split
    · split
      · refine tryUnlink_ends (fun _ => ih hs₁ hrest) fun s₂ hset => ?_
        exact ih (hs₁.congr (hset.drafts htmp)) hrest
      · exact ih hs₁ hrest
    · exact ih hs₁ hrest

theorem recoverStale_kept (hs : Shown sid agent x h s) :
    (recoverStale sid agent).Ends world i NoFault s fun _ t => Kept sid agent x h t := by
  refine agentSubdir_bind_ends (fun _ _ => agentSubdir_bind_ends (fun _ _ => ?_) fun _ => hs.kept)
    fun _ => hs.kept
  refine isDir_ends ?_
  split
  · refine look_ends rfl fun now s₁ hf₁ => look_ends rfl fun now' s₂ hf₂ => ?_
    have hs₂ := hs.files (hf₂.trans hf₁)
    refine sortedGlob_ends fun names hnames => ?_
    have hclaims : ∀ name ∈ names, startsWith ".claim-" name = true :=
      fun name hname => startsWith_of_globMatch ((hnames name).mp hname).1
    refine kept_bind (recoverClaims_kept _ _ names hs₂ hclaims) fun n h' t hs' => ?_
    refine sortedGlob_ends fun tmps htmps => ?_
    have hdrafts : ∀ name ∈ tmps, startsWith ".tmp-claim-" name = true :=
      fun name hname => startsWith_of_globMatch ((htmps name).mp hname).1
    refine kept_bind (sweepTmpClaims_kept _ tmps hs' hdrafts) fun _ h'' t' hs'' => ?_
    exact Prog.ends_ret hs''.kept
  · exact Prog.ends_ret hs.kept

/-! ### `check` -/

theorem putInto_kept (hs : Shown sid agent x h s) (hm : h m = some .inbox) {spot : Spot}
    (hnew : ∀ o, spot ≠ .held o) :
    (putInto sid agent spot.box (jsonName m)).Ends world i NoFault s fun _ t => Kept sid agent x h t := by
  refine look_ends rfl fun _ s₁ hf => ?_
  have hs₁ := hs.files hf
  refine tryReplace_ends (fun e => Prog.ends_raise hs₁.kept) fun s₂ hmove => Prog.ends_ret ?_
  exact hs₁.shift hm hnew hmove

theorem checkEntry_kept (hs : Shown sid agent x h s) (hname : isMessageName name = true) :
    (checkEntry sid agent name).Ends world i NoFault s fun _ t => Kept sid agent x h t := by
  refine readBytes_ends ?_
  cases hf : s.files.get? ⟨.box sid agent .inbox, name⟩ with
  | none => exact Prog.ends_raise hs.kept
  | some g =>
    obtain ⟨y, t, n⟩ := g
    obtain ⟨heq, hm⟩ := hs.inbox_name hname (by rw [hf]; rfl)
    have hput {k : Spot} (hnew : ∀ o, k ≠ .held o) (l : List Json) :
        (putInto sid agent k.box name >>= fun _ => (pure l : Call (List Json))).Ends world i NoFault s
          fun _ t => Kept sid agent x h t := by
      rw [heq]
      exact kept_bind (putInto_kept hs hm hnew) fun _ h' t hs' => Prog.ends_ret hs'.kept
    cases y with
    | junk => exact hput (k := .corrupt) nofun []
    | json msg =>
      show (match validateMessage msg none (some agent) (some name) with
        | .error (.typeError why) => throw (.type why)
        | .error (.reject _) => do
          putInto sid agent .corrupt name
          return []
        | .ok () => do
          putInto sid agent .archive name
          return [msg] : Call (List Json)).Ends world i NoFault s _
      split
      · exact Prog.ends_raise hs.kept
      · exact hput (k := .corrupt) nofun []
      · exact hput (k := .archive) nofun [msg]

theorem checkEntries_kept (names : List String) : ∀ {h : Holding} {s : Disk},
    Shown sid agent x h s → (∀ name ∈ names, isMessageName name = true) →
    (checkEntries sid agent names).Ends world i NoFault s fun _ t => Kept sid agent x h t := by
  induction names with
  | nil => exact fun hs _ => Prog.ends_ret hs.kept
  | cons name rest ih =>
    intro h s hs hnames
    refine kept_bind (checkEntry_kept hs (hnames name List.mem_cons_self)) fun found h' t hs' => ?_
    refine kept_bind (ih hs' fun n hn => hnames n (List.mem_cons_of_mem _ hn)) fun l h'' t' hs'' => ?_
    exact Prog.ends_ret hs''.kept

theorem mem_of_mem_takeSlice {l : List α} {n : ℤ} {a : α} (ha : a ∈ takeSlice l n) : a ∈ l := by
  unfold takeSlice at ha
  split at ha
  · exact List.mem_of_mem_take ha
  · exact List.mem_of_mem_take ha

theorem check_kept (hs : Shown sid agent x h s) (maxMessages : ℤ) :
    (check sid agent maxMessages).Ends world i NoFault s fun _ t => Kept sid agent x h t := by
  refine agentSubdir_bind_ends (fun _ _ => ?_) fun e => hs.kept
  refine looks_ends (listMessages_only (fun _ ho => ho) _) (listMessages_rets _)
    (fun files s₁ hfiles hf => ?_) fun e t ht => (hs.files ht).kept
  exact checkEntries_kept _ (hs.files hf) fun name hname => hfiles name (mem_of_mem_takeSlice hname)

/-! ### `clear` -/

/-- The disk shows messages of `h`, and all of them that were not in the archive. -/
def Emptied (sid agent : String) (x : Option MFile) (h : Holding) (s : Disk) : Prop :=
  ∃ h', Shown sid agent x h' s ∧ (∀ m, h m = none → h' m = none) ∧
    ∀ m, h' m = none → h m = none ∨ h m = some .archive

theorem Kept.emptied (hs : Kept sid agent x h s) : Emptied sid agent x h s := by
  obtain ⟨h', hs', hdom⟩ := hs
  exact ⟨h', hs', fun m hm => (hdom m).mpr hm, fun m hm => .inl ((hdom m).mp hm)⟩

theorem unlink_archive (hs : Shown sid agent x h s) (hname : endsWith ".json" name = true)
    (hset : Sets s ⟨.box sid agent .archive, name⟩ none s') :
    ∃ h', Shown sid agent x h' s' ∧ ∀ m, h' m = h m ∨ h m = some .archive ∧ h' m = none := by
  have hinfo := (info_sets hset).trans hs.info
  cases hdot : dotted name with
  | true => exact ⟨h, ⟨hs.shows.congr_archive hdot hset, hinfo⟩, fun m => .inl rfl⟩
  | false =>
    have heq := jsonName_stem hname hdot
    rw [← heq] at hset hdot
    cases hf : s.files.get? ⟨.box sid agent .archive, jsonName (stem name)⟩ with
    | none =>
      have hsame : Drafts s s' := by
        intro p _
        rw [hset]
        split_ifs with hp
        · rw [hp, hf]
        · rfl
      exact ⟨h, hs.congr hsame, fun m => .inl rfl⟩
    | some f =>
      obtain ⟨spot, hspot, hbox⟩ := hs.shows.at_box hdot (b := .archive) (by rw [hf]; rfl)
      have hm : h (stem name) = some .archive := by
        cases spot <;> first | exact hspot | cases hbox
      refine ⟨_, ⟨hs.shows.remove hm hset, hinfo⟩, fun m => ?_⟩
      by_cases he : m = stem name
      · rw [he, Function.update_self]
        exact .inr ⟨hm, rfl⟩
      · exact .inl (Function.update_of_ne he _ _)

theorem unlinkAll_emptied (names : List String) : ∀ {h : Holding} {s : Disk},
    Shown sid agent x h s → (∀ name ∈ names, endsWith ".json" name = true) →
    (unlinkAll (.box sid agent .archive) names).Ends world i NoFault s
      fun _ t => Emptied sid agent x h t := by
  induction names with
  | nil => exact fun hs _ => Prog.ends_ret hs.kept.emptied
  | cons name rest ih =>
    intro h s hs hnames
    refine unlink_ends (fun _ e => hs.kept.emptied) fun s₁ hset => ?_
    obtain ⟨h₁, hs₁, hone⟩ := unlink_archive hs (hnames name List.mem_cons_self) hset
    have hcompose {t : Disk} (ht : Emptied sid agent x h₁ t) : Emptied sid agent x h t := by
      obtain ⟨h₂, hs₂, hnew, hold⟩ := ht
      refine ⟨h₂, hs₂, fun m hm => hnew m ?_, fun m hm => ?_⟩
      · rcases hone m with he | ⟨ha, -⟩
        · rw [he, hm]
        · rw [hm] at ha
          cases ha
      · rcases hone m with he | ⟨ha, -⟩
        · rw [← he]
          exact hold m hm
        · exact .inr ha
    refine (ih hs₁ fun n hn => hnames n (List.mem_cons_of_mem _ hn)).bind (fun n t ht => ?_)
      fun e t ht => hcompose ht
    exact Prog.ends_ret (hcompose ht)

theorem clear_emptied (hs : Shown sid agent x h s) (lease : Option PyErr) (pruneStale : Bool) :
    (clear sid agent lease pruneStale).Ends world i NoFault s fun _ t => Emptied sid agent x h t := by
  cases lease with
  | some e => exact Prog.ends_raise hs.kept.emptied
  | none =>
    refine agentSubdir_bind_ends (fun _ _ => ?_) fun e => hs.kept.emptied
    refine Prog.Ends.bind (M := fun _ t => Emptied sid agent x h t) ?_ ?_ fun e t ht => ht
    · refine isDir_ends ?_
      split
      · refine Prog.ends_op_bind fun c names s₁ _ hp => ?_
        cases hp
        exact unlinkAll_emptied _ hs fun name hname => (List.mem_filter.mp hname).2
      · exact Prog.ends_ret hs.kept.emptied
    · intro n t ht
      split
      · obtain ⟨h₁, hs₁, hnew, hold⟩ := ht
        have hlast {t' : Disk} (ht' : Kept sid agent x h₁ t') : Emptied sid agent x h t' := by
          obtain ⟨h₂, hs₂, hdom⟩ := ht'
          exact ⟨h₂, hs₂, fun m hm => (hdom m).mpr (hnew m hm), fun m hm => hold m ((hdom m).mp hm)⟩
        exact (recoverStale_kept hs₁).bind (fun _ t' ht' => Prog.ends_ret (hlast ht'))
          fun e t' ht' => hlast ht'
      · exact Prog.ends_ret ht

/-! ### `finalize_from_inbox` -/

/-- The message is in `processing` alone, and every claim that its pattern matches is the
owner's: `finalize_from_inbox` archives it and leaves the claim. -/
structure Strands (sid agent : String) (s : Disk) (m owner : String) : Prop where
  ids : msgIdOk m = true ∧ agentIdOk agent = true ∧ agentIdOk sid = true
  inbox : s.files.get? ⟨.box sid agent .inbox, jsonName m⟩ = none
  processing : (s.files.get? ⟨.box sid agent .processing, jsonName m⟩).isSome = true
  claims : ∀ name f j, globMatch (".claim-" ++ m ++ "-") ".json" name = true →
    s.files.get? ⟨.box sid agent .processing, name⟩ = some f → f.data = .json j →
      j.get? "owner" = some (.str owner)

/-- A claim names the message, which is not in `processing`. -/
def Stranded (sid agent m : String) (s : Disk) : Prop :=
  s.files.get? ⟨.box sid agent .processing, jsonName m⟩ = none ∧
  ∃ name f j, globMatch ".claim-" ".json" name = true ∧
    s.files.get? ⟨.box sid agent .processing, name⟩ = some f ∧ f.data = .json j ∧
      claimMsgId j name = m

theorem anyForeign_shown (hs : Shown sid agent x h s) (owner : String) (names : List String)
    (hnames : ∀ name ∈ names, startsWith ".claim-" name = true ∧
      (s.files.get? ⟨.box sid agent .processing, name⟩).isSome = true) :
    (anyForeign (.box sid agent .processing) owner names).Ends world i NoFault s fun r t => t = s ∧
      ∃ b, r = .ok b ∧ (b = false ↔ ∀ name ∈ names, ∀ f j,
        s.files.get? ⟨.box sid agent .processing, name⟩ = some f → f.data = .json j →
          j.get? "owner" = some (.str owner)) := by
  induction names with
  | nil => exact Prog.ends_ret ⟨rfl, false, rfl, fun _ => nofun, fun _ => rfl⟩
  | cons name rest ih =>
    obtain ⟨hclaim, hin⟩ := hnames name List.mem_cons_self
    obtain ⟨f, hf⟩ := Option.isSome_iff_exists.mp hin
    obtain ⟨m, o, j, -, hdata, hon, -⟩ := hs.shows.claims.named name f hclaim hf
    have hrest := ih fun n hn => hnames n (List.mem_cons_of_mem _ hn)
    refine Prog.Ends.bind (M := fun r t => t = s ∧ r = .ok (.str o)) ?_ ?_ fun e t ht => by cases ht.2
    · refine readBytes_ends ?_
      rw [hf]
      dsimp only
      rw [hdata]
      dsimp only
      rw [if_pos hon.dict, hon.owner]
      exact Prog.ends_ret ⟨rfl, rfl⟩
    · rintro cowner t ⟨rfl, ho⟩
      cases ho
      refine hrest.bind ?_ ?_
      · rintro more t' ⟨rfl, _, hb, hmore⟩
        cases hb
        refine Prog.ends_ret ⟨rfl, _, rfl, ?_⟩
        rw [Bool.or_eq_false_iff, hmore, List.forall_mem_cons, decide_eq_false_iff_not, not_not]
        refine and_congr_left fun _ => ⟨fun ho f' j' hf' hdata' => ?_, fun hall => ?_⟩
        · rw [hf] at hf'
          cases hf'
          rw [hdata] at hdata'
          cases hdata'
          rw [hon.owner, ho]
        · exact Option.some.inj (hon.owner.symm.trans (hall f j hf hdata))
      · rintro e t' ⟨-, b, hb, -⟩
        cases hb

/-- `finalize_from_inbox` of a message that it strands. -/
theorem finalizeFromInbox_strands (hs : Shown sid agent x h s) {owner : String}
    (hst : Strands sid agent s m owner) :
    (finalizeFromInbox sid agent m owner).Ends world i NoFault s fun _ t => Stranded sid agent m t := by
  have hplain := dotted_jsonName hst.ids.1
  obtain ⟨o, hm⟩ := hs.shows.at_processing hplain hst.processing
  obtain ⟨f, j, hf, hdata, hon⟩ := hs.shows.claims.held m o hm
  refine NewMessage.check_bind_ends (fun _ => ?_) fun hno => ?_
  · refine agentSubdir_ready_ends hst.ids.2.1 hst.ids.2.2 (agentSubdir_ready_ends hst.ids.2.1 hst.ids.2.2
      (agentSubdir_ready_ends hst.ids.2.1 hst.ids.2.2 ?_))
    dsimp only
    refine fileExists_ends ?_
    rw [hst.inbox, Option.isSome_none, if_neg Bool.false_ne_true]
    refine fileExists_ends ?_
    rw [if_pos hst.processing]
    refine sortedGlob_ends fun names hnames => ?_
    have hclaims : ∀ name ∈ names, startsWith ".claim-" name = true ∧
        (s.files.get? ⟨.box sid agent .processing, name⟩).isSome = true :=
      fun name hname => ⟨claim_of_globMatch ((hnames name).mp hname).1, ((hnames name).mp hname).2⟩
    refine (anyForeign_shown hs owner names hclaims).bind ?_ ?_
    · rintro b t ⟨rfl, _, hret, hb⟩
      cases hret
      have hown : b = false := hb.mpr fun name hname f j hf hdata =>
        hst.claims name f j ((hnames name).mp hname).1 hf hdata
      rw [hown, if_neg Bool.false_ne_true]
      refine Prog.ends_op_bind fun c _ s₁ _ hp => ?_
      have hmade : s₁.files = t.files ∧ Dir.box sid agent .archive ∈ s₁.dirs := by
        cases hp
        split_ifs with hd
        · exact ⟨rfl, hd⟩
        · exact ⟨rfl, List.mem_cons_self⟩
      refine Replay.replace_bind_ends (by rw [hmade.1]; exact hst.processing) hmade.2 ?_
      obtain ⟨g, hg⟩ := Option.isSome_iff_exists.mp hst.processing
      have hg₁ : s₁.files.get? ⟨.box sid agent .processing, jsonName m⟩ = some g := hmade.1 ▸ hg
      have hget := Files.get?_move hg₁ ⟨.box sid agent .archive, jsonName m⟩
      refine Prog.ends_ret ⟨?_, claimName (claimKey m o), f, j, globMatch_of_claimName _, ?_, hdata,
        hon.claimMsgId hplain _⟩
      · refine (hget _).trans ?_
        rw [if_neg nofun, if_pos rfl]
      · have hne : claimName (claimKey m o) ≠ jsonName m := claimName_ne_jsonName hplain
        refine (hget _).trans ?_
        rw [if_neg nofun, if_neg fun hp => hne (congrArg Path.name hp), hmade.1]
        exact hf
    · rintro e t ⟨-, b, hb, -⟩
      cases hb
  · rw [hst.ids.1] at hno
    cases hno

/-- `finalize_from_inbox` in any other case. -/
theorem finalizeFromInbox_kept (hs : Shown sid agent x h s) {owner : String}
    (hst : ¬ Strands sid agent s m owner) :
    (finalizeFromInbox sid agent m owner).Ends world i NoFault s fun _ t => Kept sid agent x h t := by
  refine require_bind_ends (fun hok => ?_) hs.kept
  refine agentSubdir_bind_ends (fun hagent hsid => agentSubdir_bind_ends (fun _ _ =>
    agentSubdir_bind_ends (fun _ _ => ?_) fun _ => hs.kept) fun _ => hs.kept) fun _ => hs.kept
  dsimp only
  refine fileExists_ends ?_
  split
  · next hin =>
    refine fileExists_ends ?_
    rw [if_pos hin]
    refine look_ends rfl fun _ s₁ hf => ?_
    have hs₁ := hs.files hf
    refine rename_ends (fun e => hs₁.kept) fun s₂ hmove => Prog.ends_ret ?_
    exact hs₁.shift (hs.shows.at_inbox (dotted_jsonName hok) hin) (k := .archive) (fun _ h => by cases h) hmove
  · next hin =>
    refine fileExists_ends ?_
    split
    · next hproc =>
      refine sortedGlob_ends fun names hnames => ?_
      have hclaims : ∀ name ∈ names, startsWith ".claim-" name = true ∧
          (s.files.get? ⟨.box sid agent .processing, name⟩).isSome = true :=
        fun name hname => ⟨claim_of_globMatch ((hnames name).mp hname).1, ((hnames name).mp hname).2⟩
      refine (anyForeign_shown hs owner names hclaims).bind ?_ fun e t ht => ht.1 ▸ hs.kept
      rintro b t ⟨rfl, _, hret, hb⟩
      cases hret
      cases b with
      | true => exact Prog.ends_raise hs.kept
      | false =>
        refine absurd ⟨⟨hok, hagent, hsid⟩, ?_, hproc, fun name f j hmatch hf hdata => ?_⟩ hst
        · exact Option.not_isSome_iff_eq_none.mp hin
        · exact hb.mp rfl name ((hnames name).mpr ⟨hmatch, by rw [hf]; rfl⟩) f j hf hdata
    · exact Prog.ends_raise hs.kept

end Keeping

end AiMeshChat.Mailbox.Keeping
