import AiMeshChat.Mailbox.Reader

/-!
# Replays of a send

A send whose message identifier is known already is a replay: it looks for the
earlier copy in the recipients' inboxes and in the history, compares the payload,
and writes the message into every recipient's inbox that lacks it. The place a
copy has been moved to since is not looked at.

So a replay leaves the recipients' mailboxes as they are exactly when all of them
still have the message in the inbox (`replay_changes_nothing_iff`); a recipient
that has read it gets it a second time (`replay_redelivers`).
-/

namespace AiMeshChat.Mailbox

open Lib

namespace Replay

/-- The disk does not fail. -/
def NoFault (c : Choice) : Prop := c.fault = false

/-- Only directories were added. -/
def Looked (s s' : Disk) : Prop := s'.files = s.files ∧ ∀ d ∈ s.dirs, d ∈ s'.dirs

theorem Looked.refl (s : Disk) : Looked s s := ⟨rfl, fun _ h => h⟩

theorem Looked.trans {s₁ s₂ s₃ : Disk} (h : Looked s₁ s₂) (h' : Looked s₂ s₃) : Looked s₁ s₃ :=
  ⟨h'.1.trans h.1, fun d hd => h'.2 d (h.2 d hd)⟩

variable {s s' : Disk} {α : Type} {p : Call α} {Q : Except PyErr α → Disk → Prop}
  {f : Unit → Call α} {sid mid : String}

theorem looked_perform {i : ℕ} {o : Op} {c : Choice} {a : Ans o} (ho : o.looks = true)
    (h : s.perform i o c = some (a, s')) : Looked s s' := by
  cases o <;> simp only [Op.looks, Bool.false_eq_true] at ho <;> simp only [Disk.perform] at h
  case read q => obtain ⟨rfl, -⟩ := Disk.perform_read (i := i) (c := c) h; exact .refl _
  case stat q => split at h <;> cases h <;> exact .refl _
  case mkdir d =>
    cases h
    split_ifs with hd
    · exact .refl s
    · exact ⟨rfl, fun d' hd' => List.mem_cons_of_mem _ hd'⟩
  case flock n => split_ifs at h; cases h; exact ⟨rfl, fun _ h => h⟩
  all_goals cases h; exact ⟨rfl, fun _ h => h⟩

theorem looked_of_only (hp : p.Only fun o => o.looks = true) (s : Disk) :
    p.Ends world i NoFault s fun _ s' => Looked s s' :=
  hp.ends Looked.refl (fun _ _ _ => Looked.trans) (fun _ _ _ _ _ ho _ h => looked_perform ho h) s

variable {i : ℕ} {P : Choice → Prop} {s : Disk}

/-! ## Small steps -/

theorem fileExists_ends {p : MPath} {f : Bool → Call α}
    (h : (f (s.files.get? p).isSome).Ends world i P s Q) :
    (fileExists p >>= f).Ends world i P s Q :=
  Prog.ends_op_bind fun c a s₁ _ hp => by cases hp; exact h

theorem isDir_ends {d : Dir} {f : Bool → Call α}
    (h : (f (decide (d ∈ s.dirs))).Ends world i P s Q) :
    (isDir d >>= f).Ends world i P s Q :=
  Prog.ends_op_bind fun c a s₁ _ hp => by cases hp; exact h

theorem readBytes_ends {α : Type} {p : MPath} {f : Except OsErr Data → Call α}
    {Q : Except PyErr α → Disk → Prop}
    (h : (f (match s.files.get? p with
      | none => .error .notFound
      | some x => .ok x.data)).Ends world i NoFault s Q) :
    (readBytes p >>= f).Ends world i NoFault s Q :=
  Prog.ends_op_bind fun c a s₁ hc hp => by
    obtain ⟨rfl, ⟨hf, -⟩ | ⟨hn, rfl⟩ | ⟨x, hx, rfl⟩⟩ := Disk.perform_read (i := i) hp
    · rw [NoFault] at hc; rw [hc] at hf; cases hf
    · simpa only [hn] using h
    · simpa only [hx] using h

theorem require_bind_ends {c : Bool} {e : PyErr} (h : c = true → (f ()).Ends world i P s Q)
    (herr : Q (.error e) s) : (require c e >>= f).Ends world i P s Q := by
  unfold require
  split
  · next hc => exact h hc
  · exact Prog.ends_raise herr

theorem agentSubdir_bind_ends {a : String} {b : Box} {f : Dir → Call α}
    (h : agentIdOk a = true → agentIdOk sid = true → (f (.box sid a b)).Ends world i P s Q)
    (herr : ∀ e, Q (.error e) s) : (agentSubdir sid a b >>= f).Ends world i P s Q := by
  rw [agentSubdir_bind]
  exact require_bind_ends (fun ha => require_bind_ends (h ha) (herr _)) (herr _)

theorem agentSubdir_ready_ends {a : String} {b : Box} {f : Dir → Call α} (ha : agentIdOk a = true)
    (hs : agentIdOk sid = true) (h : (f (.box sid a b)).Ends world i P s Q) :
    (agentSubdir sid a b >>= f).Ends world i P s Q := by
  rw [agentSubdir_bind]
  simpa only [validateAgentId, require, ha, hs, if_true, Prog.ret_bind] using h

/-! ## The checks -/

/-- The recipients of the send in the state `s`. -/
def recipientsIn (s : Disk) (a : SendArgs) : List String :=
  match s.files.get? ⟨.session a.sessionId, "session.json"⟩ with
  | some ⟨.json info, _, _⟩ => recipientsOf a (rosterOf info)
  | _ => []

/-- A recipient that a send can write to. -/
def Ready (s : Disk) (sid rid : String) : Prop :=
  agentIdOk rid = true ∧ agentIdOk sid = true ∧ Dir.box sid rid .inbox ∈ s.dirs

theorem readSession_ends (sid : String) :
    (readSession sid).Ends world i NoFault s fun r s' => s' = s ∧ ∀ info, r = .ok (some info) →
      ∃ t n, s.files.get? ⟨.session sid, "session.json"⟩ = some ⟨.json info, t, n⟩ := by
  have hnot {P : Json → Prop} : ∀ info, (.ok none : Except PyErr (Option Json)) = .ok (some info) →
      P info := by
    intro info h
    cases h
  refine require_bind_ends (fun _ => fileExists_ends ?_) ⟨rfl, fun info h => by cases h⟩
  split
  · refine readBytes_ends ?_
    cases hf : s.files.get? ⟨.session sid, "session.json"⟩ with
    | none => exact Prog.ends_ret ⟨rfl, hnot⟩
    | some x =>
      obtain ⟨x, t, n⟩ := x
      cases x with
      | junk => exact Prog.ends_ret ⟨rfl, hnot⟩
      | json j => exact Prog.ends_ret ⟨rfl, fun info h => by cases h; exact ⟨t, n, rfl⟩⟩
  · exact Prog.ends_ret ⟨rfl, hnot⟩

theorem checkInboxes_ends (sid : String) (rs : List String) :
    (checkInboxes sid rs).Ends world i NoFault s fun r s' =>
      s' = s ∧ (r = .ok () → ∀ rid ∈ rs, Ready s sid rid) := by
  induction rs with
  | nil => exact Prog.ends_ret ⟨rfl, fun _ _ h => by cases h⟩
  | cons rid rest ih =>
    refine agentSubdir_bind_ends (fun hr hs => ?_) fun _ => ⟨rfl, nofun⟩
    refine isDir_ends (require_bind_ends (fun hd => ?_) ⟨rfl, nofun⟩)
    refine ih.mono fun r s' ⟨hs', h⟩ => ⟨hs', fun hok rid' hmem => ?_⟩
    rcases List.mem_cons.mp hmem with rfl | hmem
    · exact ⟨hr, hs, by simpa using hd⟩
    · exact h hok rid' hmem

theorem same_of_pure (hp : p.Only fun _ => False) (s : Disk) :
    p.Ends world i P s fun _ s' => s' = s :=
  (hp.ends (I := fun s s' => s' = s) (fun _ => rfl) (fun _ _ _ h h' => h'.trans h)
    (fun _ _ _ _ _ ho => ho.elim) s)

theorem checkSend_ends (a : SendArgs) :
    (checkSend a).Ends world i NoFault s fun r s' => s' = s ∧ ∀ x, r = .ok x →
      ∃ info t n, s.files.get? ⟨.session a.sessionId, "session.json"⟩ = some ⟨.json info, t, n⟩ ∧
        a.fromId ∈ rosterOf info ∧ x.1 = recipientsOf a (rosterOf info) ∧
        ∀ rid ∈ x.1, Ready s a.sessionId rid := by
  refine require_bind_ends (fun _ => isDir_ends (require_bind_ends (fun _ => ?_) ⟨rfl, nofun⟩))
    ⟨rfl, nofun⟩
  refine (readSession_ends a.sessionId).bind ?_ (fun e s₁ h => ⟨h.1, nofun⟩)
  rintro info s₁ ⟨rfl, hinfo⟩
  refine require_bind_ends (fun hnull => ?_) ⟨rfl, nofun⟩
  -- the metadata is there, so it is the content of `session.json`
  obtain ⟨j, rfl⟩ : ∃ j, info = some j := by
    cases info with
    | none => exact absurd hnull (by decide)
    | some j => exact ⟨j, rfl⟩
  obtain ⟨t, n, hf⟩ := hinfo j rfl
  refine require_bind_ends (fun _ => require_bind_ends (fun hsender => ?_) ⟨rfl, nofun⟩) ⟨rfl, nofun⟩
  refine (same_of_pure (attachmentRefs_only _) s₁).bind ?_ (fun e s₂ h => ⟨h, nofun⟩)
  rintro refs s₂ rfl
  refine require_bind_ends (fun _ => ?_) ⟨rfl, nofun⟩
  refine (checkInboxes_ends a.sessionId _).bind ?_ (fun e s₃ h => ⟨h.1, nofun⟩)
  rintro _ s₃ ⟨rfl, hready⟩
  refine require_bind_ends (fun _ => require_bind_ends (fun _ => ?_) ⟨rfl, nofun⟩) ⟨rfl, nofun⟩
  refine Prog.ends_ret ⟨rfl, fun x hx => ?_⟩
  cases hx
  exact ⟨j, t, n, hf, of_decide_eq_true hsender, rfl, hready rfl⟩

/-! ## The search for the earlier copy -/

theorem loadOrEmpty_ends (p : MPath) :
    (loadOrEmpty p).Ends world i NoFault s fun _ s' => s' = s := by
  refine readBytes_ends ?_
  split <;> exact Prog.ends_ret rfl

theorem findInInboxes_ends (sid mid : String) (rs : List String) :
    ∀ found, (findInInboxes sid mid rs found).Ends world i NoFault s fun _ s' => s' = s := by
  induction rs with
  | nil => intro found; exact Prog.ends_ret rfl
  | cons rid rest ih =>
    intro found
    refine agentSubdir_bind_ends (fun _ _ => fileExists_ends ?_) fun _ => rfl
    split
    · refine (loadOrEmpty_ends _).bind ?_ (fun _ _ h => h)
      rintro j s₁ rfl
      exact ih _
    · exact ih _

/-- The recipient has the message in its inbox. -/
def InInbox (s : Disk) (sid mid rid : String) : Prop :=
  (s.files.get? ⟨.box sid rid .inbox, jsonName mid⟩).isSome = true

theorem findInInboxes_ne_none (rs : List String) :
    ∀ found, (found ≠ none ∨ ∃ rid ∈ rs, InInbox s sid mid rid) →
      (findInInboxes sid mid rs found).Ends world i NoFault s fun r _ => r ≠ .ok none := by
  induction rs with
  | nil =>
    intro found h
    refine Prog.ends_ret fun hr => ?_
    rcases h with h | ⟨rid, hrid, -⟩
    · exact h (by cases hr; rfl)
    · cases hrid
  | cons rid rest ih =>
    intro found h
    refine agentSubdir_bind_ends (fun _ _ => fileExists_ends ?_) fun _ h => by cases h
    split
    · refine (loadOrEmpty_ends _).bind ?_ (fun _ _ _ h => by cases h)
      rintro j s₁ rfl
      exact ih _ (.inl fun h => by cases h)
    · next hcond =>
      refine ih found ?_
      rcases h with h | ⟨rid', hrid', hin⟩
      · exact .inl h
      · rcases List.mem_cons.mp hrid' with rfl | hrid'
        · left
          rintro rfl
          exact hcond (by rw [InInbox] at hin; simp [hin])
        · exact .inr ⟨rid', hrid', hin⟩

theorem findExisting_ends (rs : List String) :
    (findExisting sid mid rs).Ends world i NoFault s fun r s' => s' = s ∧
      ((∃ rid ∈ rs, InInbox s sid mid rid) ∨
        (s.files.get? ⟨.history sid, jsonName mid⟩).isSome = true → r ≠ .ok none) := by
  intro r s' hr
  rcases Prog.runs_bind.mp hr with ⟨e, s₁, h₁, h₂⟩ | ⟨e, h₁, rfl⟩
  · obtain rfl := findInInboxes_ends sid mid rs none _ _ h₁
    cases e with
    | some e =>
      obtain ⟨rfl, rfl⟩ := Prog.runs_ret.mp h₂
      exact ⟨rfl, fun _ h => by cases h⟩
    | none =>
      refine fileExists_ends (Q := fun r s' => s' = s₁ ∧ (_ → r ≠ .ok none)) ?_ r s' h₂
      split
      · refine (loadOrEmpty_ends _).bind ?_ (fun _ _ h => ⟨h, fun _ h' => by cases h'⟩)
        rintro j s₂ rfl
        exact Prog.ends_ret ⟨rfl, fun _ h => by cases h⟩
      · next hno =>
        refine Prog.ends_ret ⟨rfl, fun h => ?_⟩
        rcases h with h | h
        · exact absurd rfl (findInInboxes_ne_none rs none (.inr h) _ _ h₁)
        · exact absurd h hno
  · exact ⟨findInInboxes_ends sid mid rs none _ _ h₁, fun _ h => by cases h⟩

/-! ## The backfill -/

theorem tmpName_ne_jsonName (mid : String) : tmpName mid ≠ jsonName mid := by
  intro h
  have := congrArg String.length h
  simp only [tmpName, jsonName, String.length_append] at this
  have h5 : ".tmp-".length = 5 := by decide
  omega

theorem write_bind_ends {p : MPath} {x : Data} (hd : p.dir ∈ s.dirs)
    (h : ∀ t, (f ()).Ends world i NoFault (s.write p x t) Q) :
    (write p x >>= f).Ends world i NoFault s Q := by
  refine Prog.Ends.bind (M := fun r s' => r = .ok () ∧ ∃ t, s' = s.write p x t) ?_
    (fun u s₁ hM => ?_) (fun e s₁ hM => ?_)
  · refine Prog.ends_op_bind fun c a s₁ hc hp => ?_
    have hc : c.fault = false := hc
    simp only [world, Disk.perform, hc, hd, not_true_eq_false, if_false, Bool.false_eq_true] at hp
    cases hp
    exact Prog.ends_ret ⟨rfl, _, rfl⟩
  · obtain ⟨-, t, rfl⟩ := hM
    exact h t
  · cases hM.1

theorem replace_bind_ends {src dst : MPath} (hs : (s.files.get? src).isSome = true)
    (hd : dst.dir ∈ s.dirs)
    (h : (f ()).Ends world i NoFault { s with files := s.files.move src dst } Q) :
    (replace src dst >>= f).Ends world i NoFault s Q := by
  refine Prog.Ends.bind
    (M := fun r s' => r = .ok () ∧ s' = { s with files := s.files.move src dst }) ?_
    (fun u s₁ hM => ?_) (fun e s₁ hM => ?_)
  · refine Prog.ends_op_bind fun c a s₁ hc hp => ?_
    have hc : c.fault = false := hc
    have hn : (s.files.get? src).isNone = false := by
      cases hsrc : s.files.get? src with
      | none => rw [hsrc] at hs; cases hs
      | some f => rfl
    simp only [world, Disk.perform, hc, hd, hn, not_true_eq_false, if_false, Bool.false_eq_true,
      or_self] at hp
    cases hp
    exact Prog.ends_ret ⟨rfl, rfl⟩
  · obtain ⟨-, rfl⟩ := hM
    exact h
  · cases hM.1

/-- The state after one inbox was written. -/
def written (s : Disk) (sid mid rid : String) (x : Data) (t : ℕ) : Disk :=
  { s with
    files := (s.write ⟨.box sid rid .inbox, tmpName mid⟩ x t).files.move
      ⟨.box sid rid .inbox, tmpName mid⟩ ⟨.box sid rid .inbox, jsonName mid⟩ }

theorem written_get? (s : Disk) (sid mid rid : String) (x : Data) (t : ℕ) (p : MPath) :
    ∃ f, (written s sid mid rid x t).files.get? p =
      if p = ⟨.box sid rid .inbox, jsonName mid⟩ then some f
      else if p = ⟨.box sid rid .inbox, tmpName mid⟩ then none else s.files.get? p := by
  obtain ⟨n, hn⟩ := Files.get?_write s.files ⟨.box sid rid .inbox, tmpName mid⟩ x t
  have htmp := hn ⟨.box sid rid .inbox, tmpName mid⟩
  rw [if_pos rfl] at htmp
  refine ⟨⟨x, t, n⟩, (Files.get?_move htmp _ p).trans ?_⟩
  rw [hn]
  split_ifs <;> rfl

theorem written_inInbox_self (s : Disk) (sid mid rid : String) (x : Data) (t : ℕ) :
    InInbox (written s sid mid rid x t) sid mid rid := by
  obtain ⟨f, hf⟩ := written_get? s sid mid rid x t ⟨.box sid rid .inbox, jsonName mid⟩
  rw [InInbox, hf, if_pos rfl]
  rfl

theorem written_inInbox (s : Disk) (sid mid rid rid' : String) (x : Data) (t : ℕ)
    (h : InInbox s sid mid rid') : InInbox (written s sid mid rid x t) sid mid rid' := by
  obtain ⟨f, hf⟩ := written_get? s sid mid rid x t ⟨.box sid rid' .inbox, jsonName mid⟩
  rw [InInbox, hf]
  split_ifs with h1 h2
  · rfl
  · exact absurd (congrArg Path.name h2).symm (tmpName_ne_jsonName mid)
  · exact h

theorem written_history (s : Disk) (sid mid rid : String) (x : Data) (t : ℕ) (p : MPath)
    (hp : p.dir = .history sid) : (written s sid mid rid x t).files.get? p = s.files.get? p := by
  obtain ⟨f, hf⟩ := written_get? s sid mid rid x t p
  rw [hf, if_neg (fun h => by rw [h] at hp; cases hp), if_neg (fun h => by rw [h] at hp; cases hp)]

theorem backfill_ends (sid mid : String) (existing : Json) (rs : List String) :
    ∀ s : Disk, (∀ rid ∈ rs, Ready s sid rid) →
      (backfill sid mid existing rs).Ends world i NoFault s fun r s' => (∃ n, r = .ok n) ∧
        ((∀ rid ∈ rs, InInbox s sid mid rid) → s' = s) ∧
        (∀ rid, InInbox s sid mid rid → InInbox s' sid mid rid) ∧
        (∀ rid ∈ rs, InInbox s' sid mid rid) ∧
        ∀ p : MPath, p.dir = .history sid → s'.files.get? p = s.files.get? p := by
  induction rs with
  | nil =>
    intro s _
    refine Prog.ends_ret ⟨⟨0, rfl⟩, fun _ => rfl, fun _ h => h, fun rid hrid => ?_, fun _ _ => rfl⟩
    cases hrid
  | cons rid rest ih =>
    intro s hready
    obtain ⟨hrid, hsid, hdir⟩ := hready rid (by simp)
    have hrest : ∀ rid' ∈ rest, Ready s sid rid' := fun rid' h => hready rid' (by simp [h])
    refine agentSubdir_ready_ends hrid hsid (fileExists_ends ?_)
    split
    · next hin =>
      refine (ih s hrest).mono ?_
      rintro r s' ⟨hn, hsame, hmono, hall, hhist⟩
      refine ⟨hn, ?_, hmono, ?_, hhist⟩
      · exact fun h => hsame fun rid' hr => h rid' (by simp [hr])
      · intro rid' hr
        rcases List.mem_cons.mp hr with rfl | hr
        · exact hmono rid' hin
        · exact hall rid' hr
    · next hin =>
      refine write_bind_ends hdir fun t => replace_bind_ends ?_ hdir ?_
      · obtain ⟨n, hn⟩ := Files.get?_write_self s.files ⟨.box sid rid .inbox, tmpName mid⟩
          (.json existing) t
        rw [Disk.write, hn]
        rfl
      · refine (ih (written s sid mid rid (.json existing) t) hrest).bind ?_ ?_
        · rintro n s' ⟨-, -, hmono, hall, hhist⟩
          refine Prog.ends_ret ⟨⟨_, rfl⟩, fun h => absurd (h rid (by simp)) hin, ?_, ?_, ?_⟩
          · exact fun rid' h => hmono rid' (written_inInbox _ _ _ _ _ _ _ h)
          · intro rid' hr
            rcases List.mem_cons.mp hr with rfl | hr
            · exact hmono rid' (written_inInbox_self _ _ _ _ _ _)
            · exact hall rid' hr
          · exact fun p hp => (hhist p hp).trans (written_history _ _ _ _ _ _ p hp)
        · rintro e s' ⟨⟨n, hn⟩, -⟩
          cases hn

/-! ## A new message -/

theorem inInbox_sendOp (hm : msgIdOk mid = true) {o : Op} (ho : SendOp sid o) {c : Choice}
    {a : Ans o} (h : s.perform i o c = some (a, s')) {rid : String}
    (hin : InInbox s sid mid rid) : InInbox s' sid mid rid := by
  have hplain : (⟨.box sid rid .inbox, jsonName mid⟩ : MPath) ∉ o.targets →
      InInbox s' sid mid rid := by
    intro ht
    rwa [InInbox, Disk.perform_get? h ht]
  cases ho with
  | look ho => exact hplain (by cases o <;> simp_all [Op.looks, Op.targets])
  | tmp hp =>
    refine hplain fun ht => ?_
    simp only [Op.targets, List.mem_cons, List.not_mem_nil, or_false] at ht
    rw [← ht] at hp
    exact jsonName_ne_of_dotted hm (startsWith_trans (by decide) hp) rfl
  | tmpNew hp =>
    refine hplain fun ht => ?_
    simp only [Op.targets, List.mem_cons, List.not_mem_nil, or_false] at ht
    rw [← ht] at hp
    exact jsonName_ne_of_dotted hm (startsWith_trans (by decide) hp) rfl
  | publish agent mid' =>
    rcases Disk.perform_replace h with ⟨e, -, rfl⟩ | ⟨-, ⟨f, hf⟩, rfl⟩
    · exact hin
    · rw [InInbox, Files.get?_move hf]
      split_ifs with h1 h2
      · rfl
      · exact absurd (congrArg Path.name h2).symm (tmpName_ne_jsonName_of_ok hm)
      · exact hin
  | openCursor => exact hplain (by simp [Op.targets])
  | session a b => exact hplain (by simp [Op.targets])
  | history a b => exact hplain (by simp [Op.targets])

theorem keeps_inbox (hm : msgIdOk mid = true) (hp : p.Only (SendOp sid)) (s : Disk) :
    p.Ends world i NoFault s fun _ s' =>
      ∀ rid, InInbox s sid mid rid → InInbox s' sid mid rid :=
  hp.ends (I := fun s s' => ∀ rid, InInbox s sid mid rid → InInbox s' sid mid rid)
    (fun _ _ h => h) (fun _ _ _ h h' rid hin => h' rid (h rid hin))
    (fun _ _ _ _ _ ho _ h _ hin => inInbox_sendOp hm ho h hin) s

theorem replace_ends {src dst : MPath} (s : Disk) :
    (replace src dst).Ends world i NoFault s fun r s' =>
      r = .ok () → (s'.files.get? dst).isSome = true := by
  refine Prog.ends_op_bind fun c a s₁ _ hp => ?_
  rcases Disk.perform_replace (i := i) hp with ⟨e, rfl, -⟩ | ⟨rfl, ⟨f, hf⟩, rfl⟩
  · exact Prog.ends_raise nofun
  · refine Prog.ends_ret fun _ => ?_
    rw [Files.get?_move hf, if_pos rfl]
    rfl

theorem publish_ends (hm : msgIdOk mid = true) (payload : Json)
    (rs : List String) : ∀ s : Disk, (publish sid mid payload rs).Ends world i NoFault s
      fun r s' => r = .ok () → ∀ rid ∈ rs, InInbox s' sid mid rid := by
  induction rs with
  | nil => intro s; exact Prog.ends_ret fun _ _ h => by cases h
  | cons rid rest ih =>
    intro s
    refine agentSubdir_bind_ends (fun _ _ => ?_) fun _ => nofun
    refine Prog.Ends.bind (M := fun _ _ => True) (fun _ _ _ => trivial) (fun _ s₁ _ => ?_)
      (fun _ _ _ => nofun)
    refine (replace_ends s₁).bind (fun _ s₂ h => ?_) (fun _ _ _ => nofun)
    intro r s' hr hok rid' hrid'
    rcases List.mem_cons.mp hrid' with rfl | hrid'
    · exact keeps_inbox hm (publish_sendOp sid mid payload rest) s₂ r s' hr _ (h rfl)
    · exact ih s₂ r s' hr hok rid' hrid'

theorem sendNew_ends (a : SendArgs) (hm : msgIdOk mid = true) (rs : List String)
    (refs : List AttachmentRef) (s : Disk) :
    (sendNew a mid rs refs).Ends world i NoFault s fun r s' => ∀ t, r = .ok t →
      ∀ rid ∈ rs, InInbox s' a.sessionId mid rid := by
  refine Prog.ends_op_bind fun c now s₁ _ _ => ?_
  refine Prog.Ends.bind (M := fun _ _ => True) (fun _ _ _ => trivial) (fun _ s₂ _ => ?_)
    (fun _ _ _ => nofun)
  refine (publish_ends hm _ rs s₂).bind (fun _ s₃ h => ?_) (fun _ _ _ => nofun)
  -- what comes after the first publication takes nothing out of an inbox again
  refine (keeps_inbox hm (Prog.Only.bind (advanceCursor_sendOp _) fun cursor =>
    (publish_sendOp _ mid _ rs).bind fun _ => (appendHistory_sendOp _ _).bind fun _ => ?_) s₃).mono
    fun r s' hr t _ rid hrid => hr rid (h rfl rid hrid)
  simp

/-! ## The replay -/

/-- What `append_history` leaves alone. -/
def OnlyHistory (sid : String) (s s' : Disk) : Prop :=
  ∀ p : MPath, p.dir ≠ .history sid → s'.files.get? p = s.files.get? p

theorem backfillHistory_ends (sid mid : String) (existing : Json) (s : Disk) :
    (backfillHistory sid mid existing).Ends world i NoFault s fun r s' =>
      OnlyHistory sid s s' ∧
      ((s.files.get? ⟨.history sid, jsonName mid⟩).isSome = true → s' = s ∧ r = .ok ()) := by
  refine fileExists_ends ?_
  split
  · exact Prog.ends_ret ⟨fun _ _ => rfl, fun _ => ⟨rfl, rfl⟩⟩
  · next hno =>
    have happ := (appendHistory_historyOp sid existing).ends (W := world) (i := i) (P := NoFault)
      (I := OnlyHistory sid) (fun _ _ _ => rfl)
      (fun _ _ _ h h' p hp => (h' p hp).trans (h p hp)) (fun o c a s s₁ ho _ h p hp => ?_) s
    · exact happ.bind (fun _ _ h => Prog.ends_ret ⟨h, fun hh => absurd hh hno⟩)
        (fun _ _ h => ⟨h, fun hh => absurd hh hno⟩)
    · refine Disk.perform_get? (i := i) h fun ht => hp ?_
      cases ho with
      | look ho => cases o <;> simp_all [Op.looks, Op.targets]
      | draft mid x =>
        simp only [Op.targets, List.mem_cons, List.not_mem_nil, or_false] at ht
        rw [ht]
      | record a b =>
        simp only [Op.targets, List.mem_cons, List.not_mem_nil, or_false] at ht
        rcases ht with rfl | rfl <;> rfl

/-- The mailbox of the recipient is as before. -/
def SameMailbox (sid rid : String) (s s' : Disk) : Prop :=
  ∀ b name, s'.files.get? ⟨.box sid rid b, name⟩ = s.files.get? ⟨.box sid rid b, name⟩

theorem OnlyHistory.sameMailbox (h : OnlyHistory sid s s')
    (rid : String) : SameMailbox sid rid s s' := fun b name => h ⟨.box sid rid b, name⟩ nofun

theorem replay_ends (a : SendArgs) (mid : String) {rs : List String} (refs : List AttachmentRef)
    (existing : Json) (hready : ∀ rid ∈ rs, Ready s a.sessionId rid) :
    (replay a mid rs refs existing).Ends world i NoFault s fun r s' =>
      (∀ t, r = .ok t → (∀ rid ∈ rs, InInbox s' a.sessionId mid rid) ∧
        ((∀ rid ∈ rs, InInbox s a.sessionId mid rid) → OnlyHistory a.sessionId s s')) ∧
      ((s.files.get? ⟨.history a.sessionId, jsonName mid⟩).isSome = true →
        ∀ e, r = .error e → s' = s) := by
  refine require_bind_ends (fun _ => require_bind_ends (fun _ => ?_) ⟨nofun, fun _ _ _ => rfl⟩)
    ⟨nofun, fun _ _ _ => rfl⟩
  refine (backfill_ends a.sessionId mid existing rs s hready).bind ?_ ?_
  · rintro n s₁ ⟨-, hsame, -, hall, hhist⟩
    refine (backfillHistory_ends a.sessionId mid existing s₁).bind ?_ ?_
    · rintro _ s₂ ⟨honly, -⟩
      refine Prog.ends_ret ⟨fun t _ => ⟨fun rid hrid => ?_, fun h => ?_⟩, fun _ _ => nofun⟩
      · rw [InInbox, honly.sameMailbox rid]
        exact hall rid hrid
      · rwa [hsame h] at honly
    · rintro e s₂ ⟨-, hok⟩
      refine ⟨nofun, fun hh _ _ => ?_⟩
      rw [← hhist _ rfl] at hh
      cases (hok hh).2
  · rintro e s₁ ⟨⟨n, hn⟩, -⟩
    cases hn

/-- **When a replay changes nothing.**  Let a send with the identifier `mid` run
alone from any state, on a disk that does not fail. If it returns, then the
recipients' mailboxes are as before exactly when every recipient had the message
in its inbox. If it raises although the message is recorded, nothing changed. -/
theorem replay_changes_nothing_iff (s : Disk) (a : SendArgs) (mid : String)
    (hmid : a.msgId = some mid) (i fuel : ℕ) (r : Except PyErr String) (s' : Disk)
    (hrun : Prog.Runs world i NoFault (send fuel a) s r s') :
    (∀ t, r = .ok t →
      ((∀ rid ∈ recipientsIn s a, SameMailbox a.sessionId rid s s') ↔
        ∀ rid ∈ recipientsIn s a, InInbox s a.sessionId mid rid)) ∧
    ((s.files.get? ⟨.history a.sessionId, jsonName mid⟩).isSome = true →
      ∀ e, r = .error e → s' = s) := by
  revert r s'
  refine (checkSend_ends a).bind ?_ ?_
  · rintro ⟨rs, refs⟩ s₁ ⟨rfl, hrs⟩
    obtain ⟨info, t, n, hf, -, hrec, hready⟩ := hrs _ rfl
    replace hrec : rs = recipientsIn s₁ a := by rw [recipientsIn, hf]; exact hrec
    simp only at hready
    simp only [hmid, ← hrec]
    refine require_bind_ends (fun hm => ?_) ⟨(fun t h => by cases h), fun _ _ _ => rfl⟩
    refine (findExisting_ends rs).bind ?_ ?_
    · rintro existing s₂ ⟨rfl, hfound⟩
      -- after the run all recipients have the message, so an unchanged mailbox had it before
      have hafter {s' : Disk} (h' : ∀ rid ∈ rs, InInbox s' a.sessionId mid rid)
          (hsame : ∀ rid ∈ rs, SameMailbox a.sessionId rid s₂ s') :
          ∀ rid ∈ rs, InInbox s₂ a.sessionId mid rid := by
        intro rid hrid
        rw [InInbox, ← hsame rid hrid]
        exact h' rid hrid
      cases existing with
      | some existing =>
        refine (replay_ends a mid refs existing hready).mono ?_
        rintro r s' ⟨hok, herr⟩
        refine ⟨fun t ht => ?_, herr⟩
        obtain ⟨hall, honly⟩ := hok t ht
        exact ⟨hafter hall, fun h rid _ => (honly h).sameMailbox rid⟩
      | none =>
        have hnone : ¬ ∃ rid ∈ rs, InInbox s₂ a.sessionId mid rid :=
          fun h => hfound (.inl h) rfl
        refine (sendNew_ends a hm rs refs s₂).mono fun r s' hok => ⟨fun t ht => ?_, fun hh => ?_⟩
        · refine ⟨hafter (hok t ht), fun h rid hrid => ?_⟩
          exact absurd ⟨rid, hrid, h rid hrid⟩ hnone
        · exact absurd rfl (hfound (.inr hh))
    · rintro e s₂ ⟨rfl, -⟩
      exact ⟨(fun t h => by cases h), fun _ _ _ => rfl⟩
  · rintro e s₁ ⟨rfl, -⟩
    exact ⟨(fun t h => by cases h), fun _ _ _ => rfl⟩

/-! ## Two runs -/

/-- The send, the recipient's `read` and `finalize`, and the same send again. -/
def sendTwice : ℕ → Option Request
  | 0 => some (.send notice)
  | 1 => some (.read { sessionId := "s", agentId := "b", owner := "w" })
  | 2 => some (.finalize "s" "b" "m" "w")
  | 3 => some (.send notice)
  | _ => none

/-- What a call has reported. -/
def reported (p : Pool Op Ans Disk PyErr Result) (i : ℕ) : Option String :=
  match p.procs i with
  | .ret (.text t) => some t
  | _ => none

/-- The disk after the send. -/
def afterSend : Disk :=
  (Pool.run world (pool 2 (newSession "s" "a" ["b"] 0) sendTwice) (steps 0 25)).shared

theorem replay_changes_nothing_unread : ∃ t s',
    Prog.Runs world 1 NoFault (send 1 notice) afterSend (.ok t) s' ∧
    InInbox afterSend "s" "m" "b" ∧ recipientsIn afterSend notice = ["b"] ∧
    ((∀ rid ∈ recipientsIn afterSend notice, SameMailbox "s" rid afterSend s') ↔
      ∀ rid ∈ recipientsIn afterSend notice, InInbox afterSend "s" "m" rid) := by
  have hok : ((Prog.exec world 1 {} 20 (send 1 notice) afterSend).map (·.1.isOk)) = some true := by
    decide +kernel
  cases hx : Prog.exec world 1 {} 20 (send 1 notice) afterSend with
  | none => rw [hx] at hok; cases hok
  | some x =>
    obtain ⟨r, s'⟩ := x
    rw [hx] at hok
    cases r with
    | error e => cases hok
    | ok t =>
      have hrun : Prog.Runs world 1 NoFault (send 1 notice) afterSend (.ok t) s' :=
        Prog.runs_of_exec (c := {}) (show NoFault {} from rfl) hx
      exact ⟨t, s', hrun, by unfold InInbox; decide +kernel, by decide +kernel,
        (replay_changes_nothing_iff afterSend notice "m" rfl 1 1 _ s' hrun).1 t rfl⟩

/-- The four calls one after the other. -/
def oneAfterTheOther : List (Event Choice) := steps 0 25 ++ steps 1 13 ++ steps 2 7 ++ steps 3 11

/-- **A replay delivers a consumed message again.**  The send has completed, its
message has been read and archived; the same send puts it back into the inbox. -/
theorem replay_redelivers :
    reported (Pool.run world (pool 2 (newSession "s" "a" ["b"] 0) sendTwice)
      (oneAfterTheOther.take 45)) 0 = some "sent → b/inbox/m.json" ∧
    ((Pool.run world (pool 2 (newSession "s" "a" ["b"] 0) sendTwice)
      (oneAfterTheOther.take 45)).shared.files.get?
        ⟨.box "s" "b" .archive, "m.json"⟩).isSome = true ∧
    ((Pool.run world (pool 2 (newSession "s" "a" ["b"] 0) sendTwice)
      (oneAfterTheOther.take 45)).shared.files.get?
        ⟨.box "s" "b" .inbox, "m.json"⟩).isSome = false ∧
    reported (Pool.run world (pool 2 (newSession "s" "a" ["b"] 0) sendTwice) oneAfterTheOther) 3 =
      some "sent → b/inbox/m.json (idempotent replay, backfilled 1)" ∧
    ((Pool.run world (pool 2 (newSession "s" "a" ["b"] 0) sendTwice)
      oneAfterTheOther).shared.files.get? ⟨.box "s" "b" .inbox, "m.json"⟩).isSome = true := by
  refine ⟨?_, ?_, ?_, ?_, ?_⟩ <;> decide +kernel

end Replay

end AiMeshChat.Mailbox
