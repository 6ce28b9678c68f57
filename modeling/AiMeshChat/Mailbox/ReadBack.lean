import AiMeshChat.Mailbox.Readable
import AiMeshChat.Mailbox.Recovery
import Mathlib.Data.Finset.Card
import Mathlib.Data.Finset.Range

/-!
# What was sent can be read

Any number of calls of `session_init`, `send`, `read`, `finalize`, `release` and
`recover_stale` run interleaved, and any of them may crash. No `read` puts a message
away as corrupt, and in every state they reach `read` returns the oldest message of an
inbox as it lies there, if nobody has claimed it (`sent_can_be_read`). That message is
the one a send has put together.

A pass of `read` fails to take the message only when the draft of a claim is in the way,
left by a call that died; the pass removes it, so `read` comes to an end.
-/

namespace AiMeshChat.Mailbox.Readable

open Lib Sessions Recovery Replay

/-! ## The file's directory -/

/-- Every file lies in a directory that is there. -/
def Housed (s : Disk) : Prop := ∀ p f, s.files.get? p = some f → p.dir ∈ s.dirs

theorem housed_step {i : ℕ} {o : Op} {c : Choice} {a : Ans o} {s s' : Disk} (h : Housed s)
    (hw : s.perform i o c = some (a, s')) : Housed s' := by
  have hframe (ht : o.targets = []) (hd : ∀ d ∈ s.dirs, d ∈ s'.dirs) : Housed s' := fun p f hp =>
    hd _ (h p f ((Disk.perform_get? hw (by rw [ht]; exact List.not_mem_nil)).symm.trans hp))
  have hput {p : MPath} {f : MFile} (hd : s'.dirs = s.dirs) (hp : p.dir ∈ s.dirs)
      (hget : ∀ r, s'.files.get? r = if r = p then some f else s.files.get? r) : Housed s' := by
    intro r g hr
    rw [hget] at hr
    rw [hd]
    split_ifs at hr with he
    · rw [he]; exact hp
    · exact h r g hr
  cases o with
  | mkdir d =>
    refine hframe rfl fun d' hd' => ?_
    cases hw
    split_ifs
    · exact hd'
    · exact List.mem_cons_of_mem _ hd'
  | write p x =>
    simp only [Disk.perform] at hw
    split_ifs at hw with hf hd <;> cases hw
    · exact h
    · obtain ⟨n, hn⟩ := Files.get?_write s.files p x c.time
      exact hput rfl hd hn
    · exact h
  | writeNew p x =>
    simp only [Disk.perform] at hw
    split_ifs at hw with hf hd hnew <;> cases hw
    · exact h
    · exact h
    · obtain ⟨n, hn⟩ := Files.get?_write s.files p x c.time
      exact hput rfl hd hn
    · exact h
  | replace src dst l =>
    simp only [Disk.perform] at hw
    split_ifs at hw with hf hd <;> cases hw
    · exact h
    · exact h
    · simp only [not_or, Option.isNone_iff_eq_none, not_not] at hd
      obtain ⟨f, hsrc⟩ := Option.ne_none_iff_exists'.mp hd.1
      intro r g hr
      rw [Files.get?_move hsrc] at hr
      split_ifs at hr with he
      · rw [he]; exact hd.2
      · exact h r g hr
  | link src dst =>
    simp only [Disk.perform] at hw
    cases hsrc : s.files.get? src with
    | none => simp only [hsrc] at hw; split_ifs at hw <;> cases hw <;> exact h
    | some f =>
      simp only [hsrc] at hw
      split_ifs at hw with hf hd hnew <;> cases hw
      · exact h
      · exact h
      · exact hput rfl hd fun r => Files.get?_put _ _ _ _
      · exact h
  | unlink p =>
    intro r g hr
    have hd : s'.dirs = s.dirs := by
      simp only [Disk.perform] at hw
      split_ifs at hw <;> cases hw <;> rfl
    rw [hd]
    rcases Disk.perform_unlink hw with rfl | hget
    · exact h r g hr
    · rw [hget] at hr
      split_ifs at hr
      exact h r g hr
  | openFd p =>
    simp only [Disk.perform] at hw
    cases hp : s.files.get? p with
    | some f => rw [hp] at hw; cases hw; exact h
    | none =>
      simp only [hp] at hw
      split_ifs at hw with hd <;> cases hw
      · obtain ⟨n, hn⟩ := Files.get?_write s.files p .junk c.time
        exact hput rfl hd hn
      · exact h
  | read p => exact (Disk.perform_read hw).1 ▸ h
  | stat p => simp only [Disk.perform] at hw; split at hw <;> cases hw <;> exact h
  | lock p => simp only [Disk.perform] at hw; split_ifs at hw; cases hw; exact h
  | flock n => simp only [Disk.perform] at hw; split_ifs at hw; cases hw; exact h
  | _ => cases hw; exact h

/-! ## One `read` by itself -/

section Rules

variable {α : Type} {i : ℕ} {I : Disk → Prop} {s : Disk} {Q : Except PyErr α → Disk → Prop}

theorem tryWriteNew_total {p : MPath} {x : Data} {f : Except OsErr Unit → Call α} (hI : I s)
    (hd : p.dir ∈ s.dirs)
    (hold : (s.files.get? p).isSome = true → (f (.error .exists)).Total world i NoFault I s Q)
    (hnew : s.files.get? p = none → ∀ t, (f (.ok ())).Total world i NoFault I (s.write p x t) Q) :
    (tryWriteNew p x >>= f).Total world i NoFault I s Q := by
  refine Prog.total_op_bind hI fun c hc => ?_
  have hc : c.fault = false := hc
  cases hp : s.files.get? p with
  | some g =>
    exact ⟨.error .exists, s, by simp [world, Disk.perform, hc, hd, hp], hold (by rw [hp]; rfl)⟩
  | none =>
    exact ⟨.ok (), s.write p x c.time, by simp [world, Disk.perform, hc, hd, hp], hnew hp c.time⟩

theorem tryLink_total {src dst : MPath} {g : MFile} {f : Except OsErr Unit → Call α} (hI : I s)
    (hsrc : s.files.get? src = some g) (hd : dst.dir ∈ s.dirs) (hdst : s.files.get? dst = none)
    (h : (f (.ok ())).Total world i NoFault I { s with files := s.files.put dst g } Q) :
    (tryLink src dst >>= f).Total world i NoFault I s Q := by
  refine Prog.total_op_bind hI fun c hc => ⟨.ok (), _, ?_, h⟩
  have hc : c.fault = false := hc
  simp [world, Disk.perform, hc, hd, hsrc, hdst]

theorem unlinkMissingOk_total {p : MPath} {f : Unit → Call α} (hI : I s)
    (h : ∀ files, (∀ r, Files.get? files r = if r = p then none else s.files.get? r) →
      (f ()).Total world i NoFault I { s with files := files } Q) :
    (unlinkMissingOk p >>= f).Total world i NoFault I s Q := by
  refine Prog.total_op_bind hI fun c hc => ?_
  have hc : c.fault = false := hc
  cases hp : s.files.get? p with
  | none =>
    refine ⟨.error .notFound, s, by simp [world, Disk.perform, hc, hp], h s.files fun r => ?_⟩
    split_ifs with hr
    · rw [hr, hp]
    · rfl
  | some g =>
    refine ⟨.ok (), { s with files := s.files.del p }, by simp [world, Disk.perform, hc, hp],
      h _ fun r => ?_⟩
    exact Files.get?_del _ _ _

end Rules

theorem insertionSort_eq_cons {α : Type} (r : α → α → Prop) [DecidableRel r] [Std.Total r]
    [IsTrans α r] {l : List α} {x : α} (hx : x ∈ l) (hleast : ∀ y ∈ l, y ≠ x → ¬ r y x) :
    ∃ t, l.insertionSort r = x :: t := by
  have hperm := List.perm_insertionSort r l
  have hsorted := List.pairwise_insertionSort r l
  cases hl : l.insertionSort r with
  | nil =>
    rw [hl] at hperm
    exact absurd (hperm.mem_iff.mpr hx) List.not_mem_nil
  | cons y t =>
    rw [hl] at hperm hsorted
    by_cases hy : y = x
    · exact ⟨t, by rw [hy]⟩
    · refine absurd ?_ (hleast y (hperm.mem_iff.mp List.mem_cons_self) hy)
      rcases List.mem_cons.mp (hperm.mem_iff.mpr hx) with rfl | ht
      · exact absurd rfl hy
      · exact List.rel_of_pairwise_cons hsorted ht

/-- The file is older than every other message of the directory. -/
def Oldest (s : Disk) (d : Dir) (name : String) : Prop :=
  ∃ f, s.files.get? ⟨d, name⟩ = some f ∧ ∀ other g, isMessageName other = true → other ≠ name →
    s.files.get? ⟨d, other⟩ = some g → f.mtime < g.mtime

/-- Nobody has claimed the message. -/
def Unclaimed (s : Disk) (sid agent mid : String) : Prop :=
  ∀ owner, s.files.get? ⟨.box sid agent .processing, claimName (claimKey mid owner)⟩ = none

/-- The message `j` waits in its inbox, and the session is as it should be. -/
structure Waiting (S : SendArgs → Prop) (sid agent mid : String) (j : Json) (s : Disk) : Prop where
  name : msgIdOk mid = true
  file : ∃ f, s.files.get? ⟨.box sid agent .inbox, jsonName mid⟩ = some f ∧ f.data = .json j
  oldest : Oldest s (.box sid agent .inbox) (jsonName mid)
  unclaimed : Unclaimed s sid agent mid
  fit : Fit S sid agent mid j
  session : ∃ f doc, s.files.get? (sessionFile sid) = some f ∧ Kept f.data doc ∧
    sender j ∈ rosterOf doc
  inbox : .box sid agent .inbox ∈ s.dirs

section Alone

variable {S : SendArgs → Prop} {sid agent mid owner : String} {j : Json} {s : Disk} {i : ℕ}

theorem Waiting.later (h : Waiting S sid agent mid j s) {t : Disk}
    (hfiles : ∀ p, (∃ name, p = ⟨.box sid agent .inbox, name⟩) ∨ p = sessionFile sid →
      t.files.get? p = s.files.get? p)
    (hclaims : ∀ owner, t.files.get? ⟨.box sid agent .processing, claimName (claimKey mid owner)⟩ =
      s.files.get? ⟨.box sid agent .processing, claimName (claimKey mid owner)⟩)
    (hdirs : ∀ d ∈ s.dirs, d ∈ t.dirs) : Waiting S sid agent mid j t where
  name := h.name
  file := by rw [hfiles _ (.inl ⟨_, rfl⟩)]; exact h.file
  oldest := by
    obtain ⟨f, hf, hleast⟩ := h.oldest
    refine ⟨f, (hfiles _ (.inl ⟨_, rfl⟩)).trans hf, fun other g ho hne hg => ?_⟩
    exact hleast other g ho hne ((hfiles _ (.inl ⟨_, rfl⟩)).symm.trans hg)
  unclaimed owner := (hclaims owner).trans (h.unclaimed owner)
  fit := h.fit
  session := by rw [hfiles _ (.inr rfl)]; exact h.session
  inbox := hdirs _ h.inbox

theorem statAll_total {P : Choice → Prop} {I : Disk → Prop} (hI : I s) (d : Dir)
    (names : List String) :
    (statAll d names).Total world i P I s fun r s' => s' = s ∧
      r = .ok (names.filterMap fun name =>
        (s.files.get? ⟨d, name⟩).map fun f => (name, f.mtime)) := by
  induction names with
  | nil => exact Prog.total_ret hI ⟨rfl, rfl⟩
  | cons name rest ih =>
    refine Prog.total_op_bind hI fun c _ => ?_
    cases hf : s.files.get? ⟨d, name⟩ with
    | none =>
      refine ⟨.error .notFound, s, by simp [world, Disk.perform, hf], ?_⟩
      refine ih.bind (fun found s₁ _ h => ?_) fun e s₁ _ h => by cases h.2
      obtain ⟨rfl, hfound⟩ := h
      cases hfound
      exact Prog.total_ret hI ⟨rfl, by simp [hf]⟩
    | some f =>
      refine ⟨.ok (f.mtime, f.data.size), s, by simp [world, Disk.perform, hf], ?_⟩
      refine ih.bind (fun found s₁ _ h => ?_) fun e s₁ _ h => by cases h.2
      obtain ⟨rfl, hfound⟩ := h
      cases hfound
      exact Prog.total_ret hI ⟨rfl, by simp [hf]⟩

theorem listMessages_total (h : Waiting S sid agent mid j s) :
    (listMessages (.box sid agent .inbox)).Total world i NoFault (fun _ => True) s fun r s' =>
      s' = s ∧ ∃ rest, r = .ok (jsonName mid :: rest) := by
  refine isDir_total trivial h.inbox ?_
  simp only [if_true]
  refine Prog.total_op_bind trivial fun c _ => ⟨_, s, rfl, ?_⟩
  refine (statAll_total trivial _ _).bind (fun found s₁ _ hfound => ?_) fun e s₁ _ h => by cases h.2
  obtain ⟨rfl, hfound⟩ := hfound
  obtain ⟨f, hf, hleast⟩ := h.oldest
  have hmem (x : String × ℕ) : x ∈ found ↔ isMessageName x.1 = true ∧
      ∃ g, s₁.files.get? ⟨.box sid agent .inbox, x.1⟩ = some g ∧ g.mtime = x.2 := by
    cases hfound
    simp only [List.mem_filterMap, List.mem_filter, List.mem_insertionSort, Files.mem_names,
      Option.map_eq_some_iff]
    constructor
    · rintro ⟨name, ⟨⟨g, hg⟩, hn⟩, g', hg', rfl⟩
      exact ⟨hn, g', hg', rfl⟩
    · rintro ⟨hn, g, hg, hm⟩
      exact ⟨x.1, ⟨⟨g, hg⟩, hn⟩, g, hg, by rw [hm]⟩
  have hfirst : (jsonName mid, f.mtime) ∈ found :=
    (hmem _).mpr ⟨isMessageName_jsonName h.name, f, hf, rfl⟩
  have : Std.Total fun a b : String × ℕ => a.2 ≤ b.2 := ⟨fun a b => le_total a.2 b.2⟩
  have : IsTrans (String × ℕ) fun a b => a.2 ≤ b.2 := ⟨fun a b c => le_trans⟩
  obtain ⟨rest, hsorted⟩ := insertionSort_eq_cons (fun a b : String × ℕ => a.2 ≤ b.2) hfirst
    fun y hy hne => by
      obtain ⟨hn, g, hg, hm⟩ := (hmem y).mp hy
      rw [not_le, ← hm]
      refine hleast y.1 g hn (fun hname => hne ?_) hg
      rw [hname, hf] at hg
      cases hg
      exact Prod.ext hname hm.symm
  rw [hsorted]
  exact Prog.total_ret trivial ⟨rfl, rest.map Prod.fst, rfl⟩

theorem fromRoster_total (h : Waiting S sid agent mid j s) :
    (fromRoster sid j).Total world i NoFault (fun _ => True) s fun r s' =>
      s' = s ∧ r = .ok true := by
  obtain ⟨⟨x, m, n⟩, doc, hf, hkept, hroster⟩ := h.session
  obtain rfl : x = .json doc := hkept.data
  have hread := readSession_total (i := i) (I := fun _ => True) trivial h.fit.sessionOk hf
  refine hread.bind (fun info s₁ _ h => ?_) fun e s₁ _ h => by cases h.1
  obtain ⟨hinfo, rfl⟩ := h
  cases hinfo
  simp only [hkept.truthy, hkept.dict, hkept.plain.text.rosterSet, Bool.not_true,
    Bool.false_eq_true, if_false]
  have hfrom : textOf j "from" ∈ rosterOf doc := hroster
  exact Prog.total_ret trivial ⟨rfl, congrArg Except.ok (decide_eq_true hfrom)⟩

/-- The drafts of claims that calls of the owner have left behind. -/
def leftovers (sid agent mid owner : String) (s : Disk) : ℕ :=
  ((Finset.range 9000).filter fun n => (s.files.get?
    ⟨.box sid agent .processing, tmpClaimName (claimKey mid owner) (1000 + n)⟩).isSome).card

theorem leftovers_lt {t : Disk} {n : ℕ} (hn : n < 9000)
    (hs : (s.files.get? ⟨.box sid agent .processing,
      tmpClaimName (claimKey mid owner) (1000 + n)⟩).isSome = true)
    (ht : ∀ r, t.files.get? r = if r = ⟨.box sid agent .processing,
      tmpClaimName (claimKey mid owner) (1000 + n)⟩ then none else s.files.get? r) :
    leftovers sid agent mid owner t < leftovers sid agent mid owner s := by
  refine Finset.card_lt_card ⟨fun k hk => ?_, fun hsub => ?_⟩
  · rw [Finset.mem_filter] at hk ⊢
    rw [ht] at hk
    split_ifs at hk with hr
    · cases hk.2
    · exact hk
  · have := hsub (Finset.mem_filter.mpr ⟨Finset.mem_range.mpr hn, hs⟩)
    rw [Finset.mem_filter, ht, if_pos rfl] at this
    cases this.2

/-- How a pass ends: with the message, or with one draft less in the way. -/
def PassDone (S : SendArgs → Prop) (sid agent mid owner : String) (j : Json) (s : Disk)
    (r : Except PyErr Pass) (t : Disk) : Prop :=
  r = .ok (.done (some j)) ∨ r = .ok (.again []) ∧ Waiting S sid agent mid j t ∧
    leftovers sid agent mid owner t < leftovers sid agent mid owner s

theorem publishClaim_total {tmp file : MPath} {claim : Json}
    (hprocessing : .box sid agent .processing ∈ s.dirs)
    (htmp : tmp.dir = .box sid agent .processing) (hfile : file.dir = .box sid agent .processing)
    (hne : file ≠ tmp) (hfree : s.files.get? file = none) :
    (publishClaim (.box sid agent .inbox) (.box sid agent .processing) file tmp claim).Total world i
      NoFault (fun _ => True) s fun r t => t.dirs = s.dirs ∧
        ((r = .ok .retry ∧ (s.files.get? tmp).isSome = true ∧
          ∀ p, t.files.get? p = if p = tmp then none else s.files.get? p) ∨
        r = .ok .mine ∧ ∀ p, p ≠ tmp → p ≠ file → t.files.get? p = s.files.get? p) := by
  refine tryWriteNew_total trivial (htmp ▸ hprocessing) (fun hold => ?_) fun hnew m => ?_
  · refine unlinkMissingOk_total trivial fun files hfiles => ?_
    exact Prog.total_ret trivial ⟨rfl, .inl ⟨rfl, hold, hfiles⟩⟩
  · obtain ⟨n, hn⟩ := Files.get?_write s.files tmp (.json claim) m
    refine tryLink_total (s := s.write tmp (.json claim) m) trivial ((hn tmp).trans (if_pos rfl))
      (hfile ▸ hprocessing) (((hn file).trans (if_neg hne)).trans hfree) ?_
    refine Prog.total_ret trivial ⟨rfl, .inr ⟨rfl, fun p hp hp' => ?_⟩⟩
    change ((s.write tmp (.json claim) m).files.put file _).get? p = _
    rw [Files.get?_put_ne _ _ hp']
    exact (hn p).trans (if_neg hp)

theorem claimTarget_total (h : Waiting S sid agent mid j s) :
    (claimTarget { sessionId := sid, agentId := agent, owner := owner } [] (jsonName mid) j).Total
      world i NoFault (fun _ => True) s (PassDone S sid agent mid owner j s) := by
  refine mkdir_total trivial fun dirs hdirs => ?_
  refine Prog.total_op_bind trivial fun c _ => ⟨c.number, _, rfl, ?_⟩
  refine clock_total trivial fun now => ?_
  rw [stem_jsonName h.name]
  obtain ⟨n, hn, hnonce⟩ : ∃ n, n < 9000 ∧ 1000 + c.number % 9000 = 1000 + n :=
    ⟨c.number % 9000, Nat.mod_lt _ (by decide), rfl⟩
  rw [hnonce]
  have hprocessing : Dir.box sid agent .processing ∈ dirs := (hdirs _).mpr (.inl rfl)
  have hne (key : String) : (⟨.box sid agent .processing, claimName key⟩ : MPath) ≠
      ⟨.box sid agent .processing, tmpClaimName (claimKey mid owner) (1000 + n)⟩ :=
    fun hp => claimName_ne_tmpClaimName _ _ _ (path_inj hp).2
  refine (publishClaim_total (s := { s with dirs := dirs }) hprocessing rfl rfl (hne _)
    (h.unclaimed owner)).bind (fun g t _ hg => ?_) fun e t _ hg => ?_
  · obtain ⟨htdirs, ⟨hg, hold, hget⟩ | ⟨hg, hget⟩⟩ := hg
    · cases hg
      refine Prog.total_ret trivial (.inr ⟨rfl, h.later ?_ (fun owner' => ?_) fun d hd => ?_, ?_⟩)
      · rintro p (⟨name, rfl⟩ | rfl)
        · exact (hget _).trans (if_neg fun hp => absurd (box_inj (path_inj hp).1).2.2 (by decide))
        · exact (hget _).trans (if_neg fun hp => Dir.noConfusion (congrArg Path.dir hp))
      · exact (hget _).trans (if_neg (hne _))
      · rw [htdirs]
        exact (hdirs d).mpr (.inr hd)
      · exact leftovers_lt hn hold hget
    · cases hg
      obtain ⟨f, hf, -⟩ := h.file
      have hsrc : t.files.get? ⟨.box sid agent .inbox, jsonName mid⟩ = some f := by
        refine (hget _ ?_ ?_).trans hf <;>
          exact fun hp => absurd (box_inj (path_inj hp).1).2.2 (by decide)
      refine tryReplace_total trivial (by rw [hsrc]; rfl) (by rw [htdirs]; exact hprocessing) ?_ ?_
      · rintro ⟨c, hc, hfault⟩
        rw [hc] at hfault
        cases hfault
      · refine unlinkMissingOk_total trivial fun files _ => ?_
        exact Prog.total_ret trivial (.inl rfl)
  · obtain ⟨-, ⟨hg, -⟩ | ⟨hg, -⟩⟩ := hg <;> cases hg

theorem readPass_total (h : Waiting S sid agent mid j s) :
    (readPass { sessionId := sid, agentId := agent, owner := owner } []).Total world i NoFault
      (fun _ => True) s (PassDone S sid agent mid owner j s) := by
  refine (listMessages_total h).bind (fun files s₁ _ hfiles => ?_) fun e s₁ _ h => ?_
  · obtain ⟨rfl, rest, hfiles⟩ := hfiles
    cases hfiles
    have hpick : pickTarget { sessionId := sid, agentId := agent, owner := owner } []
        (jsonName mid :: rest) = some (jsonName mid) := rfl
    simp only [hpick]
    obtain ⟨f, hf, hdata⟩ := h.file
    refine readBytes_total trivial ?_
    rw [hf]
    simp only [hdata]
    unfold examine
    rw [h.fit.valid]
    refine (fromRoster_total h).bind (fun b s₂ _ hb => ?_) fun e s₂ _ h => by cases h.2
    obtain ⟨rfl, hb⟩ := hb
    cases hb
    exact claimTarget_total h
  · obtain ⟨-, rest, h⟩ := h
    cases h

/-- **A message that waits is read**, as soon as the drafts in the way are gone. -/
theorem read_total {fuel : ℕ} (h : Waiting S sid agent mid j s)
    (hfuel : leftovers sid agent mid owner s < fuel) :
    (read fuel { sessionId := sid, agentId := agent, owner := owner }).Total world i NoFault
      (fun _ => True) s fun r _ => r = .ok (some j) := by
  refine agentSubdir_total h.fit.agentOk h.fit.sessionOk ?_
  induction fuel generalizing s with
  | zero => exact absurd hfuel (Nat.not_lt_zero _)
  | succ fuel ih =>
    refine (readPass_total h).bind (fun p t _ hp => ?_) fun e t _ hp => ?_
    · rcases hp with hp | ⟨hp, hwait, hless⟩
      · cases hp
        exact Prog.total_ret trivial rfl
      · cases hp
        exact ih hwait (by omega)
    · rcases hp with hp | ⟨hp, -⟩ <;> cases hp

end Alone

/-! ## What a send reports -/

/-- What a send of the message `mid` returns. -/
def Announces (a : SendArgs) (mid text : String) : Prop :=
  (∃ rs, text = sentText a mid rs) ∨ ∃ n : ℕ, text = "sent → " ++ a.toId ++ "/inbox/" ++ mid ++
    ".json (idempotent replay, backfilled " ++ toString n ++ ")"

section Answers

-- a text is promised whatever the check of the message says, and is not to be evaluated
attribute [local irreducible] validateMessage

theorem appendHistory_rets (sid : String) (j : Json) :
    (appendHistory sid j).Rets fun _ => msgIdOk (textOf j "msg_id") = true := by
  refine Prog.Rets.bind (Prog.rets_true _) fun _ _ => Prog.Rets.bind (Prog.rets_true _) fun _ _ =>
    Prog.Rets.bind (Prog.rets_true _) fun _ _ => Prog.Rets.bind (Prog.rets_true _) fun _ _ =>
    Prog.Rets.bind (Prog.rets_true _) fun _ _ => (validateMsgId_rets _).bind fun _ hm => ?_
  exact (Prog.rets_true _).mono fun _ _ => hm

theorem sendNew_rets (a : SendArgs) (mid : String) (rs : List String)
    (refs : List AttachmentRef) :
    (sendNew a mid rs refs).Rets fun text => msgIdOk mid = true ∧ Announces a mid text := by
  refine Prog.Rets.bind (Prog.rets_true _) fun now _ => ?_
  obtain ⟨payload, hpayload⟩ : ∃ j, j = (messageOf a mid (isoFormat now) refs).toDict := ⟨_, rfl⟩
  have hid : textOf payload "msg_id" = mid := by rw [hpayload]; rfl
  rw [← hpayload]
  refine Prog.Rets.bind (Prog.rets_true _) fun _ _ => Prog.Rets.bind (Prog.rets_true _) fun _ _ =>
    Prog.Rets.bind (Prog.rets_true _) fun cursor _ => Prog.Rets.bind (Prog.rets_true _) fun _ _ =>
    (appendHistory_rets _ _).bind fun _ hm => ?_
  rw [(sameChecked_set_cursor payload (.str cursor)).textOf (by decide), hid] at hm
  exact ⟨hm, .inl ⟨rs, rfl⟩⟩

theorem send_rets (fuel : ℕ) (a : SendArgs) : (send fuel a).Rets fun text =>
    ∃ mid, msgIdOk mid = true ∧ (∀ m, a.msgId = some m → m = mid) ∧ Announces a mid text := by
  refine Prog.Rets.bind (Prog.rets_true _) fun x _ => ?_
  obtain ⟨rs, refs⟩ := x
  dsimp only
  split
  · next mid hmid =>
    have hgiven : ∀ m, a.msgId = some m → m = mid := fun m h => Option.some.inj (h.symm.trans hmid)
    refine (validateMsgId_rets mid).bind fun _ hm =>
      Prog.Rets.bind (Prog.rets_true _) fun e _ => ?_
    split
    · refine Prog.Rets.bind (Prog.rets_true _) fun _ _ => Prog.Rets.bind (Prog.rets_true _)
        fun _ _ => Prog.Rets.bind (Prog.rets_true _) fun n _ => Prog.Rets.bind (Prog.rets_true _)
        fun _ _ => ?_
      exact ⟨mid, hm, hgiven, .inr ⟨n, rfl⟩⟩
    · exact (sendNew_rets a mid rs refs).mono fun text h => ⟨mid, hm, hgiven, h.2⟩
  · next hmid =>
    refine Prog.Rets.bind (Prog.rets_true _) fun mid _ => ?_
    refine (sendNew_rets a mid rs refs).mono fun text h => ⟨mid, h.1, fun m hm => ?_, h.2⟩
    rw [hmid] at hm
    cases hm

end Answers

/-! ## Runs -/

/-- A call of `session_init` or of the store. -/
inductive Act
  | init (a : InitArgs)
  | mail (r : Request)

def Act.call (fuel : ℕ) : Act → Call Result
  | .init a => do return .text (← sessionInit a)
  | .mail r => r.call fuel

/-- The calls are `session_init`, `send`, `read`, `finalize`, `release` and
`recover_stale`. -/
def Act.Serves : Act → Prop
  | .init _ | .mail (.send _) | .mail (.read _) | .mail (.finalize _ _ _ _)
  | .mail (.release _ _ _ _) | .mail (.recoverStale _ _) => True
  | _ => False

/-- Process `i` makes the call `acts i`, or none. -/
def actPool (fuel : ℕ) (s : Disk) (acts : ℕ → Option Act) : Pool Op Ans Disk PyErr Result :=
  ⟨s, fun i => match acts i with
    | some a => a.call fuel
    | none => .ret .idle⟩

/-- The text that the call `i` has returned. -/
def reported? (p : Pool Op Ans Disk PyErr Result) (i : ℕ) : Option String :=
  match p.procs i with
  | .ret (.text text) => some text
  | _ => none

/-- No session has been made yet. -/
structure Vacant (s : Disk) : Prop where
  files : ∀ p, s.files.get? p = none
  locks : s.inoLocks = []

/-- The sends among the calls. -/
def SentBy (acts : ℕ → Option Act) (a : SendArgs) : Prop := ∃ i, acts i = some (.mail (.send a))

theorem Vacant.good {S : SendArgs → Prop} {s : Disk} (h : Vacant s) :
    Good S s fun _ => ⟨.idle, []⟩ where
  alone n i j hi := by rw [h.locks] at hi; cases hi
  sessions sid f hf := by rw [h.files] at hf; cases hf
  known i sid y hy := by cases hy
  sound p f hf := by rw [h.files] at hf; cases hf
  placed i := trivial

theorem act_keeps {S : SendArgs → Prop} {act : Act} (h : act.Serves)
    (hsend : ∀ a, act = .mail (.send a) → S a) (fuel : ℕ) {q : Watch} (hq : q.phase = .idle) :
    (act.call fuel).Keeps (role S) q fun _ _ => True := by
  have hmail {α : Type} {p : Call α} (r : α → Result)
      (hp : p.Keeps (role S) q (Outside q fun _ _ => True)) :
      (p >>= fun x => pure (r x) : Call Result).Keeps (role S) q fun _ _ => True :=
    hp.bind (fun _ _ _ => trivial) fun _ _ _ => trivial
  cases act with
  | init a => exact (sessionInit_keeps a hq).bind (fun _ _ _ => trivial) fun _ _ _ => trivial
  | mail r =>
    cases r with
    | send a => exact hmail .text (send_outside (hsend a rfl) fuel hq)
    | read a => exact hmail .message (read_outside fuel a hq)
    | finalize sid agent m o =>
      exact hmail .text (outside_calm hq
        ((finalize_finishOp sid agent m o).mono fun _ h => calm_finishOp h) (Prog.rets_true _))
    | release sid agent m o =>
      exact hmail .text (outside_calm hq
        ((release_finishOp sid agent m o).mono fun _ h => calm_finishOp h) (Prog.rets_true _))
    | recoverStale sid agent => exact hmail .text (recoverStale_outside sid agent hq)
    | finalizeFromInbox sid agent m o => exact h.elim
    | renewClaim sid agent m o => exact h.elim

/-- The copy of a message is not put away as corrupt. -/
def SparesMessages (_ : Disk) (_ : ℕ) (o : Op) (_ : Choice) : Prop :=
  ∀ sid agent mid dst l, msgIdOk mid = true →
    o = .replace ⟨.box sid agent .inbox, jsonName mid⟩ dst l →
    ∀ sid' agent', dst.dir ≠ .box sid' agent' .corrupt

theorem spares_of_allowed {S : SendArgs → Prop} {w : Watch} {o : Op} (h : Allowed S w o) {s : Disk}
    {i : ℕ} {c : Choice} : SparesMessages s i o c := by
  rintro sid agent mid dst l hm ho sid' agent' hdst
  have hbox {d : Dir} (hd : d ≠ .box sid' agent' .corrupt) {name : String} {src : MPath}
      {l' : Option Lease} (ho : Op.replace src ⟨d, name⟩ l' =
        .replace ⟨.box sid agent .inbox, jsonName mid⟩ dst l) : False := by
    injection ho with _ hdst'
    rw [← hdst'] at hdst
    exact hd hdst
  cases h with
  | quarantine sid₁ agent₁ hname hq =>
    injection ho with hsrc
    rw [(path_inj hsrc).2, wellNamed_jsonName hm] at hname
    cases hname
  | cursorMove sid₁ hq => exact hbox Dir.noConfusion ho
  | sessionMove hq => exact hbox Dir.noConfusion ho
  | record sid₁ hq h₁ => exact hbox Dir.noConfusion ho
  | publish sid₁ agent₁ hq h₁ => exact hbox (fun hd => absurd (box_inj hd).2.2 (by decide)) ho
  | claim sid₁ agent₁ hq h₁ => exact hbox (fun hd => absurd (box_inj hd).2.2 (by decide)) ho
  | back sid₁ agent₁ l₁ hq h₁ => exact hbox (fun hd => absurd (box_inj hd).2.2 (by decide)) ho
  | archive sid₁ agent₁ mid₁ hq => exact hbox (fun hd => absurd (box_inj hd).2.2 (by decide)) ho
  | glance hglance => rw [ho] at hglance; cases hglance
  | _ => cases ho

section Runs

variable {fuel : ℕ} {s : Disk} {acts : ℕ → Option Act} {es : List (Event Choice)}

theorem kept_start (hs : Vacant s) (hacts : ∀ i act, acts i = some act → act.Serves) :
    (actPool fuel s acts).Kept (role (SentBy acts)) (Good (SentBy acts)) fun _ _ _ => True := by
  refine ⟨fun _ => ⟨.idle, []⟩, hs.good, fun i => ?_⟩
  cases hact : acts i with
  | none =>
    simp only [actPool, hact]
    trivial
  | some act =>
    simp only [actPool, hact]
    exact act_keeps (hacts i act hact) (fun a ha => ⟨i, hact.trans (congrArg some ha)⟩) fuel rfl

theorem waiting_of_run (hs : Vacant s) (hacts : ∀ i act, acts i = some act → act.Serves)
    (hes : (actPool fuel s acts).Admits world SessionReads es) {sid agent mid : String}
    (hm : msgIdOk mid = true) {t : Disk}
    (ht : t = (Pool.run world (actPool fuel s acts) es).shared)
    (hold : Oldest t (.box sid agent .inbox) (jsonName mid)) (hfree : Unclaimed t sid agent mid) :
    ∃ j, Waiting (SentBy acts) sid agent mid j t := by
  obtain ⟨q, hgood, -⟩ := Pool.run_keeps opKeeps crashKeeps es (kept_start hs hacts) hes
  have hhoused : Housed t := by
    rw [ht]
    refine Pool.run_invariant (J := Housed) (G := SessionReads)
      (fun _ _ _ _ _ _ h _ hw => housed_step h hw) (fun _ _ h => h) es ?_ hes
    intro p f hf
    change s.files.get? p = some f at hf
    rw [hs.files] at hf
    cases hf
  rw [← ht] at hgood
  obtain ⟨f, hf, -⟩ := id hold
  obtain ⟨j, hj, hfit, doc, hstored, hmem⟩ :=
    (hgood.sound _ f hf).message sid agent mid .inbox hm (.inl rfl) rfl
  rcases hgood.session_cases sid with ⟨-, hno⟩ | ⟨g, doc', hg, hkept, hstored'⟩
  · rw [hno] at hstored
    cases hstored
  · obtain rfl := Option.some.inj (hstored.symm.trans hstored')
    exact ⟨j, hm, ⟨f, hf, hj⟩, hold, hfree, hfit, ⟨g, doc, hg, hkept, hmem⟩, hhoused _ f hf⟩

/-- **What was sent can be read.**  Along every run of calls from a store without sessions,
in any order and with crashes: no message is put away as corrupt, a send that returns has
named its message by a well-formed identifier, and in the state reached a message in an
inbox, older than the others there and claimed by nobody, is one that a send of the run
has put together, and `read` returns it as it lies there. -/
theorem sent_can_be_read (fuel : ℕ) (s : Disk) (hs : Vacant s) (acts : ℕ → Option Act)
    (hacts : ∀ i act, acts i = some act → act.Serves) (es : List (Event Choice))
    (hes : (actPool fuel s acts).Admits world SessionReads es) :
    (actPool fuel s acts).Admits world SparesMessages es ∧
    (∀ i a text, acts i = some (.mail (.send a)) →
      reported? (Pool.run world (actPool fuel s acts) es) i = some text →
      ∃ mid, msgIdOk mid = true ∧ (∀ m, a.msgId = some m → m = mid) ∧ Announces a mid text) ∧
    ∀ t, t = (Pool.run world (actPool fuel s acts) es).shared → ∀ sid agent mid,
      msgIdOk mid = true → Oldest t (.box sid agent .inbox) (jsonName mid) →
      Unclaimed t sid agent mid →
      ∃ f j, t.files.get? ⟨.box sid agent .inbox, jsonName mid⟩ = some f ∧ f.data = .json j ∧
        Sent (SentBy acts) sid mid j ∧
        ∀ owner i, ∃ N, ∀ n ≥ N,
          (read n { sessionId := sid, agentId := agent, owner := owner }).Total world i NoFault
            (fun _ => True) t fun r _ => r = .ok (some j) := by
  refine ⟨?_, fun i a text ha hret => ?_, fun t ht sid agent mid hm hold hfree => ?_⟩
  · exact Pool.admits_of_keeps opKeeps crashKeeps
      (fun _ _ _ _ _ _ hallowed _ => spares_of_allowed hallowed) es (kept_start hs hacts) hes
  · have hrets := Pool.run_rets (W := world) (Q := fun k r => k = i → ∀ text, r = .text text →
      ∃ mid, msgIdOk mid = true ∧ (∀ m, a.msgId = some m → m = mid) ∧ Announces a mid text)
      es (s := actPool fuel s acts) (fun k => ?_) i
    · unfold reported? at hret
      split at hret
      · next text' hproc =>
        rw [hproc] at hrets
        cases hret
        exact hrets rfl text rfl
      · cases hret
    · by_cases hk : k = i
      · subst hk
        simp only [actPool, ha]
        refine (send_rets fuel a).bind fun text h => ?_
        rintro - text' htext
        cases htext
        exact h
      · exact (Prog.rets_true _).mono fun _ _ hk' => absurd hk' hk
  · obtain ⟨j, hwait⟩ := waiting_of_run hs hacts hes hm ht hold hfree
    obtain ⟨f, hf, hj⟩ := hwait.file
    exact ⟨f, j, hf, hj, hwait.fit.sent, fun owner i =>
      ⟨leftovers sid agent mid owner t + 1, fun n hn => read_total hwait hn⟩⟩

end Runs

instance decidableSessionReads (s : Disk) (i : ℕ) (o : Op) (c : Choice) :
    Decidable (SessionReads s i o c) := by
  unfold SessionReads
  split <;> infer_instance

/-- Manager `a` makes a session with `b` and sends a message. -/
def firstActs : ℕ → Option Act
  | 0 => some (.init { sessionId := "s", managerId := "a", agentIds := ["b"] })
  | 1 => some (.mail (.send notice))
  | _ => none

def firstRun : List (Event Choice) := steps 0 30 ++ steps 1 40

/-- The store after the session and the message have been made. -/
def firstStore : Disk :=
  (Pool.run world (actPool 2 ⟨Files.empty, [], [], []⟩ firstActs) firstRun).shared

theorem sent_can_be_read_first :
    reported? (Pool.run world (actPool 2 ⟨Files.empty, [], [], []⟩ firstActs) firstRun) 1 =
      some "sent → b/inbox/m.json" ∧
    (∃ mid, msgIdOk mid = true ∧ (∀ m, notice.msgId = some m → m = mid) ∧
      Announces notice mid "sent → b/inbox/m.json") ∧
    ∃ f j, firstStore.files.get? ⟨.box "s" "b" .inbox, "m.json"⟩ = some f ∧ f.data = .json j ∧
      ∃ N, ∀ n ≥ N, (read n { sessionId := "s", agentId := "b", owner := "w" }).Total world 2
        NoFault (fun _ => True) firstStore fun r _ => r = .ok (some j) := by
  have hserves : ∀ i act, firstActs i = some act → act.Serves := by
    intro i act h
    match i with
    | 0 | 1 => cases h; trivial
    | _ + 2 => cases h
  have hinbox : firstStore.files.names (.box "s" "b" .inbox) = ["m.json"] := by decide +kernel
  have hprocessing : firstStore.files.names (.box "s" "b" .processing) = [] := by decide +kernel
  have hold : Oldest firstStore (.box "s" "b" .inbox) "m.json" := by
    obtain ⟨f, hf⟩ := Files.mem_names.mp (hinbox ▸ List.mem_singleton_self "m.json")
    refine ⟨f, hf, fun other g _ hne hg => absurd ?_ hne⟩
    have hmem := Files.mem_names.mpr ⟨g, hg⟩
    rw [hinbox] at hmem
    exact List.mem_singleton.mp hmem
  have hfree : Unclaimed firstStore "s" "b" "m" := by
    intro owner
    by_contra hno
    obtain ⟨g, hg⟩ := Option.ne_none_iff_exists'.mp hno
    have hmem := Files.mem_names.mpr ⟨g, hg⟩
    rw [hprocessing] at hmem
    cases hmem
  have h := sent_can_be_read 2 ⟨Files.empty, [], [], []⟩ ⟨fun _ => rfl, rfl⟩ firstActs hserves
    firstRun (by decide +kernel)
  obtain ⟨f, j, hf, hj, -, hread⟩ := h.2.2 firstStore rfl "s" "b" "m" (by decide) hold hfree
  exact ⟨by decide +kernel, h.2.1 1 notice _ rfl (by decide +kernel), f, j, hf, hj, hread "w" 2⟩

end AiMeshChat.Mailbox.Readable
