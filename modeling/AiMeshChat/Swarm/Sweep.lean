import AiMeshChat.Swarm.Rules

/-!
# The sweep

`sweep` unlinks old markers, each before its envelope, and old status directories,
whether the message was delivered or not. A crash between the marker and the envelope
makes a delivered message pending again; a status directory that is gone takes the
attempts, the deadlines and an acknowledgement with it (`sweep_undisturbed_iff`).
-/

namespace AiMeshChat.Swarm

open Lib

/-! ## What must not change -/

/-- What retries go by: the attempts, the next one, the pause and an acknowledgement. -/
structure View where
  attemptCount : ℕ := 0
  nextAttemptAt : Option ℕ := none
  paused : Bool := false
  consumed : Bool := false

def Entry.view (e : Entry) : View :=
  ⟨e.info.attemptCount, e.info.nextAttemptAt, e.info.pausedForUpgrade, e.consumed⟩

/-- An entry without a marker keeps its envelope and what retries go by, and one with a
marker is not pending. -/
structure Undisturbed (s t : Site) : Prop where
  pending : ∀ k, (s.entry k).delivered = none →
    (t.entry k).envelope = (s.entry k).envelope ∧ (t.entry k).view = (s.entry k).view
  delivered : ∀ k, (s.entry k).delivered.isSome → (t.entry k).pending? = none

/-- Of the session directories, no marker older than `cutoff` has an envelope that can be
read, and no status directory older than that says anything about a message without a
marker. -/
structure Harmless (cutoff : ℤ) (s : Site) : Prop where
  marked : ∀ k m, k.1 ∈ s.sessionDirs → (s.entry k).delivered = some m → (m : ℤ) < cutoff →
    ∀ env, (s.entry k).envelope ≠ some (.json env)
  noted : ∀ k d, k.1 ∈ s.sessionDirs → (s.entry k).delivered = none →
    (s.entry k).status = some d → (d.age : ℤ) < cutoff → (s.entry k).view = {}

/-! ## One entry -/

/-- What has become of an entry: its marker and then its envelope may be gone, if nobody
could read it; its status may have changed, if it said nothing. -/
structure Swept (e e' : Entry) : Prop where
  marker : e'.delivered = e.delivered ∨
    e.delivered.isSome ∧ e'.delivered = none ∧ ∀ env, e.envelope ≠ some (.json env)
  envelope : e'.envelope = e.envelope ∨ e.delivered.isSome ∧ e'.envelope = none
  view : e.delivered = none → e'.view = e.view ∧ (e.view = {} ∨ e'.status = e.status)

theorem Swept.refl (e : Entry) : Swept e e := ⟨.inl rfl, .inl rfl, fun _ => ⟨rfl, .inr rfl⟩⟩

theorem Swept.delivered_eq {e e' : Entry} (h : Swept e e') {m : ℕ} (hm : e'.delivered = some m) :
    e.delivered = some m := by
  rcases h.marker with h | h
  · rw [← h, hm]
  · rw [h.2.1] at hm
    cases hm

theorem Swept.pending? {e e' : Entry} (h : Swept e e') (hd : e.delivered.isSome) :
    e'.pending? = none := by
  unfold Entry.pending?
  rcases h.marker with hm | ⟨-, -, hjson⟩
  · rw [hm]
    cases hdel : e.delivered with
    | none =>
      rw [hdel] at hd
      cases hd
    | some m => split <;> first | rfl | (next hx => cases hx)
  · split
    · next env henv _ =>
      rcases h.envelope with he | he
      · rw [he] at henv
        exact absurd henv (hjson env)
      · rw [he.2] at henv
        cases henv
    · rfl

theorem undisturbed_of_swept {s t : Site} (h : ∀ k, Swept (s.entry k) (t.entry k)) :
    Undisturbed s t where
  pending k hk := by
    refine ⟨?_, ((h k).view hk).1⟩
    rcases (h k).envelope with he | he
    · exact he
    · rw [hk] at he
      cases he.1
  delivered k hk := (h k).pending? hk

/-! ## Rules -/

section Rules

variable {J : Site → Prop} {P : Choice → Prop} {t : Site} {cutoff : ℤ} {k : Key}

/-- The method returns a value. -/
def Returned {α : Type} : Except String α → Site → Prop := fun r _ => ∃ a, r = .ok a

/-- It returns one and leaves the site in `J`. -/
def Returning {α : Type} (J : Site → Prop) : Except String α → Site → Prop :=
  fun r s => J s ∧ ∃ a, r = .ok a

theorem bind_returning {α β : Type} {I : Site → Prop} {p : Call α} {f : α → Call β}
    {Q : Except String β → Site → Prop} (hp : p.Total world 0 P I t (Returning J))
    (hf : ∀ a t', J t' → (f a).Total world 0 P I t' Q) :
    (p >>= f).Total world 0 P I t Q := by
  refine hp.bind (fun a t' _ hr => hf a t' hr.1) fun e t' _ hr => ?_
  obtain ⟨-, a, ha⟩ := hr
  cases ha

theorem returning {α : Type} {p : Call α} (hp : p.Total world 0 P J t Returned) :
    p.Total world 0 P J t (Returning J) := hp.mono (fun _ h => h) fun _ _ hJ hr => ⟨hJ, hr⟩

theorem bind_returned {α β : Type} {p : Call α} {f : α → Call β}
    (hp : p.Total world 0 P J t Returned)
    (hf : ∀ a t', J t' → (f a).Total world 0 P J t' Returned) :
    (p >>= f).Total world 0 P J t Returned := bind_returning (returning hp) hf

theorem sweepMarker_total (hlook : ∀ t c, J t → J (t.next (.look k) c))
    (hunmark : ∀ t c m, J t → (t.entry k).delivered = some m → (m : ℤ) < cutoff →
      J (t.next (.file k .unmark) c))
    (hunlink : ∀ t c₁ c₂ c₃ m, J t → (t.entry k).delivered = some m → (m : ℤ) < cutoff →
      J (((t.next (.file k .unmark) c₁).next (.look k) c₂).next (.file k .unlinkEnvelope) c₃))
    (h : J t) : (sweepMarker cutoff k).Total world 0 P J t Returned := by
  refine op_total h fun c _ => ?_
  have hanswer : (t.tick (.look k) c).answer c (.look k) = t.entry k := rfl
  rw [hanswer]
  have h₁ := hlook t c h
  cases hd : (t.entry k).delivered with
  | none => exact Prog.total_ret h₁ ⟨0, rfl⟩
  | some m =>
    show (if cutoff ≤ (m : ℤ) then (Prog.ret 0 : Call ℕ) else _).Total world 0 P J _ _
    split
    · exact Prog.total_ret h₁ ⟨0, rfl⟩
    · next hlate =>
      have hlt : (m : ℤ) < cutoff := not_le.mp hlate
      have h₂ (c' : Choice) := hunmark _ c' m h₁ hd hlt
      refine op_total h₁ fun c₂ _ => op_total (h₂ c₂) fun c₃ _ => ?_
      have h₃ := hlook _ c₃ (h₂ c₂)
      split
      · refine op_total h₃ fun c₄ _ => Prog.total_ret ?_ ⟨2, rfl⟩
        exact hunlink _ c₂ c₃ c₄ m h₁ hd hlt
      · exact Prog.total_ret h₃ ⟨1, rfl⟩

theorem unlinkAll_total (hunlink : ∀ t f c, J t → J (t.next (.file k (.unlinkStatus f)) c))
    (fs : List StatusFile) (h : J t) : (unlinkAll k fs).Total world 0 P J t Returned := by
  induction fs generalizing t with
  | nil => exact Prog.total_ret h ⟨(), rfl⟩
  | cons f fs ih => exact op_total h fun c _ => ih (hunlink t f c h)

theorem rmtree_total (hunlink : ∀ t f c, J t → J (t.next (.file k (.unlinkStatus f)) c))
    (hrm : ∀ t c, J t → J (t.next (.file k .rmStatus) c)) (d : StatusDir) (h : J t) :
    (rmtree k d).Total world 0 P J t fun r t' => r = .ok () ∧ (t'.entry k).status = none := by
  refine (unlinkAll_total hunlink d.files h).bind ?_ ?_
  · intro _ t₁ h₁ _
    refine last_total h₁ fun c _ => ⟨hrm t₁ c h₁, rfl, ?_⟩
    rw [Site.entry_next_file, if_pos rfl]
    rfl
  · intro e t₁ _ hr
    obtain ⟨a, ha⟩ := hr
    cases ha

theorem sweepStatus_total (hlook : ∀ t c, J t → J (t.next (.look k) c))
    (hrm : ∀ t d, J t → (t.entry k).status = some d → (d.age : ℤ) < cutoff →
      (rmtree k d).Total world 0 P J t Returned) (h : J t) :
    (sweepStatus cutoff k).Total world 0 P J t Returned := by
  refine op_total h fun c _ => ?_
  have hanswer : (t.tick (.look k) c).answer c (.look k) = t.entry k := rfl
  rw [hanswer]
  have h₁ := hlook t c h
  cases hs : (t.entry k).status with
  | none => exact Prog.total_ret h₁ ⟨0, rfl⟩
  | some d =>
    show (if (d.age : ℤ) < cutoff then _ else (Prog.ret 0 : Call ℕ)).Total world 0 P J _ _
    split
    · next hold =>
      exact bind_returned (hrm _ d h₁ hs hold) fun _ _ hJ => Prog.total_ret hJ ⟨1, rfl⟩
    · exact Prog.total_ret h₁ ⟨0, rfl⟩

theorem sweepEach_returning {I : Site → Prop} {f : Key → Call ℕ} {sid : String}
    {mids : List String} (hJI : ∀ t, J t → I t)
    (hf : ∀ mid t, J t → (f (sid, mid)).Total world 0 P I t (Returning J)) (h : J t) :
    (sweepEach f sid mids).Total world 0 P I t (Returning J) := by
  induction mids generalizing t with
  | nil => exact Prog.total_ret (hJI t h) ⟨h, 0, rfl⟩
  | cons mid mids ih =>
    refine bind_returning (hf mid t h) fun n t₁ h₁ => bind_returning (ih h₁) fun m t₂ h₂ => ?_
    exact Prog.total_ret (hJI t₂ h₂) ⟨h₂, n + m, rfl⟩

theorem sweepEach_total {f : Key → Call ℕ} {sid : String} {mids : List String}
    (hf : ∀ mid t, J t → (f (sid, mid)).Total world 0 P J t Returned) (h : J t) :
    (sweepEach f sid mids).Total world 0 P J t Returned :=
  (sweepEach_returning (fun _ h => h) (fun mid t h => returning (hf mid t h)) h).mono
    (fun _ h => h) fun _ _ _ hr => hr.2

/-- What the two sweeps of an entry leave in `J`, the sweep of the directories does. -/
theorem sweepSessions_returning {I : Site → Prop} {sids : List String} (hJI : ∀ t, J t → I t)
    (hglob : ∀ t sid g c, J t → J (t.next (.glob sid g) c))
    (hmarker : ∀ sid ∈ sids, ∀ mid t, J t →
      (sweepMarker cutoff (sid, mid)).Total world 0 P I t (Returning J))
    (hstatus : ∀ sid ∈ sids, ∀ mid t, J t →
      (sweepStatus cutoff (sid, mid)).Total world 0 P I t (Returning J)) (h : J t) :
    (sweepSessions cutoff sids).Total world 0 P I t (Returning J) := by
  induction sids generalizing t with
  | nil => exact Prog.total_ret (hJI t h) ⟨h, 0, rfl⟩
  | cons sid sids ih =>
    refine op_total (hJI t h) fun c _ => bind_returning
      (sweepEach_returning hJI (hmarker sid List.mem_cons_self) (hglob t sid _ c h)) fun n t₁ h₁ => ?_
    refine op_total (hJI t₁ h₁) fun c _ => bind_returning
      (sweepEach_returning hJI (hstatus sid List.mem_cons_self) (hglob t₁ sid _ c h₁))
      fun m t₂ h₂ => ?_
    refine bind_returning (ih (fun sid' hsid => hmarker sid' (List.mem_cons_of_mem _ hsid))
      (fun sid' hsid => hstatus sid' (List.mem_cons_of_mem _ hsid)) h₂) fun l t₃ h₃ => ?_
    exact Prog.total_ret (hJI t₃ h₃) ⟨h₃, n + m + l, rfl⟩

theorem sweepSessions_total {sids : List String}
    (hglob : ∀ t sid g c, J t → J (t.next (.glob sid g) c))
    (hmarker : ∀ sid ∈ sids, ∀ mid t, J t →
      (sweepMarker cutoff (sid, mid)).Total world 0 P J t Returned)
    (hstatus : ∀ sid ∈ sids, ∀ mid t, J t →
      (sweepStatus cutoff (sid, mid)).Total world 0 P J t Returned) (h : J t) :
    (sweepSessions cutoff sids).Total world 0 P J t Returned :=
  (sweepSessions_returning (fun _ h => h) hglob
    (fun sid hsid mid t h => returning (hmarker sid hsid mid t h))
    (fun sid hsid mid t h => returning (hstatus sid hsid mid t h)) h).mono (fun _ h => h)
    fun _ _ _ hr => hr.2

end Rules

/-! ## An undisturbed sweep -/

section Enough

variable {s t : Site} {P : Choice → Prop} {cutoff : ℤ} {k : Key} {c : Choice}

/-- Every entry has been swept, if at all. -/
def AllSwept (s t : Site) : Prop := ∀ k, Swept (s.entry k) (t.entry k)

theorem AllSwept.file (h : AllSwept s t) {f : FileOp}
    (hf : ∀ now, Swept (s.entry k) (f.apply now (t.entry k))) :
    AllSwept s (t.next (.file k f) c) := by
  intro k'
  rw [Site.entry_next_file]
  split
  · next hk =>
    rw [hk]
    exact hf _
  · exact h k'

theorem Swept.unmark {e e' : Entry} (h : Swept e e') {m : ℕ} (hm : e'.delivered = some m)
    (hjson : ∀ env, e.envelope ≠ some (.json env)) (now : ℕ) :
    Swept e (FileOp.unmark.apply now e') where
  marker := .inr ⟨by rw [h.delivered_eq hm]; rfl, rfl, hjson⟩
  envelope := h.envelope
  view hd := by
    rw [h.delivered_eq hm] at hd
    cases hd

theorem Swept.unlink {e e' : Entry} (h : Swept e e') (hd : e.delivered.isSome) (now : ℕ) :
    Swept e (FileOp.unlinkEnvelope.apply now e') where
  marker := h.marker
  envelope := .inr ⟨hd, rfl⟩
  view hno := by
    rw [hno] at hd
    cases hd

theorem view_unlinkStatus {e : Entry} (h : e.view = {}) (now : ℕ) (f : StatusFile) :
    ((FileOp.unlinkStatus f).apply now e).view = {} := by
  simp only [Entry.view, View.mk.injEq] at h ⊢
  simp only [FileOp.apply, Entry.onStatus, Entry.info, Entry.consumed] at h ⊢
  cases hs : e.status with
  | none =>
    rw [hs] at h
    exact h
  | some d =>
    rw [hs] at h
    cases f with
    | phase => exact ⟨h.1, h.2.1, h.2.2.1, rfl⟩
    | kind => exact h
    | timestamp => exact h
    | info => exact ⟨rfl, rfl, rfl, h.2.2.2⟩

theorem Swept.unlinkStatus {e e' : Entry} (h : Swept e e')
    (hblank : e.delivered = none → e.view = {}) (now : ℕ) (f : StatusFile) :
    Swept e ((FileOp.unlinkStatus f).apply now e') where
  marker := h.marker
  envelope := h.envelope
  view hd := by
    have hview : e'.view = {} := ((h.view hd).1).trans (hblank hd)
    exact ⟨(view_unlinkStatus hview now f).trans (hblank hd).symm, .inl (hblank hd)⟩

theorem Swept.rmStatus {e e' : Entry} (h : Swept e e')
    (hblank : e.delivered = none → e.view = {}) (now : ℕ) :
    Swept e (FileOp.rmStatus.apply now e') where
  marker := h.marker
  envelope := h.envelope
  view hd := by
    rw [hblank hd]
    exact ⟨rfl, .inl rfl⟩

theorem AllSwept.sweepMarker (hH : Harmless cutoff s) (hdir : k.1 ∈ s.sessionDirs)
    (h : AllSwept s t) : (sweepMarker cutoff k).Total world 0 P (AllSwept s) t Returned := by
  refine sweepMarker_total (fun _ _ h => h) ?_ ?_ h
  · intro t c m h hm hlt
    exact h.file fun now => (h k).unmark hm (hH.marked k m hdir ((h k).delivered_eq hm) hlt) now
  · intro t c₁ c₂ c₃ m h hm hlt
    have hd := (h k).delivered_eq hm
    have h₁ : AllSwept s (t.next (.file k .unmark) c₁) :=
      h.file fun now => (h k).unmark hm (hH.marked k m hdir hd hlt) now
    have h₂ : AllSwept s ((t.next (.file k .unmark) c₁).next (.look k) c₂) := h₁
    exact h₂.file fun now => (h₂ k).unlink (by rw [hd]; rfl) now

theorem AllSwept.sweepStatus (hH : Harmless cutoff s) (hdir : k.1 ∈ s.sessionDirs)
    (h : AllSwept s t) : (sweepStatus cutoff k).Total world 0 P (AllSwept s) t Returned := by
  refine sweepStatus_total (fun _ _ h => h) ?_ h
  intro t d h hs hold
  have hblank : (s.entry k).delivered = none → (s.entry k).view = {} := by
    intro hd
    rcases ((h k).view hd).2 with hv | hv
    · exact hv
    · rw [hs] at hv
      exact hH.noted k d hdir hd hv.symm hold
  refine (rmtree_total ?_ ?_ d h).mono (fun _ h => h) fun r t' _ hr => ⟨(), hr.1⟩
  · intro t f c h
    exact h.file fun now => (h k).unlinkStatus hblank now f
  · intro t c h
    exact h.file fun now => (h k).rmStatus hblank now

theorem sweepAt_total {days : ℤ} {now : ℕ} (hH : Harmless (now - days * 86400 * second) s) :
    (sweepAt days now).Total world 0 P (Undisturbed s) s Returned := by
  have h₀ : AllSwept s s := fun k => .refl _
  refine Prog.Total.mono (I := AllSwept s) (Q := Returned) ?_ (fun _ h => undisturbed_of_swept h)
    fun _ _ _ hr => hr
  refine op_total h₀ fun c _ => sweepSessions_total (fun _ _ _ _ h => h) ?_ ?_ h₀
  · intro sid hsid mid t h
    exact h.sweepMarker hH hsid
  · intro sid hsid mid t h
    exact h.sweepStatus hH hsid

end Enough

/-! ## A sweep that disturbs -/

section Needed

variable {s t : Site} {cutoff : ℤ} {k : Key} {c : Choice} {e : Entry}

theorem op_reaches {α : Type} {o : Op} {f : Ans o → Call α}
    (h : (f ((s.tick o {}).answer {} o)).Reaches world 0 (fun _ => True) (s.next o {}) t) :
    (Prog.op o >>= f).Reaches world 0 (fun _ => True) s t :=
  .call trivial rfl h

theorem pass_reaches {α β : Type} {p : Call α} {f : α → Call β}
    (hp : p.Total world 0 (fun _ => True) (fun t => t.entry k = e) s Returned) :
    ∃ a s₁, s₁.entry k = e ∧ ∀ t, (f a).Reaches world 0 (fun _ => True) s₁ t →
      (p >>= f).Reaches world 0 (fun _ => True) s t := by
  obtain ⟨r, s₁, hrun⟩ := hp.runs (c := {}) trivial
  obtain ⟨a, rfl⟩ := hp.ends r s₁ hrun
  have hentry := (hp.mono (fun _ h => h) fun _ _ h _ => h).ends _ s₁ hrun
  exact ⟨a, s₁, hentry, fun t ht => hrun.reaches_bind ht⟩

theorem file_keeps {k' : Key} (hk : k ≠ k') {f : FileOp} (h : t.entry k = e) :
    (t.next (.file k' f) c).entry k = e := by
  rw [Site.entry_next_file, if_neg hk, h]

theorem sweepMarker_keeps (cutoff : ℤ) {k' : Key} (hk : k ≠ k' ∨ e.delivered = none)
    (h : t.entry k = e) :
    (sweepMarker cutoff k').Total world 0 (fun _ => True) (fun t => t.entry k = e) t Returned := by
  by_cases hne : k = k'
  · have hnone (t : Site) (m : ℕ) (h : t.entry k = e) : (t.entry k').delivered ≠ some m := by
      rcases hk with hk | hk
      · exact absurd hne hk
      · rw [← hne, h, hk]
        simp
    exact sweepMarker_total (fun _ _ h => h) (fun t _ m h hm => absurd hm (hnone t m h))
      (fun t _ _ _ m h hm => absurd hm (hnone t m h)) h
  · exact sweepMarker_total (fun _ _ h => h) (fun _ _ _ h _ _ => file_keeps hne h)
      (fun _ _ _ _ _ h _ _ => file_keeps hne (file_keeps hne h)) h

theorem sweepStatus_keeps (cutoff : ℤ) {k' : Key} (hk : k ≠ k') (h : t.entry k = e) :
    (sweepStatus cutoff k').Total world 0 (fun _ => True) (fun t => t.entry k = e) t Returned := by
  refine sweepStatus_total (fun _ _ h => h) (fun t d h _ _ => ?_) h
  refine (rmtree_total (J := fun t => t.entry k = e) ?_ ?_ d h).mono (fun _ h => h)
    fun _ _ _ hr => ⟨(), hr.1⟩
  · intro t f c h
    exact file_keeps hk h
  · intro t c h
    exact file_keeps hk h

theorem reaches_sweepEach {f : Key → Call ℕ} {mids : List String} (hmem : k.2 ∈ mids)
    (hf : ∀ k', k ≠ k' → ∀ t, t.entry k = e →
      (f k').Total world 0 (fun _ => True) (fun t => t.entry k = e) t Returned)
    (h : s.entry k = e) : ∃ s₁, s₁.entry k = e ∧ ∀ t,
      (f k).Reaches world 0 (fun _ => True) s₁ t →
      (sweepEach f k.1 mids).Reaches world 0 (fun _ => True) s t := by
  induction mids generalizing s with
  | nil => exact absurd hmem List.not_mem_nil
  | cons mid mids ih =>
    by_cases hmid : k.2 = mid
    · refine ⟨s, h, fun t ht => ?_⟩
      have hk : (k.1, mid) = k := Prod.ext rfl hmid.symm
      rw [← hk] at ht
      exact ht.bind
    · have hne : k ≠ (k.1, mid) := fun hk => hmid (congrArg Prod.snd hk)
      obtain ⟨n, s₁, h₁, hpass⟩ := pass_reaches (f := fun n => do
        let m ← sweepEach f k.1 mids
        return n + m) (hf _ hne s h)
      obtain ⟨s₂, h₂, hreach⟩ := ih ((List.mem_cons.mp hmem).resolve_left hmid) h₁
      exact ⟨s₂, h₂, fun t ht => hpass t (hreach t ht).bind⟩

theorem reaches_sweepSessions (cutoff : ℤ) {sids : List String} (hmem : k.1 ∈ sids)
    (h : s.entry k = e) :
    ∃ s₁ rest, s₁.entry k = e ∧ ∀ t,
      (sweepSessions cutoff (k.1 :: rest)).Reaches world 0 (fun _ => True) s₁ t →
      (sweepSessions cutoff sids).Reaches world 0 (fun _ => True) s t := by
  induction sids generalizing s with
  | nil => exact absurd hmem List.not_mem_nil
  | cons sid sids ih =>
    by_cases hsid : k.1 = sid
    · rw [hsid]
      exact ⟨s, sids, h, fun t ht => ht⟩
    · have hne (mid : String) : k ≠ (sid, mid) := fun hk => hsid (congrArg Prod.fst hk)
      obtain ⟨n, s₁, h₁, hmark⟩ := pass_reaches (e := e) (k := k)
        (s := s.next (.glob sid .markers) {})
        (f := fun n => do
          let m ← sweepEach (sweepStatus cutoff) sid (← Prog.op (Op.glob sid .statusDirs))
          let l ← sweepSessions cutoff sids
          return n + m + l)
        (sweepEach_total (fun mid t ht => sweepMarker_keeps cutoff (.inl (hne mid)) ht) h)
      obtain ⟨m, s₂, h₂, hstat⟩ := pass_reaches (e := e) (k := k)
        (s := s₁.next (.glob sid .statusDirs) {})
        (f := fun m => do
          let l ← sweepSessions cutoff sids
          return n + m + l)
        (sweepEach_total (fun mid t ht => sweepStatus_keeps cutoff (hne mid) ht) h₁)
      obtain ⟨s₃, rest, h₃, hreach⟩ := ih ((List.mem_cons.mp hmem).resolve_left hsid) h₂
      refine ⟨s₃, rest, h₃, fun t ht => ?_⟩
      exact op_reaches (hmark t (op_reaches (hstat t (hreach t ht).bind)))

theorem reaches_unmarked {days : ℤ} {now m : ℕ} (hdir : k.1 ∈ s.sessionDirs)
    (hm : (s.entry k).delivered = some m) (hlt : (m : ℤ) < now - days * 86400 * second) :
    ∃ t, (sweepAt days now).Reaches world 0 (fun _ => True) s t ∧
      (t.entry k).delivered = none ∧ (t.entry k).envelope = (s.entry k).envelope := by
  obtain ⟨s₁, rest, h₁, hsession⟩ := reaches_sweepSessions (now - days * 86400 * second)
    (s := s.next .sessions {}) hdir (Eq.refl (s.entry k))
  have hin : k.2 ∈ (s₁.tick (.glob k.1 .markers) {}).ids k.1 .markers := by
    rw [mem_ids, Site.entry_tick, h₁, Glob.matches, hm]
    rfl
  obtain ⟨s₂, h₂, heach⟩ := reaches_sweepEach (s := s₁.next (.glob k.1 .markers) {}) hin
    (fun k' hne t ht => sweepMarker_keeps (now - days * 86400 * second) (.inl hne) ht) h₁
  refine ⟨(s₂.next (.look k) {}).next (.file k .unmark) {}, ?_, ?_⟩
  · refine op_reaches (hsession _ (op_reaches (heach _ (op_reaches ?_)).bind))
    have hanswer : (s₂.tick (.look k) {}).answer {} (.look k) = s₂.entry k := rfl
    rw [hanswer, h₂, hm]
    show (if (now : ℤ) - days * 86400 * second ≤ (m : ℤ) then (Prog.ret 0 : Call ℕ)
      else _).Reaches world 0 _ _ _
    rw [if_neg (not_le.mpr hlt)]
    exact op_reaches .here
  · have hentry : ((s₂.next (.look k) {}).next (.file k .unmark) {}).entry k =
        { s.entry k with delivered := none } := by
      rw [Site.entry_next_file, if_pos rfl]
      exact congrArg (fun e : Entry => { e with delivered := none }) h₂
    rw [hentry]
    exact ⟨rfl, rfl⟩

theorem reaches_no_status {days : ℤ} {now : ℕ} {d : StatusDir} (hdir : k.1 ∈ s.sessionDirs)
    (hm : (s.entry k).delivered = none) (hd : (s.entry k).status = some d)
    (hlt : (d.age : ℤ) < now - days * 86400 * second) :
    ∃ t, (sweepAt days now).Reaches world 0 (fun _ => True) s t ∧ (t.entry k).status = none := by
  obtain ⟨s₁, rest, h₁, hsession⟩ := reaches_sweepSessions (now - days * 86400 * second)
    (s := s.next .sessions {}) hdir (Eq.refl (s.entry k))
  obtain ⟨n, s₂, h₂, hmark⟩ := pass_reaches (e := s.entry k) (k := k)
    (s := s₁.next (.glob k.1 .markers) {})
    (f := fun n => do
      let m ← sweepEach (sweepStatus (now - days * 86400 * second)) k.1
        (← Prog.op (Op.glob k.1 .statusDirs))
      let l ← sweepSessions (now - days * 86400 * second) rest
      return n + m + l)
    (sweepEach_total (fun mid t ht => sweepMarker_keeps _ (.inr hm) ht) h₁)
  have hin : k.2 ∈ (s₂.tick (.glob k.1 .statusDirs) {}).ids k.1 .statusDirs := by
    rw [mem_ids, Site.entry_tick, h₂, Glob.matches, hd]
    rfl
  obtain ⟨s₃, h₃, heach⟩ := reaches_sweepEach (s := s₂.next (.glob k.1 .statusDirs) {}) hin
    (fun k' hne t ht => sweepStatus_keeps (now - days * 86400 * second) hne ht) h₂
  have hrm := rmtree_total (k := k) (P := fun _ => True) (J := fun _ => True)
    (t := s₃.next (.look k) {}) (fun _ _ _ _ => trivial) (fun _ _ _ => trivial) d trivial
  obtain ⟨r, t, hrun⟩ := hrm.runs (c := {}) trivial
  refine ⟨t, ?_, (hrm.ends r t hrun).2⟩
  refine op_reaches (hsession t (op_reaches (hmark t (op_reaches (heach t (op_reaches ?_)).bind))))
  have hanswer : (s₃.tick (.look k) {}).answer {} (.look k) = s₃.entry k := rfl
  rw [hanswer, h₃, hd]
  show (if (d.age : ℤ) < now - days * 86400 * second then _
    else (Prog.ret 0 : Call ℕ)).Reaches world 0 _ _ _
  rw [if_pos hlt]
  exact hrun.reaches.bind

end Needed

/-- **The sweep.**  At any time and with any retention, the sweep and a crash at any
point of it leave the undelivered entries undisturbed and bring none back if and only if
no old marker has an envelope that can be read and no old status directory says anything
about an undelivered message. -/
theorem sweep_undisturbed_iff (s : Site) (days : ℤ) (now : ℕ) :
    (∀ t, (sweepAt days now).Reaches world 0 (fun _ => True) s t → Undisturbed s t) ↔
      Harmless (now - days * 86400 * second) s := by
  constructor
  · intro h
    constructor
    · intro k m hdir hm hlt env henv
      obtain ⟨t, ht, hno, hsame⟩ := reaches_unmarked hdir hm hlt
      have hpending := (h t ht).delivered k (by rw [hm]; rfl)
      rw [Entry.pending?, hsame, hno, henv] at hpending
      cases hpending
    · intro k d hdir hm hd hlt
      obtain ⟨t, ht, hno⟩ := reaches_no_status hdir hm hd hlt
      have hview := ((h t ht).pending k hm).2
      rw [← hview]
      simp only [Entry.view, Entry.info, Entry.consumed, hno]
      rfl
  · intro hH t ht
    exact (sweepAt_total hH).reaches ht

/-- A message without a marker that was acknowledged at the time 0. -/
def acknowledged : Entry :=
  { envelope := some (.json {}), status := some { mtime := 0, phase := some "consumed" } }

def acknowledgedSite : Site := { entries := Table.empty.set ("s", "m") acknowledged }

/-- After a week the acknowledgement is swept away, so the message is sent again. -/
theorem acknowledgement_swept : ¬ ∀ s days now t,
    (sweepAt days now).Reaches world 0 (fun _ => True) s t → Undisturbed s t := by
  intro h
  have hswept : (((sweepAt RETENTION_DAYS (seconds 604801)).after world 0 {} 20
      acknowledgedSite).entry ("s", "m")).consumed = false := by
    decide +kernel
  have hentry : acknowledgedSite.entry ("s", "m") = acknowledged := Table.get_set_self _ _ _
  have hundisturbed := h acknowledgedSite RETENTION_DAYS (seconds 604801) _
    (Prog.reaches_after (c := {}) trivial 20 _ _)
  have hview := (hundisturbed.pending ("s", "m") (by rw [hentry]; rfl)).2
  have hconsumed := (congrArg View.consumed hview).symm.trans hswept
  rw [hentry] at hconsumed
  exact absurd hconsumed (by decide)

end AiMeshChat.Swarm
