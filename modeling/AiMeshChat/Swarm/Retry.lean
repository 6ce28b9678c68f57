import AiMeshChat.Swarm.Rules

/-!
# One retry

What the body of the loop of `flush` does with an entry. The checks only ever clear a
pause that is over (`eligible_total`); the send touches no file (`resend_total`).
-/

namespace AiMeshChat.Swarm

open Lib

/-! ## Time and the trace -/

/-- From `s` to `t` only operations in `φ` were performed. -/
structure Grown (φ : Op → Prop) (s t : Site) : Prop where
  clock : s.clock ≤ t.clock
  trace : ∃ new, t.trace = s.trace ++ new ∧ ∀ x ∈ new, φ x.2 ∧ s.clock ≤ x.1

section Grown

variable {φ ψ : Op → Prop} {s t u : Site} {o : Op} {c : Choice}

theorem Grown.refl (s : Site) : Grown φ s s := ⟨le_rfl, [], by simp, by simp⟩

theorem Grown.next (h : Grown φ s t) (ho : φ o) : Grown φ s (t.next o c) where
  clock := by
    have hclock := h.clock
    rw [Site.clock_next]
    omega
  trace := by
    obtain ⟨new, htrace, hnew⟩ := h.trace
    have hclock := h.clock
    refine ⟨new ++ [(t.clock + c.delay, o)], ?_, ?_⟩
    · rw [Site.trace_next, htrace, List.append_assoc]
    · intro x hx
      rcases List.mem_append.mp hx with hx | hx
      · exact hnew x hx
      · rw [List.mem_singleton.mp hx]
        exact ⟨ho, by dsimp only; omega⟩

theorem Grown.mono (h : Grown φ s t) (hφ : ∀ o, φ o → ψ o) : Grown ψ s t where
  clock := h.clock
  trace := by
    obtain ⟨new, htrace, hnew⟩ := h.trace
    exact ⟨new, htrace, fun x hx => ⟨hφ _ (hnew x hx).1, (hnew x hx).2⟩⟩

theorem Grown.trans (h : Grown φ s t) (h' : Grown φ t u) : Grown φ s u where
  clock := le_trans h.clock h'.clock
  trace := by
    obtain ⟨new, htrace, hnew⟩ := h.trace
    obtain ⟨new', htrace', hnew'⟩ := h'.trace
    refine ⟨new ++ new', by rw [htrace', htrace, List.append_assoc], fun x hx => ?_⟩
    rcases List.mem_append.mp hx with hx | hx
    · exact hnew x hx
    · exact ⟨(hnew' x hx).1, le_trans h.clock (hnew' x hx).2⟩

end Grown

theorem file_entry (s : Site) (k : Key) (f : FileOp) (c : Choice) :
    (s.next (.file k f) c).entry k = f.apply (s.clock + c.delay) (s.entry k) := by
  rw [Site.entry_next_file, if_pos rfl]

/-! ## The checks -/

/-- An operation that reads, or that writes `meta.json`. -/
def Op.Probes (k : Key) : Op → Prop
  | .now => True
  | .look k' => k' = k
  | .file k' .mkStatus => k' = k
  | .file k' .draftInfo => k' = k
  | .file k' (.putInfo _) => k' = k
  | _ => False

/-- An entry whose status alone has changed: a pause that is over may have been cleared. -/
structure Entry.Probed (e e' : Entry) : Prop where
  rest : e' = { e with status := e'.status }
  consumed : e'.consumed = e.consumed
  info : e'.info = e.info ∨ e'.info = e.info.reprobed

theorem Entry.Probed.refl (e : Entry) : e.Probed e := ⟨rfl, rfl, .inl rfl⟩

theorem RetryMeta.reprobed_idem (m : RetryMeta) : m.reprobed.reprobed = m.reprobed := rfl

theorem info_mkStatus (e : Entry) (now : ℕ) : (FileOp.mkStatus.apply now e).info = e.info := by
  simp only [FileOp.apply, Entry.info]
  cases e.status <;> rfl

theorem info_draftInfo (e : Entry) (now : ℕ) : (FileOp.draftInfo.apply now e).info = e.info := by
  simp only [FileOp.apply, Entry.onStatus, Entry.info]
  cases e.status <;> rfl

theorem Entry.Probed.draft {e e' : Entry} (h : e.Probed e') (now : ℕ) :
    e.Probed (FileOp.draftInfo.apply now e') := by
  have hconsumed : (FileOp.draftInfo.apply now e').consumed = e'.consumed := by
    simp only [FileOp.apply, Entry.onStatus, Entry.consumed]
    cases e'.status <;> rfl
  refine ⟨?_, hconsumed.trans h.consumed, ?_⟩
  · have hrest := h.rest
    rw [FileOp.apply, Entry.onStatus]
    generalize Option.map _ e'.status = st
    rw [hrest]
  · rw [info_draftInfo]
    exact h.info

/-- What `meta.json` says after it was written. -/
theorem info_putInfo (e : Entry) (now : ℕ) (m : RetryMeta) :
    ((FileOp.putInfo m).apply now e).info = if e.status.isSome then m else e.info := by
  simp only [FileOp.apply, Entry.onStatus, Entry.info]
  cases e.status <;> rfl

theorem Entry.Probed.put {e e' : Entry} (h : e.Probed e') (now : ℕ) :
    e.Probed ((FileOp.putInfo e'.info.reprobed).apply now e') := by
  have hconsumed : ((FileOp.putInfo e'.info.reprobed).apply now e').consumed = e'.consumed := by
    simp only [FileOp.apply, Entry.onStatus, Entry.consumed]
    cases e'.status <;> rfl
  refine ⟨?_, hconsumed.trans h.consumed, ?_⟩
  · have hrest := h.rest
    rw [FileOp.apply, Entry.onStatus]
    generalize Option.map _ e'.status = st
    rw [hrest]
  · rw [info_putInfo]
    split
    · rcases h.info with hi | hi
      · exact .inr (by rw [hi])
      · exact .inr (by rw [hi, RetryMeta.reprobed_idem])
    · exact h.info

/-- The site during the checks. -/
structure Probed (k : Key) (s t : Site) : Prop where
  others : ∀ k', k' ≠ k → t.entry k' = s.entry k'
  entry : (s.entry k).Probed (t.entry k)
  mem : t.mem = s.mem
  sessions : t.sessions = s.sessions
  grown : Grown (Op.Probes k) s t

section Probed

variable {k : Key} {s t : Site} {c : Choice} {P : Choice → Prop}

theorem Probed.refl (s : Site) : Probed k s s :=
  ⟨fun _ _ => rfl, .refl _, rfl, rfl, .refl s⟩

theorem Probed.read (h : Probed k s t) {o : Op} (ho : o.Probes k)
    (hstill : ∀ k', (t.next o c).entry k' = t.entry k') : Probed k s (t.next o c) where
  others k' hk' := by rw [hstill, h.others k' hk']
  entry := by
    rw [hstill]
    exact h.entry
  mem := by
    rw [Site.mem_next, ← h.mem]
    cases o <;> first | rfl | exact ho.elim
  sessions := (Site.sessions_next o c).trans h.sessions
  grown := h.grown.next ho

theorem Probed.file (h : Probed k s t) {f : FileOp} (ho : (Op.file k f).Probes k)
    (hf : ∀ now, (s.entry k).Probed (f.apply now (t.entry k))) :
    Probed k s (t.next (.file k f) c) where
  others k' hk' := by rw [Site.entry_next_file, if_neg hk', h.others k' hk']
  entry := by
    rw [Site.entry_next_file, if_pos rfl]
    exact hf _
  mem := by rw [Site.mem_next, ← h.mem]
  sessions := (Site.sessions_next _ c).trans h.sessions
  grown := h.grown.next ho

theorem Probed.look (h : Probed k s t) : Probed k s (t.next (.look k) c) :=
  h.read (o := .look k) rfl fun _ => rfl

theorem Probed.now (h : Probed k s t) : Probed k s (t.next .now c) :=
  h.read (o := .now) trivial fun _ => rfl

theorem Probed.draft (h : Probed k s t) : Probed k s (t.next (.file k .draftInfo) c) :=
  h.file rfl fun now => h.entry.draft now

/-- The deadlines of an entry that is not given up have come. -/
structure Ready (k : Key) (s : Site) : Prop where
  delivered : (s.entry k).delivered = none
  consumed : (s.entry k).consumed = false
  terminal : (s.entry k).info.terminal = false
  attempt : ∀ d, (s.entry k).info.nextAttemptAt = some d → d ≤ s.clock
  reprobe : ∀ d, (s.entry k).info.nextReprobeAt = some d → d ≤ s.clock

/-- What holds of an entry that is tried. -/
structure Due (k : Key) (s : Site) : Prop where
  delivered : (s.entry k).delivered = none
  terminal : (s.entry k).info.terminal = false
  attempt : ∀ d, (s.entry k).info.nextAttemptAt = some d → d ≤ s.clock

theorem readInfo_bind_total {α : Type} {I : Site → Prop} {f : RetryMeta → Call α}
    {Q : Except String α → Site → Prop} (hI : I t)
    (h : ∀ c, P c → (f (t.entry k).info).Total world 0 P I (t.next (.look k) c) Q) :
    (readInfo k >>= f).Total world 0 P I t Q := op_total hI h

theorem reached_total (h : Probed k s t) (deadline : Option ℕ) :
    (reached deadline).Total world 0 P (fun _ => True) t fun r u =>
      (Probed k s u ∧ u.entry = t.entry) ∧ ∃ b, r = .ok b ∧
        (b = true ↔ ∀ d, deadline = some d → d ≤ u.clock) := by
  cases deadline with
  | none => exact Prog.total_ret trivial ⟨⟨h, rfl⟩, true, rfl, by simp⟩
  | some d =>
    refine op_total trivial fun c _ => Prog.total_ret trivial ⟨⟨h.now, rfl⟩, _, rfl, ?_⟩
    rw [decide_eq_true_iff]
    constructor
    · intro hle d' hd
      cases hd
      exact hle
    · intro hall
      exact hall d rfl

theorem reprobePaused_total (h : Probed k s t) :
    (reprobePaused k).Total world 0 P (fun _ => True) t fun r u => Probed k s u ∧ r = .ok () ∧
      (Ready k s → (u.entry k).info.pausedForUpgrade = false) := by
  refine readInfo_bind_total trivial fun c _ => ?_
  have h₁ : Probed k s (t.next (.look k) c) := h.look
  cases hpause : (t.entry k).info.pausedForUpgrade with
  | false =>
    simp only [Bool.not_false, if_true]
    exact Prog.total_ret trivial ⟨h₁, rfl, fun _ => hpause⟩
  | true =>
    simp only [Bool.not_true, Bool.false_eq_true, if_false]
    refine (reached_total h₁ _).bind ?_ ?_
    · intro b u _ hb
      obtain ⟨⟨hu, hentry⟩, b', hb', hdue⟩ := hb
      cases hb'
      have hinfo : (u.entry k).info = (t.entry k).info := congrArg Entry.info (congrFun hentry k)
      cases b with
      | false =>
        refine Prog.total_ret trivial ⟨hu, rfl, fun hr => absurd (hdue.mpr ?_) (by simp)⟩
        intro d hd
        rcases h.entry.info with hi | hi
        · rw [hi] at hd
          exact le_trans (hr.reprobe d hd) hu.grown.clock
        · rw [hi] at hd
          cases hd
      | true =>
        refine op_total trivial fun c₂ _ => ?_
        have hu₂ : Probed k s (u.next (.file k .draftInfo) c₂) := hu.draft
        have hinfo₂ : ((u.next (.file k .draftInfo) c₂).entry k).info = (t.entry k).info := by
          rw [file_entry, info_draftInfo, hinfo]
        rw [← hinfo₂]
        refine last_total trivial fun c₃ _ => ⟨trivial, hu₂.file rfl hu₂.entry.put, rfl, ?_⟩
        intro _
        rw [file_entry, info_putInfo]
        split
        · rfl
        · next hno =>
          -- without a status directory nothing is paused
          have hnone : ((u.next (.file k .draftInfo) c₂).entry k).status = none := by simpa using hno
          rw [← hinfo₂, Entry.info, hnone] at hpause
          cases hpause
    · intro e u _ hb
      obtain ⟨-, b', hb', -⟩ := hb
      cases hb'

theorem unpaused_total (h : Probed k s t) :
    (unpaused k).Total world 0 P (fun _ => True) t fun r u => Probed k s u ∧
      ∃ b, r = .ok b ∧ (Ready k s → b = true) := by
  refine op_total trivial fun c _ => ?_
  have h₁ : Probed k s (t.next (.look k) c) := h.look
  have hanswer : ((t.tick (.look k) c).answer c (.look k)).info = (t.entry k).info := rfl
  rw [hanswer]
  cases hpause : (t.entry k).info.pausedForUpgrade with
  | false =>
    show (Prog.ret true : Call Bool).Total world 0 P _ _ _
    exact Prog.total_ret trivial ⟨h₁, true, rfl, fun _ => rfl⟩
  | true =>
    show (reprobePaused k >>= fun _ => isPaused k >>= fun b => Prog.ret (!b)).Total
      world 0 P _ _ _
    refine (reprobePaused_total h₁).bind ?_ ?_
    · intro _ u _ hu
      refine op_total trivial fun c₂ _ => ?_
      refine Prog.total_ret trivial ⟨hu.1.look, _, rfl, fun hr => ?_⟩
      show (!(u.entry k).info.pausedForUpgrade) = true
      rw [hu.2.2 hr]
      rfl
    · intro e u _ hu
      cases hu.2.1

/-- **The checks.**  An entry that passes them is due, and one whose deadlines have come
passes them. -/
theorem eligible_total (s : Site) : (eligible k).Total world 0 P (fun _ => True) s fun r t =>
    Probed k s t ∧ ∃ b, r = .ok b ∧ (b = true → Due k t) ∧ (Ready k s → b = true) := by
  refine op_total trivial fun c _ => ?_
  have h₁ : Probed k s (s.next (.look k) c) := (Probed.refl s).look
  have hanswer : (s.tick (.look k) c).answer c (.look k) = s.entry k := rfl
  rw [hanswer]
  by_cases hskip : ((s.entry k).delivered.isSome || (s.entry k).consumed) = true
  · rw [if_pos hskip]
    refine Prog.total_ret trivial ⟨h₁, false, rfl, (fun h => by cases h), fun hr => ?_⟩
    rw [hr.delivered, hr.consumed] at hskip
    cases hskip
  · rw [if_neg hskip]
    have hdel : (s.entry k).delivered = none := by
      simp only [Bool.or_eq_true, not_or, Bool.not_eq_true, Option.isSome_eq_false_iff,
        Option.isNone_iff_eq_none] at hskip
      exact hskip.1
    refine (unpaused_total h₁).bind ?_ ?_
    · intro b u _ hb
      obtain ⟨hu, b', hb', hready⟩ := hb
      cases hb'
      cases b with
      | false =>
        refine Prog.total_ret trivial ⟨hu, false, rfl, (fun h => by cases h), hready⟩
      | true =>
        refine readInfo_bind_total trivial fun c₂ _ => ?_
        have hu₂ : Probed k s (u.next (.look k) c₂) := hu.look
        cases hterm : (u.entry k).info.terminal with
        | true =>
          refine Prog.total_ret trivial ⟨hu₂, false, rfl, (fun h => by cases h), fun hr => ?_⟩
          rcases hu.entry.info with hi | hi
          · rw [hi, hr.terminal] at hterm
            cases hterm
          · have hterm' : (s.entry k).info.terminal = true := by rw [hi] at hterm; exact hterm
            rw [hr.terminal] at hterm'
            cases hterm'
        | false =>
          refine (reached_total hu₂ _).mono (fun _ h => h) fun r v _ hv => ?_
          obtain ⟨⟨hv, hentry⟩, b, rfl, hdue⟩ := hv
          have hsame : v.entry k = u.entry k := congrFun hentry k
          refine ⟨hv, b, rfl, fun hb => ⟨?_, ?_, ?_⟩, fun hr => hdue.mpr ?_⟩
          · rw [hv.entry.rest]
            exact hdel
          · rw [hsame, hterm]
          · rw [hsame]
            exact hdue.mp hb
          · intro d hd
            have hd' : (s.entry k).info.nextAttemptAt = some d := by
              rcases hu.entry.info with hi | hi <;> rw [hi] at hd <;> exact hd
            exact le_trans (hr.attempt d hd') hv.grown.clock
    · intro e u _ hb
      obtain ⟨-, b', hb', -⟩ := hb
      cases hb'

end Probed

/-! ## Writing `meta.json` -/

/-- The meta data of the entry were replaced by `g`, as they were at some time since. -/
structure Rewritten (k : Key) (g : RetryMeta → ℕ → RetryMeta) (s t : Site) : Prop where
  rest : t.entry k = { s.entry k with status := (t.entry k).status }
  info : ∃ now, s.clock ≤ now ∧ (t.entry k).info = g (s.entry k).info now
  grown : Grown (Op.Probes k) s t

/-- The common part of `recordAttempt` and `pauseForUpgrade`. -/
theorem rewriteInfo_total {k : Key} {s : Site} {P : Choice → Prop} {α : Type}
    {g : RetryMeta → ℕ → RetryMeta} {f : RetryMeta → Call α} {Q : Except String α → Site → Prop}
    (h : ∀ t, Rewritten k g s t → (f (s.entry k).info).Total world 0 P (fun _ => True) t Q) :
    (file k .mkStatus >>= fun _ => readInfo k >>= fun m => Prog.op Op.now >>= fun now =>
      replaceInfo k (g m now) >>= fun _ => f m).Total world 0 P (fun _ => True) s Q := by
  refine op_total trivial fun c₁ _ => op_total trivial fun c₂ _ => op_total trivial fun c₃ _ => ?_
  refine op_total trivial fun c₄ _ => op_total trivial fun c₅ _ => ?_
  -- the time that is read, and the entry at each operation
  let u := ((s.next (.file k .mkStatus) c₁).next (.look k) c₂).next .now c₃
  have hu : u.entry k = FileOp.mkStatus.apply (s.clock + c₁.delay) (s.entry k) := file_entry _ _ _ _
  have hclock : s.clock ≤ u.clock := by
    simp only [u, Site.clock_next]
    omega
  have hinfo : ((s.next (.file k .mkStatus) c₁).entry k).info = (s.entry k).info := by
    rw [file_entry, info_mkStatus]
  show (f ((s.next (.file k .mkStatus) c₁).entry k).info).Total world 0 P _
    ((u.next (.file k .draftInfo) c₄).next (.file k (.putInfo
      (g ((s.next (.file k .mkStatus) c₁).entry k).info u.clock))) c₅) Q
  rw [hinfo]
  have hv : (u.next (.file k .draftInfo) c₄).entry k =
      FileOp.draftInfo.apply (u.clock + c₄.delay) (u.entry k) := file_entry _ _ _ _
  refine h _ ⟨?_, ⟨u.clock, hclock, ?_⟩, ?_⟩
  · rw [file_entry, hv, hu]
    rfl
  · rw [file_entry, hv, hu, info_putInfo]
    rfl
  · have h₁ : Grown (Op.Probes k) s u :=
      (((Grown.refl (φ := Op.Probes k) s).next (o := .file k .mkStatus) rfl).next
        (o := .look k) rfl).next (o := .now) trivial
    exact (h₁.next (o := .file k .draftInfo) rfl).next rfl

/-! ## The send -/

/-- The site during a send. -/
structure Sent (k : Key) (s t : Site) : Prop where
  entry : t.entry = s.entry
  grown : Grown (fun o => ∃ dest, o.Sends k dest) s t

section Sent

variable {k : Key} {s t : Site} {P : Choice → Prop} {α : Type}

theorem entry_next_sends {o : Op} {c : Choice} {dest : Option HostSpec} (h : o.Sends k dest) :
    (s.next o c).entry = s.entry := by
  cases o <;> first | exact h.elim | rfl

theorem sends_sent {p : Call α} {dest : Option HostSpec} (hp : p.Bounded (Op.Sends k dest))
    (h : Sent k s t) : p.Total world 0 P (fun _ => True) t fun _ u => Sent k s u := by
  refine (bounded_total (J := Sent k s) hp ?_ h).mono (fun _ _ => trivial) fun _ _ _ h => h
  intro o c u ho _ hu
  exact ⟨(entry_next_sends ho).trans hu.entry, hu.grown.next ⟨dest, ho⟩⟩

theorem entry_next_retries {k' : Key} {o : Op} {c : Choice} (h : o.Retries k') (hk : k' ≠ k) :
    (s.next o c).entry k = s.entry k := by
  cases o with
  | file k₁ f =>
    have hne : k ≠ k₁ := fun he => hk (h.1.symm.trans he.symm)
    rw [Site.entry_next_file, if_neg hne]
  | openTmp k₁ =>
    obtain ⟨dest, hs⟩ := h
    exact hs.elim
  | publish k₁ =>
    obtain ⟨dest, hs⟩ := h
    exact hs.elim
  | _ => rfl

/-- A transport was contacted for the message between `s` and `t`. -/
def Attempted (k : Key) (s t : Site) : Prop :=
  ∃ new, t.trace = s.trace ++ new ∧ ∃ x ∈ new, x.2.attempts k = true

theorem Attempted.grow {φ : Op → Prop} {u : Site} (h : Attempted k s t) (h' : Grown φ t u) :
    Attempted k s u := by
  obtain ⟨new, htrace, x, hx, hatt⟩ := h
  obtain ⟨new', htrace', -⟩ := h'.trace
  refine ⟨new ++ new', by rw [htrace', htrace, List.append_assoc], x, ?_, hatt⟩
  exact List.mem_append_left _ hx

theorem Grown.attempted {φ : Op → Prop} {u : Site} (h : Grown φ s t) (h' : Attempted k t u) :
    Attempted k s u := by
  obtain ⟨new, htrace, -⟩ := h.trace
  obtain ⟨new', htrace', x, hx, hatt⟩ := h'
  refine ⟨new ++ new', by rw [htrace', htrace, List.append_assoc], x, ?_, hatt⟩
  exact List.mem_append_right _ hx

theorem first_attempts {o : Op} {f : Ans o → Call α} (dest : Option HostSpec)
    (ho : o.Sends k dest) (hatt : o.attempts k = true)
    (hf : ∀ a, (f a).Bounded (Op.Sends k dest)) :
    (Prog.op o >>= f).Total world 0 P (fun _ => True) s fun _ t =>
      Sent k s t ∧ Attempted k s t := by
  refine op_total trivial fun c _ => ?_
  have h₀ : Grown (fun o => ∃ dest, o.Sends k dest) s (s.next o c) := (Grown.refl s).next ⟨dest, ho⟩
  have hnow : Attempted k s (s.next o c) :=
    ⟨[(s.clock + c.delay, o)], Site.trace_next o c, _, List.mem_singleton_self _, hatt⟩
  refine (sends_sent (hf _) ⟨rfl, .refl _⟩).mono (fun _ h => h) fun _ t _ ht => ?_
  exact ⟨⟨ht.entry.trans (entry_next_sends ho), h₀.trans ht.grown⟩, hnow.grow ht.grown⟩

theorem resend_total (cfg : Config) (env : Envelope) (hostAlias : String) (target : HostSpec) :
    (resend cfg k env hostAlias target).Total world 0 P (fun _ => True) s fun _ t =>
      Sent k s t ∧ Attempted k s t := by
  unfold resend
  split
  · exact first_attempts (o := .localMailbox k _) none ⟨rfl, rfl⟩ (by simp [Op.attempts])
      (localSend_bounded k env).2
  · exact first_attempts (o := .getTransport k target) (some target) ⟨rfl, rfl⟩
      (by simp [Op.attempts]) (remoteSend_bounded cfg k target env).2

end Sent

end AiMeshChat.Swarm
