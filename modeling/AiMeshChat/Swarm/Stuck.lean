import AiMeshChat.Swarm.Conservation
import AiMeshChat.Swarm.Retry
import AiMeshChat.Swarm.Sweep

/-!
# No entry gets stuck

`meta.json` marks an entry as terminal before its envelope is moved to the dead letter,
and an entry so marked is never tried. A crash between the two leaves it there for
good. So does a status directory that the dead letter has no place for: the move
raises, and the mark stays in the outbox. Without these every entry whose deadlines
have come is tried at the next `flush` (`attempted_run`).
-/

namespace AiMeshChat.Swarm

open Lib

/-- No status in the outbox is marked as terminal. -/
def NoTerminal (s : Site) : Prop := ∀ k, (s.entry k).info.terminal = false

/-- The dead letter has a place for the status directory of an entry. -/
def Entry.Roomy (e : Entry) : Prop :=
  e.envelope.isSome → ¬ (e.deadStatus.isSome ∧ e.deadNested.isSome)

/-- The dead letter has a place for the status directory of each message in the outbox. -/
def Roomy (s : Site) : Prop := ∀ k, (s.entry k).Roomy

/-- The state between two calls. -/
structure Tidy (s : Site) : Prop where
  terminal : NoTerminal s
  roomy : Roomy s

/-! ## Files -/

section Files

variable {e : Entry} {now : ℕ} {f : FileOp}

theorem info_notes (h : f.Notes) : (f.apply now e).info = e.info := by
  cases f with
  | mkStatus => exact info_mkStatus e now
  | draftInfo => exact info_draftInfo e now
  | putPhase t | putKind t | putTimestamp t =>
    simp only [FileOp.apply, Entry.onStatus, Entry.info]
    cases e.status <;> rfl
  | _ => exact h.elim

theorem info_unlinkStatus (e : Entry) (now : ℕ) (file : StatusFile) :
    ((FileOp.unlinkStatus file).apply now e).info = e.info ∨
      ((FileOp.unlinkStatus file).apply now e).info = {} := by
  simp only [FileOp.apply, Entry.onStatus, Entry.info]
  cases e.status with
  | none => exact .inl rfl
  | some d =>
    cases file with
    | info => exact .inr rfl
    | _ => exact .inl rfl

theorem consumed_unlinkStatus (h : e.consumed = false) (file : StatusFile) :
    ((FileOp.unlinkStatus file).apply now e).consumed = false := by
  simp only [FileOp.apply, Entry.onStatus, Entry.consumed] at h ⊢
  cases hs : e.status with
  | none => rfl
  | some d =>
    rw [hs] at h
    cases file with
    | phase => rfl
    | _ => exact h

end Files

/-! ## A delivery -/

section Deliver

variable {s : Site} {k : Key} {o : Op} {c : Choice}

theorem NoTerminal.file (h : NoTerminal s) {f : FileOp}
    (hf : (f.apply (s.clock + c.delay) (s.entry k)).info.terminal = false) :
    NoTerminal (s.next (.file k f) c) := by
  intro k'
  rw [Site.entry_next_file]
  split
  · exact hf
  · exact h k'

theorem NoTerminal.setEntry (h : NoTerminal s) {e : Entry} (he : e.info.terminal = false) :
    NoTerminal (s.setEntry k e) := by
  intro k'
  rw [Site.entry_setEntry]
  split
  · exact he
  · exact h k'

theorem NoTerminal.delivers (h : NoTerminal s) {dest : Option HostSpec} (ho : o.Delivers k dest) :
    NoTerminal (s.next o c) := by
  cases o with
  | file k' f =>
    rcases ho with ⟨-, hf | rfl⟩ | ⟨-, env, rfl⟩
    · exact h.file (by rw [info_notes hf]; exact h k')
    · exact h.file (h k')
    · exact h.file (h k')
  | openTmp k' =>
    rw [Site.next, Site.effect]
    split
    · exact NoTerminal.setEntry (s := s.tick _ c) h (h (tmpKey k'))
    · exact h
  | publish k' =>
    have h₁ : NoTerminal ((s.tick (.publish k') c).setEntry (tmpKey k')
        { (s.tick (.publish k') c).entry (tmpKey k') with envelope := none }) :=
      NoTerminal.setEntry (s := s.tick _ c) h (h (tmpKey k'))
    exact h₁.setEntry (h₁ k')
  | _ => exact h

end Deliver

/-! ## A retry -/

section Retry

variable {k : Key} {s t : Site} {P : Choice → Prop} {cfg : Config}

/-- What a call leaves of an entry. -/
structure Entry.Tidy (e : Entry) : Prop where
  terminal : e.info.terminal = false
  roomy : e.Roomy

theorem moveStatus_total (h : ¬ ((s.entry k).deadStatus.isSome ∧ (s.entry k).deadNested.isSome)) :
    (moveStatus k).Total world 0 P (fun _ => True) s fun r t =>
      r = .ok () ∧ (t.entry k).status = none ∧ (t.entry k).envelope = (s.entry k).envelope := by
  refine op_total trivial fun c _ => ?_
  show (if (s.entry k).status.isNone then (Prog.ret () : Call Unit)
    else if (s.entry k).deadStatus.isSome && (s.entry k).deadNested.isSome
      then Prog.raise "Destination path already exists" else file k .buryStatus).Total
    world 0 P _ _ _
  cases hs : (s.entry k).status with
  | none =>
    rw [Option.isNone_none, if_pos rfl]
    exact Prog.total_ret trivial ⟨rfl, hs, rfl⟩
  | some d =>
    rw [if_neg (by simp), if_neg (by simpa using h)]
    refine last_total trivial fun c' _ => ⟨trivial, rfl, ?_⟩
    have hentry : ((s.next (.look k) c).next (.file k .buryStatus) c').entry k =
        (s.entry k).buryStatus := file_entry _ _ _ _
    rw [hentry, Entry.buryStatus, hs]
    dsimp only
    split <;> exact ⟨rfl, rfl⟩

theorem deadLetter_tidy (henv : (s.entry k).envelope.isSome)
    (h : ¬ ((s.entry k).deadStatus.isSome ∧ (s.entry k).deadNested.isSome)) (reason : String) :
    (deadLetter k reason).Total world 0 P (fun _ => True) s fun r t =>
      r = .ok () ∧ (t.entry k).Tidy := by
  refine op_total trivial fun c _ => ?_
  obtain ⟨x, hx⟩ := Option.isSome_iff_exists.mp henv
  show (if (s.entry k).envelope.isNone then (Prog.ret () : Call Unit) else _).Total world 0 P _ _ _
  rw [if_neg (by simp [hx])]
  refine op_total trivial fun c' _ => ?_
  have hentry : ((s.next (.look k) c).next (.file k .bury) c').entry k = (s.entry k).bury :=
    file_entry _ _ _ _
  have hbury : (s.entry k).bury = { s.entry k with envelope := none, dead := some x } := by
    rw [Entry.bury, hx]
  rw [hbury] at hentry
  generalize (s.next (.look k) c).next (.file k .bury) c' = u at hentry
  have hroom : ¬ ((u.entry k).deadStatus.isSome ∧ (u.entry k).deadNested.isSome) := by
    rw [hentry]
    exact h
  refine (moveStatus_total hroom).bind ?_ ?_
  · intro _ v _ hv
    obtain ⟨-, hstatus, hnone⟩ := hv
    rw [hentry] at hnone
    refine last_total trivial fun c₂ _ => ⟨trivial, rfl, ?_, ?_⟩
    · rw [file_entry, FileOp.apply, Entry.info, hstatus]
      rfl
    · rw [file_entry]
      intro hsome
      have hsome : (v.entry k).envelope.isSome := hsome
      rw [hnone] at hsome
      cases hsome
  · intro e v _ hv
    cases hv.1

theorem Entry.Roomy.status {e e' : Entry} (h : e.Roomy) (he : e' = { e with status := e'.status }) :
    e'.Roomy := by
  intro henv
  rw [he] at henv ⊢
  exact h henv

theorem recordAttempt_status (text : String) (terminal : Bool) :
    (recordAttempt k text terminal).Total world 0 P (fun _ => True) s fun r t =>
      (∃ n, r = .ok n) ∧ t.entry k = { s.entry k with status := (t.entry k).status } ∧
      (t.entry k).info.terminal = terminal := by
  refine rewriteInfo_total (g := fun m now => m.record now text terminal)
    (f := fun m => Prog.ret (m.attemptCount + 1)) fun t ht => ?_
  obtain ⟨now, -, hinfo⟩ := ht.info
  exact Prog.total_ret trivial ⟨⟨_, rfl⟩, ht.rest, by rw [hinfo]; rfl⟩

theorem handleFlushFailure_tidy (h : (s.entry k).Tidy) (henv : (s.entry k).envelope.isSome)
    (text : String) : (handleFlushFailure k text).Total world 0 P (fun _ => True) s fun r t =>
      r = .ok () ∧ (t.entry k).Tidy := by
  unfold handleFlushFailure
  split
  · refine rewriteInfo_total (g := fun m now => m.paused now text) (f := fun _ => Prog.ret ())
      fun t ht => Prog.total_ret trivial ⟨rfl, ?_, h.roomy.status ht.rest⟩
    obtain ⟨now, -, hinfo⟩ := ht.info
    rw [hinfo]
    rfl
  · refine (recordAttempt_status text _).bind ?_ ?_
    · intro n t _ ht
      obtain ⟨-, hrest, hterm⟩ := ht
      have henv₁ : (t.entry k).envelope.isSome := by
        rw [hrest]
        exact henv
      have hroom := h.roomy.status hrest henv₁
      split
      · exact deadLetter_tidy henv₁ hroom _
      · next hno =>
        split
        · exact deadLetter_tidy henv₁ hroom _
        · refine Prog.total_ret trivial ⟨rfl, ?_, h.roomy.status hrest⟩
          rw [hterm]
          simpa using hno
    · intro e t _ ht
      obtain ⟨n, hn⟩ := ht.1
      cases hn

theorem retry_tidy (h : (s.entry k).Tidy) (henv : (s.entry k).envelope.isSome) (env : Envelope)
    (hostAlias : String) :
    (retry cfg k env hostAlias).Total world 0 P (fun _ => True) s fun r t =>
      (∃ b, r = .ok b) ∧ (t.entry k).Tidy := by
  refine op_total trivial fun c _ => ?_
  refine attempt_bind_total (resend_total (k := k) cfg env hostAlias _) fun r u _ hu => ?_
  have hentry : u.entry k = s.entry k := congrFun hu.1.entry k
  rw [← hentry] at h henv
  cases r with
  | ok x =>
    refine op_total trivial fun c _ => op_total trivial fun c' _ => op_total trivial fun c'' _ => ?_
    have hmark : (u.next (.file k .mark) c).entry k =
        FileOp.mark.apply (u.clock + c.delay) (u.entry k) := file_entry _ _ _ _
    refine Prog.total_ret trivial ⟨⟨true, rfl⟩, ?_⟩
    show ((u.next (.file k .mark) c).entry k).Tidy
    rw [hmark]
    exact ⟨h.terminal, h.roomy⟩
  | error text =>
    refine op_total trivial fun c _ => ?_
    have h₁ : ((u.next (.failed k text) c).entry k).Tidy := h
    refine (handleFlushFailure_tidy h₁ henv text).bind ?_ ?_
    · intro _ t _ ht
      exact Prog.total_ret trivial ⟨⟨false, rfl⟩, ht.2⟩
    · intro e t _ ht
      cases ht.1

theorem Probed.tidy (h : Probed k s t) (hs : (s.entry k).Tidy) : (t.entry k).Tidy := by
  refine ⟨?_, hs.roomy.status h.entry.rest⟩
  rcases h.entry.info with hi | hi
  · rw [hi]
    exact hs.terminal
  · rw [hi]
    exact hs.terminal

theorem Entry.envelope_of_target {e : Entry} {x : Envelope × String} (h : e.target? = some x) :
    e.envelope.isSome := by
  rw [Option.isSome_iff_ne_none]
  intro hnone
  rw [Entry.target?, hnone] at h
  cases h

theorem flushEntry_tidy (h : (s.entry k).Tidy) :
    (flushEntry cfg k).Total world 0 P (fun _ => True) s fun r t =>
      (∃ b, r = .ok b) ∧ (t.entry k).Tidy := by
  refine (eligible_total s).bind ?_ ?_
  · intro b t _ hb
    obtain ⟨hprobed, b', hb', -, -⟩ := hb
    cases hb'
    have ht := hprobed.tidy h
    cases b with
    | false => exact Prog.total_ret trivial ⟨⟨false, rfl⟩, ht⟩
    | true =>
      refine op_total trivial fun c _ => ?_
      have hanswer : (t.tick (.look k) c).answer c (.look k) = t.entry k := rfl
      rw [hanswer]
      have ht₁ : ((t.next (.look k) c).entry k).Tidy := ht
      cases htarget : (t.entry k).target? with
      | none => exact Prog.total_ret trivial ⟨⟨false, rfl⟩, ht₁⟩
      | some x =>
        have henv : ((t.next (.look k) c).entry k).envelope.isSome :=
          Entry.envelope_of_target htarget
        exact retry_tidy ht₁ henv x.1 x.2
  · intro e t _ hb
    obtain ⟨-, b', hb', -⟩ := hb
    cases hb'

theorem flushEntry_attempts (hready : Ready k s) (htarget : (s.entry k).target?.isSome) :
    (flushEntry cfg k).Total world 0 P (fun _ => True) s fun _ t => Attempted k s t := by
  refine (eligible_total s).bind ?_ ?_
  · intro b t _ hb
    obtain ⟨hprobed, b', hb', -, htried⟩ := hb
    cases hb'
    rw [htried hready]
    refine op_total trivial fun c _ => ?_
    have hsame : (t.entry k).target? = (s.entry k).target? := by
      rw [hprobed.entry.rest]
      rfl
    obtain ⟨x, hx⟩ := Option.isSome_iff_exists.mp htarget
    have hanswer : (t.tick (.look k) c).answer c (.look k) = t.entry k := rfl
    rw [hanswer, hsame, hx]
    refine op_total trivial fun c' _ => ?_
    have hbefore : Grown (fun _ => True) s ((t.next (.look k) c).next .mem c') :=
      ((hprobed.grown.mono fun _ _ => trivial).next trivial).next trivial
    refine attempt_bind_total (resend_total (k := k) cfg x.1 x.2 _) fun r u _ hu => ?_
    have hnow : Attempted k s u := hbefore.attempted hu.2
    refine (bounded_total (φ := fun _ => True) (J := Grown (fun _ => True) u) ?_ ?_ (.refl u)).mono
      (fun _ _ => trivial) fun _ _ _ hg => hnow.grow hg
    · cases r with
      | ok _ =>
        exact Prog.bounded_op_bind trivial fun _ => Prog.bounded_op_bind trivial fun _ =>
          (remember_bounded trivial).bind fun _ => trivial
      | error text =>
        exact Prog.bounded_op_bind trivial fun _ =>
          ((handleFlushFailure_tends text).mono fun _ _ => trivial).bind fun _ => trivial
    · exact fun o c v _ _ hv => hv.next trivial
  · intro e t _ hb
    obtain ⟨-, b', hb', -⟩ := hb
    cases hb'

theorem flushEntry_others : (flushEntry cfg k).Total world 0 P (fun _ => True) s fun _ t =>
    (∀ k', k' ≠ k → t.entry k' = s.entry k') ∧ Grown (fun _ => True) s t := by
  refine (bounded_total (J := fun t => (∀ k', k' ≠ k → t.entry k' = s.entry k') ∧
    Grown (fun _ => True) s t) (flushEntry_bounded cfg) ?_ ⟨fun _ _ => rfl, .refl s⟩).mono
    (fun _ _ => trivial) fun _ _ _ h => h
  intro o c t ho _ ht
  exact ⟨fun k' hk' => (entry_next_retries ho hk'.symm).trans (ht.1 k' hk'), ht.2.next trivial⟩

end Retry

/-! ## The loops -/

section Loops

variable {k : Key} {s t : Site} {P : Choice → Prop} {cfg : Config}

theorem Tidy.entry (h : Tidy s) (k : Key) : (s.entry k).Tidy := ⟨h.terminal k, h.roomy k⟩

theorem tidy_of_entries (h : ∀ k, (s.entry k).Tidy) : Tidy s :=
  ⟨fun k => (h k).terminal, fun k => (h k).roomy⟩

theorem Tidy.still {o : Op} {c : Choice} (h : Tidy s)
    (he : ∀ k, (s.next o c).entry k = s.entry k) : Tidy (s.next o c) := by
  refine tidy_of_entries fun k => ?_
  rw [he]
  exact h.entry k

theorem tidy_total (h : Tidy s) (k : Key) :
    (flushEntry cfg k).Total world 0 P (fun _ => True) s fun r t => Tidy t ∧ Fine False r := by
  refine ((flushEntry_tidy (h.entry k)).and flushEntry_others).mono (fun _ h => h) ?_
  intro r t _ ht
  obtain ⟨⟨hok, htidy⟩, hothers, -⟩ := ht
  refine ⟨tidy_of_entries fun k' => ?_, .inr hok⟩
  by_cases hk : k' = k
  · rw [hk]
    exact htidy
  · rw [hothers k' hk]
    exact h.entry k'

/-- The entry still waits for its turn; `s₀` is the site at the begin of the call. -/
structure Awaiting (k : Key) (s₀ s : Site) : Prop where
  tidy : Tidy s
  ready : Ready k s
  target : (s.entry k).target?.isSome
  grown : Grown (fun _ => True) s₀ s

/-- It has had it. -/
structure Served (k : Key) (s₀ s : Site) : Prop where
  tidy : Tidy s
  attempted : Attempted k s₀ s

theorem Ready.later (h : Ready k s) (he : t.entry k = s.entry k) (hclock : s.clock ≤ t.clock) :
    Ready k t where
  delivered := by
    rw [he]
    exact h.delivered
  consumed := by
    rw [he]
    exact h.consumed
  terminal := by
    rw [he]
    exact h.terminal
  attempt d hd := by
    rw [he] at hd
    exact le_trans (h.attempt d hd) hclock
  reprobe d hd := by
    rw [he] at hd
    exact le_trans (h.reprobe d hd) hclock

variable {s₀ : Site}

theorem Awaiting.other_total (h : Awaiting k s₀ s) {k' : Key} (hk : k' ≠ k) :
    (flushEntry cfg k').Total world 0 P (fun _ => True) s fun r t =>
      Awaiting k s₀ t ∧ Fine False r := by
  refine ((tidy_total h.tidy k').and flushEntry_others).mono (fun _ h => h) ?_
  intro r t _ ht
  obtain ⟨⟨htidy, hfine⟩, hothers, hgrown⟩ := ht
  have hentry : t.entry k = s.entry k := hothers k hk.symm
  refine ⟨⟨htidy, h.ready.later hentry hgrown.clock, ?_, h.grown.trans hgrown⟩, hfine⟩
  rw [hentry]
  exact h.target

theorem Awaiting.serve_total (h : Awaiting k s₀ s) :
    (flushEntry cfg k).Total world 0 P (fun _ => True) s fun r t =>
      Served k s₀ t ∧ Fine False r := by
  refine ((tidy_total h.tidy k).and (flushEntry_attempts h.ready h.target)).mono (fun _ h => h) ?_
  intro r t _ ht
  obtain ⟨⟨htidy, hfine⟩, hatt⟩ := ht
  exact ⟨⟨htidy, h.grown.attempted hatt⟩, hfine⟩

theorem Served.total (h : Served k s₀ s) (k' : Key) :
    (flushEntry cfg k').Total world 0 P (fun _ => True) s fun r t =>
      Served k s₀ t ∧ Fine False r := by
  refine ((tidy_total h.tidy k').and flushEntry_others).mono (fun _ h => h) ?_
  intro r t _ ht
  obtain ⟨⟨htidy, hfine⟩, -, hgrown⟩ := ht
  exact ⟨⟨htidy, h.attempted.grow hgrown⟩, hfine⟩

theorem Served.still {o : Op} {c : Choice} (h : Served k s₀ s)
    (he : ∀ k, (s.next o c).entry k = s.entry k) : Served k s₀ (s.next o c) where
  tidy := h.tidy.still he
  attempted := h.attempted.grow ((Grown.refl (φ := fun _ => True) s).next trivial)

theorem Awaiting.still {o : Op} {c : Choice} (h : Awaiting k s₀ s)
    (he : ∀ k, (s.next o c).entry k = s.entry k) : Awaiting k s₀ (s.next o c) where
  tidy := h.tidy.still he
  ready := h.ready.later (he k) (by rw [Site.clock_next]; omega)
  target := by
    rw [he]
    exact h.target
  grown := h.grown.next trivial

theorem serveEntries_total {mids : List String} (hmem : k.2 ∈ mids) (h : Awaiting k s₀ s) :
    (flushEntries cfg k.1 mids).Total world 0 P (fun _ => True) s fun r t =>
      Served k s₀ t ∧ Fine False r := by
  induction mids generalizing s with
  | nil => exact absurd hmem List.not_mem_nil
  | cons mid mids ih =>
    by_cases hmid : k.2 = mid
    · have hk : (k.1, mid) = k := Prod.ext rfl hmid.symm
      have hserve : (flushEntry cfg k).Total world 0 P (fun _ => True) s fun r t =>
          Served k s₀ t ∧ Fine False r := h.serve_total
      rw [← hk] at hserve
      refine fine_bind hserve (fun hF => hF.elim) fun b t ht => ?_
      refine fine_bind (flushEntries_total (J := Served (k.1, mid) s₀) (fun _ _ => trivial) mids
        (fun mid' _ _ hs => hs.total (k.1, mid')) ht) (fun hF => hF.elim) fun n u hu => ?_
      rw [hk] at hu
      exact Prog.total_ret trivial ⟨hu, .inr ⟨_, rfl⟩⟩
    · have hne : (k.1, mid) ≠ k := fun hk => hmid (congrArg Prod.snd hk).symm
      refine fine_bind (h.other_total hne) (fun hF => hF.elim) fun b t ht => ?_
      refine fine_bind (ih ((List.mem_cons.mp hmem).resolve_left hmid) ht) (fun hF => hF.elim)
        fun n u hu => ?_
      exact Prog.total_ret trivial ⟨hu, .inr ⟨_, rfl⟩⟩

theorem serveSessions_total {sids : List String} (hmem : k.1 ∈ sids) (h : Awaiting k s₀ s) :
    (flushSessions cfg sids).Total world 0 P (fun _ => True) s fun r t =>
      Served k s₀ t ∧ Fine False r := by
  induction sids generalizing s with
  | nil => exact absurd hmem List.not_mem_nil
  | cons sid sids ih =>
    refine op_total trivial fun c _ => ?_
    have h₁ : Awaiting k s₀ (s.next (.glob sid .envelopes) c) := h.still fun _ => rfl
    by_cases hsid : k.1 = sid
    · subst hsid
      have hin : k.2 ∈ (s.tick (.glob k.1 .envelopes) c).ids k.1 .envelopes := by
        rw [mem_ids, Site.entry_tick]
        obtain ⟨x, hx⟩ := Option.isSome_iff_exists.mp h.target
        exact Entry.envelope_of_target hx
      refine fine_bind (serveEntries_total hin h₁) (fun hF => hF.elim) fun n t ht => ?_
      refine fine_bind (flushSessions_total (J := Served k s₀) (fun _ _ => trivial)
        (fun _ _ _ hs => hs.still fun _ => rfl) sids (fun k' _ _ hs => hs.total k') ht)
        (fun hF => hF.elim) fun m u hu => ?_
      exact Prog.total_ret trivial ⟨hu, .inr ⟨_, rfl⟩⟩
    · have hne (mid : String) : (sid, mid) ≠ k := fun hk => hsid (congrArg Prod.fst hk).symm
      refine fine_bind (flushEntries_total (J := Awaiting k s₀) (fun _ _ => trivial) _
        (fun mid _ _ hs => hs.other_total (hne mid)) h₁) (fun hF => hF.elim) fun n t ht => ?_
      refine fine_bind (ih ((List.mem_cons.mp hmem).resolve_left hsid) ht) (fun hF => hF.elim)
        fun m u hu => ?_
      exact Prog.total_ret trivial ⟨hu, .inr ⟨_, rfl⟩⟩

end Loops

/-! ## The sweep -/

section Sweep

variable {k : Key} {s₀ s : Site} {P : Choice → Prop} {cfg : Config} {cutoff : ℤ}

variable {f : FileOp} {c : Choice} {k' : Key}

theorem Tidy.file (h : Tidy s)
    (hf : (f.apply (s.clock + c.delay) (s.entry k)).Tidy) : Tidy (s.next (.file k f) c) := by
  refine tidy_of_entries fun k' => ?_
  rw [Site.entry_next_file]
  split
  · exact hf
  · exact h.entry k'

theorem Tidy.sweepMarker (h : Tidy s) :
    (sweepMarker cutoff k).Total world 0 P Tidy s Returned := by
  refine sweepMarker_total (fun _ _ h => h.still fun _ => rfl) ?_ ?_ h
  · intro t c _ h _ _
    exact h.file ⟨h.terminal k, h.roomy k⟩
  · intro t c₁ c₂ c₃ _ h _ _
    have h₁ : Tidy (t.next (.file k .unmark) c₁) := h.file ⟨h.terminal k, h.roomy k⟩
    have h₂ : Tidy ((t.next (.file k .unmark) c₁).next (.look k) c₂) := h₁.still fun _ => rfl
    exact h₂.file ⟨h₂.terminal k, fun henv => by cases henv⟩

theorem Tidy.rmtree (h : Tidy s) (d : StatusDir) :
    (rmtree k d).Total world 0 P Tidy s Returned := by
  refine (rmtree_total ?_ ?_ d h).mono (fun _ h => h) fun _ _ _ hr => ⟨(), hr.1⟩
  · intro t f c h
    refine h.file ⟨?_, (h.roomy k).status rfl⟩
    rcases info_unlinkStatus (t.entry k) (t.clock + c.delay) f with hi | hi
    · rw [hi]
      exact h.terminal k
    · rw [hi]
  · intro t c h
    exact h.file ⟨rfl, (h.roomy k).status rfl⟩

theorem Tidy.sweepStatus (h : Tidy s) :
    (sweepStatus cutoff k).Total world 0 P Tidy s Returned :=
  sweepStatus_total (fun _ _ h => h.still fun _ => rfl) (fun _ d h _ _ => h.rmtree d) h

theorem Awaiting.otherFile (h : Awaiting k s₀ s) (hk : k' ≠ k)
    (htidy : Tidy (s.next (.file k' f) c)) : Awaiting k s₀ (s.next (.file k' f) c) where
  tidy := htidy
  ready := by
    refine h.ready.later ?_ (by rw [Site.clock_next]; omega)
    rw [Site.entry_next_file, if_neg hk.symm]
  target := by
    rw [Site.entry_next_file, if_neg hk.symm]
    exact h.target
  grown := h.grown.next trivial

theorem Awaiting.sweepMarker (h : Awaiting k s₀ s) :
    (sweepMarker cutoff k').Total world 0 P (Awaiting k s₀) s Returned := by
  have hne (t : Site) (m : ℕ) (h : Awaiting k s₀ t) (hm : (t.entry k').delivered = some m) :
      k' ≠ k := by
    rintro rfl
    rw [h.ready.delivered] at hm
    cases hm
  refine sweepMarker_total (fun _ _ h => h.still fun _ => rfl) ?_ ?_ h
  · intro t c m h hm _
    exact h.otherFile (hne t m h hm) (h.tidy.file ⟨h.tidy.terminal k', h.tidy.roomy k'⟩)
  · intro t c₁ c₂ c₃ m h hm _
    have hk := hne t m h hm
    have h₁ : Awaiting k s₀ (t.next (.file k' .unmark) c₁) :=
      h.otherFile hk (h.tidy.file ⟨h.tidy.terminal k', h.tidy.roomy k'⟩)
    have h₂ : Awaiting k s₀ ((t.next (.file k' .unmark) c₁).next (.look k') c₂) :=
      h₁.still fun _ => rfl
    exact h₂.otherFile hk
      (h₂.tidy.file ⟨h₂.tidy.terminal k', fun henv => by cases henv⟩)

theorem Awaiting.status (h : Awaiting k s₀ s) (htidy : Tidy (s.next (.file k f) c)) {e : Entry}
    (he : f.apply (s.clock + c.delay) (s.entry k) = e)
    (hrest : e = { s.entry k with status := e.status }) (hconsumed : e.consumed = false)
    (hinfo : e.info = (s.entry k).info ∨ e.info = {}) : Awaiting k s₀ (s.next (.file k f) c) := by
  have hentry : (s.next (.file k f) c).entry k = e := (file_entry s k f c).trans he
  have hclock : s.clock ≤ (s.next (.file k f) c).clock := by
    rw [Site.clock_next]
    omega
  refine ⟨htidy, ⟨?_, ?_, ?_, ?_, ?_⟩, ?_, h.grown.next trivial⟩
  · rw [hentry, hrest]
    exact h.ready.delivered
  · rw [hentry, hconsumed]
  · exact htidy.terminal k
  · intro d hd
    rw [hentry] at hd
    rcases hinfo with hi | hi
    · rw [hi] at hd
      exact le_trans (h.ready.attempt d hd) hclock
    · rw [hi] at hd
      cases hd
  · intro d hd
    rw [hentry] at hd
    rcases hinfo with hi | hi
    · rw [hi] at hd
      exact le_trans (h.ready.reprobe d hd) hclock
    · rw [hi] at hd
      cases hd
  · rw [hentry, hrest]
    exact h.target

theorem Awaiting.sweepStatus (h : Awaiting k s₀ s) :
    (sweepStatus cutoff k').Total world 0 P (Awaiting k s₀) s Returned := by
  refine sweepStatus_total (fun _ _ h => h.still fun _ => rfl) ?_ h
  intro t d h _ _
  refine (rmtree_total (J := Awaiting k s₀) ?_ ?_ d h).mono (fun _ h => h)
    fun _ _ _ hr => ⟨(), hr.1⟩
  · intro t f c h
    have htidy : Tidy (t.next (.file k' (.unlinkStatus f)) c) := by
      refine h.tidy.file ⟨?_, (h.tidy.roomy k').status rfl⟩
      rcases info_unlinkStatus (t.entry k') (t.clock + c.delay) f with hi | hi
      · rw [hi]
        exact h.tidy.terminal k'
      · rw [hi]
    by_cases hk : k' = k
    · subst hk
      exact h.status htidy rfl rfl (consumed_unlinkStatus h.ready.consumed f)
        (info_unlinkStatus _ _ f)
    · exact h.otherFile hk htidy
  · intro t c h
    have htidy : Tidy (t.next (.file k' .rmStatus) c) :=
      h.tidy.file ⟨rfl, (h.tidy.roomy k').status rfl⟩
    by_cases hk : k' = k
    · subst hk
      exact h.status htidy rfl rfl rfl (.inr rfl)
    · exact h.otherFile hk htidy

/-- What the sweep of an entry leaves in `J`, the sweep at the begin of `flush` does. -/
theorem sweepTtlLazy_total {I J : Site → Prop} (hJI : ∀ s, J s → I s)
    (hstill : ∀ s o c, (∀ k, (s.next o c).entry k = s.entry k) → o.Idle → J s → J (s.next o c))
    (hmarker : ∀ cutoff k s, J s →
      (Swarm.sweepMarker cutoff k).Total world 0 P I s (Returning J))
    (hstatus : ∀ cutoff k s, J s →
      (Swarm.sweepStatus cutoff k).Total world 0 P I s (Returning J))
    (h : J s) : sweepTtlLazy.Total world 0 P I s (Returning J) := by
  refine op_total (hJI s h) fun c₁ _ => ?_
  have h₁ := hstill s .now c₁ (fun _ => rfl) trivial h
  refine op_total (hJI _ h₁) fun c₂ _ => ?_
  have h₂ := hstill _ .mem c₂ (fun _ => rfl) trivial h₁
  split
  · exact Prog.total_ret (hJI _ h₂) ⟨h₂, (), rfl⟩
  · refine op_total (hJI _ h₂) fun c₃ _ => ?_
    have h₃ := hstill _ (.upd (.setSwept ((s.tick Op.now c₁).answer c₁ Op.now))) c₃
      (fun _ => rfl) trivial h₂
    refine attempt_bind_total (M := fun _ s => J s) ?_
      fun r t hI ht => Prog.total_ret hI ⟨ht, (), rfl⟩
    refine op_total (hJI _ h₃) fun c₄ _ => ?_
    have h₄ := hstill _ .now c₄ (fun _ => rfl) trivial h₃
    refine op_total (hJI _ h₄) fun c₅ _ => ?_
    refine (sweepSessions_returning hJI
      (fun t sid g c ht => hstill t _ c (fun _ => rfl) trivial ht)
      (fun sid _ mid t ht => hmarker _ (sid, mid) t ht)
      (fun sid _ mid t ht => hstatus _ (sid, mid) t ht)
      (hstill _ .sessions c₅ (fun _ => rfl) trivial h₄)).mono (fun _ h => h) fun _ _ _ hr => hr.1

end Sweep

/-! ## Runs -/

variable {cfg : Config} {s : Site}

/-- `flush` leaves the outbox tidy. -/
theorem flush_tidy {P : Choice → Prop} (h : Tidy s) (sessionId : Option String) :
    (flush cfg sessionId).Total world 0 P (fun _ => True) s fun _ t => Tidy t := by
  have hsweep := sweepTtlLazy_total (P := P) (J := Tidy) (fun _ h => h)
    (fun _ _ _ he _ h => h.still he) (fun _ _ _ h => returning h.sweepMarker)
    (fun _ _ _ h => returning h.sweepStatus) h
  refine bind_returning (hsweep.mono (fun _ _ => trivial) fun _ _ _ hr => hr) fun _ t ht => ?_
  refine (retryAll_total (J := Tidy) (F := False) (fun _ _ => trivial) ?_ ?_ ?_ sessionId ht).mono
    (fun _ h => h) fun _ _ _ h => h.1
  · exact fun _ _ _ h => h.still fun _ => rfl
  · exact fun _ _ h => h.still fun _ => rfl
  · exact fun k _ _ h => tidy_total h k

/-- The call of `flush` comes to the session of the message. -/
def Visits (sessionId : Option String) (k : Key) (s : Site) : Prop :=
  (sessionId.filter (· ≠ "")).elim (k.1 ∈ s.sessionDirs) (· = k.1)

/-- An entry that is to be delivered to a host and whose deadlines have come. -/
structure Waiting (k : Key) (s : Site) : Prop where
  delivered : (s.entry k).delivered = none
  consumed : (s.entry k).consumed = false
  target : (s.entry k).target?.isSome
  attempt : ∀ d, (s.entry k).info.nextAttemptAt = some d → d ≤ s.clock
  reprobe : ∀ d, (s.entry k).info.nextReprobeAt = some d → d ≤ s.clock

/-- The envelope was moved to the dead letter between `s` and `t`. -/
def Moved (k : Key) (s t : Site) : Prop :=
  ∃ new, t.trace = s.trace ++ new ∧ ∃ x ∈ new, x.2 = Op.file k .bury

/-- A `flush` from here attempts every entry that waits, or gives it up. -/
def NoneStuck (cfg : Config) (s : Site) : Prop :=
  ∀ k sessionId r s', Waiting k s → Visits sessionId k s →
    (flush cfg sessionId).Runs world 0 (fun _ => True) s r s' → Attempted k s s' ∨ Moved k s s'

theorem mem_sessionDirs {k : Key} : k.1 ∈ s.sessionDirs ↔ (k.1 ≠ "" ∧ startsWith "." k.1 = false) ∧
      ∃ mid, (s.entry (k.1, mid)).inOutbox = true := by
  have hdefault : Entry.inOutbox default = false := rfl
  simp only [Site.sessionDirs, List.mem_insertionSort, List.mem_dedup, List.mem_filter,
    List.mem_map, Table.mem_keysWith hdefault]
  constructor
  · intro h
    obtain ⟨⟨k', hin, hk⟩, hname⟩ := h
    refine ⟨by simpa using hname, k'.2, ?_⟩
    rw [← hk]
    exact hin
  · intro h
    obtain ⟨hname, mid, hin⟩ := h
    exact ⟨⟨(k.1, mid), hin, rfl⟩, by simpa using hname⟩

theorem flush_serves {k : Key} {sessionId : Option String} (h : Tidy s) (hwait : Waiting k s)
    (hvisit : Visits sessionId k s) :
    (flush cfg sessionId).Total world 0 (fun _ => True) (fun _ => True) s fun _ t =>
      Attempted k s t := by
  have h₀ : Awaiting k s s :=
    ⟨h, ⟨hwait.delivered, hwait.consumed, h.terminal k, hwait.attempt, hwait.reprobe⟩,
      hwait.target, .refl s⟩
  have hsweep := sweepTtlLazy_total (P := fun _ => True) (J := Awaiting k s) (fun _ h => h)
    (fun _ _ _ he _ h => h.still he) (fun _ _ _ h => returning h.sweepMarker)
    (fun _ _ _ h => returning h.sweepStatus) h₀
  refine bind_returning (hsweep.mono (fun _ _ => trivial) fun _ _ _ hr => hr) fun _ t ht => ?_
  unfold retryAll
  unfold Visits at hvisit
  cases hfilter : sessionId.filter (· ≠ "") with
  | some sid =>
    rw [hfilter] at hvisit
    have hsid : sid = k.1 := hvisit
    have hmem : k.1 ∈ [sid] := by rw [hsid]; exact List.mem_singleton_self _
    exact (serveSessions_total hmem ht).mono (fun _ h => h) fun _ _ _ h => h.1.attempted
  | none =>
    rw [hfilter] at hvisit
    have hdir : k.1 ∈ t.sessionDirs := by
      refine mem_sessionDirs.mpr ⟨(mem_sessionDirs.mp hvisit).1, k.2, ?_⟩
      obtain ⟨x, hx⟩ := Option.isSome_iff_exists.mp ht.target
      rw [Entry.inOutbox, Entry.envelope_of_target hx]
      rfl
    refine op_total trivial fun c _ => ?_
    exact (serveSessions_total hdir (ht.still fun _ => rfl)).mono (fun _ h => h)
      fun _ _ _ h => h.1.attempted

/-- A call of the engine. -/
inductive Act
  | deliver (sessionId : String) (target : Dest) (env : Envelope)
  | flush (sessionId : Option String)

def Act.call (cfg : Config) : Act → Call Unit
  | .deliver sid target env => do
    let _ ← Swarm.deliver cfg sid target env
    return ()
  | .flush sid => do
    let _ ← Swarm.flush cfg sid
    return ()

/-- Calls one after the other from an empty disk, each of which meets `H`, with time
that passes, and crashes in states that meet `C`. -/
inductive Lived (cfg : Config) (H : Act → Site → Prop) (C : Site → Prop) : Site → Prop
  | start {s : Site} (hentries : s.entries = .empty) : Lived cfg H C s
  | wait {s : Site} (h : Lived cfg H C s) (d : ℕ) : Lived cfg H C { s with clock := s.clock + d }
  | call {s s' : Site} {a : Act} {r : Except String Unit} (h : Lived cfg H C s) (hH : H a s)
      (hrun : (a.call cfg).Runs world 0 (fun _ => True) s r s') : Lived cfg H C s'
  | crash {s t : Site} {a : Act} (h : Lived cfg H C s) (hH : H a s)
      (hreach : (a.call cfg).Reaches world 0 (fun _ => True) s t) (hC : C t) :
      Lived cfg H C { t with mem := {} }

/-- The condition on a call: a `flush` finds a place for each status directory. -/
def RoomFor : Act → Site → Prop
  | .flush _, s => Roomy s
  | .deliver _ _ _, _ => True

theorem Lived.noTerminal (h : Lived cfg RoomFor NoTerminal s) : NoTerminal s := by
  induction h with
  | start hentries =>
    intro k
    rw [Site.entry, hentries, Table.get_empty]
    rfl
  | wait h d ih => exact ih
  | @call s s' a r h hH hrun ih =>
    cases a with
    | deliver sid target env =>
      have hp : ((Act.deliver sid target env).call cfg).Bounded
          (Op.Delivers (deliverKey sid env) (target.remote? cfg)) :=
        (deliver_bounded cfg sid target env).bind fun _ => trivial
      exact (bounded_total hp (fun _ _ _ ho _ ht => ht.delivers ho) ih).ends r s' hrun
    | flush sid =>
      have htotal : ((Act.flush sid).call cfg).Total world 0 (fun _ => True) (fun _ => True) s
          fun _ t => Tidy t :=
        (flush_tidy ⟨ih, hH⟩ sid).bind (fun _ _ _ ht => Prog.total_ret trivial ht)
          fun _ _ _ ht => ht
      exact (htotal.ends r s' hrun).terminal
  | crash h hH hreach hC ih => exact hC

/-- **No entry gets stuck.**  In a run of deliveries, `flush` calls and crashes, none of
them at a moment when a status in the outbox is marked as terminal, in which the dead
letter has a place for each status directory, `flush` attempts every entry whose
deadlines have come. -/
theorem attempted_run {cfg : Config} {s : Site} (h : Lived cfg RoomFor NoTerminal s)
    (hroom : Roomy s) : NoneStuck cfg s := by
  intro k sessionId r s' hwait hvisit hrun
  exact .inl ((flush_serves ⟨h.noTerminal, hroom⟩ hwait hvisit).ends r s' hrun)

/-! ### A crash in between -/

/-- A message to `far`. -/
def send : Act := .deliver "s" (.host far) letter

/-- A call of `flush` is stopped once it has marked the entry as terminal. -/
def stopped (s : Site) : Site :=
  { Prog.after world 0 refused 22 ((Act.flush none).call bare) s with mem := {} }

/-- The message waits for a retry that is due. -/
def due (s : Site) : Bool :=
  (s.entry ("s", "m")).delivered.isNone && !(s.entry ("s", "m")).consumed &&
  (s.entry ("s", "m")).target?.isSome &&
  decide ((s.entry ("s", "m")).info.nextAttemptAt = none) &&
  decide ((s.entry ("s", "m")).info.nextReprobeAt = none)

theorem waiting_of_due (h : due s = true) : Waiting ("s", "m") s := by
  simp only [due, Bool.and_eq_true, decide_eq_true_eq, Option.isNone_iff_eq_none,
    Bool.not_eq_true'] at h
  obtain ⟨⟨⟨⟨hdel, hcons⟩, htarget⟩, hnext⟩, hprobe⟩ := h
  refine ⟨hdel, hcons, htarget, fun d hd => ?_, fun d hd => ?_⟩
  · rw [hnext] at hd
    cases hd
  · rw [hprobe] at hd
    cases hd

/-- Nothing happens to the message between two sites. -/
def idle (s t : Site) : Bool :=
  (t.trace.drop s.trace.length).all fun x =>
    !x.2.attempts ("s", "m") && decide (x.2 ≠ .file ("s", "m") .bury)

theorem not_served_of_idle {t : Site} (h : idle s t = true) :
    ¬ (Attempted ("s", "m") s t ∨ Moved ("s", "m") s t) := by
  intro hserved
  rw [idle, List.all_eq_true] at h
  rcases hserved with ⟨new, htrace, x, hx, hatt⟩ | ⟨new, htrace, x, hx, hbury⟩
  · rw [htrace, List.drop_left] at h
    have hidle := h x hx
    rw [hatt] at hidle
    cases hidle
  · rw [htrace, List.drop_left] at h
    have hidle := h x hx
    rw [hbury] at hidle
    simp at hidle

/-- After a delivery that failed and a `flush` that was stopped there, the entry is
never tried again. -/
theorem marked_entry_stuck : ¬ ∀ cfg s, Lived cfg (fun _ _ => True) (fun _ => True) s →
    NoneStuck cfg s := by
  intro h
  have hexec : ((Prog.exec world 0 refused 100 (send.call bare) {}).bind fun x =>
      (Prog.exec world 0 {} 100 (flush bare (some "s")) (stopped x.2)).map fun y =>
        due (stopped x.2) && idle (stopped x.2) y.2) = some true := by
    decide +kernel
  obtain ⟨x, hx, hy⟩ := Option.bind_eq_some_iff.mp hexec
  obtain ⟨y, hy, hcheck⟩ := Option.map_eq_some_iff.mp hy
  simp only [Bool.and_eq_true] at hcheck
  have hrun : Lived bare (fun _ _ => True) (fun _ => True) (stopped x.2) :=
    .crash (.call (a := send) (.start rfl) trivial (Prog.runs_of_exec trivial hx)) trivial
      (Prog.reaches_after (c := refused) trivial 22 _ _) trivial
  have hserved := h bare _ hrun ("s", "m") (some "s") y.1 y.2 (waiting_of_due hcheck.1) rfl
    (Prog.runs_of_exec trivial hy)
  exact not_served_of_idle hcheck.2 hserved

theorem roomy_of_keys
    (h : s.entries.keysWith (fun e : Entry => e.deadNested.isSome) = []) : Roomy s := by
  intro k _ hboth
  have hin : k ∈ s.entries.keysWith fun e : Entry => e.deadNested.isSome :=
    (Table.mem_keysWith rfl).mpr hboth.2
  rw [h] at hin
  cases hin

/-- Without the crash the next `flush` tries it. -/
theorem attempted_run_first : ∃ s, Waiting ("s", "m") s ∧ NoneStuck bare s := by
  have hexec : ((Prog.exec world 0 refused 100 (send.call bare) {}).map fun x =>
      due x.2 && decide (x.2.entries.keysWith (fun e : Entry => e.deadNested.isSome) = [])) =
      some true := by
    decide +kernel
  obtain ⟨x, hx, hcheck⟩ := Option.map_eq_some_iff.mp hexec
  simp only [Bool.and_eq_true, decide_eq_true_eq] at hcheck
  have hrun : Lived bare RoomFor NoTerminal x.2 :=
    .call (a := send) (.start rfl) trivial (Prog.runs_of_exec trivial hx)
  exact ⟨x.2, waiting_of_due hcheck.1, attempted_run hrun (roomy_of_keys hcheck.2)⟩

end AiMeshChat.Swarm
