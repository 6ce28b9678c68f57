import AiMeshChat.Swarm.Conservation
import AiMeshChat.Swarm.Retry

/-!
# The retry budget

A message is tried again at most until its fifth failure that counts. A version
mismatch does not count and only pauses the entry. What counts is in `meta.json`, so
the budget is an invariant that ties the trace to the file: the attempts are the
failures that count, and no deadline that a failure sets lies beyond `next_attempt_at`
(`Alive`). An entry that was given up has no envelope in the outbox left (`Gone`).
-/

namespace AiMeshChat.Swarm

open Lib

/-! ## Failures in the trace -/

/-- A failure of a retry of the message `k` that counts. -/
def countedFailure (k : Key) (x : ℕ × Op) : Bool :=
  match x.2 with
  | .failed k' text => k' = k && !isMismatch text
  | _ => false

/-- One that no retry mends. -/
def terminalFailure (k : Key) (x : ℕ × Op) : Bool :=
  match x.2 with
  | .failed k' text => k' = k && !isMismatch text && isTerminalError text
  | _ => false

/-- How many failures of the message count. -/
def counted (k : Key) (L : Trace) : ℕ := L.countP (countedFailure k)

/-- What a failure that counts and that a retry may mend asks for: no attempt before
`d`. -/
def Owed (k : Key) (L : Trace) (d : ℕ) : Prop :=
  ∀ L₁ t text L₂, L = L₁ ++ (t, .failed k text) :: L₂ → isMismatch text = false →
    isTerminalError text = false → t + backoff (counted k L₁ + 1) ≤ d

/-- After the `n`-th failure that counts there is no attempt for `5 * 2 ^ (n - 1)`
seconds. -/
def Spaced (k : Key) (L : Trace) : Prop :=
  ∀ L₁ t text L₂, L = L₁ ++ (t, .failed k text) :: L₂ → isMismatch text = false →
    isTerminalError text = false → ∀ x ∈ L₂, x.2.attempts k = true →
      t + backoff (counted k L₁ + 1) ≤ x.1

/-- The budget of a message: it is given up after five failures that count or one that
no retry mends, and for no other reason; what counts is in `meta.json`; retries keep
their distance, and none is made of a message that was given up. -/
structure Budget (k : Key) (s : Site) : Prop where
  few : counted k s.trace ≤ MAX_ATTEMPTS
  givenUp : buried k s.trace = true ↔
    counted k s.trace = MAX_ATTEMPTS ∨ s.trace.any (terminalFailure k) = true
  moved : buried k s.trace = true → (s.entry k).envelope = none ∧ (s.entry k).dead.isSome
  uncounted : buried k s.trace = false → (s.entry k).info.attemptCount = counted k s.trace
  spaced : Spaced k s.trace
  quiet : NeverWhileBuried k s.trace

section Trace

variable {k : Key} {L L' : Trace} {x : ℕ × Op} {d : ℕ}

theorem counted_concat :
    counted k (L ++ [x]) = counted k L + if countedFailure k x then 1 else 0 := by
  rw [counted, List.countP_append, List.countP_singleton]
  rfl

theorem split_concat {y : ℕ × Op} {L₁ L₂ : Trace} (h : L ++ [x] = L₁ ++ y :: L₂) :
    (L = L₁ ∧ x = y ∧ L₂ = []) ∨ ∃ L₃, L₂ = L₃ ++ [x] ∧ L = L₁ ++ y :: L₃ := by
  rcases List.eq_nil_or_concat L₂ with rfl | ⟨L₃, z, rfl⟩
  · obtain ⟨rfl, hx⟩ := List.append_inj' h rfl
    cases hx
    exact .inl ⟨rfl, rfl, rfl⟩
  · rw [List.concat_eq_append, ← List.cons_append, ← List.append_assoc] at h
    obtain ⟨hL, hx⟩ := List.append_inj' h rfl
    cases hx
    exact .inr ⟨L₃, List.concat_eq_append, hL⟩

theorem Owed.mono {d' : ℕ} (h : Owed k L d) (hd : d ≤ d') : Owed k L d' :=
  fun L₁ t text L₂ hL hm ht => le_trans (h L₁ t text L₂ hL hm ht) hd

theorem Owed.concat (h : Owed k L d)
    (hx : ∀ t text, x = (t, .failed k text) → isMismatch text = false →
      isTerminalError text = false → t + backoff (counted k L + 1) ≤ d) :
    Owed k (L ++ [x]) d := by
  intro L₁ t text L₂ hL hm ht
  rcases split_concat hL with ⟨rfl, hlast, -⟩ | ⟨L₃, -, hL'⟩
  · exact hx t text hlast hm ht
  · exact h L₁ t text L₃ hL' hm ht

theorem Spaced.concat (h : Spaced k L) (hx : x.2.attempts k = true → Owed k L x.1) :
    Spaced k (L ++ [x]) := by
  intro L₁ t text L₂ hL hm ht y hy hatt
  rcases split_concat hL with ⟨-, -, rfl⟩ | ⟨L₃, rfl, hL'⟩
  · cases hy
  · rcases List.mem_append.mp hy with hy | hy
    · exact h L₁ t text L₃ hL' hm ht y hy hatt
    · rw [List.mem_singleton.mp hy] at hatt ⊢
      exact hx hatt L₁ t text L₃ hL' hm ht

/-- Nothing that counts has happened between two traces. -/
structure Steady (k : Key) (L L' : Trace) : Prop where
  counted : counted k L' = counted k L
  terminal : L'.any (terminalFailure k) = L.any (terminalFailure k)
  buried : buried k L' = buried k L
  spaced : Spaced k L → Spaced k L'
  quiet : NeverWhileBuried k L → NeverWhileBuried k L'
  owed : ∀ d, Owed k L d → Owed k L' d

theorem Steady.refl : Steady k L L := ⟨rfl, rfl, rfl, id, id, fun _ => id⟩

theorem Steady.trans {L'' : Trace} (h : Steady k L L') (h' : Steady k L' L'') : Steady k L L'' where
  counted := h'.counted.trans h.counted
  terminal := h'.terminal.trans h.terminal
  buried := h'.buried.trans h.buried
  spaced := h'.spaced ∘ h.spaced
  quiet := h'.quiet ∘ h.quiet
  owed d := h'.owed d ∘ h.owed d

/-- An operation that neither counts nor moves the envelope. -/
structure Op.Uncounted (k : Key) (o : Op) : Prop where
  failed : ∀ text, o = .failed k text → isMismatch text = true
  bury : o ≠ .file k .bury
  exhume : o ≠ .file k .exhume

theorem Op.Uncounted.counted {o : Op} (h : o.Uncounted k) (t : ℕ) :
    countedFailure k (t, o) = false := by
  cases o with
  | failed k' text =>
    by_cases hk : k' = k
    · subst hk
      simp [countedFailure, h.failed text rfl]
    · simp [countedFailure, hk]
  | _ => rfl

theorem Op.Uncounted.terminal {o : Op} (h : o.Uncounted k) (t : ℕ) :
    terminalFailure k (t, o) = false := by
  cases o with
  | failed k' text =>
    by_cases hk : k' = k
    · subst hk
      simp [terminalFailure, h.failed text rfl]
    · simp [terminalFailure, hk]
  | _ => rfl

theorem Op.Uncounted.buriedStep {o : Op} (h : o.Uncounted k) (b : Bool) (t : ℕ) :
    Swarm.buriedStep k b (t, o) = b := by
  cases o with
  | file k' f =>
    by_cases hk : k' = k
    · subst hk
      cases f with
      | bury => exact absurd rfl h.bury
      | exhume => exact absurd rfl h.exhume
      | _ => rfl
    · cases f <;> simp [Swarm.buriedStep, hk]
  | _ => rfl

theorem steady_concat (hx : x.2.Uncounted k)
    (hatt : x.2.attempts k = true → Owed k L x.1 ∧ buried k L = false) :
    Steady k L (L ++ [x]) where
  counted := by
    rw [counted_concat, hx.counted x.1]
    rfl
  terminal := by
    rw [List.any_append, List.any_cons, List.any_nil, hx.terminal x.1, Bool.or_false, Bool.or_false]
  buried := by rw [buried_concat, hx.buriedStep _ x.1]
  spaced h := h.concat fun ha => (hatt ha).1
  quiet h := h.concat fun ha => (hatt ha).2
  owed d h := h.concat fun t text hlast hm _ => by
    rw [hlast] at hx
    rw [hx.failed text rfl] at hm
    cases hm

theorem steady_append {new : Trace} (h : ∀ x ∈ new, x.2.Uncounted k ∧
    (x.2.attempts k = true → Owed k L x.1 ∧ buried k L = false)) : Steady k L (L ++ new) := by
  induction new generalizing L with
  | nil =>
    rw [List.append_nil]
    exact .refl
  | cons x new ih =>
    have hx := h x List.mem_cons_self
    have hstep : Steady k L (L ++ [x]) := steady_concat hx.1 hx.2
    have hrest : Steady k (L ++ [x]) (L ++ [x] ++ new) := by
      refine ih fun y hy => ?_
      have hy := h y (List.mem_cons_of_mem x hy)
      refine ⟨hy.1, fun ha => ⟨hstep.owed _ (hy.2 ha).1, ?_⟩⟩
      rw [hstep.buried]
      exact (hy.2 ha).2
    rw [List.append_assoc, List.singleton_append] at hrest
    exact hstep.trans hrest

/-- An operation that is nothing to the budget. -/
structure Op.Plain (k : Key) (o : Op) : Prop extends o.Uncounted k where
  attempts : o.attempts k = false

theorem Grown.steady {s t : Site} (h : Grown (Op.Plain k) s t) : Steady k s.trace t.trace := by
  obtain ⟨new, htrace, hnew⟩ := h.trace
  rw [htrace]
  refine steady_append fun x hx => ⟨(hnew x hx).1.toUncounted, fun ha => ?_⟩
  rw [(hnew x hx).1.attempts] at ha
  cases ha

end Trace

/-! ## The invariant -/

/-- An entry with budget left. -/
structure Alive (k : Key) (s : Site) : Prop where
  few : counted k s.trace < MAX_ATTEMPTS
  terminal : s.trace.any (terminalFailure k) = false
  buried : buried k s.trace = false
  count : (s.entry k).info.attemptCount = counted k s.trace
  owed : Owed k s.trace ((s.entry k).info.nextAttemptAt.getD 0)
  spaced : Spaced k s.trace
  quiet : NeverWhileBuried k s.trace

/-- An entry that was given up. -/
structure Gone (k : Key) (s : Site) : Prop where
  few : counted k s.trace ≤ MAX_ATTEMPTS
  reason : counted k s.trace = MAX_ATTEMPTS ∨ s.trace.any (terminalFailure k) = true
  buried : buried k s.trace = true
  envelope : (s.entry k).envelope = none
  dead : (s.entry k).dead.isSome
  spaced : Spaced k s.trace
  quiet : NeverWhileBuried k s.trace

theorem Alive.budget {k : Key} {s : Site} (h : Alive k s) : Budget k s where
  few := le_of_lt h.few
  givenUp := by
    have hfew := h.few
    rw [h.buried, h.terminal]
    constructor
    · intro hb
      cases hb
    · intro hc
      rcases hc with hc | hc
      · omega
      · cases hc
  moved hb := by
    rw [h.buried] at hb
    cases hb
  uncounted _ := h.count
  spaced := h.spaced
  quiet := h.quiet

theorem Gone.budget {k : Key} {s : Site} (h : Gone k s) : Budget k s where
  few := h.few
  givenUp := ⟨fun _ => h.reason, fun _ => h.buried⟩
  moved _ := ⟨h.envelope, h.dead⟩
  uncounted hb := by
    rw [h.buried] at hb
    cases hb
  spaced := h.spaced
  quiet := h.quiet

section Steps

variable {k : Key} {s t : Site} {P : Choice → Prop}

/-- What counts is as it was. -/
structure SameCount (e e' : Entry) : Prop where
  count : e'.info.attemptCount = e.info.attemptCount
  next : e'.info.nextAttemptAt = e.info.nextAttemptAt

theorem Alive.steady (h : Alive k s) (ht : Steady k s.trace t.trace)
    (he : SameCount (s.entry k) (t.entry k)) : Alive k t where
  few := by
    rw [ht.counted]
    exact h.few
  terminal := ht.terminal.trans h.terminal
  buried := ht.buried.trans h.buried
  count := by rw [he.count, h.count, ht.counted]
  owed := by
    rw [he.next]
    exact ht.owed _ h.owed
  spaced := ht.spaced h.spaced
  quiet := ht.quiet h.quiet

theorem Gone.steady (h : Gone k s) (ht : Steady k s.trace t.trace)
    (he : (t.entry k).envelope = (s.entry k).envelope ∧ (t.entry k).dead = (s.entry k).dead) :
    Gone k t where
  few := by
    rw [ht.counted]
    exact h.few
  reason := by
    rw [ht.counted, ht.terminal]
    exact h.reason
  buried := ht.buried.trans h.buried
  envelope := he.1.trans h.envelope
  dead := by
    rw [he.2]
    exact h.dead
  spaced := ht.spaced h.spaced
  quiet := ht.quiet h.quiet

/-- The invariant: the entry is alive or gone. -/
def Counting (k : Key) (s : Site) : Prop := Alive k s ∨ Gone k s

theorem Counting.budget (h : Counting k s) : Budget k s := by
  rcases h with h | h
  · exact h.budget
  · exact h.budget

theorem Counting.steady (h : Counting k s) (ht : Steady k s.trace t.trace)
    (he : t.entry k = s.entry k) : Counting k t := by
  rcases h with h | h
  · exact .inl (h.steady ht (by rw [he]; exact ⟨rfl, rfl⟩))
  · exact .inr (h.steady ht (by rw [he]; exact ⟨rfl, rfl⟩))

/-! ### Operations -/

theorem Op.Probes.plain {o : Op} (h : o.Probes k) : o.Plain k := by
  cases o with
  | file k' f =>
    cases f with
    | mkStatus => exact ⟨⟨by simp, by simp, by simp⟩, rfl⟩
    | draftInfo => exact ⟨⟨by simp, by simp, by simp⟩, rfl⟩
    | putInfo m => exact ⟨⟨by simp, by simp, by simp⟩, rfl⟩
    | _ => exact h.elim
  | look k' => exact ⟨⟨by simp, by simp, by simp⟩, rfl⟩
  | now => exact ⟨⟨by simp, by simp, by simp⟩, rfl⟩
  | _ => exact h.elim

theorem Op.Sends.uncounted {o : Op} {dest : Option HostSpec} (h : o.Sends k dest) :
    o.Uncounted k := by
  cases o <;> first | exact h.elim | exact ⟨by simp, by simp, by simp⟩

theorem Op.Retries.plain {k' : Key} {o : Op} (h : o.Retries k') (hk : k' ≠ k) : o.Plain k := by
  have hsend {dest : Option HostSpec} (hs : o.Sends k' dest) : o.attempts k = false := by
    by_contra hne
    exact hk (hs.attempts (Bool.not_eq_false _ ▸ hne)).symm
  cases o with
  | file k₁ f => exact ⟨⟨by simp, fun ho => hk (by cases ho; exact h.1.symm),
      fun ho => hk (by cases ho; exact h.1.symm)⟩, rfl⟩
  | failed k₁ text =>
    exact ⟨⟨fun _ ho => absurd (by cases ho; exact h.symm) hk, by simp, by simp⟩, rfl⟩
  | look k₁ => exact ⟨⟨by simp, by simp, by simp⟩, rfl⟩
  | appendHistory k₁ => exact ⟨⟨by simp, by simp, by simp⟩, rfl⟩
  | upd u => exact ⟨⟨by simp, by simp, by simp⟩, rfl⟩
  | _ =>
    obtain ⟨dest, hs⟩ := h
    first | exact hs.elim | exact ⟨⟨by simp, by simp, by simp⟩, hsend hs⟩

theorem other_counting {cfg : Config} {k' : Key} (h : Counting k s) (hk : k' ≠ k) :
    (flushEntry cfg k').Total world 0 P (fun _ => True) s fun _ t => Counting k t := by
  refine (bounded_total (J := fun t => t.entry k = s.entry k ∧ Grown (Op.Plain k) s t)
    (flushEntry_bounded cfg) ?_ ⟨rfl, .refl s⟩).mono (fun _ _ => trivial) ?_
  · intro o c t ho _ ht
    exact ⟨(entry_next_retries ho hk).trans ht.1, ht.2.next (ho.plain hk)⟩
  · intro _ t _ ht
    exact h.steady ht.2.steady ht.1

/-! ### The checks -/

theorem Entry.Probed.sameCount {e e' : Entry} (h : e.Probed e') : SameCount e e' := by
  rcases h.info with hi | hi
  · exact ⟨by rw [hi], by rw [hi]⟩
  · exact ⟨by rw [hi]; rfl, by rw [hi]; rfl⟩

theorem Probed.steady (h : Probed k s t) : Steady k s.trace t.trace :=
  (h.grown.mono fun _ ho => ho.plain).steady

theorem Alive.next {o : Op} {c : Choice} (h : Alive k s) (ho : o.Plain k)
    (he : SameCount (s.entry k) ((s.next o c).entry k)) : Alive k (s.next o c) :=
  h.steady ((Grown.refl s).next ho).steady he

theorem Gone.next {o : Op} {c : Choice} (h : Gone k s) (ho : o.Plain k)
    (he : ((s.next o c).entry k).envelope = (s.entry k).envelope ∧
      ((s.next o c).entry k).dead = (s.entry k).dead) : Gone k (s.next o c) :=
  h.steady ((Grown.refl s).next ho).steady he

/-! ### A failure -/

/-- A failure that counts was reported, and the entry was not given up yet. -/
structure Failing (k : Key) (text : String) (s : Site) : Prop where
  few : counted k s.trace ≤ MAX_ATTEMPTS
  terminal : s.trace.any (terminalFailure k) = isTerminalError text
  buried : buried k s.trace = false
  envelope : (s.entry k).envelope.isSome
  spaced : Spaced k s.trace
  quiet : NeverWhileBuried k s.trace

variable {text : String}

theorem Failing.steady (h : Failing k text s) (ht : Steady k s.trace t.trace)
    (he : (t.entry k).envelope = (s.entry k).envelope) : Failing k text t where
  few := by
    rw [ht.counted]
    exact h.few
  terminal := ht.terminal.trans h.terminal
  buried := ht.buried.trans h.buried
  envelope := by
    rw [he]
    exact h.envelope
  spaced := ht.spaced h.spaced
  quiet := ht.quiet h.quiet

theorem deadLetter_gone (h : Failing k text s)
    (hwhy : counted k s.trace = MAX_ATTEMPTS ∨ isTerminalError text = true) (reason : String) :
    (deadLetter k reason).Total world 0 P (fun _ => True) s fun _ t => Gone k t := by
  refine op_total trivial fun c _ => ?_
  have h₁ : Failing k text (s.next (.look k) c) :=
    h.steady ((Grown.refl s).next (o := .look k) (Op.Probes.plain rfl)).steady rfl
  have hwhy₁ : counted k (s.next (.look k) c).trace = MAX_ATTEMPTS ∨
      isTerminalError text = true := by
    rw [((Grown.refl s).next (o := .look k) (Op.Probes.plain rfl)).steady.counted]
    exact hwhy
  obtain ⟨x, hx⟩ := Option.isSome_iff_exists.mp h.envelope
  show (if (s.entry k).envelope.isNone then (Prog.ret () : Call Unit) else _).Total world 0 P _ _ _
  rw [if_neg (by simp [hx])]
  generalize s.next (.look k) c = u at h₁ hwhy₁
  refine op_total trivial fun c _ => ?_
  have hgone : Gone k (u.next (.file k .bury) c) := by
    obtain ⟨x, hx⟩ := Option.isSome_iff_exists.mp h₁.envelope
    have hentry : (u.next (.file k .bury) c).entry k = (u.entry k).bury := by
      rw [Site.entry_next_file, if_pos rfl]
      rfl
    have hcount : counted k (u.next (.file k .bury) c).trace = counted k u.trace := by
      rw [Site.trace_next, counted_concat]
      rfl
    have hany : (u.next (.file k .bury) c).trace.any (terminalFailure k) =
        u.trace.any (terminalFailure k) := by
      rw [Site.trace_next, List.any_append, List.any_cons, List.any_nil]
      simp [terminalFailure]
    constructor
    · rw [hcount]
      exact h₁.few
    · rw [hcount, hany, h₁.terminal]
      exact hwhy₁
    · rw [Site.trace_next, buried_concat]
      simp [buriedStep]
    · rw [hentry, Entry.bury, hx]
    · rw [hentry, Entry.bury, hx]
      rfl
    · rw [Site.trace_next]
      exact h₁.spaced.concat fun ha => by cases ha
    · rw [Site.trace_next]
      exact h₁.quiet.concat fun ha => by cases ha
  refine (bounded_total (J := Gone k) (φ := fun o => o = .look k ∨ o = .file k .buryStatus ∨
    ∃ t, o = .file k (.putReason t)) ?_ ?_ hgone).mono (fun _ _ => trivial) fun _ _ _ h => h
  · refine Prog.Bounded.bind ?_ fun _ => Prog.bounded_op (.inr (.inr ⟨reason, rfl⟩))
    refine Prog.bounded_op_bind (.inl rfl) fun e => ?_
    split
    · trivial
    · split
      · trivial
      · exact Prog.bounded_op (.inr (.inl rfl))
  · intro o c v ho _ hv
    rcases ho with rfl | rfl | ⟨t, rfl⟩
    · exact hv.next (Op.Probes.plain rfl) ⟨rfl, rfl⟩
    · refine hv.next ⟨⟨by simp, by simp, by simp⟩, rfl⟩ ?_
      rw [Site.entry_next_file, if_pos rfl]
      exact FileOp.Calm.apply (f := .buryStatus) trivial _ _
    · refine hv.next ⟨⟨by simp, by simp, by simp⟩, rfl⟩ ?_
      rw [Site.entry_next_file, if_pos rfl]
      exact ⟨rfl, rfl⟩

/-- The failure is not recorded yet. -/
structure Struck (k : Key) (text : String) (s : Site) : Prop extends Failing k text s where
  count : (s.entry k).info.attemptCount + 1 = counted k s.trace
  owed : Owed k s.trace (s.clock + backoff (counted k s.trace))

/-- The failure is recorded: the count is right again, and a retry that may mend it has
to wait. -/
structure Recorded (k : Key) (text : String) (s : Site) : Prop extends Failing k text s where
  count : (s.entry k).info.attemptCount = counted k s.trace
  owed : isTerminalError text = false → Owed k s.trace ((s.entry k).info.nextAttemptAt.getD 0)

theorem Rewritten.steady {g : RetryMeta → ℕ → RetryMeta} (h : Rewritten k g s t) :
    Steady k s.trace t.trace :=
  (h.grown.mono fun _ ho => ho.plain).steady

theorem RetryMeta.record_next (m : RetryMeta) (now : ℕ) (error : String) :
    (m.record now error false).nextAttemptAt = some (now + backoff (m.attemptCount + 1)) := rfl

theorem recordAttempt_total (h : Struck k text s) :
    (recordAttempt k text (isTerminalError text)).Total world 0 P (fun _ => True) s fun r t =>
      r = .ok (counted k t.trace) ∧ Recorded k text t := by
  refine rewriteInfo_total (g := fun m now => m.record now text (isTerminalError text))
    (f := fun m => Prog.ret (m.attemptCount + 1)) fun t ht => ?_
  obtain ⟨now, hnow, hinfo⟩ := ht.info
  have hcount : (t.entry k).info.attemptCount = (s.entry k).info.attemptCount + 1 := by
    rw [hinfo]
    rfl
  have henv : (t.entry k).envelope = (s.entry k).envelope := by rw [ht.rest]
  refine Prog.total_ret trivial ⟨?_, h.toFailing.steady ht.steady henv, ?_, fun hterm => ?_⟩
  · rw [h.count, ht.steady.counted]
  · rw [hcount, h.count, ht.steady.counted]
  · have howed := ht.steady.owed _ (h.owed.mono (Nat.add_le_add_right hnow _))
    rw [← h.count] at howed
    rw [hinfo, hterm, RetryMeta.record_next, Option.getD_some]
    exact howed

theorem mismatch_terminal (h : isMismatch text = true) : isTerminalError text = true := by
  rw [isMismatch] at h
  simp [isTerminalError, TERMINAL_MARKERS, h]

theorem pauseForUpgrade_alive (h : Alive k s) (reason : String) :
    (pauseForUpgrade k reason).Total world 0 P (fun _ => True) s fun _ t => Alive k t := by
  refine rewriteInfo_total (g := fun m now => m.paused now reason) (f := fun _ => Prog.ret ())
    fun t ht => Prog.total_ret trivial ?_
  obtain ⟨now, -, hinfo⟩ := ht.info
  exact h.steady ht.steady ⟨by rw [hinfo]; rfl, by rw [hinfo]; rfl⟩

theorem handleFlushFailure_counting {c : Choice} (text : String) (h : Alive k s)
    (hdue : Owed k s.trace s.clock) (henv : (s.entry k).envelope.isSome) :
    (handleFlushFailure k text).Total world 0 P (fun _ => True) (s.next (.failed k text) c)
      fun _ t => Counting k t := by
  unfold handleFlushFailure
  by_cases hm : isMismatch text = true
  · rw [if_pos (by rw [mismatch_terminal hm, hm]; rfl)]
    have hplain : (Op.failed k text).Plain k :=
      ⟨⟨fun text' ht => by cases ht; exact hm, by simp, by simp⟩, rfl⟩
    exact (pauseForUpgrade_alive (h.next hplain ⟨rfl, rfl⟩) text).mono (fun _ h => h)
      fun _ _ _ h => .inl h
  · have hm : isMismatch text = false := by simpa using hm
    rw [if_neg (by rw [hm]; simp)]
    have hcount : counted k (s.next (.failed k text) c).trace = counted k s.trace + 1 := by
      rw [Site.trace_next, counted_concat]
      simp [countedFailure, hm]
    have hfew := h.few
    have hstruck : Struck k text (s.next (.failed k text) c) := by
      refine ⟨⟨?_, ?_, ?_, henv, ?_, ?_⟩, ?_, ?_⟩
      · omega
      · rw [Site.trace_next, List.any_append, h.terminal, List.any_cons, List.any_nil]
        simp [terminalFailure, hm]
      · rw [Site.trace_next, buried_concat, h.buried]
        rfl
      · rw [Site.trace_next]
        exact h.spaced.concat fun ha => by cases ha
      · rw [Site.trace_next]
        exact h.quiet.concat fun ha => by cases ha
      · rw [hcount]
        exact congrArg (· + 1) h.count
      · rw [hcount, Site.trace_next, Site.clock_next]
        refine (hdue.mono (by omega)).concat fun t text' hlast _ _ => ?_
        cases hlast
        exact le_rfl
    refine (recordAttempt_total hstruck).bind ?_ ?_
    · intro n t _ ht
      obtain ⟨hn, hrec⟩ := ht
      cases hn
      cases hterm : isTerminalError text with
      | true =>
        rw [if_pos rfl]
        exact (deadLetter_gone hrec.toFailing (.inr hterm) _).mono (fun _ h => h)
          fun _ _ _ h => .inr h
      | false =>
        rw [if_neg (by simp)]
        by_cases hmax : MAX_ATTEMPTS ≤ counted k t.trace
        · rw [if_pos hmax]
          have heq : counted k t.trace = MAX_ATTEMPTS := le_antisymm hrec.few hmax
          exact (deadLetter_gone hrec.toFailing (.inl heq) _).mono (fun _ h => h)
            fun _ _ _ h => .inr h
        · rw [if_neg hmax]
          refine Prog.total_ret trivial (.inl ⟨not_le.mp hmax, ?_, hrec.buried, hrec.count,
            hrec.owed hterm, hrec.spaced, hrec.quiet⟩)
          exact hrec.terminal.trans hterm
    · intro e t _ ht
      cases ht.1

/-! ### A retry -/

theorem Sent.steady (h : Sent k s t) (hdue : Owed k s.trace s.clock)
    (hburied : buried k s.trace = false) : Steady k s.trace t.trace := by
  obtain ⟨new, htrace, hnew⟩ := h.grown.trace
  rw [htrace]
  refine steady_append fun x hx => ?_
  obtain ⟨⟨dest, hs⟩, hclock⟩ := hnew x hx
  exact ⟨hs.uncounted, fun _ => ⟨hdue.mono hclock, hburied⟩⟩

theorem retry_counting {cfg : Config} {env : Envelope} {hostAlias : String} (h : Alive k s)
    (hdue : Owed k s.trace s.clock) (henv : (s.entry k).envelope.isSome) :
    (retry cfg k env hostAlias).Total world 0 P (fun _ => True) s fun _ t => Counting k t := by
  refine op_total trivial fun c _ => ?_
  have hmem : (Op.mem).Plain k := ⟨⟨by simp, by simp, by simp⟩, rfl⟩
  have h₁ : Alive k (s.next .mem c) := h.next hmem ⟨rfl, rfl⟩
  have hdue₁ : Owed k (s.next .mem c).trace (s.next .mem c).clock := by
    rw [Site.clock_next]
    exact (((Grown.refl s).next hmem).steady.owed _ hdue).mono (by omega)
  have henv₁ : ((s.next .mem c).entry k).envelope.isSome := henv
  generalize s.next .mem c = u at h₁ hdue₁ henv₁
  refine attempt_bind_total (resend_total (k := k) cfg env hostAlias _) fun r v _ hv => ?_
  obtain ⟨hsent, -⟩ := hv
  have hsteady : Steady k u.trace v.trace := hsent.steady hdue₁ h₁.buried
  have hentry : v.entry k = u.entry k := congrFun hsent.entry k
  have h₂ : Alive k v := h₁.steady hsteady (by rw [hentry]; exact ⟨rfl, rfl⟩)
  cases r with
  | ok x =>
    refine op_total trivial fun c _ => op_total trivial fun c' _ => op_total trivial fun c'' _ => ?_
    refine Prog.total_ret trivial (.inl ?_)
    have h₃ : Alive k (v.next (.file k .mark) c) := by
      refine h₂.next ⟨⟨by simp, by simp, by simp⟩, rfl⟩ ?_
      rw [Site.entry_next_file, if_pos rfl]
      exact ⟨rfl, rfl⟩
    have h₄ : Alive k ((v.next (.file k .mark) c).next (.appendHistory k) c') :=
      h₃.next ⟨⟨by simp, by simp, by simp⟩, rfl⟩ ⟨rfl, rfl⟩
    exact h₄.next ⟨⟨by simp, by simp, by simp⟩, rfl⟩ ⟨rfl, rfl⟩
  | error text =>
    refine op_total trivial fun c _ => ?_
    have hdue₂ : Owed k v.trace v.clock := (hsteady.owed _ hdue₁).mono hsent.grown.clock
    have henv₂ : (v.entry k).envelope.isSome := by rw [hentry]; exact henv₁
    refine (handleFlushFailure_counting (c := c) text h₂ hdue₂ henv₂).bind ?_ ?_
    · exact fun _ _ _ h => Prog.total_ret trivial h
    · exact fun _ _ _ h => h

/-- **One entry.**  Whatever the body of the loop does, the entry stays within its
budget. -/
theorem flushEntry_counting {cfg : Config} (h : Counting k s) :
    (flushEntry cfg k).Total world 0 P (fun _ => True) s fun _ t => Counting k t := by
  refine (eligible_total s).bind ?_ ?_
  · intro b t _ hb
    obtain ⟨hprobed, b', hb', hdue, -⟩ := hb
    cases hb'
    have henv : (t.entry k).envelope = (s.entry k).envelope := by rw [hprobed.entry.rest]
    have hdead : (t.entry k).dead = (s.entry k).dead := by rw [hprobed.entry.rest]
    have ht : Counting k t := by
      rcases h with h | h
      · exact .inl (h.steady hprobed.steady hprobed.entry.sameCount)
      · exact .inr (h.steady hprobed.steady ⟨henv, hdead⟩)
    cases b with
    | false => exact Prog.total_ret trivial ht
    | true =>
      refine op_total trivial fun c _ => ?_
      have hlook : (Op.look k).Plain k := Op.Probes.plain rfl
      have ht₁ : Counting k (t.next (.look k) c) := ht.steady ((Grown.refl t).next hlook).steady rfl
      have hanswer : (t.tick (.look k) c).answer c (.look k) = t.entry k := rfl
      rw [hanswer]
      cases htarget : (t.entry k).target? with
      | none => exact Prog.total_ret trivial ht₁
      | some x =>
        have hin : (t.entry k).envelope.isSome := by
          rw [Option.isSome_iff_ne_none]
          intro hnone
          rw [Entry.target?, hnone] at htarget
          cases htarget
        have halive : Alive k (t.next (.look k) c) := by
          rcases ht₁ with ha | hg
          · exact ha
          · have hnone : (t.entry k).envelope = none := hg.envelope
            rw [hnone] at hin
            cases hin
        refine retry_counting halive ?_ hin
        have hd := hdue rfl
        refine halive.owed.mono ?_
        show ((t.entry k).info.nextAttemptAt.getD 0) ≤ _
        rw [Site.clock_next]
        cases hnext : (t.entry k).info.nextAttemptAt with
        | none => exact Nat.zero_le _
        | some d =>
          have hle := hd.attempt d hnext
          show d ≤ _
          omega
  · intro e t _ hb
    obtain ⟨-, b', hb', -⟩ := hb
    cases hb'

end Steps

/-! ## Runs -/

/-- Calls of `flush` that do not sweep, one after the other, with time that passes and
restarts, from an entry that has not failed yet. -/
inductive Retried (cfg : Config) (k : Key) : Site → Prop
  | start {s : Site} (htrace : s.trace = []) (hcount : (s.entry k).info.attemptCount = 0) :
      Retried cfg k s
  | wait {s : Site} (h : Retried cfg k s) (d : ℕ) : Retried cfg k { s with clock := s.clock + d }
  | restart {s : Site} (h : Retried cfg k s) : Retried cfg k { s with mem := {} }
  | flush {s s' : Site} {sessionId : Option String} {r : Except String ℕ} (h : Retried cfg k s)
      (hrun : (retryAll cfg sessionId).Runs world 0 (fun _ => True) s r s') : Retried cfg k s'

theorem Retried.counting {cfg : Config} {k : Key} {s : Site} (h : Retried cfg k s) :
    Counting k s := by
  induction h with
  | start htrace hcount =>
    refine .inl ?_
    constructor
    · rw [htrace]
      show 0 < MAX_ATTEMPTS
      decide
    · rw [htrace]
      rfl
    · rw [htrace]
      rfl
    · rw [htrace, hcount]
      rfl
    · intro L₁ t text L₂ hL
      rw [htrace] at hL
      exact absurd hL (by simp)
    · intro L₁ t text L₂ hL
      rw [htrace] at hL
      exact absurd hL (by simp)
    · intro L₁ t o L₂ hL
      rw [htrace] at hL
      exact absurd hL (by simp)
  | wait h d ih => exact ih.steady .refl rfl
  | restart h ih => exact ih.steady .refl rfl
  | @flush s s' sessionId r h hrun ih =>
    suffices htotal : (retryAll cfg sessionId).Total world 0 (fun _ => True) (fun _ => True) s
        fun r t => Counting k t ∧ Fine True r from (htotal.ends r s' hrun).1
    refine retryAll_total (J := Counting k) (fun _ _ => trivial) ?_ ?_ ?_ sessionId ih
    · intro s sid c h
      exact h.steady ((Grown.refl s).next ⟨⟨by simp, by simp, by simp⟩, rfl⟩).steady rfl
    · intro s c h
      exact h.steady ((Grown.refl s).next ⟨⟨by simp, by simp, by simp⟩, rfl⟩).steady rfl
    · intro k' s _ h
      by_cases hk : k' = k
      · subst hk
        exact (flushEntry_counting h).mono (fun _ h => h) fun _ _ _ h => ⟨h, .inl trivial⟩
      · exact (other_counting h hk).mono (fun _ h => h) fun _ _ _ h => ⟨h, .inl trivial⟩

/-- A message that waits for a retry. -/
def waiting : Site := { entries := Table.empty.set ("s", "m") { envelope := some (.json letter) } }

end AiMeshChat.Swarm
