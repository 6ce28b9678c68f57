import AiMeshChat.Park.Alone

/-!
# What a sweep leaves behind

`sweepRows` is the sweep as a function of the table: evict the rows past a deadline and
purge, evict the excess, evict those that have had all their rounds, purge. `sweep_does`
connects it with the program. An eviction takes a row out of the hot ones and a purge
takes none of them away, so each rule goes on from the hot rows that the one before it
spared; and these are rows of the table as it was when the sweep began.

A snapshot file that cannot be read ends a sweep halfway, in a table that is `Swept`.
-/

namespace AiMeshChat.Park

open Lib PARK_DEFAULTS

/-! ## The sweep as a function -/

/-- Evict the given rows. -/
def evictRows (rs : List LeaseRow) (t : Leases) : Leases :=
  t.update (· ∈ rs) (fun r => r.evicted r .coldResumable) fun r => r.evicted_key r .coldResumable

/-- The rows that the rule of the deadlines selects. -/
def expiredRows (now : ℤ) (t : Leases) : List LeaseRow :=
  t.select fun r => r.isHot && r.pastDeadline now

/-- The rows that the rule of the limit selects. -/
def excessRows (t : Leases) : List LeaseRow :=
  excess ((t.select (·.isHot)).insertionSort LeaseRow.Before)

/-- The rows that the rule of the rounds selects. -/
def overRows (t : Leases) : List LeaseRow := (t.select (·.isHot)).filter (·.overRounds)

/-- The table after the rule of the deadlines and the purge that follows it. -/
def afterTtl (now : ℤ) (t : Leases) : Leases :=
  (evictRows (expiredRows now t) t).delete (·.coldDue now)

/-- The table after the rule of the limit. -/
def afterLru (now : ℤ) (t : Leases) : Leases :=
  evictRows (excessRows (afterTtl now t)) (afterTtl now t)

/-- The table after a sweep. -/
def sweepRows (now : ℤ) (t : Leases) : Leases :=
  (evictRows (overRows (afterLru now t)) (afterLru now t)).delete
    (·.releasedDue (now - hardLimitSeconds))

/-- The rows that a sweep evicts. -/
def sweptRows (now : ℤ) (t : Leases) : List LeaseRow :=
  expiredRows now t ++ excessRows (afterTtl now t) ++ overRows (afterLru now t)

/-! ## Hot rows -/

variable {now : ℤ} {r r' : LeaseRow} {rs : List LeaseRow} {t : Leases}

theorem not_hot_of_coldDue (h : r.coldDue now = true) : r.isHot = false := by
  simp only [LeaseRow.coldDue, Bool.and_eq_true, decide_eq_true_eq] at h
  simp [LeaseRow.isHot, h.1.1, Lifecycle.value]

theorem not_hot_of_releasedDue {cutoff : ℤ} (h : r.releasedDue cutoff = true) :
    r.isHot = false := by
  simp only [LeaseRow.releasedDue, Bool.and_eq_true, Bool.or_eq_true, decide_eq_true_eq] at h
  rcases h.1 with h | h <;> simp [LeaseRow.isHot, h, Lifecycle.value]

@[simp] theorem not_hot_evicted (r selected : LeaseRow) :
    (r.evicted selected .coldResumable).isHot = false := rfl

theorem mem_evictRows : r' ∈ (evictRows rs t).list ↔
      (r' ∈ t.list ∧ r' ∉ rs) ∨ ∃ r ∈ t.list, r ∈ rs ∧ r' = r.evicted r .coldResumable := by
  rw [evictRows, Rows.mem_update]
  constructor
  · rintro ⟨r, hr, rfl⟩
    by_cases h : r ∈ rs
    · exact .inr ⟨r, hr, h, by simp [h]⟩
    · exact .inl (by simpa [h] using hr)
  · rintro (⟨hr, h⟩ | ⟨r, hr, h, rfl⟩)
    · exact ⟨r', hr, by simp [h]⟩
    · exact ⟨r, hr, by simp [h]⟩

theorem hot_evictRows :
    r ∈ (evictRows rs t).list ∧ r.isHot = true ↔ (r ∈ t.list ∧ r.isHot = true) ∧ r ∉ rs := by
  rw [mem_evictRows]
  constructor
  · rintro ⟨⟨hr, hn⟩ | ⟨r₀, -, -, rfl⟩, hhot⟩
    · exact ⟨⟨hr, hhot⟩, hn⟩
    · simp at hhot
  · rintro ⟨⟨hr, hhot⟩, hn⟩
    exact ⟨.inl ⟨hr, hn⟩, hhot⟩

theorem hot_delete {p : LeaseRow → Bool}
    (hp : ∀ r, p r = true → r.isHot = false) :
    r ∈ (t.delete p).list ∧ r.isHot = true ↔ r ∈ t.list ∧ r.isHot = true := by
  rw [Rows.mem_delete]
  constructor
  · rintro ⟨⟨hr, -⟩, hhot⟩
    exact ⟨hr, hhot⟩
  · rintro ⟨hr, hhot⟩
    refine ⟨⟨hr, ?_⟩, hhot⟩
    cases h : p r with
    | false => rfl
    | true =>
      rw [hp r h] at hhot
      cases hhot

theorem mem_expiredRows :
    r ∈ expiredRows now t ↔ (r ∈ t.list ∧ r.isHot = true) ∧ r.pastDeadline now = true := by
  simp [expiredRows, and_assoc]

theorem mem_overRows : r ∈ overRows t ↔ (r ∈ t.list ∧ r.isHot = true) ∧ r.overRounds = true := by
  simp [overRows, and_assoc]

theorem hot_of_mem_excessRows (h : r ∈ excessRows t) : r ∈ t.list ∧ r.isHot = true := by
  have hmem := List.mem_of_mem_take h
  rwa [List.mem_insertionSort, Rows.mem_select] at hmem

theorem hot_afterTtl : r ∈ (afterTtl now t).list ∧ r.isHot = true ↔
      (r ∈ t.list ∧ r.isHot = true) ∧ r.pastDeadline now = false := by
  rw [afterTtl, hot_delete fun _ => not_hot_of_coldDue, hot_evictRows, mem_expiredRows]
  constructor
  · rintro ⟨h, hn⟩
    exact ⟨h, by simpa [h] using hn⟩
  · rintro ⟨h, hn⟩
    exact ⟨h, by simp [hn]⟩

theorem hot_afterLru : r ∈ (afterLru now t).list ∧ r.isHot = true ↔
      (r ∈ (afterTtl now t).list ∧ r.isHot = true) ∧ r ∉ excessRows (afterTtl now t) :=
  hot_evictRows

theorem hot_sweepRows : r ∈ (sweepRows now t).list ∧ r.isHot = true ↔
      (r ∈ (afterLru now t).list ∧ r.isHot = true) ∧ r.overRounds = false := by
  rw [sweepRows, hot_delete fun _ => not_hot_of_releasedDue, hot_evictRows, mem_overRows]
  constructor
  · rintro ⟨h, hn⟩
    exact ⟨h, by simpa [h] using hn⟩
  · rintro ⟨h, hn⟩
    exact ⟨h, by simp [hn]⟩

theorem mem_drop_of_hot_afterLru (h : r ∈ (afterLru now t).list ∧ r.isHot = true) :
    r ∈ (((afterTtl now t).select (·.isHot)).insertionSort LeaseRow.Before).drop
      ((((afterTtl now t).select (·.isHot)).insertionSort LeaseRow.Before).length -
        maxHotParked) := by
  obtain ⟨hhot, hn⟩ := hot_afterLru.mp h
  have hmem : r ∈ ((afterTtl now t).select (·.isHot)).insertionSort LeaseRow.Before := by
    rw [List.mem_insertionSort, Rows.mem_select]
    exact hhot
  rw [← List.take_append_drop
    ((((afterTtl now t).select (·.isHot)).insertionSort LeaseRow.Before).length - maxHotParked)
    (((afterTtl now t).select (·.isHot)).insertionSort LeaseRow.Before), List.mem_append] at hmem
  exact hmem.resolve_left hn

/-- At most `maxHotParked` rows are hot after the rule of the limit. -/
theorem length_hot_afterLru (now : ℤ) (t : Leases) :
    ((afterLru now t).select (·.isHot)).length ≤ maxHotParked := by
  have hsub := List.subperm_of_subset (Rows.select_nodup (afterLru now t) (·.isHot)).of_map
    fun r hr => mem_drop_of_hot_afterLru (Rows.mem_select.mp hr)
  refine hsub.length_le.trans ?_
  rw [List.length_drop]
  omega

theorem le_of_mem_excessRows (h : r ∈ excessRows (afterTtl now t))
    (h' : r' ∈ (afterLru now t).list ∧ r'.isHot = true) : r.lastActivity ≤ r'.lastActivity := by
  have hsorted := List.pairwise_insertionSort LeaseRow.Before ((afterTtl now t).select (·.isHot))
  rw [← List.take_append_drop
    ((((afterTtl now t).select (·.isHot)).insertionSort LeaseRow.Before).length - maxHotParked)
    (((afterTtl now t).select (·.isHot)).insertionSort LeaseRow.Before),
    List.pairwise_append] at hsorted
  exact hsorted.2.2 r h r' (mem_drop_of_hot_afterLru h')

/-! ## The rows that are evicted -/

theorem mem_sweptRows : r ∈ sweptRows now t ↔
      (r ∈ t.list ∧ r.isHot = true) ∧ ¬ (r ∈ (sweepRows now t).list ∧ r.isHot = true) := by
  rw [hot_sweepRows, hot_afterLru, hot_afterTtl, sweptRows, List.mem_append, List.mem_append,
    mem_expiredRows, mem_overRows, hot_afterLru, hot_afterTtl]
  have hexcess (h : r ∈ excessRows (afterTtl now t)) : r ∈ t.list ∧ r.isHot = true :=
    (hot_afterTtl.mp (hot_of_mem_excessRows h)).1
  cases hpast : r.pastDeadline now <;> cases hover : r.overRounds <;> grind

theorem sweptRows_nodup (now : ℤ) (t : Leases) : ((sweptRows now t).map LeaseRow.key).Nodup := by
  have hselect (t : Leases) (p : LeaseRow → Bool) : (t.select p).Nodup :=
    (Rows.select_nodup t p).of_map
  have hrows : (sweptRows now t).Nodup := by
    rw [sweptRows, List.nodup_append', List.nodup_append']
    refine ⟨⟨hselect _ _, ?_, ?_⟩, (hselect _ _).filter _, ?_⟩
    · exact ((List.perm_insertionSort _ _).nodup_iff.mpr (hselect _ _)).sublist (List.take_sublist _ _)
    · intro r hexp hexc
      have hpast := (hot_afterTtl.mp (hot_of_mem_excessRows hexc)).2
      rw [(mem_expiredRows.mp hexp).2] at hpast
      cases hpast
    · intro r hr hover
      obtain ⟨hhot, hn⟩ := hot_afterLru.mp (mem_overRows.mp hover).1
      rcases List.mem_append.mp hr with hexp | hexc
      · have hpast := (hot_afterTtl.mp hhot).2
        rw [(mem_expiredRows.mp hexp).2] at hpast
        cases hpast
      · exact hn hexc
  refine List.Nodup.map_on (fun r hr r' hr' hkey => ?_) hrows
  exact Rows.eq_of_key (mem_sweptRows.mp hr).1.1 (mem_sweptRows.mp hr').1.1 hkey

theorem mem_sweepRows (h : r' ∈ (sweepRows now t).list) : (r' ∈ t.list ∧ r' ∉ sweptRows now t) ∨
      ∃ r ∈ sweptRows now t, r' = r.evicted r .coldResumable := by
  have hnot (r : LeaseRow) : ¬ ((r.evicted r .coldResumable).isHot = true) := by simp
  simp only [sweptRows, List.mem_append]
  rcases mem_evictRows.mp (Rows.mem_delete.mp h).1 with ⟨hl, hn₃⟩ | ⟨r, hr, hm, rfl⟩
  · rcases mem_evictRows.mp hl with ⟨ha, hn₂⟩ | ⟨r, hr, hm, rfl⟩
    · rcases mem_evictRows.mp (Rows.mem_delete.mp ha).1 with ⟨ht, hn₁⟩ | ⟨r, hr, hm, rfl⟩
      · exact .inl ⟨ht, by tauto⟩
      · exact .inr ⟨r, .inl (.inl hm), rfl⟩
    · exact .inr ⟨r, .inl (.inr hm), rfl⟩
  · exact .inr ⟨r, .inr hm, rfl⟩

/-! ## A sweep that stops halfway -/

/-- Some rows were evicted, some removed. -/
def Swept (t t' : Leases) : Prop :=
  ∀ r' ∈ t'.list, ∃ r ∈ t.list, r' = r ∨ r' = r.evicted r .coldResumable

theorem Swept.refl (t : Leases) : Swept t t := fun r hr => ⟨r, hr, .inl rfl⟩

theorem Swept.trans {t₁ t₂ t₃ : Leases} (h : Swept t₁ t₂) (h' : Swept t₂ t₃) : Swept t₁ t₃ := by
  intro r₃ hr₃
  obtain ⟨r₂, hr₂, heq⟩ := h' r₃ hr₃
  obtain ⟨r₁, hr₁, heq'⟩ := h r₂ hr₂
  refine ⟨r₁, hr₁, ?_⟩
  rcases heq with rfl | rfl <;> rcases heq' with rfl | rfl
  · exact .inl rfl
  · exact .inr rfl
  · exact .inr rfl
  · exact .inr rfl

theorem swept_evictRows (rs : List LeaseRow) (t : Leases) : Swept t (evictRows rs t) := by
  intro r' hr'
  rcases mem_evictRows.mp hr' with ⟨hr, -⟩ | ⟨r, hr, -, rfl⟩
  · exact ⟨r', hr, .inl rfl⟩
  · exact ⟨r, hr, .inr rfl⟩

theorem swept_delete (p : LeaseRow → Bool) (t : Leases) : Swept t (t.delete p) :=
  fun r hr => ⟨r, (Rows.mem_delete.mp hr).1, .inl rfl⟩

theorem swept_afterTtl (now : ℤ) (t : Leases) : Swept t (afterTtl now t) :=
  (swept_evictRows _ t).trans (swept_delete _ _)

theorem swept_afterLru (now : ℤ) (t : Leases) : Swept t (afterLru now t) :=
  (swept_afterTtl now t).trans (swept_evictRows _ _)

theorem swept_sweepRows (now : ℤ) (t : Leases) : Swept t (sweepRows now t) :=
  (swept_afterLru now t).trans ((swept_evictRows _ _).trans (swept_delete _ _))

/-! ## The program -/

/-- The row of an eviction, and why it was evicted. -/
def Eviction.case (e : Eviction) : Rule × LeaseRow := (e.rule, e.row)

theorem evictRows_cons
    (hkeys : r.key ∉ rs.map LeaseRow.key) :
    evictRows rs (evictRows [r] t) = evictRows (r :: rs) t := by
  refine Rows.ext ?_
  simp only [evictRows, Rows.update, List.map_map]
  refine List.map_congr_left fun r₀ _ => ?_
  simp only [Function.comp_apply, List.mem_cons]
  by_cases h : r₀ = r
  · subst h
    have hn : r₀.evicted r₀ .coldResumable ∉ rs := fun hmem => hkeys (List.mem_map.mpr ⟨_, hmem, rfl⟩)
    simp [hn]
  · simp [h]

theorem evictRows_nil (t : Leases) : evictRows [] t = t := Rows.ext (by simp [evictRows, Rows.update])

theorem evict_rowsAfter {rule : Rule} {r : LeaseRow} {t : Leases} (hr : r ∈ t.list)
    (hhot : r.isHot = true) : (ParkOp.evict rule r .coldResumable).rowsAfter t = evictRows [r] t := by
  refine Rows.ext ?_
  simp only [ParkOp.rowsAfter, evictRows, Rows.update]
  refine List.map_congr_left fun r₀ hr₀ => ?_
  by_cases hkey : r₀.key = r.key
  · obtain rfl := Rows.eq_of_key hr₀ hr hkey
    simp [hhot]
  · have hne : r₀ ≠ r := fun h => hkey (congrArg _ h)
    simp [hkey, hne]

theorem evict_evicts {rule : Rule} {s : Registry} (hr : r ∈ s.rows.list) (hhot : r.isHot = true) :
    ((ParkOp.evict rule r .coldResumable).evicts s).map Eviction.case = [(rule, r)] := by
  simp only [ParkOp.evicts, Rows.get?_of_mem hr, Option.filter_some, hhot, if_true]
  rfl

section Program

variable {i : ℕ} {P : ParkChoice → Prop}

/-- A snapshot file cannot be read. -/
def Fails (P : ParkChoice → Prop) : Prop := ∃ c, P c ∧ ¬ Readable c

variable {rule : Rule} {s : Registry}

theorem evict_does {r : LeaseRow} (hr : r ∈ s.rows.list) (hhot : r.isHot = true) :
    Does i P (Prog.op (ParkOp.evict rule r .coldResumable)) s fun _ res rows new =>
      res = .ok true ∧ rows = evictRows [r] s.rows ∧ new.map Eviction.case = [(rule, r)] := by
  have hget : s.rows.get? r.key = some r := Rows.get?_of_mem hr
  refine op_does (k := .ret) rfl rfl fun c _ => ret_does ⟨?_, ?_, ?_⟩
  · show Except.ok ((s.rows.get? r.key).any (·.isHot)) = _
    rw [hget, Option.any_some, hhot]
  · exact @evict_rowsAfter rule r s.rows hr hhot
  · rw [List.append_nil]
    exact evict_evicts (s := s.later c) hr hhot

theorem evictOne_does {r : LeaseRow} (hfree : Free i s.locks) (hr : r ∈ s.rows.list)
    (hhot : r.isHot = true) : Does i P (evictOne rule r .coldResumable) s fun _ res rows new =>
      match res with
      | .ok done => done = true ∧ rows = evictRows [r] s.rows ∧ new.map Eviction.case = [(rule, r)]
      | .error _ => Fails P ∧ rows = s.rows := by
  refine withLock_does hfree fun s₁ hrows₁ _ _ => ?_
  rw [← hrows₁] at hr ⊢
  refine quiet_does rfl rfl (fun _ => rfl) fun c hc s₂ hrows₂ _ _ => ?_
  change s₂.rows = s₁.rows at hrows₂
  have hanswer : (ParkOp.latestSnapshot r.key).answer c { s₂ with rows := s₁.rows } = c.snapshot := rfl
  have hevict (s₃ : Registry) (hrows₃ : s₃.rows = s₁.rows) :
      Does i P (Prog.op (ParkOp.evict rule r .coldResumable)) s₃ fun _ res rows new =>
        match res with
        | .ok done =>
          done = true ∧ rows = evictRows [r] s₁.rows ∧ new.map Eviction.case = [(rule, r)]
        | .error _ => Fails P ∧ rows = s₁.rows := by
    refine (evict_does (hrows₃ ▸ hr) hhot).mono fun t res rows new _ h => ?_
    obtain ⟨rfl, hrows, hcase⟩ := h
    exact ⟨rfl, hrows₃ ▸ hrows, hcase⟩
  rw [hanswer]
  match hsnap : c.snapshot with
  | .error msg => exact raise_does ⟨⟨c, hc, by simp [Readable, hsnap, Except.isOk, Except.toBool]⟩, hrows₂⟩
  | .ok true => exact hevict s₂ hrows₂
  | .ok false =>
    refine quiet_does rfl rfl (fun _ => rfl) fun c _ s₃ hrows₃ _ _ => ?_
    exact hevict s₃ (hrows₃.trans hrows₂)

theorem evictAll_does : ∀ {rs : List LeaseRow} {evicted : List String} {s : Registry},
    Free i s.locks → (rs.map LeaseRow.key).Nodup → (∀ r ∈ rs, r ∈ s.rows.list ∧ r.isHot = true) →
    Does i P (evictAll rule rs evicted) s fun _ res rows new =>
      match res with
      | .ok evicted' => evicted' = evicted ++ rs.map LeaseRow.key ∧ rows = evictRows rs s.rows ∧
          new.map Eviction.case = rs.map (rule, ·)
      | .error _ => Fails P ∧ Swept s.rows rows := by
  intro rs
  induction rs with
  | nil =>
    intro evicted s _ _ _
    exact ret_does ⟨(List.append_nil _).symm, (evictRows_nil _).symm, rfl⟩
  | cons r rs ih =>
    intro evicted s hfree hkeys hrs
    obtain ⟨hkey, hkeys'⟩ := List.nodup_cons.mp hkeys
    obtain ⟨hr, hhot⟩ := hrs r List.mem_cons_self
    refine Does.bind (evictOne_does hfree hr hhot) (fun t done new s₁ _ hlocks h => ?_) ?_
    · obtain ⟨rfl, hrows, hcase⟩ := h
      have hrs₁ : ∀ r' ∈ rs, r' ∈ s₁.rows.list ∧ r'.isHot = true := by
        intro r' hr'
        obtain ⟨hmem, hhot'⟩ := hrs r' (List.mem_cons_of_mem _ hr')
        refine ⟨?_, hhot'⟩
        rw [hrows, mem_evictRows]
        refine .inl ⟨hmem, fun h => hkey ?_⟩
        obtain rfl := List.mem_singleton.mp h
        exact List.mem_map_of_mem hr'
      refine (ih (hlocks ▸ hfree) hkeys' hrs₁).mono fun _ res rows new' _ h' => ?_
      cases res with
      | ok evicted' =>
        obtain ⟨rfl, hrows', hcase'⟩ := h'
        refine ⟨by simp, ?_, ?_⟩
        · rw [hrows', hrows, evictRows_cons hkey]
        · rw [List.map_append, hcase, hcase']
          rfl
      | error e =>
        refine ⟨h'.1, (swept_evictRows [r] s.rows).trans ?_⟩
        rw [← hrows]
        exact h'.2
    · intro t e rows new h
      exact ⟨h.1, h.2 ▸ Swept.refl _⟩

theorem mem_of_select {t : Leases} {p : LeaseRow → Bool} (hp : ∀ r, p r = true → r.isHot = true) :
    ∀ r ∈ t.select p, r ∈ t.list ∧ r.isHot = true := by
  intro r hr
  obtain ⟨hmem, h⟩ := Rows.mem_select.mp hr
  exact ⟨hmem, hp r h⟩

theorem excessRows_nodup (t : Leases) : ((excessRows t).map LeaseRow.key).Nodup := by
  have hperm := (List.perm_insertionSort LeaseRow.Before (t.select (·.isHot))).map LeaseRow.key
  exact (hperm.nodup_iff.mpr (Rows.select_nodup _ _)).sublist ((List.take_sublist _ _).map _)

/-- Why the rows of a sweep are evicted. -/
def sweptCases (now : ℤ) (t : Leases) : List (Rule × LeaseRow) :=
  (expiredRows now t).map (.ttl, ·) ++ (excessRows (afterTtl now t)).map (.lru, ·) ++
    (overRows (afterLru now t)).map (.rounds, ·)

theorem sweepLocked_does {now : ℤ} {s : Registry} (hfree : Free i s.locks) :
    Does i P (sweepLocked now) s fun _ res rows new =>
      match res with
      | .ok evicted => evicted = (sweptRows now s.rows).map LeaseRow.key ∧
          rows = sweepRows now s.rows ∧ new.map Eviction.case = sweptCases now s.rows
      | .error _ => Fails P ∧ Swept s.rows rows := by
  refine quiet_does rfl rfl (fun _ => rfl) fun _ _ s₁ hrows₁ _ hlocks₁ => ?_
  change s₁.rows = s.rows at hrows₁
  rw [← hrows₁]
  change Does i P (evictAll .ttl (expiredRows now s₁.rows) _ >>= _) s₁ _
  refine Does.bind (evictAll_does (hlocks₁ ▸ hfree) (Rows.select_nodup _ _) (mem_of_select ?_)) ?_
    fun _ _ _ _ h => h
  · intro r hr
    exact (Bool.and_eq_true_iff.mp hr).1
  rintro _ evicted₁ new₁ s₂ - hlocks₂ ⟨rfl, hrows₂, hcase₁⟩
  refine quiet_does rfl rfl (fun _ => rfl) fun _ _ s₃ hrows₃ _ hlocks₃ => ?_
  replace hrows₃ : s₃.rows = afterTtl now s₁.rows := by
    rw [hrows₃, hrows₂]
    rfl
  refine quiet_does rfl rfl (fun _ => rfl) fun _ _ s₄ hrows₄ _ hlocks₄ => ?_
  replace hrows₄ : s₄.rows = afterTtl now s₁.rows := hrows₄.trans hrows₃
  have hfree₄ : Free i s₄.locks := by
    rw [hlocks₄, hlocks₃, hlocks₂, hlocks₁]
    exact hfree
  change Does i P (evictAll .lru (excess ((s₃.rows.select (·.isHot)).insertionSort _)) _ >>= _) s₄ _
  rw [hrows₃]
  refine Does.bind (evictAll_does hfree₄ (excessRows_nodup _) ?_) ?_ ?_
  · intro r hr
    rw [hrows₄]
    exact hot_of_mem_excessRows hr
  · rintro _ evicted₂ new₂ s₅ - hlocks₅ ⟨rfl, hrows₅, hcase₂⟩
    replace hrows₅ : s₅.rows = afterLru now s₁.rows := by
      rw [hrows₅, hrows₄]
      rfl
    refine quiet_does rfl rfl (fun _ => rfl) fun _ _ s₆ hrows₆ _ hlocks₆ => ?_
    replace hrows₆ : s₆.rows = afterLru now s₁.rows := hrows₆.trans hrows₅
    change Does i P (evictAll .rounds ((s₅.rows.select (·.isHot)).filter (·.overRounds)) _ >>= _) s₆ _
    rw [hrows₅]
    have hfree₆ : Free i s₆.locks := by
      rw [hlocks₆, hlocks₅]
      exact hfree₄
    refine Does.bind (evictAll_does hfree₆ ?_ ?_) ?_ ?_
    · exact (Rows.select_nodup _ _).sublist (List.filter_sublist.map _)
    · intro r hr
      rw [hrows₆]
      exact (mem_overRows.mp hr).1
    · rintro _ evicted₃ new₃ s₇ - - ⟨rfl, hrows₇, hcase₃⟩
      refine quiet_does rfl rfl (fun _ => rfl) fun _ _ s₈ hrows₈ _ _ => ?_
      refine ret_does ⟨?_, ?_, ?_⟩
      · rw [sweptRows, List.map_append, List.map_append, List.nil_append]
        rfl
      · rw [hrows₈, hrows₇, hrows₆]
        rfl
      · rw [List.append_nil, List.map_append, List.map_append, hcase₁, hcase₂, hcase₃, sweptCases,
          List.append_assoc]
        rfl
    · rintro _ e rows new ⟨hfails, hswept⟩
      refine ⟨hfails, (swept_afterLru now s₁.rows).trans ?_⟩
      rwa [hrows₆] at hswept
  · rintro _ e rows new ⟨hfails, hswept⟩
    refine ⟨hfails, (swept_afterTtl now s₁.rows).trans ?_⟩
    rwa [hrows₄] at hswept

/-- **What a sweep does**, with the time it reads when it begins. -/
theorem sweep_does (hfree : Free i s.locks) : Does i P sweep s fun now res rows new =>
      match res with
      | .ok evicted => evicted = (sweptRows now s.rows).map LeaseRow.key ∧
          rows = sweepRows now s.rows ∧ new.map Eviction.case = sweptCases now s.rows
      | .error _ => Fails P ∧ Swept s.rows rows := by
  refine clock_does fun s₁ hrows₁ _ hlocks₁ => ?_
  refine withLock_does (hlocks₁ ▸ hfree) fun s₂ hrows₂ _ hfree₂ => ?_
  have h := @sweepLocked_does i P s₁.clock s₂ hfree₂
  rwa [hrows₂, hrows₁] at h

theorem sweep_swept (hfree : Free i s.locks) :
    Does i P sweep s fun _ _ rows _ => Swept s.rows rows := by
  refine (sweep_does hfree).mono fun now res rows new _ h => ?_
  cases res with
  | ok evicted => exact h.2.1 ▸ swept_sweepRows now s.rows
  | error e => exact h.2

end Program

/-! ## The postcondition -/

/-- The key has a hot row. -/
def HotKey (t : Leases) (key : String) : Prop := ∃ r, t.get? key = some r ∧ r.isHot = true

/-- The table after a sweep at the time `now`, that returned `evicted` and made the
evictions `log`. -/
structure AfterSweep (now : ℤ) (t t' : Leases) (evicted : List String) (log : List Eviction) :
    Prop where
  limit : (t'.select (·.isHot)).length ≤ maxHotParked
  live : ∀ r ∈ t'.list, r.isHot = true → r.pastDeadline now = false ∧ r.overRounds = false
  /-- Survivors of the rule of the limit are hot in the end or fall to the rule of the rounds. -/
  oldest : ∀ e ∈ log, e.rule = .lru → ∀ r, ((r ∈ t'.list ∧ r.isHot = true) ∨
    ∃ e' ∈ log, e'.rule = .rounds ∧ e'.row = r) → e.row.lastActivity ≤ r.lastActivity
  log_keys : log.map (·.row.key) = evicted
  nodup : evicted.Nodup
  mem_evicted : ∀ key, key ∈ evicted ↔ HotKey t key ∧ ¬ HotKey t' key
  agree : ∀ r ∈ t'.list, r.key ∈ evicted → r.lifecycle = r.manifest.lifecycle.value
  untouched : ∀ r ∈ t'.list, r.key ∉ evicted → r ∈ t.list

theorem hotKey_iff {t : Leases} {key : String} :
    HotKey t key ↔ ∃ r ∈ t.list, r.key = key ∧ r.isHot = true := by
  constructor
  · rintro ⟨r, hget, hhot⟩
    exact ⟨r, Rows.mem_of_get? hget, Rows.key_of_get? hget, hhot⟩
  · rintro ⟨r, hr, rfl, hhot⟩
    exact ⟨r, Rows.get?_of_mem hr, hhot⟩

theorem mem_sweptCases {now : ℤ} {t : Leases} {rule : Rule} {r : LeaseRow} :
    (rule, r) ∈ sweptCases now t ↔ match rule with
      | .ttl => r ∈ expiredRows now t
      | .lru => r ∈ excessRows (afterTtl now t)
      | .rounds => r ∈ overRows (afterLru now t) := by
  cases rule <;> simp [sweptCases]

theorem afterSweep_sweepRows {now : ℤ} {t : Leases} {log : List Eviction}
    (hlog : log.map Eviction.case = sweptCases now t) :
    AfterSweep now t (sweepRows now t) ((sweptRows now t).map LeaseRow.key) log where
  limit := by
    have hsub : (sweepRows now t).select (·.isHot) ⊆ (afterLru now t).select (·.isHot) :=
      fun r hr => Rows.mem_select.mpr (hot_sweepRows.mp (Rows.mem_select.mp hr)).1
    have hperm := List.subperm_of_subset (Rows.select_nodup (sweepRows now t) (·.isHot)).of_map hsub
    exact hperm.length_le.trans (length_hot_afterLru now t)
  live r hr hhot := by
    obtain ⟨hlru, hover⟩ := hot_sweepRows.mp ⟨hr, hhot⟩
    exact ⟨(hot_afterTtl.mp (hot_afterLru.mp hlru).1).2, hover⟩
  oldest e he hrule r hr := by
    have hmem {e : Eviction} (he : e ∈ log) : (e.rule, e.row) ∈ sweptCases now t :=
      hlog ▸ List.mem_map_of_mem (f := Eviction.case) he
    have hexcess := mem_sweptCases.mp (hrule ▸ hmem he)
    refine le_of_mem_excessRows hexcess ?_
    rcases hr with hhot | ⟨e', he', hrule', rfl⟩
    · exact (hot_sweepRows.mp hhot).1
    · exact (mem_overRows.mp (mem_sweptCases.mp (hrule' ▸ hmem he'))).1
  log_keys := by
    have hkeys := congrArg (List.map fun c => c.2.key) hlog
    rw [List.map_map] at hkeys
    refine hkeys.trans ?_
    simp [sweptCases, sweptRows, Function.comp_def]
  nodup := sweptRows_nodup now t
  mem_evicted key := by
    rw [hotKey_iff, hotKey_iff, List.mem_map]
    constructor
    · rintro ⟨r, hr, rfl⟩
      obtain ⟨⟨hmem, hhot⟩, hnot⟩ := mem_sweptRows.mp hr
      refine ⟨⟨r, hmem, rfl, hhot⟩, ?_⟩
      rintro ⟨r', hr', hkey, hhot'⟩
      have hr₀ := (hot_afterTtl.mp (hot_afterLru.mp (hot_sweepRows.mp ⟨hr', hhot'⟩).1).1).1.1
      obtain rfl := Rows.eq_of_key hr₀ hmem hkey
      exact hnot ⟨hr', hhot'⟩
    · rintro ⟨⟨r, hmem, rfl, hhot⟩, hnot⟩
      exact ⟨r, mem_sweptRows.mpr ⟨⟨hmem, hhot⟩, fun h => hnot ⟨r, h.1, rfl, h.2⟩⟩, rfl⟩
  agree r hr hkey := by
    rcases mem_sweepRows hr with ⟨hmem, hn⟩ | ⟨r₀, -, rfl⟩
    · obtain ⟨r₀, hr₀, hkey₀⟩ := List.mem_map.mp hkey
      obtain rfl := Rows.eq_of_key (mem_sweptRows.mp hr₀).1.1 hmem hkey₀
      exact absurd hr₀ hn
    · rfl
  untouched r hr hkey := by
    rcases mem_sweepRows hr with ⟨hmem, -⟩ | ⟨r₀, hr₀, rfl⟩
    · exact hmem
    · exact absurd (List.mem_map.mpr ⟨r₀, hr₀, rfl⟩) hkey

/-- **A sweep with no concurrent writer**, over any table: it comes to its end; if the
snapshot files can be read it returns, and what it returns is the postcondition. -/
theorem sweep_total (i : ℕ) (P : ParkChoice → Prop) (t : Leases) (start : ℤ) :
    (sweep.Total parkWorld i P (fun _ => True) { rows := t, clock := start } fun res s' =>
      ((∀ c, P c → Readable c) → ∃ evicted, res = .ok evicted) ∧
      ∀ evicted, res = .ok evicted → ∃ now, start ≤ now ∧ now ≤ s'.clock ∧
        AfterSweep now t s'.rows evicted s'.evictions) := by
  have hfree : Free i (Registry.mk t (fun _ => none) start []).locks := fun _ => .inl rfl
  refine Prog.Total.mono (sweep_does (P := P) hfree) (fun _ h => h) fun res s' _ h => ?_
  obtain ⟨-, now, log, hle, hle', hlog, hres⟩ := h
  cases res with
  | ok evicted =>
    obtain ⟨rfl, hrows, hcase⟩ := hres
    refine ⟨fun _ => ⟨_, rfl⟩, fun evicted h => ?_⟩
    cases h
    refine ⟨now, hle, hle', ?_⟩
    rw [hrows, hlog]
    exact afterSweep_sweepRows hcase
  | error e =>
    obtain ⟨c, hc, hbad⟩ := hres.1
    exact ⟨fun hread => absurd (hread c hc) hbad, nofun⟩

/-- A row whose two copies of the lifecycle differ, and that no rule touches. -/
def mixedRow : LeaseRow := ⟨"k", { reviewKey := "k" }, "cold_resumable", 0, 0, 0⟩

/-- A sweep does not make the copies of the lifecycle agree in a row that it leaves. -/
theorem sweep_keeps_mixed : ¬ ∀ t : Leases,
    sweep.Ends parkWorld 0 (fun _ => True) { rows := t, clock := 0 } fun _ s' =>
      ∀ r ∈ s'.rows.list, r.lifecycle = r.manifest.lifecycle.value := by
  intro h
  obtain ⟨⟨r, s'⟩, hrun, hdiffer⟩ := (Option.any_eq_true _ _).mp (show
    (sweep.exec parkWorld 0 {} 10 { rows := Rows.empty.put mixedRow, clock := 0 }).any (fun x =>
      decide (∃ r ∈ x.2.rows.list, r.lifecycle ≠ r.manifest.lifecycle.value)) = true by
    decide +kernel)
  obtain ⟨row, hrow, hne⟩ := of_decide_eq_true hdiffer
  exact hne (h _ r s' (Prog.runs_of_exec trivial hrun) row hrow)

end AiMeshChat.Park
