import AiMeshChat.Park.Registry

/-!
# One call at a time

What each call of the registry makes of the table when no other process moves. A call
reads the clock once, so its effect is a function of that reading and of the table, and
`Computes` says that the call comes to its end with this effect, whatever time goes by on
the way. `Does` is the same for a call that evicts, or whose effect is not a function.
-/

namespace AiMeshChat.Park

open Lib PARK_DEFAULTS

/-! ## Effects -/

/-- What `acquire` answers and makes of the table. -/
def acquireRows (now : ℤ) (key : String) (m : ParkManifest) (t : Leases) :
    Except ParkErr Bool × Leases :=
  match t.get? key with
  | none => (.ok true, t.put (rowOf now key m))
  | some r =>
    match Lifecycle.ofValue? r.lifecycle with
    | none => (.error (.value r.lifecycle), t)
    | some existing =>
      if existing ≠ .releasedSoft then (.ok false, t) else (.ok true, t.put (rowOf now key m))

/-- What a release makes of the table. -/
def releaseRows (now : ℤ) (key mode : String) (t : Leases) : Leases :=
  if mode = "hard" then t.delete (·.key = key)
  else
    match t.get? key with
    | none => t
    | some r =>
      let m := { r.manifest with lifecycle := .releasedSoft, releaseMode := "soft" }
      t.update (·.key = key) (·.released m now) (·.released_key m now)

/-! ## Steps of one process alone -/

/-- No other process holds a lock. -/
def Free (i : ℕ) (locks : LockName → Option (ℕ × ℕ)) : Prop :=
  ∀ n, locks n = none ∨ ∃ d, 1 ≤ d ∧ locks n = some (i, d)

/-- The snapshot files can be read. -/
def Readable (c : ParkChoice) : Prop := c.snapshot.isOk = true

section Alone

variable {i : ℕ} {P : ParkChoice → Prop} {α β : Type}

/-- From `s`, process `i` alone brings the call to its end: its locks are as before, and
`F` holds of a time on the way, the result, the table and the new evictions. -/
def Does (i : ℕ) (P : ParkChoice → Prop) (p : ParkCall α) (s : Registry)
    (F : ℤ → Except ParkErr α → Leases → List Eviction → Prop) : Prop :=
  p.Total parkWorld i P (fun _ => True) s fun r s' => s'.locks = s.locks ∧
    ∃ t new, s.clock ≤ t ∧ t ≤ s'.clock ∧ s'.evictions = s.evictions ++ new ∧ F t r s'.rows new

/-- Result and table are as `f` says, and nothing is evicted. -/
def Computes (i : ℕ) (P : ParkChoice → Prop) (p : ParkCall α) (s : Registry)
    (f : ℤ → Except ParkErr α × Leases) : Prop :=
  Does i P p s fun t r rows new => f t = (r, rows) ∧ new = []

theorem op_total {o : ParkOp} {k : ParkAns o → ParkCall β} {s : Registry}
    {Q : Except ParkErr β → Registry → Prop} (hw : o.waits i s = false)
    (h : ∀ c, P c → (k (o.answer c (s.later c))).Total parkWorld i P (fun _ => True)
      ((s.later c).next i o) Q) :
    (Prog.op o >>= k).Total parkWorld i P (fun _ => True) s Q :=
  ⟨trivial, fun c hc => ⟨_, _, perform_eq_some.mpr ⟨hw, rfl, rfl⟩, h c hc⟩⟩

theorem unlock_lock {locks : LockName → Option (ℕ × ℕ)} (h : Free i locks) (n : LockName) :
    (ParkOp.unlock n).locksAfter i ((ParkOp.lock n).locksAfter i locks) = locks := by
  funext n'
  simp only [ParkOp.locksAfter]
  by_cases hn : n' = n
  · subst hn
    rw [Function.update_self, Function.update_self]
    rcases h n' with hnone | ⟨d, hd, hsome⟩
    · rw [hnone]
      rfl
    · rw [hsome]
      simp only [Option.map_some, Option.getD_some, Option.bind_some]
      rw [if_neg (by omega)]
      rfl
  · rw [Function.update_of_ne hn, Function.update_of_ne hn]

theorem free_lock {locks : LockName → Option (ℕ × ℕ)} (h : Free i locks) (n : LockName) :
    Free i ((ParkOp.lock n).locksAfter i locks) := by
  intro n'
  simp only [ParkOp.locksAfter]
  by_cases hn : n' = n
  · subst hn
    rw [Function.update_self]
    exact .inr ⟨_, by omega, rfl⟩
  · rw [Function.update_of_ne hn]
    exact h n'

section Rules

variable {s : Registry} {F : ℤ → Except ParkErr β → Leases → List Eviction → Prop}

theorem Does.mono {p : ParkCall β} {G : ℤ → Except ParkErr β → Leases → List Eviction → Prop}
    (h : Does i P p s F) (hF : ∀ t r rows new, s.clock ≤ t → F t r rows new → G t r rows new) :
    Does i P p s G := by
  refine Prog.Total.mono h (fun _ h => h) fun r s' _ hr => ?_
  obtain ⟨hlocks, t, new, ht, ht', hnew, hrest⟩ := hr
  exact ⟨hlocks, t, new, ht, ht', hnew, hF _ _ _ _ ht hrest⟩

theorem ret_does {a : β} (h : F s.clock (.ok a) s.rows []) : Does i P (.ret a) s F :=
  Prog.total_ret trivial ⟨rfl, s.clock, [], le_rfl, le_rfl, (List.append_nil _).symm, h⟩

theorem raise_does {e : ParkErr} (h : F s.clock (.error e) s.rows []) : Does i P (.raise e) s F :=
  Prog.total_raise trivial ⟨rfl, s.clock, [], le_rfl, le_rfl, (List.append_nil _).symm, h⟩

/-- **The sequencing rule.**  What follows may take the time of the first part. -/
theorem Does.bind {p : ParkCall α} {k : α → ParkCall β}
    {M : ℤ → Except ParkErr α → Leases → List Eviction → Prop} (hp : Does i P p s M)
    (hok : ∀ t a new s₁, s.clock ≤ t → s₁.locks = s.locks → M t (.ok a) s₁.rows new →
      Does i P (k a) s₁ fun _ r rows new' => F t r rows (new ++ new'))
    (herr : ∀ t e rows new, M t (.error e) rows new → F t (.error e) rows new) :
    Does i P (p >>= k) s F := by
  refine Prog.Total.bind hp (fun a s₁ _ h₁ => ?_) fun e s₁ _ h₁ => ?_
  · obtain ⟨hlocks, t, new, ht, ht', hnew, hM⟩ := h₁
    refine Prog.Total.mono (hok t a new s₁ ht hlocks hM) (fun _ h => h) fun r s' _ hr => ?_
    obtain ⟨hlocks', t', new', hle, hle', hnew', hF⟩ := hr
    refine ⟨hlocks'.trans hlocks, t, new ++ new', ht, ht'.trans (hle.trans hle'), ?_, hF⟩
    rw [hnew', hnew, List.append_assoc]
  · obtain ⟨hlocks, t, new, ht, ht', hnew, hM⟩ := h₁
    exact ⟨hlocks, t, new, ht, ht', hnew, herr _ _ _ _ hM⟩

/-- **The rule for operations** that leave the locks alone. -/
theorem op_does {o : ParkOp} {k : ParkAns o → ParkCall β} (hw : o.waits i s = false)
    (hl : o.locksAfter i s.locks = s.locks)
    (h : ∀ c, P c → Does i P (k (o.answer c (s.later c))) ((s.later c).next i o)
      fun t r rows new => F t r rows (o.evicts (s.later c) ++ new)) :
    Does i P (Prog.op o >>= k) s F := by
  refine op_total hw fun c hc => ?_
  have hle : s.clock ≤ ((s.later c).next i o).clock := by
    show s.clock ≤ s.clock + c.elapsed
    omega
  refine Prog.Total.mono (h c hc) (fun _ h => h) fun r s' _ hr => ?_
  obtain ⟨hlocks, t, new, ht, ht', hnew, hF⟩ := hr
  refine ⟨hlocks.trans hl, t, _ ++ new, hle.trans ht, ht', ?_, hF⟩
  rw [hnew]
  exact List.append_assoc _ _ _

/-- **The rule for locks.**  What a call does under its lock, it does. -/
theorem withLock_does {n : LockName} {p : ParkCall β} (hfree : Free i s.locks)
    (hp : ∀ s₁ : Registry, s₁.rows = s.rows → s.clock ≤ s₁.clock → Free i s₁.locks →
      Does i P p s₁ F) :
    Does i P (withLock n p) s F := by
  have hlater (c : ParkChoice) (s₁ : Registry) : s₁.clock ≤ (s₁.later c).clock := by
    show s₁.clock ≤ s₁.clock + c.elapsed
    omega
  refine op_total ?_ fun c _ => ?_
  · simp only [ParkOp.waits]
    rcases hfree n with hnone | ⟨d, -, hsome⟩
    · rw [hnone]
      rfl
    · rw [hsome]
      simp
  · have hevict : ((s.later c).next i (.lock n)).evictions = s.evictions := List.append_nil _
    have hbody := hp ((s.later c).next i (.lock n)) rfl (hlater c s) (free_lock hfree n)
    refine Prog.Total.bind (M := fun r s₂ => (match r with
        | .ok _ => s₂.locks = (ParkOp.lock n).locksAfter i s.locks
        | .error _ => s₂.locks = s.locks) ∧
        ∃ t new, s.clock ≤ t ∧ t ≤ s₂.clock ∧ s₂.evictions = s.evictions ++ new ∧
          F t r s₂.rows new) ?_ ?_ ?_
    · -- an exception has given the lock back when it leaves the block
      refine hbody.tryCatch (fun a s₂ _ h => ?_) fun e s₂ _ h => ?_
      · obtain ⟨hlocks, t, new, ht, ht', hnew, hF⟩ := h
        rw [hevict] at hnew
        exact ⟨hlocks, t, new, (hlater c s).trans ht, ht', hnew, hF⟩
      · obtain ⟨hlocks, t, new, ht, ht', hnew, hF⟩ := h
        rw [hevict] at hnew
        refine op_total rfl fun c' _ => Prog.total_raise trivial ⟨?_, t, new,
          (hlater c s).trans ht, ht'.trans (hlater c' s₂), ?_, hF⟩
        · show (ParkOp.unlock n).locksAfter i s₂.locks = s.locks
          rw [hlocks]
          exact unlock_lock hfree n
        · show s₂.evictions ++ [] = _
          rw [List.append_nil, hnew]
    · rintro a s₂ - ⟨hlocks, t, new, ht, ht', hnew, hF⟩
      refine op_total rfl fun c' _ => Prog.total_ret trivial ⟨?_, t, new, ht,
        ht'.trans (hlater c' s₂), ?_, hF⟩
      · show (ParkOp.unlock n).locksAfter i s₂.locks = s.locks
        rw [hlocks]
        exact unlock_lock hfree n
      · show s₂.evictions ++ [] = _
        rw [List.append_nil, hnew]
    · rintro e s₂ - ⟨hlocks, h⟩
      exact ⟨hlocks, h⟩

/-- **The rule for operations that evict nothing.** -/
theorem quiet_does {o : ParkOp} {k : ParkAns o → ParkCall β} (hw : o.waits i s = false)
    (hl : o.locksAfter i s.locks = s.locks) (he : ∀ s, o.evicts s = [])
    (h : ∀ c, P c → ∀ s₁ : Registry, s₁.rows = o.rowsAfter s.rows → s.clock ≤ s₁.clock →
      s₁.locks = s.locks → Does i P (k (o.answer c { s₁ with rows := s.rows })) s₁ F) :
    Does i P (Prog.op o >>= k) s F := by
  refine op_does hw hl fun c hc => ?_
  have hanswer : o.answer c (s.later c) =
      o.answer c { (s.later c).next i o with rows := s.rows } := by
    cases o <;> rfl
  rw [hanswer, he]
  refine h c hc _ rfl ?_ hl
  show s.clock ≤ s.clock + c.elapsed
  omega

theorem clock_does {k : ℤ → ParkCall β}
    (h : ∀ s₁ : Registry, s₁.rows = s.rows → s.clock ≤ s₁.clock → s₁.locks = s.locks →
      Does i P (k s₁.clock) s₁ fun _ => F s₁.clock) : Does i P (Prog.op ParkOp.clock >>= k) s F := by
  refine quiet_does rfl rfl (fun _ => rfl) fun c _ s₁ hrows hle hlocks => ?_
  refine Prog.Total.mono (h s₁ hrows hle hlocks) (fun _ h => h) fun r s' _ hr => ?_
  obtain ⟨hl, t, new, ht, ht', hnew, hF⟩ := hr
  exact ⟨hl, s₁.clock, new, le_rfl, ht.trans ht', hnew, hF⟩

end Rules

/-! ## What each call does -/

/-- The row of a key that has one is written anew. -/
theorem overwrite_computes {key : String} {m : ParkManifest} {r : LeaseRow} {a : α} {s : Registry}
    (hget : s.rows.get? key = some r) :
    Computes i P (Prog.op ParkOp.clock >>= fun now =>
      Prog.op (ParkOp.overwrite (rowOf now key m)) >>= fun _ => Prog.ret a) s
      fun t => (.ok a, s.rows.put (rowOf t key m)) := by
  refine clock_does fun s₁ hrows₁ _ _ => ?_
  refine quiet_does rfl rfl (fun _ => rfl) fun c _ s₂ hrows₂ _ _ => ?_
  have hsome : s₁.rows.get? (rowOf s₁.clock key m).key = some r := by
    rw [hrows₁]
    exact hget
  simp only [ParkOp.rowsAfter, hsome, Option.isSome_some, if_true] at hrows₂
  refine ret_does ⟨?_, rfl⟩
  rw [hrows₂, hrows₁]

theorem acquire_computes {key : String} {m : ParkManifest} {s : Registry} (hfree : Free i s.locks) :
    Computes i P (acquire key m) s fun t => acquireRows t key m s.rows := by
  refine withLock_does hfree fun s₁ hrows _ _ => ?_
  rw [← hrows]
  refine quiet_does rfl rfl (fun _ => rfl) fun c _ s₂ hrows₂ _ _ => ?_
  simp only [ParkOp.answer, ParkOp.rowsAfter, acquireRows] at hrows₂ ⊢
  cases hget : s₁.rows.get? key with
  | none =>
    refine clock_does fun s₃ hrows₃ _ _ => ?_
    refine quiet_does rfl rfl (fun _ => rfl) fun c _ s₄ hrows₄ _ _ => ?_
    have hnone : s₃.rows.get? (rowOf s₃.clock key m).key = none := by
      rw [hrows₃, hrows₂]
      exact hget
    simp only [ParkOp.answer, ParkOp.rowsAfter, hnone, Option.isNone_none, Option.isSome_none,
      Bool.false_eq_true, if_false] at hrows₄ ⊢
    refine ret_does ⟨?_, rfl⟩
    rw [hrows₄, hrows₃, hrows₂]
  | some r =>
    dsimp only [Option.map_some]
    cases Lifecycle.ofValue? r.lifecycle with
    | none => exact raise_does ⟨by rw [hrows₂], rfl⟩
    | some existing =>
      dsimp only
      split
      · exact ret_does ⟨by rw [hrows₂], rfl⟩
      · rw [← hrows₂] at hget ⊢
        exact overwrite_computes hget

theorem renew_computes {key : String} {s : Registry} (hfree : Free i s.locks) :
    Computes i P (renew key) s fun t =>
      (.ok (), s.rows.update (·.key = key) (·.renewed t (t + ttlSeconds))
        (·.renewed_key t (t + ttlSeconds))) := by
  refine clock_does fun s₁ hrows₁ _ hlocks₁ => ?_
  refine withLock_does (hlocks₁ ▸ hfree) fun s₂ hrows₂ _ _ => ?_
  refine quiet_does rfl rfl (fun _ => rfl) fun c _ s₃ hrows₃ _ _ => ?_
  refine ret_does ⟨?_, rfl⟩
  rw [hrows₃, hrows₂, hrows₁]
  rfl

theorem Computes.map {p : ParkCall α} {s : Registry} {f : ℤ → Except ParkErr α × Leases}
    (h : Computes i P p s f) (g : α → β) :
    Computes i P (p >>= fun a => Prog.ret (g a)) s fun t => ((f t).1.map g, (f t).2) := by
  refine Does.bind h (fun t a new s₁ _ _ hM => ?_) fun t e rows new hM => ?_
  · obtain ⟨hf, rfl⟩ := hM
    exact ret_does ⟨by simp only [hf]; rfl, rfl⟩
  · obtain ⟨hf, rfl⟩ := hM
    exact ⟨by simp only [hf]; rfl, rfl⟩

theorem update_computes {key : String} {m : ParkManifest} {s : Registry} (hfree : Free i s.locks) :
    Computes i P (update key m) s fun t => (.ok (), s.rows.put (rowOf t key m)) := by
  refine withLock_does hfree fun s₁ hrows₁ _ hfree₁ => ?_
  refine quiet_does rfl rfl (fun _ => rfl) fun c _ s₂ hrows₂ _ hlocks₂ => ?_
  rw [← hrows₁]
  change s₂.rows = s₁.rows at hrows₂
  have hanswer : (ParkOp.exists key).answer c { s₂ with rows := s₁.rows } =
      (s₁.rows.get? key).isSome := rfl
  rw [hanswer]
  cases hget : s₁.rows.get? key with
  | none =>
    have hacquire : Computes i P (acquire key m) s₂ fun t =>
        (.ok true, s₂.rows.put (rowOf t key m)) := by
      have h := @acquire_computes i P key m s₂ (hlocks₂ ▸ hfree₁)
      simpa only [acquireRows, hrows₂, hget] using h
    have hdrop := hacquire.map fun _ => ()
    rw [hrows₂] at hdrop
    exact hdrop
  | some r =>
    rw [← hrows₂] at hget ⊢
    exact overwrite_computes hget

theorem lookup_bind_does {key : String} {k : Option ParkManifest → ParkCall β} {s : Registry}
    {F : ℤ → Except ParkErr β → Leases → List Eviction → Prop}
    (h : ∀ s₁ : Registry, s₁.rows = s.rows → s.clock ≤ s₁.clock → s₁.locks = s.locks →
      Does i P (k ((s.rows.get? key).map (·.manifest))) s₁ F) :
    Does i P (lookup key >>= k) s F :=
  quiet_does rfl rfl (fun _ => rfl) fun _ _ s₁ hrows hle hlocks => h s₁ hrows hle hlocks

theorem delete_computes {key : String} {s : Registry} (hfree : Free i s.locks) :
    Computes i P (delete key) s fun _ => (.ok (), s.rows.delete (·.key = key)) := by
  refine withLock_does hfree fun s₁ hrows₁ _ _ => ?_
  refine quiet_does rfl rfl (fun _ => rfl) fun c _ s₂ hrows₂ _ _ => ?_
  refine ret_does ⟨?_, rfl⟩
  rw [hrows₂, hrows₁]
  rfl

theorem release_computes {key mode : String} {s : Registry} (hfree : Free i s.locks) :
    Computes i P (release key mode) s fun t => (.ok (), releaseRows t key mode s.rows) := by
  by_cases hmode : mode = "hard"
  · simp only [release, releaseRows, if_pos hmode]
    exact delete_computes hfree
  · simp only [release, releaseRows, if_neg hmode]
    refine withLock_does hfree fun s₁ hrows₁ _ _ => ?_
    rw [← hrows₁]
    refine lookup_bind_does fun s₂ hrows₂ _ _ => ?_
    cases s₁.rows.get? key with
    | none => exact ret_does ⟨by rw [hrows₂], rfl⟩
    | some r =>
      refine clock_does fun s₃ hrows₃ _ _ => ?_
      refine quiet_does rfl rfl (fun _ => rfl) fun c _ s₄ hrows₄ _ _ => ?_
      refine ret_does ⟨?_, rfl⟩
      rw [hrows₄, hrows₃, hrows₂]
      rfl

end Alone

end AiMeshChat.Park
