import AiMeshChat.Lib.Prog
import Mathlib.Data.Nat.Notation

/-!
# Runs of programs: alone, interleaved, and with crashes

A `World` answers one operation of one process. What the world leaves open (a
clock, a random number, a disk that fails) is the *choice* handed to it, so
every run is a list of events and everything below is a function that can be
evaluated.

* `Prog.Runs` runs one program to its end, with nobody else moving.
* `Pool.run` runs any number of programs in any order; a `crash` event stops a
  process for good where it stands.
* `Pool.Admits G s es` says that every step of the run `es` meets the condition
  `G`, which sees the shared state before the step, the process, its operation
  and the choice.

**The invariant rule** is `Pool.run_keeps`: give every process a role, let the
invariant `J` tie the shared state to the states of all roles, and show once per
operation that `J` is kept. The programs themselves come in only through
`Prog.Keeps`, one lemma each.
-/

namespace AiMeshChat.Lib

/-- What answers the operations. `none` leaves the caller waiting. -/
structure World (Op : Type) (Ans : Op → Type) (S C : Type) where
  perform : ℕ → (o : Op) → C → S → Option (Ans o × S)
  crash : ℕ → S → S

variable {Op : Type} {Ans : Op → Type} {S C ε α β : Type}

/-! ## One program alone -/

/-- Process `i` runs `p` from `s` to the end, every choice in `P`. -/
inductive Prog.Runs (W : World Op Ans S C) (i : ℕ) (P : C → Prop) :
    Prog Op Ans ε α → S → Except ε α → S → Prop
  | ret {a : α} {s : S} : Runs W i P (.ret a) s (.ok a) s
  | raise {e : ε} {s : S} : Runs W i P (.raise e) s (.error e) s
  | call {o : Op} {k : Ans o → Prog Op Ans ε α} {c : C} {s s₁ s₂ : S} {a : Ans o}
      {r : Except ε α} : P c → W.perform i o c s = some (a, s₁) → Runs W i P (k a) s₁ r s₂ →
      Runs W i P (.call o k) s r s₂

namespace Prog

variable {W : World Op Ans S C} {i : ℕ} {P : C → Prop}

variable {s s' : S} {r : Except ε α} {p : Prog Op Ans ε α} {Q M : Except ε α → S → Prop}

@[simp] theorem runs_ret {a : α} : Runs W i P (.ret a) s r s' ↔ r = .ok a ∧ s' = s := by
  constructor
  · intro h; cases h; exact ⟨rfl, rfl⟩
  · rintro ⟨rfl, rfl⟩; exact .ret

@[simp] theorem runs_raise {e : ε} : Runs W i P (.raise e) s r s' ↔ r = .error e ∧ s' = s := by
  constructor
  · intro h; cases h; exact ⟨rfl, rfl⟩
  · rintro ⟨rfl, rfl⟩; exact .raise

@[simp] theorem runs_hang : ¬ Runs W i P .hang s r s' := nofun

theorem runs_call {o : Op} {k : Ans o → Prog Op Ans ε α} : Runs W i P (.call o k) s r s' ↔
      ∃ c a s₁, P c ∧ W.perform i o c s = some (a, s₁) ∧ Runs W i P (k a) s₁ r s' := by
  constructor
  · intro h
    cases h with
    | call hc hp hk => exact ⟨_, _, _, hc, hp, hk⟩
  · rintro ⟨c, a, s₁, hc, hp, hk⟩
    exact .call hc hp hk

theorem runs_bind {f : α → Prog Op Ans ε β} :
    ∀ {s s' : S} {r : Except ε β}, Runs W i P (p >>= f) s r s' ↔
      (∃ a s₁, Runs W i P p s (.ok a) s₁ ∧ Runs W i P (f a) s₁ r s') ∨
      (∃ e, Runs W i P p s (.error e) s' ∧ r = .error e) := by
  induction p with
  | ret a =>
    intro s s' r
    simp only [ret_bind, runs_ret, Except.ok.injEq, reduceCtorEq, false_and, exists_false,
      or_false]
    exact ⟨fun h => ⟨a, s, ⟨rfl, rfl⟩, h⟩, fun ⟨_, _, ⟨hb, hs⟩, h⟩ => hs ▸ hb ▸ h⟩
  | raise e =>
    intro s s' r
    simp only [raise_bind, runs_raise, reduceCtorEq, false_and, exists_false, false_or,
      Except.error.injEq]
    exact ⟨fun ⟨hr, hs⟩ => ⟨e, ⟨rfl, hs⟩, hr⟩, fun ⟨_, ⟨he, hs⟩, hr⟩ => ⟨he ▸ hr, hs⟩⟩
  | hang => intro s s' r; simp
  | call o k ih =>
    intro s s' r
    rw [call_bind, runs_call]
    constructor
    · rintro ⟨c, a, s₁, hc, hp, hk⟩
      rcases (ih a).mp hk with ⟨b, s₂, hb, hf⟩ | ⟨e, he, rfl⟩
      · exact .inl ⟨b, s₂, .call hc hp hb, hf⟩
      · exact .inr ⟨e, .call hc hp he, rfl⟩
    · rintro (⟨b, s₂, hb, hf⟩ | ⟨e, he, rfl⟩)
      · obtain ⟨c, a, s₁, hc, hp, hk⟩ := runs_call.mp hb
        exact ⟨c, a, s₁, hc, hp, (ih a).mpr (.inl ⟨b, s₂, hk, hf⟩)⟩
      · obtain ⟨c, a, s₁, hc, hp, hk⟩ := runs_call.mp he
        exact ⟨c, a, s₁, hc, hp, (ih a).mpr (.inr ⟨e, hk, rfl⟩)⟩

theorem Runs.mono {P' : C → Prop} (h : Runs W i P p s r s')
    (hP : ∀ c, P c → P' c) : Runs W i P' p s r s' := by
  induction h with
  | ret => exact .ret
  | raise => exact .raise
  | call hc hw _ ih => exact .call (hP _ hc) hw ih

theorem Raises.runs {Q : ε → Prop} (hp : p.Raises Q)
    (h : Runs W i P p s r s') : ∀ e, r = .error e → Q e := by
  induction h with
  | ret => intro e he; cases he
  | raise => intro e he; cases he; exact hp
  | call _ _ _ ih => exact ih (hp _)

/-- The run alone with the choice `c` at every step, for at most `n` steps. -/
def exec (W : World Op Ans S C) (i : ℕ) (c : C) : ℕ → Prog Op Ans ε α → S → Option (Except ε α × S)
  | _, ret a, s => some (.ok a, s)
  | _, raise e, s => some (.error e, s)
  | n + 1, call o k, s =>
    match W.perform i o c s with
    | some (a, s₁) => exec W i c n (k a) s₁
    | none => none
  | 0, call _ _, _ => none
  | _, hang, _ => none

theorem runs_of_exec {c : C} (hc : P c) :
    ∀ {n : ℕ} {p : Prog Op Ans ε α} {s s' : S} {r : Except ε α},
      exec W i c n p s = some (r, s') → Runs W i P p s r s' := by
  intro n p
  induction p generalizing n with
  | ret a => intro s s' r h; cases n <;> cases h <;> exact .ret
  | raise e => intro s s' r h; cases n <;> cases h <;> exact .raise
  | hang => intro s s' r h; cases n <;> cases h
  | call o k ih =>
    intro s s' r h
    cases n with
    | zero => cases h
    | succ n =>
      simp only [exec] at h
      split at h
      · next a s₁ hw => exact .call hc hw (ih a h)
      · cases h

/-- A run that `exec` finds. -/
theorem runs_exec {c : C} {n : ℕ} (h : (exec W i c n p s).isSome = true) :
    Runs W i (fun c' => c' = c) p s ((exec W i c n p s).get h).1 ((exec W i c n p s).get h).2 :=
  runs_of_exec (P := fun c' => c' = c) rfl (Option.some_get h).symm

/-! ### Postconditions of a run alone -/

/-- Every run of `p` by process `i` from `s` with choices in `P` ends in `Q`. -/
def Ends (W : World Op Ans S C) (i : ℕ) (P : C → Prop) (p : Prog Op Ans ε α) (s : S)
    (Q : Except ε α → S → Prop) : Prop :=
  ∀ r s', Runs W i P p s r s' → Q r s'

theorem ends_ret {a : α} (h : Q (.ok a) s) : (ret a : Prog Op Ans ε α).Ends W i P s Q := by
  intro r s' hr
  obtain ⟨rfl, rfl⟩ := runs_ret.mp hr
  exact h

theorem ends_raise {e : ε} (h : Q (.error e) s) : (raise e : Prog Op Ans ε α).Ends W i P s Q := by
  intro r s' hr
  obtain ⟨rfl, rfl⟩ := runs_raise.mp hr
  exact h

theorem ends_hang : (hang : Prog Op Ans ε α).Ends W i P s Q := fun _ _ h => absurd h runs_hang

theorem Ends.mono {Q' : Except ε α → S → Prop} (h : p.Ends W i P s Q)
    (hQ : ∀ r s', Q r s' → Q' r s') : p.Ends W i P s Q' :=
  fun r s' hr => hQ r s' (h r s' hr)

theorem Ends.choices {P' : C → Prop} (h : p.Ends W i P s Q)
    (hP : ∀ c, P' c → P c) : p.Ends W i P' s Q :=
  fun r s' hr => h r s' (hr.mono hP)

theorem Ends.and {R : Except ε α → S → Prop} (h : p.Ends W i P s Q)
    (h' : p.Ends W i P s R) : p.Ends W i P s fun r s' => Q r s' ∧ R r s' :=
  fun r s' hr => ⟨h r s' hr, h' r s' hr⟩

theorem Ends.bind {f : α → Prog Op Ans ε β} {Q : Except ε β → S → Prop} (hp : p.Ends W i P s M)
    (hok : ∀ a s₁, M (.ok a) s₁ → (f a).Ends W i P s₁ Q)
    (herr : ∀ e s₁, M (.error e) s₁ → Q (.error e) s₁) : (p >>= f).Ends W i P s Q := by
  intro r s' hr
  rcases runs_bind.mp hr with ⟨a, s₁, h₁, h₂⟩ | ⟨e, h₁, rfl⟩
  · exact hok a s₁ (hp _ _ h₁) r s' h₂
  · exact herr e s' (hp _ _ h₁)

theorem Ends.tryCatch {g : ε → Prog Op Ans ε α} (hp : p.Ends W i P s M)
    (hok : ∀ a s₁, M (.ok a) s₁ → Q (.ok a) s₁)
    (herr : ∀ e s₁, M (.error e) s₁ → (g e).Ends W i P s₁ Q) : (p.tryCatch g).Ends W i P s Q := by
  induction p generalizing s with
  | ret a => exact ends_ret (hok a s (hp _ _ .ret))
  | raise e => exact herr e s (hp _ _ .raise)
  | hang => exact ends_hang
  | call o k ih =>
    intro r s' hr
    obtain ⟨c, a, s₁, hc, hw, hk⟩ := runs_call.mp hr
    exact ih a (fun r s' h => hp r s' (.call hc hw h)) r s' hk

/-- `finally`, whether the program raises or not. -/
theorem Ends.ensure {f : Prog Op Ans ε Unit} (hp : p.Ends W i P s M)
    (hf : ∀ r s₁, M r s₁ → f.Ends W i P s₁ fun r' s' => r' = .ok () ∧ Q r s') :
    (p.ensure f).Ends W i P s Q := by
  refine Ends.bind (M := fun r s' => (∃ a, r = .ok a ∧ M r s') ∨ (∃ e, r = .error e) ∧ Q r s')
    ?_ ?_ ?_
  · refine hp.tryCatch (fun a _ h => .inl ⟨a, rfl, h⟩) fun e s₁ hM => ?_
    refine (hf _ s₁ hM).bind (fun _ s₂ hQ => ends_raise (.inr ⟨⟨e, rfl⟩, hQ.2⟩)) ?_
    rintro e' s₂ ⟨h, -⟩
    cases h
  · rintro a s₁ (⟨a', h, hM⟩ | ⟨⟨e, h⟩, -⟩)
    · refine (hf _ s₁ hM).bind (fun _ s₂ hQ => ends_ret hQ.2) ?_
      rintro e s₂ ⟨h, -⟩
      cases h
    · cases h
  · rintro e s₁ (⟨a, h, -⟩ | ⟨-, hQ⟩)
    · cases h
    · exact hQ

theorem Rets.ends {M : α → Prop} (hp : p.Rets M) :
    p.Ends W i P s fun r _ => ∀ a, r = .ok a → M a := by
  intro r s' hr
  induction hr with
  | ret => intro a ha; cases ha; exact hp
  | raise => exact nofun
  | call _ _ _ ih => exact ih (hp _)

theorem ends_op_bind {o : Op} {f : Ans o → Prog Op Ans ε β} {Q : Except ε β → S → Prop}
    (h : ∀ c a s₁, P c → W.perform i o c s = some (a, s₁) → (f a).Ends W i P s₁ Q) :
    ((op o : Prog Op Ans ε (Ans o)) >>= f).Ends W i P s Q := by
  intro r s' hr
  obtain ⟨c, a, s₁, hc, hp, hk⟩ := runs_call.mp hr
  exact h c a s₁ hc hp r s' hk

/-- A relation that every operation in `φ` keeps is kept by a program that calls
only such operations. -/
theorem Only.ends {φ : Op → Prop} (hp : p.Only φ) {I : S → S → Prop} (hrefl : ∀ s, I s s)
    (htrans : ∀ s₁ s₂ s₃, I s₁ s₂ → I s₂ s₃ → I s₁ s₃)
    (hop : ∀ o c a s s₁, φ o → P c → W.perform i o c s = some (a, s₁) → I s s₁) (s : S) :
    p.Ends W i P s fun _ s' => I s s' := by
  intro r s' hr
  induction hr with
  | ret => exact hrefl _
  | raise => exact hrefl _
  | call hc hw _ ih => exact htrans _ _ _ (hop _ _ _ _ _ hp.1 hc hw) (ih (hp.2 _))

end Prog

/-! ## Any number of programs, in any order -/

/-- What happens next: process `i` performs its operation, or it dies. -/
inductive Event (C : Type)
  | tick (i : ℕ) (c : C)
  | crash (i : ℕ)

/-- The shared state and what is left to do of every process. -/
structure Pool (Op : Type) (Ans : Op → Type) (S ε α : Type) where
  shared : S
  procs : ℕ → Prog Op Ans ε α

namespace Pool

variable (W : World Op Ans S C)

/-- One event. A process that has ended or whose operation has to wait does not
move. -/
def step (s : Pool Op Ans S ε α) : Event C → Pool Op Ans S ε α
  | .tick i c =>
    match s.procs i with
    | .call o k =>
      match W.perform i o c s.shared with
      | some (a, sh) => ⟨sh, Function.update s.procs i (k a)⟩
      | none => s
    | _ => s
  | .crash i => ⟨W.crash i s.shared, Function.update s.procs i .hang⟩

/-- The state after the events `es`. -/
def run (s : Pool Op Ans S ε α) (es : List (Event C)) : Pool Op Ans S ε α := es.foldl (step W) s

/-- The condition `G` at one event: it constrains only a step that is about to
perform an operation. -/
def Meets (G : S → ℕ → Op → C → Prop) (s : Pool Op Ans S ε α) : Event C → Prop
  | .tick i c => ∀ o, (s.procs i).head? = some o → G s.shared i o c
  | .crash _ => True

/-- Every step of the run meets `G`. -/
def Admits (G : S → ℕ → Op → C → Prop) : Pool Op Ans S ε α → List (Event C) → Prop
  | _, [] => True
  | s, e :: es => s.Meets G e ∧ Admits G (step W s e) es

instance decidableMeets {G : S → ℕ → Op → C → Prop} [∀ s i o c, Decidable (G s i o c)]
    (s : Pool Op Ans S ε α) : (e : Event C) → Decidable (s.Meets G e)
  | .tick i c =>
    match h : (s.procs i).head? with
    | none => isTrue fun o ho => by rw [h] at ho; cases ho
    | some o => decidable_of_iff (G s.shared i o c)
        ⟨fun hG o' ho => by rw [h] at ho; cases ho; exact hG, fun hG => hG o h⟩
  | .crash _ => isTrue trivial

instance decidableAdmits {G : S → ℕ → Op → C → Prop} [∀ s i o c, Decidable (G s i o c)] :
    (es : List (Event C)) → (s : Pool Op Ans S ε α) → Decidable (s.Admits W G es)
  | [], _ => isTrue trivial
  | e :: es, s =>
    @instDecidableAnd _ _ (decidableMeets s e) (decidableAdmits es (step W s e))

@[simp] theorem run_nil (s : Pool Op Ans S ε α) : run W s [] = s := rfl
@[simp] theorem run_cons (s : Pool Op Ans S ε α) (e : Event C) (es : List (Event C)) :
    run W s (e :: es) = run W (step W s e) es := rfl

theorem run_append (s : Pool Op Ans S ε α) (es fs : List (Event C)) :
    run W s (es ++ fs) = run W (run W s es) fs := List.foldl_append

variable {W}

/-! ### What a run performs -/

/-- The operation an event performs, with the process and the answer. -/
def performed (W : World Op Ans S C) (s : Pool Op Ans S ε α) : Event C → List (ℕ × (o : Op) × Ans o)
  | .tick i c =>
    match s.procs i with
    | .call o _ =>
      match W.perform i o c s.shared with
      | some (a, _) => [(i, ⟨o, a⟩)]
      | none => []
    | _ => []
  | .crash _ => []

/-- The operations of a run, in order. -/
def trace (W : World Op Ans S C) : Pool Op Ans S ε α → List (Event C) → List (ℕ × (o : Op) × Ans o)
  | _, [] => []
  | s, e :: es => s.performed W e ++ trace W (step W s e) es

/-- Every event of the run meets the condition `H`, which sees all processes. -/
def Follows (W : World Op Ans S C) (H : Pool Op Ans S ε α → Event C → Prop) :
    Pool Op Ans S ε α → List (Event C) → Prop
  | _, [] => True
  | s, e :: es => H s e ∧ Follows W H (step W s e) es

theorem Admits.follows {G : S → ℕ → Op → C → Prop} {H : Pool Op Ans S ε α → Event C → Prop}
    (h : ∀ s e, s.Meets G e → H s e) :
    ∀ {es : List (Event C)} {s : Pool Op Ans S ε α}, Admits W G s es → Follows W H s es := by
  intro es
  induction es with
  | nil => intro s _; exact trivial
  | cons e es ih => intro s hG; exact ⟨h s e hG.1, ih hG.2⟩

theorem tick_cases (s : Pool Op Ans S ε α) (i : ℕ) (c : C) :
    (step W s (.tick i c) = s ∧ s.performed W (.tick i c) = []) ∨
    ∃ o k a sh, s.procs i = .call o k ∧ W.perform i o c s.shared = some (a, sh) ∧
      step W s (.tick i c) = ⟨sh, Function.update s.procs i (k a)⟩ ∧
      s.performed W (.tick i c) = [(i, ⟨o, a⟩)] := by
  cases hp : s.procs i with
  | ret a => left; simp only [step, performed, hp, and_self]
  | raise e => left; simp only [step, performed, hp, and_self]
  | hang => left; simp only [step, performed, hp, and_self]
  | call o k =>
    cases hw : W.perform i o c s.shared with
    | none => left; simp only [step, performed, hp, hw, and_self]
    | some x =>
      exact .inr ⟨o, k, x.1, x.2, rfl, hw, by simp only [step, hp, hw],
        by simp only [performed, hp, hw]⟩

theorem step_tick_cases (s : Pool Op Ans S ε α) (i : ℕ) (c : C) :
    step W s (.tick i c) = s ∨ ∃ o k a sh, s.procs i = .call o k ∧
      W.perform i o c s.shared = some (a, sh) ∧
      step W s (.tick i c) = ⟨sh, Function.update s.procs i (k a)⟩ := by
  rcases tick_cases (W := W) s i c with ⟨h, -⟩ | ⟨o, k, a, sh, hp, hw, h, -⟩
  · exact .inl h
  · exact .inr ⟨o, k, a, sh, hp, hw, h⟩

/-! ### The invariant rule -/

section Keeps

variable {R : Role Op Ans} {G : S → ℕ → Op → C → Prop} {J : S → (ℕ → R.St) → Prop}
  {Q : ℕ → R.St → Except ε α → Prop}

/-- The invariant `J` holds of the shared state and some states of the roles,
and every process keeps its role from there. -/
def Kept (R : Role Op Ans) (J : S → (ℕ → R.St) → Prop) (Q : ℕ → R.St → Except ε α → Prop)
    (s : Pool Op Ans S ε α) : Prop :=
  ∃ q : ℕ → R.St, J s.shared q ∧ ∀ i, (s.procs i).Keeps R (q i) (Q i)

/-- One operation that the role allows and the condition admits keeps `J`, and
its answer is as the role assumes. -/
def OpKeeps (W : World Op Ans S C) (R : Role Op Ans) (G : S → ℕ → Op → C → Prop)
    (J : S → (ℕ → R.St) → Prop) : Prop :=
  ∀ ⦃sh : S⦄ ⦃q : ℕ → R.St⦄ ⦃i : ℕ⦄ ⦃o : Op⦄ ⦃c : C⦄ ⦃a : Ans o⦄ ⦃sh' : S⦄, J sh q →
    R.allows (q i) o → G sh i o c → W.perform i o c sh = some (a, sh') →
    R.assumes (q i) o a ∧ J sh' (Function.update q i (R.next (q i) o a))

/-- A process that dies may be given any role state: it calls nothing more. -/
def CrashKeeps (W : World Op Ans S C) (R : Role Op Ans) (J : S → (ℕ → R.St) → Prop) : Prop :=
  ∀ ⦃sh : S⦄ ⦃q : ℕ → R.St⦄ ⦃i : ℕ⦄, J sh q → ∃ x, J (W.crash i sh) (Function.update q i x)

theorem step_kept (hop : OpKeeps W R G J) (hcrash : CrashKeeps W R J)
    {s : Pool Op Ans S ε α} {e : Event C} (hs : s.Kept R J Q) (hG : s.Meets G e) :
    (step W s e).Kept R J Q := by
  obtain ⟨q, hJ, hq⟩ := hs
  cases e with
  | crash i =>
    obtain ⟨x, hx⟩ := hcrash (i := i) hJ
    refine ⟨_, hx, fun j => ?_⟩
    by_cases hj : j = i
    · subst hj; simp [step]
    · simpa [step, Function.update_of_ne hj] using hq j
  | tick i c =>
    rcases step_tick_cases (W := W) s i c with h | ⟨o, k, a, sh, hp, hw, h⟩
    · rw [h]; exact ⟨q, hJ, hq⟩
    · have hi := hq i
      rw [hp] at hi
      have hG' : G s.shared i o c := hG o (by rw [hp]; rfl)
      obtain ⟨ha, hJ'⟩ := hop hJ hi.1 hG' hw
      rw [h]
      refine ⟨_, hJ', fun j => ?_⟩
      by_cases hj : j = i
      · subst hj; simpa using hi.2 a ha
      · simpa [Function.update_of_ne hj] using hq j

/-- **The invariant rule.**  Along every run whose steps meet the condition, the
invariant holds and every process goes on keeping its role. -/
theorem run_keeps (hop : OpKeeps W R G J) (hcrash : CrashKeeps W R J) :
    ∀ (es : List (Event C)) {s : Pool Op Ans S ε α}, s.Kept R J Q → Admits W G s es →
      (run W s es).Kept R J Q := by
  intro es
  induction es with
  | nil => intro s hs _; exact hs
  | cons e es ih => intro s hs hG; exact ih (step_kept hop hcrash hs hG.1) hG.2

/-- A condition that the invariant and the role give at every admitted operation
holds at every step of the run. -/
theorem admits_of_keeps {G' : S → ℕ → Op → C → Prop} (hop : OpKeeps W R G J)
    (hcrash : CrashKeeps W R J)
    (hG' : ∀ sh q i o c, J sh q → R.allows (q i) o → G sh i o c → G' sh i o c) :
    ∀ (es : List (Event C)) {s : Pool Op Ans S ε α}, s.Kept R J Q → Admits W G s es →
      Admits W G' s es := by
  intro es
  induction es with
  | nil => intro s _ _; exact trivial
  | cons e es ih =>
    intro s hs hG
    refine ⟨?_, ih (step_kept hop hcrash hs hG.1) hG.2⟩
    cases e with
    | crash i => exact trivial
    | tick i c =>
      intro o ho
      obtain ⟨q, hJ, hq⟩ := hs
      have hi := hq i
      cases hp : s.procs i with
      | call o' k =>
        rw [hp] at ho hi
        cases ho
        exact hG' _ _ _ _ _ hJ hi.1 (hG.1 o (by rw [hp]; rfl))
      | ret a => rw [hp] at ho; cases ho
      | raise e => rw [hp] at ho; cases ho
      | hang => rw [hp] at ho; cases ho

/-- **The condition is exact.**  Where an operation that does not meet the condition goes
through and leaves a bad state, the runs that meet it are those in which every state reached
is good. -/
theorem admits_iff_always {Good : S → Prop} (hop : OpKeeps W R G J) (hcrash : CrashKeeps W R J)
    (hgood : ∀ sh q, J sh q → Good sh)
    (hdamage : ∀ sh q i o c, J sh q → R.allows (q i) o → ¬ G sh i o c →
      ∃ a sh', W.perform i o c sh = some (a, sh') ∧ ¬ Good sh') :
    ∀ (es : List (Event C)) {s : Pool Op Ans S ε α}, s.Kept R J Q →
      (Admits W G s es ↔ ∀ es₁, es₁ <+: es → Good (run W s es₁).shared) := by
  have hkept : ∀ {s : Pool Op Ans S ε α}, s.Kept R J Q → Good s.shared := by
    rintro s ⟨q, hJ, -⟩
    exact hgood _ _ hJ
  intro es
  induction es with
  | nil =>
    intro s hs
    refine ⟨fun _ es₁ hes₁ => ?_, fun _ => trivial⟩
    rw [List.prefix_nil.mp hes₁]
    exact hkept hs
  | cons e es ih =>
    intro s hs
    constructor
    · rintro ⟨hG, hrest⟩ es₁ hes₁
      cases es₁ with
      | nil => exact hkept hs
      | cons e₁ es₁ =>
        obtain ⟨rfl, hrun⟩ := List.cons_prefix_cons.mp hes₁
        exact (ih (step_kept hop hcrash hs hG)).mp hrest es₁ hrun
    · intro h
      have hG : s.Meets G e := by
        cases e with
        | crash i => exact trivial
        | tick i c =>
          intro o ho
          by_contra hno
          obtain ⟨q, hJ, hq⟩ := hs
          have hi := hq i
          cases hp : s.procs i with
          | call o' k =>
            rw [hp] at ho hi
            cases ho
            obtain ⟨a, sh, hw, hbad⟩ := hdamage _ _ _ _ _ hJ hi.1 hno
            have hnow := h [.tick i c] (List.prefix_append [.tick i c] es)
            rw [run_cons, run_nil] at hnow
            simp only [step, hp, hw] at hnow
            exact hbad hnow
          | ret a => rw [hp] at ho; cases ho
          | raise e => rw [hp] at ho; cases ho
          | hang => rw [hp] at ho; cases ho
      refine ⟨hG, (ih (step_kept hop hcrash hs hG)).mpr fun es₁ hes₁ => ?_⟩
      exact h (e :: es₁) (List.cons_prefix_cons.mpr ⟨rfl, hes₁⟩)

end Keeps

variable {G : S → ℕ → Op → C → Prop}

/-- **The invariant rule without roles**, for an invariant of the shared state
that every admitted operation keeps, whatever the programs are. -/
theorem run_invariant {J : S → Prop}
    (hop : ∀ sh i o c a sh', J sh → G sh i o c → W.perform i o c sh = some (a, sh') → J sh')
    (hcrash : ∀ sh i, J sh → J (W.crash i sh)) :
    ∀ (es : List (Event C)) {s : Pool Op Ans S ε α}, J s.shared → Admits W G s es →
      J (run W s es).shared := by
  intro es
  induction es with
  | nil => intro s hs _; exact hs
  | cons e es ih =>
    intro s hs hG
    refine ih ?_ hG.2
    cases e with
    | crash i => exact hcrash _ _ hs
    | tick i c =>
      rcases step_tick_cases (W := W) s i c with h | ⟨o, k, a, sh, hp, hw, h⟩
      · rw [h]; exact hs
      · rw [h]
        exact hop _ _ _ _ _ _ hs (hG.1 o (by rw [hp]; rfl)) hw

/-- **The rule for footprints**: programs that perform only operations in `φ` keep to them, and keep
an invariant of the shared state that each of these keeps. -/
theorem run_only {φ : Op → Prop} {J : S → Prop}
    (hop : ∀ sh i o c a sh', J sh → φ o → W.perform i o c sh = some (a, sh') → J sh')
    (hcrash : ∀ sh i, J sh → J (W.crash i sh)) :
    ∀ (es : List (Event C)) {s : Pool Op Ans S ε α}, (∀ i, (s.procs i).Only φ) → J s.shared →
      (∀ i, ((run W s es).procs i).Only φ) ∧ J (run W s es).shared := by
  intro es
  induction es with
  | nil => exact fun hs h => ⟨hs, h⟩
  | cons e es ih =>
    intro s hs h
    cases e with
    | crash i =>
      refine ih (fun j => ?_) (hcrash _ _ h)
      by_cases hj : j = i
      · subst hj
        simp [step]
      · simpa [step, Function.update_of_ne hj] using hs j
    | tick i c =>
      rcases step_tick_cases (W := W) s i c with hstep | ⟨o, k, a, sh, hp, hw, hstep⟩
      · rw [run_cons, hstep]
        exact ih hs h
      · have hi := hs i
        rw [hp] at hi
        rw [run_cons, hstep]
        refine ih (fun j => ?_) (hop _ _ _ _ _ _ h hi.1 hw)
        by_cases hj : j = i
        · subst hj
          simpa using hi.2 a
        · simpa [Function.update_of_ne hj] using hs j

theorem run_rets {Q : ℕ → α → Prop} : ∀ (es : List (Event C)) {s : Pool Op Ans S ε α},
    (∀ i, (s.procs i).Rets (Q i)) → ∀ i, ((run W s es).procs i).Rets (Q i) := by
  intro es
  induction es with
  | nil => intro s hs; exact hs
  | cons e es ih =>
    intro s hs
    refine ih fun j => ?_
    cases e with
    | crash i =>
      by_cases hj : j = i
      · subst hj
        simp [step, Prog.Rets]
      · simpa [step, Function.update_of_ne hj] using hs j
    | tick i c =>
      rcases step_tick_cases (W := W) s i c with h | ⟨o, k, a, sh, hp, -, h⟩
      · rw [h]; exact hs j
      · have hi := hs i
        rw [hp] at hi
        rw [h]
        by_cases hj : j = i
        · subst hj
          simpa using hi a
        · simpa [Function.update_of_ne hj] using hs j

theorem admits_of_forall (h : ∀ sh i o c, G sh i o c) :
    ∀ (es : List (Event C)) {s : Pool Op Ans S ε α}, Admits W G s es := by
  intro es
  induction es with
  | nil => intro s; exact trivial
  | cons e es ih =>
    intro s
    refine ⟨?_, ih⟩
    cases e with
    | crash i => exact trivial
    | tick i c => exact fun o _ => h _ _ _ _

theorem Admits.and {G' : S → ℕ → Op → C → Prop} :
    ∀ {es : List (Event C)} {s : Pool Op Ans S ε α}, Admits W G s es → Admits W G' s es →
      Admits W (fun sh i o c => G sh i o c ∧ G' sh i o c) s es := by
  intro es
  induction es with
  | nil => intro s _ _; exact trivial
  | cons e es ih =>
    intro s hG hG'
    refine ⟨?_, ih hG.2 hG'.2⟩
    cases e with
    | crash i => exact trivial
    | tick i c => exact fun o ho => ⟨hG.1 o ho, hG'.1 o ho⟩

theorem admits_append {es fs : List (Event C)} :
    ∀ {s : Pool Op Ans S ε α}, Admits W G s (es ++ fs) ↔
      Admits W G s es ∧ Admits W G (run W s es) fs := by
  induction es with
  | nil => intro s; simp [Admits]
  | cons e es ih => intro s; simp only [List.cons_append, Admits, run_cons, ih, and_assoc]

theorem Admits.take : ∀ {es : List (Event C)} {s : Pool Op Ans S ε α}, Admits W G s es → ∀ n,
      Admits W G s (es.take n) := by
  intro es
  induction es with
  | nil => intro s _ n; simp [Admits]
  | cons e es ih =>
    intro s hG n
    cases n with
    | zero => exact trivial
    | succ n => exact ⟨hG.1, ih hG.2 n⟩

end Pool

end AiMeshChat.Lib
