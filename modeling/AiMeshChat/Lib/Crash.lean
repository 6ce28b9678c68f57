import AiMeshChat.Lib.Pool

/-!
# Total runs with a crash condition

`Prog.Ends` speaks of the runs that come to an end. `Prog.Total` says more: from
`s`, whatever the environment chooses, the program comes to its end without ever
waiting, every state on the way is in `I`, and the last one is in `Q`. Here `I`
is the crash condition: a program that is stopped between two of its operations
leaves a state in `I` behind (`Prog.Reaches`).

The rules are those of `Prog.Ends`, one for each way to build a program.
-/

namespace AiMeshChat.Lib

variable {Op : Type} {Ans : Op → Type} {S C ε α β : Type}

namespace Prog

variable {W : World Op Ans S C} {i : ℕ} {P : C → Prop} {I : S → Prop}

/-- Every run of `p` from `s` with choices in `P` goes on to its end, through
states in `I`, and ends in `Q`. -/
def Total (W : World Op Ans S C) (i : ℕ) (P : C → Prop) (I : S → Prop) :
    Prog Op Ans ε α → S → (Except ε α → S → Prop) → Prop
  | ret a, s, Q => I s ∧ Q (.ok a) s
  | raise e, s, Q => I s ∧ Q (.error e) s
  | call o k, s, Q => I s ∧ ∀ c, P c → ∃ a s', W.perform i o c s = some (a, s') ∧
    (k a).Total W i P I s' Q
  | hang, _, _ => False

/-- `t` is a state between two operations of a run of `p` from `s`. -/
inductive Reaches (W : World Op Ans S C) (i : ℕ) (P : C → Prop) :
    Prog Op Ans ε α → S → S → Prop
  | here {p : Prog Op Ans ε α} {s : S} : Reaches W i P p s s
  | call {o : Op} {k : Ans o → Prog Op Ans ε α} {c : C} {a : Ans o} {s s₁ t : S} (hc : P c)
      (h : W.perform i o c s = some (a, s₁)) (hk : Reaches W i P (k a) s₁ t) :
      Reaches W i P (.call o k) s t

/-- The state after at most `n` operations with the choice `c` each. -/
def after (W : World Op Ans S C) (i : ℕ) (c : C) : ℕ → Prog Op Ans ε α → S → S
  | n + 1, call o k, s =>
    match W.perform i o c s with
    | some (a, s₁) => after W i c n (k a) s₁
    | none => s
  | _, _, s => s

theorem reaches_after {c : C} (hc : P c) : ∀ (n : ℕ) (p : Prog Op Ans ε α) (s : S),
    p.Reaches W i P s (after W i c n p s) := by
  intro n
  induction n with
  | zero => intro p s; exact .here
  | succ n ih =>
    intro p s
    cases p with
    | call o k =>
      simp only [after]
      split
      · next a s₁ hw => exact .call hc hw (ih (k a) s₁)
      · exact .here
    | _ => exact .here

variable {p : Prog Op Ans ε α} {f : α → Prog Op Ans ε β} {s t : S} {Q Q' M : Except ε α → S → Prop}
  {o : Op}

theorem Reaches.bind (h : p.Reaches W i P s t) : (p >>= f).Reaches W i P s t := by
  induction h with
  | here => exact .here
  | call hc hw _ ih => exact .call hc hw ih

theorem Runs.reaches {r : Except ε α} (h : Runs W i P p s r t) : p.Reaches W i P s t := by
  induction h with
  | ret => exact .here
  | raise => exact .here
  | call hc hw _ ih => exact .call hc hw ih

theorem Runs.reaches_bind {s₁ : S} {a : α} (hp : Runs W i P p s (.ok a) s₁)
    (h : (f a).Reaches W i P s₁ t) : (p >>= f).Reaches W i P s t := by
  generalize hr : (Except.ok a : Except ε α) = r at hp
  induction hp with
  | ret =>
    cases hr
    exact h
  | raise => cases hr
  | call hc hw _ ih => exact .call hc hw (ih h hr)

/-! ### What a total run gives -/

theorem Total.crash (h : p.Total W i P I s Q) : I s := by
  cases p with
  | ret a => exact h.1
  | raise e => exact h.1
  | call o k => exact h.1
  | hang => exact h.elim

theorem Total.reaches (h : p.Total W i P I s Q) (ht : p.Reaches W i P s t) : I t := by
  induction ht with
  | here => exact h.crash
  | call hc hw _ ih =>
    obtain ⟨a, s', hw', hk⟩ := h.2 _ hc
    rw [hw] at hw'
    cases hw'
    exact ih hk

theorem Total.ends (h : p.Total W i P I s Q) : p.Ends W i P s Q := by
  intro r s' hr
  induction hr with
  | ret => exact h.2
  | raise => exact h.2
  | call hc hw _ ih =>
    obtain ⟨a, s', hw', hk⟩ := h.2 _ hc
    rw [hw] at hw'
    cases hw'
    exact ih hk

theorem Total.runs (h : p.Total W i P I s Q) {c : C} (hc : P c) : ∃ r s', Runs W i P p s r s' := by
  induction p generalizing s with
  | ret a => exact ⟨_, _, .ret⟩
  | raise e => exact ⟨_, _, .raise⟩
  | hang => exact h.elim
  | call o k ih =>
    obtain ⟨a, s', hw, hk⟩ := h.2 c hc
    obtain ⟨r, t, hr⟩ := ih a hk
    exact ⟨r, t, .call hc hw hr⟩

theorem Total.choices {P' : C → Prop} (h : p.Total W i P I s Q)
    (hP : ∀ c, P' c → P c) : p.Total W i P' I s Q := by
  induction p generalizing s with
  | ret a => exact h
  | raise e => exact h
  | hang => exact h.elim
  | call o k ih =>
    refine ⟨h.1, fun c hc => ?_⟩
    obtain ⟨a, s', hw, hk⟩ := h.2 c (hP c hc)
    exact ⟨a, s', hw, ih a hk⟩

/-! ### The rules -/

theorem total_ret {a : α} (hI : I s) (h : Q (.ok a) s) :
    (ret a : Prog Op Ans ε α).Total W i P I s Q := ⟨hI, h⟩

theorem total_raise {e : ε} (hI : I s) (h : Q (.error e) s) :
    (raise e : Prog Op Ans ε α).Total W i P I s Q := ⟨hI, h⟩

theorem Total.mono {I' : S → Prop} (h : p.Total W i P I s Q) (hI : ∀ s, I s → I' s)
    (hQ : ∀ r s', I s' → Q r s' → Q' r s') : p.Total W i P I' s Q' := by
  induction p generalizing s with
  | ret a => exact ⟨hI s h.1, hQ _ _ h.1 h.2⟩
  | raise e => exact ⟨hI s h.1, hQ _ _ h.1 h.2⟩
  | hang => exact h.elim
  | call o k ih =>
    refine ⟨hI s h.1, fun c hc => ?_⟩
    obtain ⟨a, s', hw, hk⟩ := h.2 c hc
    exact ⟨a, s', hw, ih a hk⟩

theorem Total.meet {I' : S → Prop} (h : p.Total W i P I s Q) (h' : p.Total W i P I' s Q') :
    p.Total W i P (fun t => I t ∧ I' t) s fun r s' => Q r s' ∧ Q' r s' := by
  induction p generalizing s with
  | ret a => exact ⟨⟨h.1, h'.1⟩, h.2, h'.2⟩
  | raise e => exact ⟨⟨h.1, h'.1⟩, h.2, h'.2⟩
  | hang => exact h.elim
  | call o k ih =>
    refine ⟨⟨h.1, h'.1⟩, fun c hc => ?_⟩
    obtain ⟨a, s', hw, hk⟩ := h.2 c hc
    obtain ⟨a', s'', hw', hk'⟩ := h'.2 c hc
    rw [hw] at hw'
    cases hw'
    exact ⟨a, s', hw, ih a hk hk'⟩

theorem Total.and (h : p.Total W i P I s Q) (h' : p.Total W i P I s Q') :
    p.Total W i P I s fun r s' => Q r s' ∧ Q' r s' :=
  (h.meet h').mono (fun _ hI => hI.1) fun _ _ _ hQ => hQ

/-- **The sequencing rule.** -/
theorem Total.bind {Q : Except ε β → S → Prop} (hp : p.Total W i P I s M)
    (hok : ∀ a s₁, I s₁ → M (.ok a) s₁ → (f a).Total W i P I s₁ Q)
    (herr : ∀ e s₁, I s₁ → M (.error e) s₁ → Q (.error e) s₁) : (p >>= f).Total W i P I s Q := by
  induction p generalizing s with
  | ret a => exact hok a s hp.1 hp.2
  | raise e => exact ⟨hp.1, herr e s hp.1 hp.2⟩
  | hang => exact hp.elim
  | call o k ih =>
    refine ⟨hp.1, fun c hc => ?_⟩
    obtain ⟨a, s', hw, hk⟩ := hp.2 c hc
    exact ⟨a, s', hw, ih a hk⟩

theorem total_op_bind {f : Ans o → Prog Op Ans ε β} {Q : Except ε β → S → Prop} (hI : I s)
    (h : ∀ c, P c → ∃ a s₁, W.perform i o c s = some (a, s₁) ∧ (f a).Total W i P I s₁ Q) :
    ((op o : Prog Op Ans ε (Ans o)) >>= f).Total W i P I s Q := ⟨hI, h⟩

theorem Total.tryCatch {g : ε → Prog Op Ans ε α} (hp : p.Total W i P I s M)
    (hok : ∀ a s₁, I s₁ → M (.ok a) s₁ → Q (.ok a) s₁)
    (herr : ∀ e s₁, I s₁ → M (.error e) s₁ → (g e).Total W i P I s₁ Q) :
    (p.tryCatch g).Total W i P I s Q := by
  induction p generalizing s with
  | ret a => exact ⟨hp.1, hok a s hp.1 hp.2⟩
  | raise e => exact herr e s hp.1 hp.2
  | hang => exact hp.elim
  | call o k ih =>
    refine ⟨hp.1, fun c hc => ?_⟩
    obtain ⟨a, s', hw, hk⟩ := hp.2 c hc
    exact ⟨a, s', hw, ih a hk⟩

/-- `finally`, whether the program raises or not. -/
theorem Total.ensure {f : Prog Op Ans ε Unit} (hp : p.Total W i P I s M)
    (hf : ∀ r s₁, I s₁ → M r s₁ → f.Total W i P I s₁ fun r' s' => r' = .ok () ∧ Q r s') :
    (p.ensure f).Total W i P I s Q := by
  refine Total.bind (M := fun r s' => (∃ a, r = .ok a ∧ M r s') ∨ (∃ e, r = .error e) ∧ Q r s')
    ?_ ?_ ?_
  · refine hp.tryCatch (fun a _ _ h => .inl ⟨a, rfl, h⟩) fun e s₁ hI hM => ?_
    refine (hf _ s₁ hI hM).bind (fun _ s₂ hI hQ => total_raise hI (.inr ⟨⟨e, rfl⟩, hQ.2⟩)) ?_
    rintro e' s₂ - ⟨h, -⟩
    cases h
  · rintro a s₁ hI (⟨a', h, hM⟩ | ⟨⟨e, h⟩, -⟩)
    · refine (hf _ s₁ hI hM).bind (fun _ s₂ hI hQ => total_ret hI hQ.2) ?_
      rintro e s₂ - ⟨h, -⟩
      cases h
    · cases h
  · rintro e s₁ - (⟨a, h, -⟩ | ⟨-, hQ⟩)
    · cases h
    · exact hQ

/-! ### Programs known by their operations -/

/-- The program ends after finitely many operations, all of them in `φ`. -/
def Bounded (φ : Op → Prop) : Prog Op Ans ε α → Prop
  | ret _ => True
  | raise _ => True
  | call o k => φ o ∧ ∀ a, (k a).Bounded φ
  | hang => False

variable {φ ψ : Op → Prop}

@[simp] theorem bounded_ret (a : α) : (ret a : Prog Op Ans ε α).Bounded φ := trivial

theorem bounded_op (h : φ o) : (op o : Prog Op Ans ε (Ans o)).Bounded φ :=
  ⟨h, fun _ => trivial⟩

theorem Bounded.bind (hp : p.Bounded φ) (hf : ∀ a, (f a).Bounded φ) : (p >>= f).Bounded φ := by
  induction p with
  | ret a => exact hf a
  | raise e => trivial
  | hang => exact hp
  | call o k ih => exact ⟨hp.1, fun a => ih a (hp.2 a)⟩

theorem bounded_op_bind {f : Ans o → Prog Op Ans ε β} (h : φ o)
    (hf : ∀ a, (f a).Bounded φ) : ((op o : Prog Op Ans ε (Ans o)) >>= f).Bounded φ := ⟨h, hf⟩

theorem Bounded.tryCatch {g : ε → Prog Op Ans ε α} (hp : p.Bounded φ)
    (hg : ∀ e, (g e).Bounded φ) : (p.tryCatch g).Bounded φ := by
  induction p with
  | ret a => trivial
  | raise e => exact hg e
  | hang => exact hp
  | call o k ih => exact ⟨hp.1, fun a => ih a (hp.2 a)⟩

theorem Bounded.mono (hp : p.Bounded φ) (h : ∀ o, φ o → ψ o) : p.Bounded ψ := by
  induction p with
  | ret a => trivial
  | raise e => trivial
  | hang => exact hp
  | call o k ih => exact ⟨h o hp.1, fun a => ih a (hp.2 a)⟩

/-- What every operation in `φ` keeps holds all along, if none of them has to wait. -/
theorem Bounded.total {J : S → Prop} (hp : p.Bounded φ)
    (hop : ∀ o c s, φ o → P c → J s → ∃ a s', W.perform i o c s = some (a, s') ∧ J s')
    (hJ : J s) : p.Total W i P J s fun _ s' => J s' := by
  induction p generalizing s with
  | ret a => exact ⟨hJ, hJ⟩
  | raise e => exact ⟨hJ, hJ⟩
  | hang => exact hp.elim
  | call o k ih =>
    refine ⟨hJ, fun c hc => ?_⟩
    obtain ⟨a, s', hw, hJ'⟩ := hop o c s hp.1 hc hJ
    exact ⟨a, s', hw, ih a (hp.2 a) hJ'⟩

end Prog

end AiMeshChat.Lib
