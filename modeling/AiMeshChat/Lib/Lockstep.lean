import AiMeshChat.Lib.Crash

/-!
# Two runs in lockstep

`Prog.play` runs a program in an environment that makes `env o` of every operation `o`,
so what comes out depends on the state alone. To compare two such runs, a relation is
kept between the two states while the programs call the same operations. The answers
need not be the same: `A o a a'` is what is known of the two, and `Prog.Alike` says that
two programs go on in the same way whatever answers they get that are so related.

Applied to one program twice, `Alike` says that the program looks at nothing but what
`A` promises to be equal.
-/

namespace AiMeshChat.Lib.Prog

variable {Op : Type} {Ans : Op → Type} {S C ε α β : Type}

/-! ## One run -/

/-- The run in which the environment makes `env o` of the operation `o`. -/
def play (W : World Op Ans S C) (i : ℕ) (env : Op → C) :
    Prog Op Ans ε α → S → Option (Except ε α × S)
  | ret a, s => some (.ok a, s)
  | raise e, s => some (.error e, s)
  | call o k, s =>
    match W.perform i o (env o) s with
    | some (a, s₁) => play W i env (k a) s₁
    | none => none
  | hang, _ => none

section Play

variable {W : World Op Ans S C} {i : ℕ} {env : Op → C} {s s₁ : S}

theorem play_call {o : Op} {k : Ans o → Prog Op Ans ε α} {a : Ans o}
    (h : W.perform i o (env o) s = some (a, s₁)) :
    play W i env (call o k) s = play W i env (k a) s₁ := by
  rw [play, h]

theorem play_ok_bind {p : Prog Op Ans ε α} {f : α → Prog Op Ans ε β} {a : α}
    (h : play W i env p s = some (.ok a, s₁)) :
    play W i env (p >>= f) s = play W i env (f a) s₁ := by
  induction p generalizing s with
  | ret b =>
    cases h
    rfl
  | raise e => cases h
  | hang => cases h
  | call o k ih =>
    cases hw : W.perform i o (env o) s with
    | none =>
      rw [play, hw] at h
      cases h
    | some x =>
      rw [play_call hw] at h
      rw [call_bind, play_call hw]
      exact ih _ h

theorem Total.play {P : C → Prop} {I : S → Prop} {p : Prog Op Ans ε α} {Q : Except ε α → S → Prop}
    (h : p.Total W i P I s Q) (henv : ∀ o, P (env o)) :
    ∃ r s', play W i env p s = some (r, s') ∧ I s' ∧ Q r s' := by
  induction p generalizing s with
  | ret a => exact ⟨_, _, rfl, h.1, h.2⟩
  | raise e => exact ⟨_, _, rfl, h.1, h.2⟩
  | hang => exact h.elim
  | call o k ih =>
    obtain ⟨a, s₁, hw, hk⟩ := h.2 (env o) (henv o)
    obtain ⟨r, s', hplay, hI, hQ⟩ := ih a hk
    exact ⟨r, s', (play_call hw).trans hplay, hI, hQ⟩

end Play

/-! ## Two programs -/

/-- The programs call the same operations, all of them in `φ`, and end alike, if their
answers are related by `A`. -/
def Alike (φ : Op → Prop) (A : (o : Op) → Ans o → Ans o → Prop) :
    Prog Op Ans ε α → Prog Op Ans ε α → Prop
  | ret a, q => q = ret a
  | raise e, q => q = raise e
  | call o k, q => φ o ∧ ∃ k', q = call o k' ∧ ∀ a a', A o a a' → Alike φ A (k a) (k' a')
  | hang, _ => False

section Alike

variable {φ : Op → Prop} {A : (o : Op) → Ans o → Ans o → Prop}

@[simp] theorem alike_ret (a : α) : Alike φ A (ret a : Prog Op Ans ε α) (ret a) := rfl
@[simp] theorem alike_raise (e : ε) : Alike φ A (raise e : Prog Op Ans ε α) (raise e) := rfl

theorem alike_op_bind {o : Op} {f f' : Ans o → Prog Op Ans ε β} (ho : φ o)
    (hf : ∀ a a', A o a a' → Alike φ A (f a) (f' a')) :
    Alike φ A (op o >>= f : Prog Op Ans ε β) (op o >>= f') := ⟨ho, f', rfl, hf⟩

theorem alike_same_bind {o : Op} {f f' : Ans o → Prog Op Ans ε β} (ho : φ o)
    (hA : ∀ a a', A o a a' → a = a') (hf : ∀ a, Alike φ A (f a) (f' a)) :
    Alike φ A (op o >>= f : Prog Op Ans ε β) (op o >>= f') := by
  refine alike_op_bind ho fun a a' h => ?_
  rw [hA a a' h]
  exact hf a'

theorem alike_op {o : Op} (ho : φ o) (hA : ∀ a a', A o a a' → a = a') :
    Alike φ A (op o : Prog Op Ans ε (Ans o)) (op o) := by
  refine ⟨ho, ret, rfl, fun a a' h => ?_⟩
  rw [hA a a' h]
  exact alike_ret a'

theorem Alike.mono {ψ : Op → Prop} {B : (o : Op) → Ans o → Ans o → Prop} {p p' : Prog Op Ans ε α}
    (h : Alike φ A p p') (hφ : ∀ o, φ o → ψ o) (hA : ∀ o a a', φ o → B o a a' → A o a a') :
    Alike ψ B p p' := by
  induction p generalizing p' with
  | ret a => exact h
  | raise e => exact h
  | hang => exact h
  | call o k ih =>
    obtain ⟨ho, k', rfl, hk⟩ := h
    exact ⟨hφ o ho, k', rfl, fun a a' hB => ih a (hk a a' (hA o a a' ho hB))⟩

theorem Alike.bind {p p' : Prog Op Ans ε α} {f f' : α → Prog Op Ans ε β} (hp : Alike φ A p p')
    (hf : ∀ a, Alike φ A (f a) (f' a)) : Alike φ A (p >>= f) (p' >>= f') := by
  induction p generalizing p' with
  | ret a =>
    cases hp
    exact hf a
  | raise e =>
    cases hp
    exact alike_raise e
  | hang => exact hp.elim
  | call o k ih =>
    obtain ⟨ho, k', rfl, hk⟩ := hp
    exact ⟨ho, fun a => k' a >>= f', rfl, fun a a' h => ih a (hk a a' h)⟩

theorem Alike.tryCatch {p p' : Prog Op Ans ε α} {g g' : ε → Prog Op Ans ε α} (hp : Alike φ A p p')
    (hg : ∀ e, Alike φ A (g e) (g' e)) : Alike φ A (p.tryCatch g) (p'.tryCatch g') := by
  induction p generalizing p' with
  | ret a =>
    cases hp
    exact alike_ret a
  | raise e =>
    cases hp
    exact hg e
  | hang => exact hp.elim
  | call o k ih =>
    obtain ⟨ho, k', rfl, hk⟩ := hp
    exact ⟨ho, fun a => (k' a).tryCatch g', rfl, fun a a' h => ih a (hk a a' h)⟩

theorem Alike.ensure {p p' : Prog Op Ans ε α} {f f' : Prog Op Ans ε Unit}
    (hp : Alike φ A p p') (hf : Alike φ A f f') : Alike φ A (p.ensure f) (p'.ensure f') :=
  (hp.tryCatch fun e => hf.bind fun _ => alike_raise e).bind fun a => hf.bind fun _ => alike_ret a

/-- **The lockstep rule.**  What one operation keeps between two states, two programs
that are alike keep, and they end with the same result; or, in the case `B`, both have to
wait. -/
theorem Alike.play_or {W : World Op Ans S C} {i : ℕ} {env : Op → C} {R : S → S → Prop} {B : Prop}
    (hstep : ∀ o s t, φ o → R s t →
      (B ∧ W.perform i o (env o) s = none ∧ W.perform i o (env o) t = none) ∨
      ∃ a s₁ a' t₁, W.perform i o (env o) s = some (a, s₁) ∧
        W.perform i o (env o) t = some (a', t₁) ∧ A o a a' ∧ R s₁ t₁)
    {p p' : Prog Op Ans ε α} (h : Alike φ A p p') {s t : S} (hR : R s t) :
    (B ∧ play W i env p s = none ∧ play W i env p' t = none) ∨
    ∃ r s' t', play W i env p s = some (r, s') ∧ play W i env p' t = some (r, t') ∧ R s' t' := by
  induction p generalizing p' s t with
  | ret a =>
    cases h
    exact .inr ⟨_, _, _, rfl, rfl, hR⟩
  | raise e =>
    cases h
    exact .inr ⟨_, _, _, rfl, rfl, hR⟩
  | hang => exact h.elim
  | call o k ih =>
    obtain ⟨ho, k', rfl, hk⟩ := h
    rcases hstep o s t ho hR with ⟨hB, hs, ht⟩ | ⟨a, s₁, a', t₁, hs, ht, hA, hR₁⟩
    · exact .inl ⟨hB, by rw [Prog.play, hs], by rw [Prog.play, ht]⟩
    · rw [play_call hs, play_call ht]
      exact ih a (hk a a' hA) hR₁

theorem Alike.play {W : World Op Ans S C} {i : ℕ} {env : Op → C} {R : S → S → Prop}
    (hstep : ∀ o s t, φ o → R s t → ∃ a s₁ a' t₁, W.perform i o (env o) s = some (a, s₁) ∧
      W.perform i o (env o) t = some (a', t₁) ∧ A o a a' ∧ R s₁ t₁)
    {p p' : Prog Op Ans ε α} (h : Alike φ A p p') {s t : S} (hR : R s t) :
    ∃ r s' t', play W i env p s = some (r, s') ∧ play W i env p' t = some (r, t') ∧ R s' t' := by
  rcases h.play_or (B := False) (fun o s t ho hR => .inr (hstep o s t ho hR)) hR with h | h
  · exact h.1.elim
  · exact h

theorem Alike.play_self {W : World Op Ans S C} {i : ℕ} {env : Op → C} {J : S → Prop}
    (hstep : ∀ o s, φ o → J s → ∃ a s₁, W.perform i o (env o) s = some (a, s₁) ∧ A o a a ∧ J s₁)
    {p : Prog Op Ans ε α} (h : Alike φ A p p) {s : S} (hJ : J s) :
    ∃ r s', Prog.play W i env p s = some (r, s') ∧ J s' := by
  have htwo : ∀ o s t, φ o → s = t ∧ J s → ∃ a s₁ a' t₁, W.perform i o (env o) s = some (a, s₁) ∧
      W.perform i o (env o) t = some (a', t₁) ∧ A o a a' ∧ s₁ = t₁ ∧ J s₁ := by
    intro o s t ho hR
    obtain ⟨rfl, hJ⟩ := hR
    obtain ⟨a, s₁, hw, hA, hJ₁⟩ := hstep o s ho hJ
    exact ⟨a, s₁, a, s₁, hw, hw, hA, rfl, hJ₁⟩
  obtain ⟨r, s', _, hplay, _, _, hJ'⟩ := Alike.play (R := fun s t => s = t ∧ J s) htwo h ⟨rfl, hJ⟩
  exact ⟨r, s', hplay, hJ'⟩

end Alike

end AiMeshChat.Lib.Prog
