import AiMeshChat.Lib.Crash

/-!
# Programs of two systems

A program may call on another system for some of its operations. `Prog.handle` replaces
every operation by a program that answers it; `World.sum` puts two worlds side by side, each
with its own part of the state.

What ends alone in its own world ends so beside the other one (`ends_inr`), and
leaves the other's state as it is. `Prog.result` and `Prog.mapErr` are for the border
between the two: the one hands exceptions over as values, the other renames them.
-/

namespace AiMeshChat.Lib

variable {Op Op' : Type} {Ans : Op → Type} {Ans' : Op' → Type} {ε ε' α β : Type}

namespace Prog

/-- The program with each operation answered by a program. -/
def handle (h : (o : Op) → Prog Op' Ans' ε (Ans o)) : Prog Op Ans ε α → Prog Op' Ans' ε α
  | ret a => ret a
  | raise e => raise e
  | call o k => h o >>= fun a => (k a).handle h
  | hang => hang

theorem handle_call (h : (o : Op) → Prog Op' Ans' ε (Ans o)) (o : Op) (k : Ans o → Prog Op Ans ε α) :
    (call o k).handle h = h o >>= fun a => (k a).handle h := rfl

/-- The outcome of the program, an exception as a value. -/
def result : Prog Op Ans ε α → Prog Op Ans ε' (Except ε α)
  | ret a => ret (.ok a)
  | raise e => ret (.error e)
  | call o k => call o fun a => (k a).result
  | hang => hang

/-- The program with its exceptions renamed. -/
def mapErr (f : ε → ε') : Prog Op Ans ε α → Prog Op Ans ε' α
  | ret a => ret a
  | raise e => raise (f e)
  | call o k => call o fun a => (k a).mapErr f
  | hang => hang

section Ends

variable {S C : Type} {W : World Op Ans S C} {i : ℕ} {P : C → Prop}

theorem ends_result {p : Prog Op Ans ε α} {s : S} {Q : Except ε' (Except ε α) → S → Prop}
    (h : p.Ends W i P s fun r s' => Q (.ok r) s') : (p.result : Prog Op Ans ε' _).Ends W i P s Q := by
  induction p generalizing s with
  | ret a => exact ends_ret (h _ _ .ret)
  | raise e => exact ends_ret (h _ _ .raise)
  | hang => exact ends_hang
  | call o k ih =>
    intro r s' hr
    obtain ⟨c, a, s₁, hc, hw, hk⟩ := runs_call.mp hr
    exact ih a (fun r s' h' => h r s' (.call hc hw h')) r s' hk

theorem ends_mapErr {f : ε → ε'} {p : Prog Op Ans ε α} {s : S} {Q : Except ε' α → S → Prop}
    (h : p.Ends W i P s fun r s' => Q (r.mapError f) s') : (p.mapErr f).Ends W i P s Q := by
  induction p generalizing s with
  | ret a => exact ends_ret (h _ _ .ret)
  | raise e => exact ends_raise (h _ _ .raise)
  | hang => exact ends_hang
  | call o k ih =>
    intro r s' hr
    obtain ⟨c, a, s₁, hc, hw, hk⟩ := runs_call.mp hr
    exact ih a (fun r s' h' => h r s' (.call hc hw h')) r s' hk

end Ends

end Prog

/-! ## Two worlds side by side -/

section Sum

variable {Op₁ Op₂ S₁ S₂ C₁ C₂ : Type} {Ans₁ : Op₁ → Type} {Ans₂ : Op₂ → Type}

/-- Two worlds, each with its own operations and its own part of the state. -/
def World.sum (W₁ : World Op₁ Ans₁ S₁ C₁) (W₂ : World Op₂ Ans₂ S₂ C₂) :
    World (Op₁ ⊕ Op₂) (Sum.elim Ans₁ Ans₂) (S₁ × S₂) (C₁ × C₂) where
  perform i o c s :=
    match o with
    | .inl o => (W₁.perform i o c.1 s.1).map fun x => (x.1, (x.2, s.2))
    | .inr o => (W₂.perform i o c.2 s.2).map fun x => (x.1, (s.1, x.2))
  crash i s := (W₁.crash i s.1, W₂.crash i s.2)

namespace Prog

/-- A program of the first world. -/
def inl (p : Prog Op₁ Ans₁ ε α) : Prog (Op₁ ⊕ Op₂) (Sum.elim Ans₁ Ans₂) ε α :=
  p.embed Sum.inl fun _ a => a

/-- A program of the second world. -/
def inr (p : Prog Op₂ Ans₂ ε α) : Prog (Op₁ ⊕ Op₂) (Sum.elim Ans₁ Ans₂) ε α :=
  p.embed Sum.inr fun _ a => a

variable {W₁ : World Op₁ Ans₁ S₁ C₁} {W₂ : World Op₂ Ans₂ S₂ C₂} {i : ℕ} {P : C₁ × C₂ → Prop}

theorem ends_inr {P₂ : C₂ → Prop} (hP : ∀ c, P c → P₂ c.2) {p : Prog Op₂ Ans₂ ε α} {s : S₁ × S₂}
    {Q : Except ε α → S₂ → Prop} (h : p.Ends W₂ i P₂ s.2 Q) :
    (p.inr : Prog (Op₁ ⊕ Op₂) (Sum.elim Ans₁ Ans₂) ε α).Ends (W₁.sum W₂) i P s
      fun r s' => s'.1 = s.1 ∧ Q r s'.2 := by
  induction p generalizing s with
  | ret a => exact ends_ret ⟨rfl, h _ _ .ret⟩
  | raise e => exact ends_raise ⟨rfl, h _ _ .raise⟩
  | hang => exact ends_hang
  | call o k ih =>
    intro r s' hr
    obtain ⟨c, a, s₁, hc, hw, hk⟩ := runs_call.mp hr
    obtain ⟨⟨b, t⟩, hb, hbt⟩ := Option.map_eq_some_iff.mp hw
    cases hbt
    exact ih b (s := (s.1, t)) (fun r s' h' => h r s' (.call (hP c hc) hb h')) r s' hk

theorem inl_op_bind_ends {o : Op₁} {f : Ans₁ o → Prog (Op₁ ⊕ Op₂) (Sum.elim Ans₁ Ans₂) ε β}
    {s : S₁ × S₂} {Q : Except ε β → S₁ × S₂ → Prop}
    (h : ∀ c a s₁, P c → W₁.perform i o c.1 s.1 = some (a, s₁) →
      (f a).Ends (W₁.sum W₂) i P (s₁, s.2) Q) :
    ((op (Sum.inl o) : Prog (Op₁ ⊕ Op₂) (Sum.elim Ans₁ Ans₂) ε _) >>= f).Ends (W₁.sum W₂) i P s Q := by
  refine ends_op_bind fun c a s₁ hc hw => ?_
  obtain ⟨⟨b, t⟩, hb, hbt⟩ := Option.map_eq_some_iff.mp hw
  cases hbt
  exact h c b t hc hb

end Prog

end Sum

end AiMeshChat.Lib
