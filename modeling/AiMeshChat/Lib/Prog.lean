import Mathlib.Logic.Function.Basic

/-!
# Programs over atomic operations

A program is a tree: it returns, raises, or calls one atomic operation and goes
on with the answer. The tree says nothing about what an operation does; that is
the business of a `World`, which answers one call at a time and may leave a call
waiting (a lock that is held). So one text of a function serves for a run to
completion (`Prog.Runs`), for any interleaving with other calls
(`Lib/Pool.lean`) and for a crash between any two of its operations.

A `while True` loop of the source is unrolled with fuel; `Prog.hang` is where
the fuel ends. A hanging program neither returns nor calls anything, so what is
proved of every fuel is proved of every finite prefix of the loop.

`Prog.Keeps` is the rule for reasoning about a program that other programs
disturb. A `Role` is an automaton that watches the operations of one program:
it says which of them it allows and how an answer moves it. `Keeps R p q Q`
says that `p`, watched from `q`, calls only what the role allows, whatever the
answers are, and ends in `Q`.
-/

namespace AiMeshChat.Lib

/-- A program with atomic operations `Op`, answers `Ans`, exceptions `ε` and
result `α`. -/
inductive Prog (Op : Type) (Ans : Op → Type) (ε α : Type) : Type
  | ret (a : α)
  | raise (e : ε)
  | call (o : Op) (k : Ans o → Prog Op Ans ε α)
  | hang

namespace Prog

variable {Op : Type} {Ans : Op → Type} {ε α β : Type}

/-- Sequencing: an exception or a hang of `p` is one of the whole. -/
def bind : Prog Op Ans ε α → (α → Prog Op Ans ε β) → Prog Op Ans ε β
  | ret a, f => f a
  | raise e, _ => raise e
  | call o k, f => call o (fun a => (k a).bind f)
  | hang, _ => hang

/-- `try: p except e: h e`. -/
def tryCatch : Prog Op Ans ε α → (ε → Prog Op Ans ε α) → Prog Op Ans ε α
  | ret a, _ => ret a
  | raise e, h => h e
  | call o k, h => call o (fun a => (k a).tryCatch h)
  | hang, _ => hang

/-- `try: p finally: f`. -/
def ensure (p : Prog Op Ans ε α) (f : Prog Op Ans ε Unit) : Prog Op Ans ε α :=
  (p.tryCatch fun e => f.bind fun _ => raise e).bind fun a => f.bind fun _ => ret a

instance : Monad (Prog Op Ans ε) where
  pure := ret
  bind := bind

instance : MonadExceptOf ε (Prog Op Ans ε) where
  throw := raise
  tryCatch := tryCatch

/-- One operation as a program. -/
def op (o : Op) : Prog Op Ans ε (Ans o) := call o ret

/-- The program with every operation `o` called as `f o` of a larger system. -/
def embed {Op' : Type} {Ans' : Op' → Type} (f : Op → Op') (g : ∀ o, Ans' (f o) → Ans o) :
    Prog Op Ans ε α → Prog Op' Ans' ε α
  | ret a => ret a
  | raise e => raise e
  | call o k => call (f o) (fun a => (k (g o a)).embed f g)
  | hang => hang

/-- The operation the program calls next. -/
def head? : Prog Op Ans ε α → Option Op
  | call o _ => some o
  | _ => none

/-- The value a program that has ended returned. -/
def returned? : Prog Op Ans ε α → Option α
  | ret a => some a
  | _ => none

@[simp] theorem pure_eq (a : α) : (pure a : Prog Op Ans ε α) = ret a := rfl
@[simp] theorem throw_eq (e : ε) : (throw e : Prog Op Ans ε α) = raise e := rfl
@[simp] theorem ret_bind (a : α) (f : α → Prog Op Ans ε β) : (ret a >>= f) = f a := rfl
@[simp] theorem raise_bind (e : ε) (f : α → Prog Op Ans ε β) : (raise e >>= f) = raise e := rfl
@[simp] theorem hang_bind (f : α → Prog Op Ans ε β) : (hang >>= f) = hang := rfl
@[simp] theorem call_bind (o : Op) (k : Ans o → Prog Op Ans ε α) (f : α → Prog Op Ans ε β) :
    (call o k >>= f) = call o (fun a => k a >>= f) := rfl
@[simp] theorem op_bind (o : Op) (f : Ans o → Prog Op Ans ε β) :
    (op o >>= f) = call o f := rfl
@[simp] theorem tryCatch_ret (a : α) (h : ε → Prog Op Ans ε α) : tryCatch (ret a) h = ret a := rfl
@[simp] theorem tryCatch_raise (e : ε) (h : ε → Prog Op Ans ε α) :
    tryCatch (raise e) h = h e := rfl
@[simp] theorem tryCatch_hang (h : ε → Prog Op Ans ε α) : tryCatch hang h = hang := rfl
@[simp] theorem tryCatch_call (o : Op) (k : Ans o → Prog Op Ans ε α) (h : ε → Prog Op Ans ε α) :
    tryCatch (call o k) h = call o (fun a => tryCatch (k a) h) := rfl

theorem bind_assoc {γ : Type} (p : Prog Op Ans ε α) (f : α → Prog Op Ans ε β)
    (g : β → Prog Op Ans ε γ) : (p >>= f) >>= g = p >>= fun a => f a >>= g := by
  induction p with
  | ret a => rfl
  | raise e => rfl
  | hang => rfl
  | call o k ih => exact congrArg (call o) (funext ih)

end Prog

/-! ## Roles -/

/-- An automaton that watches the operations of one program. `assumes` is what
the rest of the system promises about an answer. -/
structure Role (Op : Type) (Ans : Op → Type) where
  St : Type
  allows : St → Op → Prop
  assumes : St → (o : Op) → Ans o → Prop
  next : St → (o : Op) → Ans o → St

/-- The role allows the operation and stays where it is. -/
def Role.Ignores {Op : Type} {Ans : Op → Type} (R : Role Op Ans) (q : R.St) (o : Op) : Prop :=
  R.allows q o ∧ ∀ a, R.next q o a = q

namespace Prog

variable {Op : Type} {Ans : Op → Type} {ε α β : Type} (R : Role Op Ans)

/-- Watched from `q`, the program calls only what `R` allows and ends in `Q`. -/
def Keeps : Prog Op Ans ε α → R.St → (R.St → Except ε α → Prop) → Prop
  | ret a, q, Q => Q q (.ok a)
  | raise e, q, Q => Q q (.error e)
  | call o k, q, Q => R.allows q o ∧ ∀ a, R.assumes q o a → (k a).Keeps (R.next q o a) Q
  | hang, _, _ => True

@[simp] theorem keeps_ret (a : α) (q : R.St) (Q : R.St → Except ε α → Prop) :
    (ret a : Prog Op Ans ε α).Keeps R q Q ↔ Q q (.ok a) := Iff.rfl
@[simp] theorem keeps_raise (e : ε) (q : R.St) (Q : R.St → Except ε α → Prop) :
    (raise e : Prog Op Ans ε α).Keeps R q Q ↔ Q q (.error e) := Iff.rfl
@[simp] theorem keeps_hang (q : R.St) (Q : R.St → Except ε α → Prop) :
    (hang : Prog Op Ans ε α).Keeps R q Q := trivial
variable {R}

variable {p : Prog Op Ans ε α} {f : α → Prog Op Ans ε β} {o : Op} {q : R.St} {Q : ε → Prop}
  {g : ε → Prog Op Ans ε α} {M : α → Prop}

theorem Keeps.mono : ∀ {q : R.St} {Q Q' : R.St → Except ε α → Prop},
    p.Keeps R q Q → (∀ q r, Q q r → Q' q r) → p.Keeps R q Q' := by
  induction p with
  | ret a => intro q Q Q' h hQ; exact hQ _ _ h
  | raise e => intro q Q Q' h hQ; exact hQ _ _ h
  | hang => intro q Q Q' _ _; exact trivial
  | call o k ih => intro q Q Q' h hQ; exact ⟨h.1, fun a ha => ih a (h.2 a ha) hQ⟩

/-- **The sequencing rule.**  What the first program ends in, the second starts
from; an exception passes through. -/
theorem Keeps.bind : ∀ {q : R.St} {M : R.St → Except ε α → Prop} {Q : R.St → Except ε β → Prop},
      p.Keeps R q M → (∀ q a, M q (.ok a) → (f a).Keeps R q Q) →
      (∀ q e, M q (.error e) → Q q (.error e)) → (p >>= f).Keeps R q Q := by
  induction p with
  | ret a => intro q M Q h hok _; exact hok _ _ h
  | raise e => intro q M Q h _ herr; exact herr _ _ h
  | hang => intro q M Q _ _ _; exact trivial
  | call o k ih => intro q M Q h hok herr; exact ⟨h.1, fun a ha => ih a (h.2 a ha) hok herr⟩

theorem keeps_op_bind {f : Ans o → Prog Op Ans ε β} {Q : R.St → Except ε β → Prop}
    (ho : R.allows q o) (hf : ∀ a, R.assumes q o a → (f a).Keeps R (R.next q o a) Q) :
    ((op o : Prog Op Ans ε (Ans o)) >>= f).Keeps R q Q := ⟨ho, hf⟩

theorem keeps_ignored_bind {f : Ans o → Prog Op Ans ε β} {Q : R.St → Except ε β → Prop}
    (ho : R.Ignores q o) (hf : ∀ a, R.assumes q o a → (f a).Keeps R q Q) :
    ((op o : Prog Op Ans ε (Ans o)) >>= f).Keeps R q Q :=
  keeps_op_bind ho.1 fun a ha => by rw [ho.2 a]; exact hf a ha

theorem Keeps.tryCatch : ∀ {q : R.St} {M Q : R.St → Except ε α → Prop},
      p.Keeps R q M → (∀ q a, M q (.ok a) → Q q (.ok a)) →
      (∀ q e, M q (.error e) → (g e).Keeps R q Q) → (p.tryCatch g).Keeps R q Q := by
  induction p with
  | ret a => intro q M Q h hok _; exact hok _ _ h
  | raise e => intro q M Q h _ herr; exact herr _ _ h
  | hang => intro q M Q _ _ _; exact trivial
  | call o k ih => intro q M Q h hok herr; exact ⟨h.1, fun a ha => ih a (h.2 a ha) hok herr⟩

/-- `finally`: the last part runs on every way out. -/
theorem Keeps.ensure {p : Prog Op Ans ε α} {f : Prog Op Ans ε Unit} {q : R.St}
    {M Q : R.St → Except ε α → Prop} (hp : p.Keeps R q M)
    (hf : ∀ q r, M q r → f.Keeps R q fun q' r' => Q q' (match r' with
      | .ok () => r
      | .error e => .error e)) : (p.ensure f).Keeps R q Q := by
  -- after `tryCatch` a result is an exception whose `finally` has run, or a value
  -- whose `finally` is still to come
  have htry : (p.tryCatch fun e => f >>= fun _ => raise e).Keeps R q fun q' r =>
      match r with
      | .ok a => M q' (.ok a)
      | .error e => Q q' (.error e) := by
    refine hp.tryCatch (fun q' a h => h) (fun q' e h => ?_)
    exact (hf q' _ h).bind (fun q'' _ h => h) (fun q'' _ h => h)
  refine htry.bind (fun q' a h => ?_) (fun q' e h => h)
  exact Keeps.bind (hf q' _ h) (fun q'' _ h => h) (fun q'' _ h => h)

/-! ### Programs that a role does not notice -/

/-- Every operation the program may call satisfies `φ`. -/
def Only (φ : Op → Prop) : Prog Op Ans ε α → Prop
  | ret _ => True
  | raise _ => True
  | call o k => φ o ∧ ∀ a, (k a).Only φ
  | hang => True

variable {φ ψ : Op → Prop}

@[simp] theorem only_ret (a : α) : (ret a : Prog Op Ans ε α).Only φ := trivial
@[simp] theorem only_raise (e : ε) : (raise e : Prog Op Ans ε α).Only φ := trivial
@[simp] theorem only_hang : (hang : Prog Op Ans ε α).Only φ := trivial
@[simp] theorem only_op (o : Op) : (op o : Prog Op Ans ε (Ans o)).Only φ ↔ φ o :=
  ⟨And.left, fun h => ⟨h, fun _ => trivial⟩⟩
theorem Only.bind (hp : p.Only φ) (hf : ∀ a, (f a).Only φ) : (p >>= f).Only φ := by
  induction p with
  | ret a => exact hf a
  | raise e => trivial
  | hang => trivial
  | call o k ih => exact ⟨hp.1, fun a => ih a (hp.2 a)⟩

theorem Only.tryCatch (hp : p.Only φ) (hg : ∀ e, (g e).Only φ) : (p.tryCatch g).Only φ := by
  induction p with
  | ret a => trivial
  | raise e => exact hg e
  | hang => trivial
  | call o k ih => exact ⟨hp.1, fun a => ih a (hp.2 a)⟩

theorem Only.ensure {f : Prog Op Ans ε Unit} (hp : p.Only φ)
    (hf : f.Only φ) : (p.ensure f).Only φ := by
  have hraise (e : ε) : (f >>= fun _ => raise e : Prog Op Ans ε α).Only φ :=
    hf.bind fun _ => only_raise e
  have hret (a : α) : (f >>= fun _ => ret a : Prog Op Ans ε α).Only φ :=
    hf.bind fun _ => only_ret a
  exact (hp.tryCatch hraise).bind hret

theorem Only.mono (hp : p.Only φ) (h : ∀ o, φ o → ψ o) : p.Only ψ := by
  induction p with
  | ret a => trivial
  | raise e => trivial
  | hang => trivial
  | call o k ih => exact ⟨h o hp.1, fun a => ih a (hp.2 a)⟩

/-- Whatever the answers are, a value the program returns satisfies `Q`. -/
def Rets (Q : α → Prop) : Prog Op Ans ε α → Prop
  | ret a => Q a
  | raise _ => True
  | call _ k => ∀ a, (k a).Rets Q
  | hang => True

@[simp] theorem rets_ret {Q : α → Prop} (a : α) : (ret a : Prog Op Ans ε α).Rets Q ↔ Q a := Iff.rfl
@[simp] theorem rets_raise {Q : α → Prop} (e : ε) : (raise e : Prog Op Ans ε α).Rets Q := trivial

theorem Rets.bind {Q : β → Prop} (hp : p.Rets M)
    (hf : ∀ a, M a → (f a).Rets Q) : (p >>= f).Rets Q := by
  induction p with
  | ret a => exact hf a hp
  | raise e => trivial
  | hang => trivial
  | call o k ih => exact fun a => ih a (hp a)

theorem Rets.mono {Q Q' : α → Prop} (hp : p.Rets Q) (h : ∀ a, Q a → Q' a) : p.Rets Q' := by
  induction p with
  | ret a => exact h a hp
  | raise e => trivial
  | hang => trivial
  | call o k ih => exact fun a => ih a (hp a)

theorem rets_true (p : Prog Op Ans ε α) : p.Rets fun _ => True := by
  induction p with
  | ret a => trivial
  | raise e => trivial
  | hang => trivial
  | call o k ih => exact ih

/-- Whatever the answers are, an exception the program raises satisfies `Q`. -/
def Raises (Q : ε → Prop) : Prog Op Ans ε α → Prop
  | ret _ => True
  | raise e => Q e
  | call _ k => ∀ a, (k a).Raises Q
  | hang => True

@[simp] theorem raises_ret (a : α) : (ret a : Prog Op Ans ε α).Raises Q := trivial
@[simp] theorem raises_raise (e : ε) : (raise e : Prog Op Ans ε α).Raises Q ↔ Q e := Iff.rfl
@[simp] theorem raises_op (o : Op) : (op o : Prog Op Ans ε (Ans o)).Raises Q := fun _ => trivial

theorem Raises.bind (hp : p.Raises Q) (hf : ∀ a, (f a).Raises Q) : (p >>= f).Raises Q := by
  induction p with
  | ret a => exact hf a
  | raise e => exact hp
  | hang => trivial
  | call o k ih => exact fun a => ih a (hp a)

theorem raises_op_bind {f : Ans o → Prog Op Ans ε β}
    (hf : ∀ a, (f a).Raises Q) : ((op o : Prog Op Ans ε (Ans o)) >>= f).Raises Q := hf

theorem Raises.tryCatch (hg : ∀ e, (g e).Raises Q) : (p.tryCatch g).Raises Q := by
  induction p with
  | ret a => trivial
  | raise e => exact hg e
  | hang => trivial
  | call o k ih => exact ih

theorem Raises.ensure {f : Prog Op Ans ε Unit} (hp : p.Raises Q)
    (hf : f.Raises Q) : (p.ensure f).Raises Q := by
  refine Raises.bind ?_ fun a => hf.bind fun _ => raises_ret a
  induction p with
  | ret a => trivial
  | raise e => exact hf.bind fun _ => hp
  | hang => trivial
  | call o k ih => exact fun a => ih a (hp a)

theorem Only.bind_rets (hp : p.Only φ) (hM : p.Rets M)
    (hf : ∀ a, M a → (f a).Only φ) : (p >>= f).Only φ := by
  induction p with
  | ret a => exact hf a hM
  | raise e => trivial
  | hang => trivial
  | call o k ih => exact ⟨hp.1, fun a => ih a (hp.2 a) (hM a)⟩

theorem Only.embed {Op' : Type} {Ans' : Op' → Type} {f : Op → Op'} {g : ∀ o, Ans' (f o) → Ans o}
    {φ' : Op' → Prop} (hφ : ∀ o, φ o → φ' (f o)) (hp : p.Only φ) : (p.embed f g).Only φ' := by
  induction p with
  | ret a => trivial
  | raise e => trivial
  | hang => trivial
  | call o k ih => exact ⟨hφ o hp.1, fun a => ih _ (hp.2 _)⟩

theorem Keeps.only {Q : R.St → Except ε α → Prop} (hR : ∀ q o a, R.assumes q o a)
    (hφ : ∀ q o, R.allows q o → φ o) : ∀ {q : R.St}, p.Keeps R q Q → p.Only φ := by
  induction p with
  | ret a => exact fun _ => trivial
  | raise e => exact fun _ => trivial
  | hang => exact fun _ => trivial
  | call o k ih => exact fun h => ⟨hφ _ o h.1, fun a => ih a (h.2 a (hR _ o a))⟩

theorem Only.keeps_rets (hp : p.Only φ) (hM : p.Rets M) (h : ∀ o, φ o → R.Ignores q o) :
    p.Keeps R q (fun q' r => q' = q ∧ ∀ a, r = .ok a → M a) := by
  induction p with
  | ret a => exact ⟨rfl, fun b hb => by cases hb; exact hM⟩
  | raise e => exact ⟨rfl, nofun⟩
  | hang => trivial
  | call o k ih =>
    refine ⟨(h o hp.1).1, fun a _ => ?_⟩
    rw [(h o hp.1).2 a]
    exact ih a (hp.2 a) (hM a)

theorem Only.keeps (hp : p.Only φ) (h : ∀ o, φ o → R.Ignores q o) :
    p.Keeps R q (fun q' _ => q' = q) :=
  (hp.keeps_rets (rets_true p) h).mono fun _ _ h => h.1

theorem Only.keeps_of_allows (hp : p.Only φ)
    (h : ∀ q o, φ o → R.allows q o) : ∀ q, p.Keeps R q fun _ _ => True := by
  induction p with
  | ret a => exact fun _ => trivial
  | raise e => exact fun _ => trivial
  | hang => exact fun _ => trivial
  | call o k ih => exact fun q => ⟨h q o hp.1, fun a _ => ih a (hp.2 a) (R.next q o a)⟩

/-- A program whose operations the role allows in every state with `I`, and which keep `I`. -/
theorem Only.keeps_inv {I : R.St → Prop} (hp : p.Only φ) (hM : p.Rets M)
    (h : ∀ q o, I q → φ o → R.allows q o ∧ ∀ a, I (R.next q o a)) :
    ∀ {q : R.St}, I q → p.Keeps R q fun q' r => I q' ∧ ∀ a, r = .ok a → M a := by
  induction p with
  | ret a => exact fun hq => ⟨hq, fun b hb => by cases hb; exact hM⟩
  | raise e => exact fun hq => ⟨hq, nofun⟩
  | hang => exact fun _ => trivial
  | call o k ih =>
    intro q hq
    obtain ⟨hallow, hnext⟩ := h q o hq hp.1
    exact ⟨hallow, fun a _ => ih a (hp.2 a) (hM a) (hnext a)⟩

theorem Only.keeps_bind {Q : R.St → Except ε β → Prop} (hp : p.Only φ) (hM : p.Rets M)
    (h : ∀ o, φ o → R.Ignores q o) (hf : ∀ a, M a → (f a).Keeps R q Q)
    (herr : ∀ e, Q q (.error e)) : (p >>= f).Keeps R q Q := by
  refine (hp.keeps_rets hM h).bind ?_ ?_
  · rintro q' a ⟨rfl, ha⟩
    exact hf a (ha a rfl)
  · rintro q' e ⟨rfl, -⟩
    exact herr e

end Prog

end AiMeshChat.Lib
