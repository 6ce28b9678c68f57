import Mathlib.Order.Defs.PartialOrder

/-!
# Clearing up

A state is cleared by one step after another, each of which looks at one thing and takes away what
is too much there. `t ≤ u` says that `t` is what may be left of `u`. A step is `Idle` where it
finds nothing, and then it changes nothing; where it finds something, what it leaves is less. What
a step has cleared stays clear, whatever is taken away later.

So a run over a list of things changes nothing if and only if every step of it is idle, and a
second run changes nothing.
-/

namespace AiMeshChat.Lib

variable {T X : Type} [Preorder T]

structure Clears (step : T → X → T) (Idle : X → T → Prop) : Prop where
  le : ∀ t x, step t x ≤ t
  step_of_idle : ∀ {t x}, Idle x t → step t x = t
  idle_of_le : ∀ {t x}, t ≤ step t x → Idle x t
  idle_step : ∀ t x, Idle x (step t x)
  anti : ∀ {t u x}, u ≤ t → Idle x t → Idle x u

namespace Clears

variable {step : T → X → T} {Idle : X → T → Prop}

theorem foldl_le (h : Clears step Idle) (xs : List X) (t : T) : xs.foldl step t ≤ t := by
  induction xs generalizing t with
  | nil => exact le_refl t
  | cons x xs ih => exact le_trans (ih (step t x)) (h.le t x)

theorem foldl_of_idle (h : Clears step Idle) {xs : List X} {t : T}
    (hidle : ∀ x ∈ xs, Idle x t) : xs.foldl step t = t := by
  induction xs with
  | nil => rfl
  | cons x xs ih =>
    rw [List.foldl_cons, h.step_of_idle (hidle x List.mem_cons_self)]
    exact ih fun y hy => hidle y (List.mem_cons_of_mem x hy)

theorem idle_of_le_foldl (h : Clears step Idle) {xs : List X} {t : T}
    (hle : t ≤ xs.foldl step t) : ∀ x ∈ xs, Idle x t := by
  induction xs with
  | nil => simp
  | cons x xs ih =>
    have hx : Idle x t := h.idle_of_le (le_trans hle (h.foldl_le xs (step t x)))
    rw [List.foldl_cons, h.step_of_idle hx] at hle
    intro y hy
    obtain rfl | hy := List.mem_cons.mp hy
    · exact hx
    · exact ih hle y hy

theorem idle_foldl (h : Clears step Idle) (xs : List X) (t : T) : ∀ x ∈ xs, Idle x (xs.foldl step t) := by
  induction xs generalizing t with
  | nil => simp
  | cons x xs ih =>
    intro y hy
    obtain rfl | hy := List.mem_cons.mp hy
    · exact h.anti (h.foldl_le xs _) (h.idle_step t y)
    · exact ih (step t x) y hy

end Clears

end AiMeshChat.Lib
