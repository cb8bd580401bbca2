import Mathlib.Init

/-!
# Runs of a transition system

A transition system has initial states and labelled steps. The states reached by runs whose steps
all satisfy a condition are given inductively, with the rule that derives a property of all of
them from the initial states and one step.
-/

namespace Runs

universe u v

/-- A transition system over states `σ` with steps labelled by actions `α`. -/
structure System (σ : Type u) (α : Type v) where
  init : σ → Prop
  step : σ → α → σ → Prop

namespace System

variable {σ : Type u} {α : Type v}

/-- The states reached by runs whose steps all satisfy `P` in the state before the step. -/
inductive Reach (S : System σ α) (P : σ → α → Prop) : σ → Prop
  | init {s : σ} : S.init s → Reach S P s
  | step {s t : σ} {a : α} : Reach S P s → P s a → S.step s a t → Reach S P t

/-- A property of the initial states that every permitted step preserves holds along all runs. -/
theorem Reach.invariant {S : System σ α} {P : σ → α → Prop} {I : σ → Prop}
    (hinit : ∀ s, S.init s → I s)
    (hstep : ∀ s a t, I s → P s a → S.step s a t → I t) {s : σ} (h : Reach S P s) : I s := by
  induction h with
  | init hs => exact hinit _ hs
  | step _ hp hs ih => exact hstep _ _ _ ih hp hs

/-- A run whose steps satisfy a condition satisfies every weaker one. -/
theorem Reach.mono {S : System σ α} {P Q : σ → α → Prop} (himp : ∀ s a, P s a → Q s a) {s : σ}
    (h : Reach S P s) : Reach S Q s := by
  induction h with
  | init hs => exact .init hs
  | step _ hp hs ih => exact .step ih (himp _ _ hp) hs

end System

end Runs
