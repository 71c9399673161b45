import WebrtcTrace.Foundations.Runs
import Mathlib.Algebra.BigOperators.Group.List.Basic

/-! # Books over a run

What comes in, what goes out and what is held, in any commutative monoid: numbers, or multisets where
each item counts. A step balances when what was held and comes in is what goes out and is held then;
a run of such steps balances as a whole.
-/

namespace WebrtcTrace.Runs
set_option autoImplicit false

variable {σ α M : Type*} [AddCommMonoid M]

/-- What the steps of a run add up to. -/
def total (f : σ → α → M) (tr : List (σ × α)) : M := (tr.map fun e => f e.1 e.2).sum

@[simp] theorem total_nil (f : σ → α → M) : total f [] = 0 := rfl

@[simp] theorem total_concat (f : σ → α → M) (tr : List (σ × α)) (s : σ) (a : α) :
    total f (tr ++ [(s, a)]) = total f tr + f s a := by
  rw [total, List.map_append, List.sum_append, List.map_singleton, List.sum_singleton]
  rfl

theorem total_add (f g : σ → α → M) (tr : List (σ × α)) :
    total (fun s a => f s a + g s a) tr = total f tr + total g tr := by
  rw [total, List.sum_map_add]
  rfl

variable {step : σ → α → σ → Prop} {s₀ : σ}

/-- **Steps that balance make a run that balances.** -/
theorem Run.balance (held : σ → M) (entering leaving : σ → α → M)
    (hstep : ∀ tr s a t, Run step s₀ tr s → step s a t →
      held s + entering s a = leaving s a + held t)
    {tr : List (σ × α)} {s : σ} (h : Run step s₀ tr s) :
    held s₀ + total entering tr = total leaving tr + held s := by
  induction h with
  | start => rw [total_nil, total_nil, add_zero, zero_add]
  | snoc hr ht ih =>
    rw [total_concat, total_concat, ← add_assoc, ih, add_assoc, hstep _ _ _ _ hr ht, ← add_assoc]

end WebrtcTrace.Runs
