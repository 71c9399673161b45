import Mathlib.Data.Nat.Init
import Mathlib.Tactic.Common

/-! # While loops

A loop is given by its rounds: the test at its top fails, or the body runs and leaves the loop or comes
back to the test. No fuel is involved, so a loop may have no end; one whose rounds keep an invariant and
lower a measure ends within that many runs of its body (`Loops.of_measure`), and a definition of the
loop with that much fuel computes its result (`Loops.fuelled`).
-/

namespace WebrtcTrace.WhileLoops
set_option autoImplicit false

inductive Round (σ ρ : Type*) where
  | stop (result : ρ)
  | leave (result : ρ)
  | again (state : σ)

variable {σ ρ : Type*}

/-- What comes of a round, when `rest` says what comes of the rounds after it. -/
def Round.resolve (rest : σ → ρ) : Round σ ρ → ρ
  | .stop r => r
  | .leave r => r
  | .again s => rest s

/-- `Loops round s n r`: from `s` the loop runs its body `n` times and ends with `r`. -/
inductive Loops (round : σ → Round σ ρ) : σ → ℕ → ρ → Prop
  | stop {s : σ} {r : ρ} : round s = .stop r → Loops round s 0 r
  | leave {s : σ} {r : ρ} : round s = .leave r → Loops round s 1 r
  | again {s t : σ} {n : ℕ} {r : ρ} :
      round s = .again t → Loops round t n r → Loops round s (n + 1) r

/-- The states the test of a loop is made in. -/
inductive Tested (round : σ → Round σ ρ) (s : σ) : σ → Prop
  | first : Tested round s s
  | next {t u : σ} : Tested round s t → round t = .again u → Tested round s u

variable {round : σ → Round σ ρ} {s : σ} {I : σ → Prop}

/-- A round that keeps `I` and leaves less to do, measured by `μ`, unless it is the last. -/
def Lowers (round : σ → Round σ ρ) (I : σ → Prop) (μ : σ → ℕ) (s : σ) : Prop :=
  match round s with
  | .stop _ => True
  | .leave _ => 0 < μ s
  | .again t => I t ∧ μ t < μ s

/-- **A loop that lowers a measure ends**, and the measure bounds the runs of its body. -/
theorem Loops.of_measure (μ : σ → ℕ) (hround : ∀ s, I s → Lowers round I μ s) :
    ∀ s, I s → ∃ n ≤ μ s, ∃ r, Loops round s n r := by
  intro s
  induction hμ : μ s using Nat.strongRecOn generalizing s with
  | ind m ih =>
    subst hμ
    intro hI
    have hlowers := hround s hI
    unfold Lowers at hlowers
    cases heq : round s with
    | stop r => exact ⟨0, Nat.zero_le _, r, .stop heq⟩
    | leave r =>
      rw [heq] at hlowers
      exact ⟨1, hlowers, r, .leave heq⟩
    | again t =>
      rw [heq] at hlowers
      obtain ⟨n, hn, r, hloops⟩ := ih (μ t) hlowers.2 t rfl hlowers.1
      exact ⟨n + 1, Nat.lt_of_le_of_lt hn hlowers.2, r, .again heq hloops⟩

/-- What the rounds keep holds at every test. -/
theorem Tested.invariant {μ : σ → ℕ} (hround : ∀ s, I s → Lowers round I μ s) {t : σ}
    (h : Tested round s t) (h0 : I s) : I t := by
  induction h with
  | first => exact h0
  | next _ heq ih =>
    have hlowers := hround _ ih
    rw [Lowers, heq] at hlowers
    exact hlowers.1

/-- A loop written with fuel gives the same result, if the fuel covers the runs of the body. -/
theorem Loops.fuelled {f : ℕ → σ → ρ} (hzero : ∀ s r, round s = .stop r → f 0 s = r)
    (hsucc : ∀ fuel s, f (fuel + 1) s = (round s).resolve (f fuel)) {n : ℕ} {r : ρ}
    (h : Loops round s n r) : ∀ fuel, n ≤ fuel → f fuel s = r := by
  induction h with
  | stop hround =>
    rintro (_ | fuel) _
    · exact hzero _ _ hround
    · rw [hsucc, hround, Round.resolve]
  | leave hround =>
    rintro (_ | fuel) hfuel
    · omega
    · rw [hsucc, hround, Round.resolve]
  | again hround _ ih =>
    rintro (_ | fuel) hfuel
    · omega
    · rw [hsucc, hround, Round.resolve]
      exact ih fuel (by omega)

end WebrtcTrace.WhileLoops
