import Mathlib.Algebra.Order.Floor.Ring
import Mathlib.Data.Int.ConditionallyCompleteOrder
import Mathlib.Order.Interval.Set.Basic
import Mathlib.Tactic.Linarith
import Mathlib.Tactic.Ring

/-! # Linear interpolation between values at the integers

`along f x` is the point above `x` on the polygonal line through the values `f`. It is between its two
neighbours when `f` does not decrease there (`le_along`, `along_le`), so it is non-decreasing wherever
`f` is (`along_monotoneOn`).
-/

namespace WebrtcTrace
set_option autoImplicit false

open Int Set

variable {K : Type*} [Field K] [LinearOrder K] [FloorRing K]

def along (f : ℤ → K) (x : K) : K := f ⌊x⌋ * (1 - fract x) + f ⌈x⌉ * fract x

/-- At an integer the two neighbours are one. -/
theorem along_of_floor_eq_ceil (f : ℤ → K) {x : K} (h : ⌊x⌋ = ⌈x⌉) : along f x = f ⌊x⌋ := by
  rw [along, ← h]
  ring

variable [IsStrictOrderedRing K]

@[simp] theorem along_intCast (f : ℤ → K) (n : ℤ) : along f n = f n := by
  simp [along]

/-- With the two weights measured from the two neighbours. -/
theorem along_of_floor_ne_ceil (f : ℤ → K) {x : K} (h : ⌊x⌋ ≠ ⌈x⌉) :
    along f x = f ⌊x⌋ * (⌈x⌉ - x) + f ⌈x⌉ * (x - ⌊x⌋) := by
  have hceil : ⌈x⌉ = ⌊x⌋ + 1 := by
    have hle := ceil_le_floor_add_one x
    have hfloor := floor_le_ceil x
    omega
  rw [along, hceil, fract]
  push_cast
  ring

theorem le_along {f : ℤ → K} {x : K} (h : f ⌊x⌋ ≤ f ⌈x⌉) : f ⌊x⌋ ≤ along f x := by
  have hstep : 0 ≤ (f ⌈x⌉ - f ⌊x⌋) * fract x := mul_nonneg (sub_nonneg.mpr h) (fract_nonneg x)
  have hsplit : along f x = f ⌊x⌋ + (f ⌈x⌉ - f ⌊x⌋) * fract x := by
    rw [along]
    ring
  linarith

theorem along_le {f : ℤ → K} {x : K} (h : f ⌊x⌋ ≤ f ⌈x⌉) : along f x ≤ f ⌈x⌉ := by
  have hstep : 0 ≤ (f ⌈x⌉ - f ⌊x⌋) * (1 - fract x) :=
    mul_nonneg (sub_nonneg.mpr h) (sub_nonneg.mpr (fract_lt_one x).le)
  have hsplit : along f x = f ⌈x⌉ - (f ⌈x⌉ - f ⌊x⌋) * (1 - fract x) := by
    rw [along]
    ring
  linarith

/-- On one segment of the line. -/
theorem along_le_of_floor_eq {f : ℤ → K} {x y : K} (hxy : x ≤ y) (hfloor : ⌊x⌋ = ⌊y⌋)
    (h : f ⌊y⌋ ≤ f ⌈y⌉) : along f x ≤ along f y := by
  by_cases hx : ⌊x⌋ = ⌈x⌉
  · rw [along_of_floor_eq_ceil f hx, hfloor]
    exact le_along h
  · have hceil : ⌈x⌉ = ⌈y⌉ := by
      have hstep := ceil_le_floor_add_one y
      have hmono := ceil_mono hxy
      have hle := floor_le_ceil x
      omega
    have hstep : 0 ≤ (f ⌈y⌉ - f ⌊y⌋) * (fract y - fract x) := by
      refine mul_nonneg (sub_nonneg.mpr h) (sub_nonneg.mpr ?_)
      rw [fract, fract, hfloor]
      exact sub_le_sub_right hxy _
    have hsplit : along f y = along f x + (f ⌈y⌉ - f ⌊y⌋) * (fract y - fract x) := by
      rw [along, along, hfloor, hceil]
      ring
    linarith

theorem floor_mem_Icc {a b : ℤ} {x : K} (hx : x ∈ Icc (a : K) b) : ⌊x⌋ ∈ Icc a b :=
  ⟨le_floor.mpr hx.1, floor_le_iff.mpr (hx.2.trans_lt (lt_add_one _))⟩

theorem ceil_mem_Icc {a b : ℤ} {x : K} (hx : x ∈ Icc (a : K) b) : ⌈x⌉ ∈ Icc a b :=
  ⟨(le_floor.mpr hx.1).trans (floor_le_ceil x), ceil_le.mpr hx.2⟩

theorem along_monotoneOn {f : ℤ → K} {a b : ℤ} (hf : MonotoneOn f (Icc a b)) :
    MonotoneOn (along f) (Icc (a : K) b) := by
  intro x hx y hy hxy
  have hrise : ∀ {z : K}, z ∈ Icc (a : K) b → f ⌊z⌋ ≤ f ⌈z⌉ :=
    fun hz => hf (floor_mem_Icc hz) (ceil_mem_Icc hz) (floor_le_ceil _)
  obtain hlt | heq := (floor_mono hxy).lt_or_eq
  · -- a breakpoint lies between them
    have hceil : ⌈x⌉ ≤ ⌊y⌋ := (ceil_le_floor_add_one x).trans hlt
    calc along f x ≤ f ⌈x⌉ := along_le (hrise hx)
      _ ≤ f ⌊y⌋ := hf (ceil_mem_Icc hx) (floor_mem_Icc hy) hceil
      _ ≤ along f y := le_along (hrise hy)
  · exact along_le_of_floor_eq hxy heq (hrise hy)

end WebrtcTrace
