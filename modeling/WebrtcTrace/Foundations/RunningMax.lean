import Mathlib.Data.List.MinMax
import Mathlib.Order.Bounds.Basic
import Mathlib.Order.WithBot
import Mathlib.Order.Lattice

/-! # A running maximum over a growing set

A variable is raised to each element that joins a set. `Tracks S T a b`: while the set grew from `S`
to `T` the variable went from `a` to `b`, so `b` is `a` or an element that joined, and no element
that joined is above it. When `a` already bounds `S`, the end value depends on `a` and `T` only
(`Tracks.unique`).
-/

namespace WebrtcTrace
set_option autoImplicit false

variable {κ : Type*} [LinearOrder κ]

structure Tracks (S T : Set κ) (a b : WithBot κ) : Prop where
  grows : S ⊆ T
  le : a ≤ b
  cap : ∀ i ∈ T, i ∈ S ∨ (i : WithBot κ) ≤ b
  mem : b = a ∨ ∃ i ∈ T, b = i

namespace Tracks
variable {S T R : Set κ} {a b c : WithBot κ}

theorem refl (S : Set κ) (a : WithBot κ) : Tracks S S a a :=
  ⟨subset_rfl, le_rfl, fun _ hi => .inl hi, .inl rfl⟩

theorem trans (h : Tracks S T a b) (h' : Tracks T R b c) : Tracks S R a c where
  grows := h.grows.trans h'.grows
  le := h.le.trans h'.le
  cap i hi := by
    obtain hT | hc := h'.cap i hi
    · exact (h.cap i hT).imp_right fun hb => hb.trans h'.le
    · exact .inr hc
  mem := by
    obtain rfl | hc := h'.mem
    · exact h.mem.imp_right fun ⟨i, hi, hb⟩ => ⟨i, h'.grows hi, hb⟩
    · exact .inr hc

theorem raise (S : Set κ) (a : WithBot κ) (i : κ) : Tracks S (insert i S) a (max a i) where
  grows := Set.subset_insert i S
  le := le_max_left _ _
  cap j hj := by
    obtain rfl | hj := hj
    · exact .inr (le_max_right _ _)
    · exact .inl hj
  mem := by
    obtain h | h := le_total (i : WithBot κ) a
    · exact .inl (max_eq_left h)
    · exact .inr ⟨i, Set.mem_insert i S, max_eq_right h⟩

theorem capped (ha : ∀ i ∈ S, (i : WithBot κ) ≤ a) (h : Tracks S T a b) :
    ∀ i ∈ T, (i : WithBot κ) ≤ b :=
  fun i hi => (h.cap i hi).elim (fun hS => (ha i hS).trans h.le) id

theorem isGreatest (ha : ∀ i ∈ S, (i : WithBot κ) ≤ a) (h : Tracks S T a b) :
    IsGreatest ({x | x = a ∨ ∃ i ∈ T, x = i}) b := by
  refine ⟨h.mem, ?_⟩
  rintro x (rfl | ⟨i, hi, rfl⟩)
  · exact h.le
  · exact h.capped ha i hi

theorem unique (ha : ∀ i ∈ S, (i : WithBot κ) ≤ a) (h : Tracks S T a b) (h' : Tracks S T a c) :
    b = c :=
  (h.isGreatest ha).unique (h'.isGreatest ha)

/-- The end value is the larger of the start value and the greatest element that joined. -/
theorem eq_max (ha : ∀ i ∈ S, (i : WithBot κ) ≤ a) (h : Tracks S T a b) {xs : List κ}
    (hxs : ∀ i, i ∈ xs ↔ i ∈ T ∧ i ∉ S) : b = max a xs.maximum := by
  apply le_antisymm
  · obtain rfl | ⟨i, hi, rfl⟩ := h.mem
    · exact le_max_left _ _
    · by_cases hS : i ∈ S
      · exact (ha i hS).trans (le_max_left _ _)
      · exact (List.le_maximum_of_mem' ((hxs i).mpr ⟨hi, hS⟩)).trans (le_max_right _ _)
  · refine max_le h.le (List.maximum_le_of_forall_le fun i hi => ?_)
    obtain ⟨hT, hS⟩ := (hxs i).mp hi
    exact (h.cap i hT).resolve_left hS

end Tracks
end WebrtcTrace
