import Mathlib.Data.List.Destutter

/-! # What a greedy thinning keeps

`List.destutter R` keeps the first element of a list and then every element that `R` relates to the
last one kept. So the last element kept up to any place is the element there, or one that `R` does
not relate to it (`getLast?_destutter_snoc`).
-/

namespace WebrtcTrace.Thinning
set_option autoImplicit false

variable {α : Type*} {R : α → α → Prop} [DecidableRel R]

theorem head?_destutter' (a : α) (xs : List α) : (xs.destutter' R a).head? = some a := by
  induction xs with
  | nil => rfl
  | cons x xs ih =>
    by_cases h : R a x
    · rw [List.destutter'_cons_pos _ h, List.head?_cons]
    · rw [List.destutter'_cons_neg _ h, ih]

theorem head?_destutter (xs : List α) : (xs.destutter R).head? = xs.head? := by
  cases xs with
  | nil => rfl
  | cons a xs => exact head?_destutter' a xs

theorem getLast?_destutter'_snoc (a : α) (xs : List α) (b : α) :
    ∃ c, ((xs ++ [b]).destutter' R a).getLast? = some c ∧ (c = b ∨ ¬ R c b) := by
  induction xs generalizing a with
  | nil =>
    rw [List.nil_append, List.destutter'_singleton]
    split_ifs with h
    · exact ⟨b, rfl, .inl rfl⟩
    · exact ⟨a, rfl, .inr h⟩
  | cons x xs ih =>
    rw [List.cons_append]
    by_cases h : R a x
    · obtain ⟨c, hlast, hc⟩ := ih x
      refine ⟨c, ?_, hc⟩
      rw [List.destutter'_cons_pos _ h, List.getLast?_cons_of_ne_nil (List.destutter'_ne_nil _ R), hlast]
    · rw [List.destutter'_cons_neg _ h]
      exact ih a

/-- The last element kept up to an element is that element or does not relate to it. -/
theorem getLast?_destutter_snoc (xs : List α) (b : α) :
    ∃ c, ((xs ++ [b]).destutter R).getLast? = some c ∧ (c = b ∨ ¬ R c b) := by
  cases xs with
  | nil => exact ⟨b, rfl, .inl rfl⟩
  | cons a xs => exact getLast?_destutter'_snoc a xs b

end WebrtcTrace.Thinning
