import WebrtcTrace.Foundations.RowLoop
import Mathlib.Data.List.Forall2

/-! # Two runs side by side

`Related R x y`: the computations `x` and `y` fail with the same error, or give results that `R`
relates. One rule for each way of building a computation, and the rules for loops over rows that are
related one by one.
-/

namespace WebrtcTrace
set_option autoImplicit false

variable {α α' β β' ε ρ ρ' σ σ' : Type*}

inductive Related (R : α → β → Prop) : Except ε α → Except ε β → Prop
  | ok {a : α} {b : β} (h : R a b) : Related R (.ok a) (.ok b)
  | error (e : ε) : Related R (.error e) (.error e)

namespace Related
variable {R : α → α' → Prop} {S : β → β' → Prop} {x : Except ε α} {x' : Except ε α'}

theorem bind {f : α → Except ε β} {f' : α' → Except ε β'} (h : Related R x x')
    (hf : ∀ a a', R a a' → Related S (f a) (f' a')) : Related S (x.bind f) (x'.bind f') := by
  cases h with
  | ok h => exact hf _ _ h
  | error e => exact .error e

theorem map {f : α → β} {f' : α' → β'} (h : Related R x x') (hf : ∀ a a', R a a' → S (f a) (f' a')) :
    Related S (x.map f) (x'.map f') := by
  cases h with
  | ok h => exact .ok (hf _ _ h)
  | error e => exact .error e

theorem ite {p : Prop} [Decidable p] {y : Except ε α} {y' : Except ε α'} (hpos : p → Related R x x')
    (hneg : ¬ p → Related R y y') : Related R (if p then x else y) (if p then x' else y') := by
  by_cases h : p
  · rw [if_pos h, if_pos h]
    exact hpos h
  · rw [if_neg h, if_neg h]
    exact hneg h

theorem of_map {f : α → α'} (h : x' = x.map f) : Related (fun a a' => a' = f a) x x' := by
  subst h
  cases x with
  | ok a => exact .ok rfl
  | error e => exact .error e

theorem refl (x : Except ε α) : Related (fun a a' => a' = a) x x := by
  cases x with
  | ok a => exact .ok rfl
  | error e => exact .error e

theorem eq {y : Except ε α} (h : Related (fun a a' => a' = a) x y) : y = x := by
  cases h with
  | ok h => rw [h]
  | error e => rfl

end Related

section Loops
variable {R : α → α' → Prop} {S : σ → σ' → Prop} {read : ρ → Except ε (Option α)}
  {read' : ρ' → Except ε (Option α')} {rows : List ρ} {rows' : List ρ'}

theorem readAll_related
    (h : List.Forall₂ (fun row row' => Related (Option.Rel R) (read row) (read' row')) rows rows') :
    Related (List.Forall₂ R) (readAll read rows) (readAll read' rows') := by
  induction h with
  | nil => exact .ok .nil
  | @cons row row' rows rows' hrow _ ih =>
    rw [readAll_cons, readAll_cons]
    refine hrow.bind fun x x' hx => ih.map fun xs xs' hxs => ?_
    cases hx with
    | none => exact hxs
    | some hx => exact .cons hx hxs

/-- The loop rule: the states stay related if one round of the loop keeps them related. -/
theorem scanRows_related {step : σ → α → Except ε σ} {step' : σ' → α' → Except ε σ'}
    (h : List.Forall₂ (fun row row' => Related (Option.Rel R) (read row) (read' row')) rows rows')
    (hstep : ∀ s s' x x', S s s' → R x x' → Related S (step s x) (step' s' x')) {s : σ} {s' : σ'}
    (hs : S s s') : Related S (scanRows read step s rows) (scanRows read' step' s' rows') := by
  induction h generalizing s s' with
  | nil => exact .ok hs
  | @cons row row' rows rows' hrow _ ih =>
    refine hrow.bind fun x x' hx => ?_
    cases hx with
    | none => exact ih hs
    | some hx => exact (hstep _ _ _ _ hs hx).bind fun t t' ht => ih ht

theorem readAll_of_map {f : α → α'}
    (h : List.Forall₂ (fun row row' => read' row' = (read row).map (Option.map f)) rows rows') :
    readAll read' rows' = (readAll read rows).map (List.map f) := by
  induction h with
  | nil => rfl
  | @cons row row' rows rows' hrow _ ih =>
    rw [readAll_cons, readAll_cons, hrow, ih]
    cases read row with
    | error e => rfl
    | ok x => cases readAll read rows <;> cases x <;> rfl

/-- Rows that are read alike but for a change of what is read. -/
theorem reads_of_map {f : α → α'}
    (h : List.Forall₂ (fun row row' => read' row' = (read row).map (Option.map f)) rows rows') :
    List.Forall₂ (fun row row' => Related (Option.Rel fun a a' => a' = f a) (read row) (read' row'))
      rows rows' := by
  refine h.imp fun row row' hrow => ?_
  rw [hrow]
  cases read row with
  | error e => exact .error e
  | ok x =>
    cases x with
    | none => exact .ok .none
    | some a => exact .ok (.some rfl)

end Loops
end WebrtcTrace
