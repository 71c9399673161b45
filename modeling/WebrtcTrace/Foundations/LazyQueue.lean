import Mathlib.Data.List.Basic

/-! # Queues that are cleaned when they are read

Several queues share elements; an element consumed through one of them stays in the others and is
thrown away when it comes to the front there. `Pruned used full q`: `q` is the queue `full` without a
front part of used elements. Popping such a queue gives the first unused element of `full`
(`Pruned.pop_fst`), and it stays pruned while more elements become used.
-/

namespace WebrtcTrace.LazyQueue
set_option autoImplicit false

variable {α : Type*}

/-- Throws away used elements at the front, then takes the next one. -/
def pop (used : α → Bool) (q : List α) : Option α × List α :=
  match q.dropWhile used with
  | [] => (none, [])
  | a :: rest => (some a, rest)

def Pruned (used : α → Bool) (full q : List α) : Prop :=
  ∃ front, full = front ++ q ∧ ∀ a ∈ front, used a = true

variable {used used' : α → Bool} {full q : List α}

theorem Pruned.refl (used : α → Bool) (full : List α) : Pruned used full full :=
  ⟨[], rfl, fun _ ha => absurd ha List.not_mem_nil⟩

theorem Pruned.mono (hsub : ∀ a, used a = true → used' a = true) (h : Pruned used full q) :
    Pruned used' full q := by
  obtain ⟨front, hfull, hfront⟩ := h
  exact ⟨front, hfull, fun a ha => hsub a (hfront a ha)⟩

theorem pop_cases (used : α → Bool) (q : List α) :
    (pop used q = (none, []) ∧ ∀ a ∈ q, used a = true) ∨
      ∃ front a rest, q = front ++ a :: rest ∧ (∀ b ∈ front, used b = true) ∧ used a = false ∧
        pop used q = (some a, rest) := by
  have hsplit : q.takeWhile used ++ q.dropWhile used = q := List.takeWhile_append_dropWhile
  have hfront : ∀ b ∈ q.takeWhile used, used b = true := fun b hb => by
    have hall := List.all_takeWhile (p := used) (l := q)
    exact List.all_eq_true.mp hall b hb
  cases hdrop : q.dropWhile used with
  | nil =>
    refine .inl ⟨by rw [pop, hdrop], ?_⟩
    rw [hdrop, List.append_nil] at hsplit
    rw [← hsplit]
    exact hfront
  | cons a rest =>
    refine .inr ⟨q.takeWhile used, a, rest, by rw [← hdrop, hsplit], hfront, ?_, by rw [pop, hdrop]⟩
    have hhead := List.head?_dropWhile_not used q
    rw [hdrop] at hhead
    simpa using hhead

/-- Popping from a queue whose elements were changed. -/
theorem pop_map {β : Type*} (used : α → Bool) (used' : β → Bool) (f : α → β)
    (h : ∀ a, used' (f a) = used a) (q : List α) :
    pop used' (q.map f) = ((pop used q).1.map f, (pop used q).2.map f) := by
  have hdrop : (q.map f).dropWhile used' = (q.dropWhile used).map f := by
    rw [List.dropWhile_map]
    congr 2
    exact funext h
  unfold pop
  rw [hdrop]
  cases q.dropWhile used <;> rfl

/-- The popped element is the first unused one of the whole queue. -/
theorem Pruned.pop_fst (h : Pruned used full q) : (pop used q).1 = full.find? (!used ·) := by
  obtain ⟨dropped, rfl, hdropped⟩ := h
  have hnone : dropped.find? (!used ·) = none := by
    rw [List.find?_eq_none]
    intro a ha
    simp [hdropped a ha]
  rw [List.find?_append, hnone, Option.none_or]
  obtain ⟨hpop, hall⟩ | ⟨front, a, rest, rfl, hfront, ha, hpop⟩ := pop_cases used q
  · rw [hpop, eq_comm, List.find?_eq_none]
    intro a ha
    simp [hall a ha]
  · have hfnone : front.find? (!used ·) = none := by
      rw [List.find?_eq_none]
      intro b hb
      simp [hfront b hb]
    rw [hpop, List.find?_append, hfnone, Option.none_or]
    simp [ha]

/-- What is left is pruned once the popped element counts as used. -/
theorem Pruned.pop_snd (hsub : ∀ a, used a = true → used' a = true)
    (hpopped : ∀ a ∈ (pop used q).1, used' a = true) (h : Pruned used full q) :
    Pruned used' full (pop used q).2 := by
  obtain ⟨dropped, rfl, hdropped⟩ := h
  obtain ⟨hpop, hall⟩ | ⟨front, a, rest, rfl, hfront, _, hpop⟩ := pop_cases used q <;>
    rw [hpop] at hpopped ⊢
  · refine ⟨dropped ++ q, by simp, fun a ha => hsub a ?_⟩
    exact (List.mem_append.mp ha).elim (hdropped a) (hall a)
  · refine ⟨dropped ++ front ++ [a], by simp, fun b hb => ?_⟩
    rw [List.mem_append, List.mem_append, List.mem_singleton] at hb
    obtain (hb | hb) | rfl := hb
    · exact hsub b (hdropped b hb)
    · exact hsub b (hfront b hb)
    · exact hpopped b rfl

end WebrtcTrace.LazyQueue
