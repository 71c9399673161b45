import Mathlib.Data.List.TakeWhile
import Mathlib.Order.Basic

/-! # Binary search in an ordered list

`bisect below xs` searches the point where the elements of a list cease to be `below`. In a list where
they do so once, the elements before that point are those that are below (`take_bisect`).
-/

namespace WebrtcTrace
set_option autoImplicit false

variable {α : Type*} (below : α → Bool)

def bisectLoop (xs : List α) : ℕ → ℕ → ℕ → ℕ
  | 0, lo, _ => lo
  | fuel + 1, lo, hi =>
    if lo < hi then
      let mid := (lo + hi) / 2
      if xs[mid]?.any below then bisectLoop xs fuel (mid + 1) hi else bisectLoop xs fuel lo mid
    else lo

def bisect (xs : List α) : ℕ := bisectLoop below xs xs.length 0 xs.length

/-- Nothing is below once something is not. -/
def Partitioned (xs : List α) : Prop := xs.Pairwise fun a b => below b → below a

variable {below}

theorem bisectLoop_eq {xs : List α} {n : ℕ}
    (hn : ∀ j (hj : j < xs.length), below xs[j] = true ↔ j < n) {fuel lo hi : ℕ} (hlo : lo ≤ n)
    (hhi : n ≤ hi) (hlen : hi ≤ xs.length) (hfuel : hi - lo ≤ fuel) :
    bisectLoop below xs fuel lo hi = n := by
  induction fuel generalizing lo hi with
  | zero =>
    rw [bisectLoop]
    omega
  | succ fuel ih =>
    rw [bisectLoop]
    by_cases hlt : lo < hi
    · have hmid : (lo + hi) / 2 < xs.length := by omega
      simp only [hlt, if_true, List.getElem?_eq_getElem hmid, Option.any_some]
      by_cases hbelow : below xs[(lo + hi) / 2]
      · have hleft := (hn _ hmid).mp hbelow
        rw [if_pos hbelow]
        apply ih <;> omega
      · have hright := mt (hn _ hmid).mpr hbelow
        rw [if_neg hbelow]
        apply ih <;> omega
    · rw [if_neg hlt]
      omega

theorem Partitioned.below_iff {xs : List α} (h : Partitioned below xs) (j : ℕ) (hj : j < xs.length) :
    below xs[j] = true ↔ j < (xs.takeWhile below).length := by
  induction xs generalizing j with
  | nil => cases hj
  | cons x xs ih =>
    obtain ⟨hx, hxs⟩ := List.pairwise_cons.mp h
    by_cases hbelow : below x
    · rw [List.takeWhile_cons_of_pos hbelow, List.length_cons]
      cases j with
      | zero => simp [hbelow]
      | succ j =>
        rw [List.length_cons] at hj
        rw [List.getElem_cons_succ, ih hxs j (by omega)]
        omega
    · rw [List.takeWhile_cons_of_neg hbelow, List.length_nil]
      cases j with
      | zero => simp [hbelow]
      | succ j =>
        have hj' : j < xs.length := by simpa using hj
        simp only [List.getElem_cons_succ, Nat.not_lt_zero, iff_false]
        intro hlater
        exact hbelow (hx _ (List.getElem_mem hj') hlater)

theorem Partitioned.takeWhile_eq {xs : List α} (h : Partitioned below xs) :
    xs.takeWhile below = xs.filter below := by
  induction xs with
  | nil => rfl
  | cons x xs ih =>
    obtain ⟨hx, hxs⟩ := List.pairwise_cons.mp h
    by_cases hbelow : below x
    · rw [List.takeWhile_cons_of_pos hbelow, List.filter_cons_of_pos hbelow, ih hxs]
    · have hnone : xs.filter below = [] := by
        rw [List.filter_eq_nil_iff]
        intro y hy hlater
        exact hbelow (hx y hy hlater)
      rw [List.takeWhile_cons_of_neg hbelow, List.filter_cons_of_neg hbelow, hnone]

theorem bisect_eq {xs : List α} (h : Partitioned below xs) :
    bisect below xs = (xs.takeWhile below).length := by
  have hprefix : (xs.takeWhile below).length ≤ xs.length := (List.takeWhile_prefix below).length_le
  exact bisectLoop_eq h.below_iff (Nat.zero_le _) hprefix le_rfl (by omega)

theorem bisect_le_length {xs : List α} (h : Partitioned below xs) : bisect below xs ≤ xs.length := by
  rw [bisect_eq h]
  exact (List.takeWhile_prefix below).length_le

/-- **The elements before the point found are those that are below.** -/
theorem take_bisect {xs : List α} (h : Partitioned below xs) :
    xs.take (bisect below xs) = xs.filter below := by
  rw [bisect_eq h, ← h.takeWhile_eq]
  exact (List.prefix_iff_eq_take.mp (List.takeWhile_prefix below)).symm

theorem bisect_map {β : Type*} (f : β → α) {xs : List β} (h : Partitioned below (xs.map f)) :
    bisect below (xs.map f) = bisect (fun x => below (f x)) xs := by
  have hxs : Partitioned (fun x => below (f x)) xs := List.pairwise_map.mp h
  rw [bisect_eq h, bisect_eq hxs, List.takeWhile_map, List.length_map]
  rfl

theorem partitioned_le [Preorder α] [DecidableLE α] {xs : List α} (h : xs.Pairwise (· ≤ ·)) (x : α) :
    Partitioned (fun a => decide (a ≤ x)) xs := by
  refine h.imp ?_
  intro a b hab hb
  simp only [decide_eq_true_eq] at hb ⊢
  exact hab.trans hb

theorem partitioned_lt [Preorder α] [DecidableLT α] {xs : List α} (h : xs.Pairwise (· ≤ ·)) (x : α) :
    Partitioned (fun a => decide (a < x)) xs := by
  refine h.imp ?_
  intro a b hab hb
  simp only [decide_eq_true_eq] at hb ⊢
  exact hab.trans_lt hb

end WebrtcTrace
