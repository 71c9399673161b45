import Mathlib.Data.Int.Order.Basic
import Mathlib.Data.List.Basic
import Mathlib.Order.Lattice

/-! # Slices of Python lists

`xs[a:b]` and `xs[a:b] = ys` for any integers `a` and `b`: a negative index counts from the end, and an
index beyond an end stands for that end. Writing as many items as the slice has changes them and no
others (`getElem?_setSlice`). Extending a list by another until it is long enough repeats that one
(`getElem?_extendTo`).
-/

namespace WebrtcTrace.Py
set_option autoImplicit false

variable {α : Type*}

/-- The position an index of a slice stands for, in a list of length `n`. -/
def sliceIndex (n : ℕ) (k : ℤ) : ℕ := if k < 0 then (k + n).toNat else min k.toNat n

/-- `xs[a:b]`. -/
def slice (xs : List α) (a b : ℤ) : List α :=
  (xs.drop (sliceIndex xs.length a)).take (sliceIndex xs.length b - sliceIndex xs.length a)

/-- `xs[a:b] = ys`. -/
def setSlice (xs : List α) (a b : ℤ) (ys : List α) : List α :=
  xs.take (sliceIndex xs.length a) ++ ys ++
    xs.drop (max (sliceIndex xs.length a) (sliceIndex xs.length b))

/-- `while len(out) < n: out.extend(xs)`, with at most `fuel` rounds. -/
def extendTo (xs : List α) (n : ℕ) : ℕ → List α → List α
  | 0, out => out
  | fuel + 1, out => if out.length < n then extendTo xs n fuel (out ++ xs) else out

variable {xs ys : List α} {a b n : ℕ}

theorem sliceIndex_of_le {k : ℕ} (h : k ≤ n) : sliceIndex n k = k := by
  rw [sliceIndex, if_neg (by omega), Int.toNat_natCast, Nat.min_eq_left h]

theorem slice_eq (hab : a ≤ b) (hb : b ≤ xs.length) : slice xs a b = (xs.drop a).take (b - a) := by
  rw [slice, sliceIndex_of_le hb, sliceIndex_of_le (hab.trans hb)]

theorem length_slice (hab : a ≤ b) (hb : b ≤ xs.length) : (slice xs a b).length = b - a := by
  rw [slice_eq hab hb, List.length_take, List.length_drop]
  omega

theorem getElem?_slice (hab : a ≤ b) (hb : b ≤ xs.length) {i : ℕ} (hi : i < b - a) :
    (slice xs a b)[i]? = xs[a + i]? := by
  rw [slice_eq hab hb, List.getElem?_take_of_lt hi, List.getElem?_drop]

theorem setSlice_eq (hab : a ≤ b) (hb : b ≤ xs.length) :
    setSlice xs a b ys = xs.take a ++ ys ++ xs.drop b := by
  rw [setSlice, sliceIndex_of_le hb, sliceIndex_of_le (hab.trans hb), Nat.max_eq_right hab]

theorem length_setSlice (hab : a ≤ b) (hb : b ≤ xs.length) (hys : ys.length = b - a) :
    (setSlice xs a b ys).length = xs.length := by
  rw [setSlice_eq hab hb, List.length_append, List.length_append, List.length_take, List.length_drop]
  omega

/-- **Writing a slice** of the same length changes that slice and nothing else. -/
theorem getElem?_setSlice (hab : a ≤ b) (hb : b ≤ xs.length) (hys : ys.length = b - a) (i : ℕ) :
    (setSlice xs a b ys)[i]? = if a ≤ i ∧ i < b then ys[i - a]? else xs[i]? := by
  have hfront : (xs.take a).length = a := by
    rw [List.length_take]
    omega
  have hmiddle : (xs.take a ++ ys).length = b := by
    rw [List.length_append, hfront]
    omega
  rw [setSlice_eq hab hb]
  split_ifs with hi
  · rw [List.getElem?_append_left (by omega), List.getElem?_append_right (by omega), hfront]
  · obtain hlt | hge := Nat.lt_or_ge i a
    · rw [List.getElem?_append_left (by omega), List.getElem?_append_left (by omega),
        List.getElem?_take_of_lt hlt]
    · rw [List.getElem?_append_right (by omega), hmiddle, List.getElem?_drop,
        Nat.add_sub_cancel' (by omega)]

/-! ## Repetition -/

/-- The items are those of `xs`, over and over, and `xs` has been added a number of times. -/
def Repeats (xs out : List α) : Prop :=
  xs.length ∣ out.length ∧ ∀ i < out.length, out[i]? = xs[i % xs.length]?

theorem repeats_nil (xs : List α) : Repeats xs [] :=
  ⟨Nat.dvd_zero _, fun i hi => absurd hi (Nat.not_lt_zero i)⟩

theorem Repeats.append {out : List α} (h : Repeats xs out) : Repeats xs (out ++ xs) := by
  obtain ⟨hdvd, hget⟩ := h
  refine ⟨?_, fun i hi => ?_⟩
  · rw [List.length_append]
    exact Nat.dvd_add hdvd (Nat.dvd_refl _)
  · obtain hlt | hge := Nat.lt_or_ge i out.length
    · rw [List.getElem?_append_left hlt, hget i hlt]
    · rw [List.length_append] at hi
      obtain ⟨k, hk⟩ := hdvd
      obtain ⟨j, rfl⟩ := Nat.exists_eq_add_of_le hge
      have hj : j < xs.length := by omega
      rw [List.getElem?_append_right hge, Nat.add_sub_cancel_left, hk, Nat.mul_add_mod,
        Nat.mod_eq_of_lt hj]

theorem extendTo_repeats (n fuel : ℕ) :
    ∀ {out : List α}, Repeats xs out → Repeats xs (extendTo xs n fuel out) := by
  induction fuel with
  | zero => exact fun h => h
  | succ fuel ih =>
    intro out h
    rw [extendTo]
    split_ifs
    · exact ih h.append
    · exact h

/-- A list that is not empty is long enough after as many rounds as items are wanted. -/
theorem le_length_extendTo (hne : xs ≠ []) (fuel : ℕ) :
    ∀ {out : List α}, n ≤ out.length + fuel → n ≤ (extendTo xs n fuel out).length := by
  have hpos : 0 < xs.length := List.length_pos_iff.mpr hne
  induction fuel with
  | zero => exact fun h => h
  | succ fuel ih =>
    intro out h
    rw [extendTo]
    split_ifs
    · refine ih ?_
      rw [List.length_append]
      omega
    · omega

/-- **The first `n` items of the repetition.** -/
theorem getElem?_extendTo (hne : xs ≠ []) {i : ℕ} (hi : i < n) :
    (slice (extendTo xs n n []) 0 n)[i]? = xs[i % xs.length]? := by
  have hlen : n ≤ (extendTo xs n n []).length := le_length_extendTo hne n (Nat.le_add_left _ _)
  have hslice := @getElem?_slice _ (extendTo xs n n []) 0 n (Nat.zero_le n) hlen i hi
  rw [Nat.zero_add] at hslice
  exact hslice.trans ((extendTo_repeats n n (repeats_nil xs)).2 i (hi.trans_le hlen))

theorem length_extendTo (hne : xs ≠ []) : (slice (extendTo xs n n []) 0 n).length = n :=
  length_slice (Nat.zero_le n) (le_length_extendTo hne n (Nat.le_add_left _ _))

end WebrtcTrace.Py
