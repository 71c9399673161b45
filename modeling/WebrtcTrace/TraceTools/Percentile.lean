import WebrtcTrace.Foundations.Interpolation
import WebrtcTrace.TraceTools.Rows
import Mathlib.Analysis.Convex.Basic

/-! # The interpolated percentile

The percentile of a list is an element of it or lies on the segment between two of them, so it is in
every convex set that has the elements (`percentile_mem`). For a percentage from 0 to 100 of a list
that is not empty it is the point above `position` on the line through the sorted values
(`percentile_eq`).
-/

namespace WebrtcTrace.TraceTools
set_option autoImplicit false

theorem item_mem {values : List ℚ} {i : ℤ} {q : ℚ} (h : item values i = .ok q) : q ∈ values := by
  unfold item at h
  generalize (if i < 0 then i + (values.length : ℤ) else i) = j at h
  dsimp only at h
  split_ifs at h with hj
  cases hv : values[j.toNat]? with
  | none =>
    rw [hv] at h
    cases h
  | some v =>
    rw [hv] at h
    cases h
    exact List.mem_of_getElem? hv

theorem mem_sorted {values : List ℚ} {v : ℚ} : v ∈ sorted values ↔ v ∈ values :=
  List.mem_insertionSort _

theorem percentile_mem {message : String} {values : List ℚ} {pct q : ℚ} {S : Set ℚ} (hS : Convex ℚ S)
    (hvalues : ∀ v ∈ values, v ∈ S) (h : percentile message values pct = .ok q) : q ∈ S := by
  have hsorted : ∀ v ∈ sorted values, v ∈ S := fun v hv => hvalues v (mem_sorted.mp hv)
  unfold percentile at h
  split at h
  · cases h
  · next value heq =>
    cases h
    exact hsorted q (heq ▸ List.mem_singleton_self q)
  · dsimp only at h
    split_ifs at h
    · exact hsorted q (item_mem h)
    · obtain ⟨lo, hlo, h⟩ := Except.bind_eq_ok.mp h
      obtain ⟨hi, hhi, rfl⟩ := Except.map_eq_ok.mp h
      generalize (((sorted values).length - 1 : ℕ) : ℚ) * (pct / 100) = position
      have hweight : 0 ≤ position - ⌊position⌋ := sub_nonneg.mpr (Int.floor_le _)
      have hrest : 0 ≤ 1 - (position - ⌊position⌋) :=
        sub_nonneg.mpr (sub_le_iff_le_add'.mpr (Int.lt_floor_add_one _).le)
      have hsegment := hS (hsorted lo (item_mem hlo)) (hsorted hi (item_mem hhi)) hrest hweight
        (sub_add_cancel _ _)
      simpa only [smul_eq_mul, mul_comm] using hsegment

/-! ## The line through the sorted values -/

def sortedAt (values : List ℚ) (i : ℤ) : ℚ := (sorted values).getD i.toNat 0

def position (values : List ℚ) (pct : ℚ) : ℚ := ((values.length - 1 : ℕ) : ℚ) * (pct / 100)

def percentilePoint (values : List ℚ) (pct : ℚ) : ℚ := along (sortedAt values) (position values pct)

theorem sorted_length (values : List ℚ) : (sorted values).length = values.length :=
  List.length_insertionSort _ values

theorem sorted_pairwise (values : List ℚ) : (sorted values).Pairwise (· ≤ ·) :=
  List.pairwise_insertionSort _ values

theorem sorted_perm (values : List ℚ) : (sorted values).Perm values := List.perm_insertionSort _ values

theorem sorted_eq_of_perm {values values' : List ℚ} (h : values.Perm values') :
    sorted values = sorted values' := by
  have hperm : (sorted values).Perm (sorted values') :=
    ((sorted_perm values).trans h).trans (sorted_perm values').symm
  exact hperm.eq_of_pairwise' (sorted_pairwise values) (sorted_pairwise values')

theorem item_sorted {values : List ℚ} {i : ℤ} (h0 : 0 ≤ i) (hi : i < values.length) :
    item (sorted values) i = .ok (sortedAt values i) := by
  have hlt : i.toNat < (sorted values).length := by
    rw [sorted_length]
    omega
  simp only [item, if_neg (not_lt.mpr h0), if_pos h0, sortedAt, List.getD_eq_getElem?_getD,
    List.getElem?_eq_getElem hlt, Option.elim_some, Option.getD_some]

theorem sortedAt_monotoneOn (values : List ℚ) :
    MonotoneOn (sortedAt values) (Set.Icc 0 ((values.length - 1 : ℕ) : ℤ)) := by
  intro i hi j hj hij
  obtain rfl | hne := values.eq_nil_or_concat
  · simp [sortedAt, sorted]
  · have hlength : 0 < values.length := by
      obtain ⟨_, _, rfl⟩ := hne
      simp
    have hi' : i.toNat < (sorted values).length := by
      rw [sorted_length]
      have hi1 := hi.2
      omega
    have hj' : j.toNat < (sorted values).length := by
      rw [sorted_length]
      have hj1 := hj.2
      omega
    simp only [sortedAt, List.getD_eq_getElem?_getD, List.getElem?_eq_getElem hi',
      List.getElem?_eq_getElem hj', Option.getD_some]
    exact (sorted_pairwise values).sortedLE.getElem_le_getElem_of_le (by omega)

theorem position_mem (values : List ℚ) {pct : ℚ} (h0 : 0 ≤ pct) (h100 : pct ≤ 100) :
    position values pct ∈ Set.Icc ((0 : ℤ) : ℚ) (((values.length - 1 : ℕ) : ℤ) : ℚ) := by
  have hfraction : pct / 100 ≤ 1 := by
    rw [div_le_one (by norm_num)]
    exact h100
  rw [Int.cast_zero, Int.cast_natCast]
  exact ⟨mul_nonneg (Nat.cast_nonneg _) (div_nonneg h0 (by norm_num)),
    mul_le_of_le_one_right (Nat.cast_nonneg _) hfraction⟩

/-- The two items of the interpolation. -/
theorem items_position {values : List ℚ} (hne : values ≠ []) {pct : ℚ} (h0 : 0 ≤ pct)
    (h100 : pct ≤ 100) :
    item (sorted values) ⌊position values pct⌋ = .ok (sortedAt values ⌊position values pct⌋) ∧
      item (sorted values) ⌈position values pct⌉ = .ok (sortedAt values ⌈position values pct⌉) := by
  have hlength := List.length_pos_iff.mpr hne
  have hposition := position_mem values h0 h100
  obtain ⟨hfloor, hfloor'⟩ := floor_mem_Icc hposition
  obtain ⟨hceil, hceil'⟩ := ceil_mem_Icc hposition
  exact ⟨item_sorted hfloor (by omega), item_sorted hceil (by omega)⟩

theorem percentile_eq (message : String) {values : List ℚ} (hne : values ≠ []) {pct : ℚ}
    (h0 : 0 ≤ pct) (h100 : pct ≤ 100) :
    percentile message values pct = .ok (percentilePoint values pct) := by
  obtain ⟨hfloor, hceil⟩ := items_position hne h0 h100
  unfold percentile
  split
  · next heq =>
    refine absurd (List.length_eq_zero_iff.mp ?_) hne
    rw [← sorted_length, heq, List.length_nil]
  · next value heq =>
    -- a single value, at position 0
    have hlength : values.length = 1 := by
      rw [← sorted_length, heq, List.length_singleton]
    have hposition : position values pct = (0 : ℤ) := by simp [position, hlength]
    rw [percentilePoint, hposition, along_intCast, sortedAt, heq]
    rfl
  · dsimp only
    rw [sorted_length, ← position]
    by_cases hsame : ⌊position values pct⌋ = ⌈position values pct⌉
    · rw [if_pos hsame, hfloor, percentilePoint, along_of_floor_eq_ceil _ hsame]
    · rw [if_neg hsame, hfloor, hceil]
      rfl

theorem percentilePoint_mono {values : List ℚ} {pct pct' : ℚ} (h0 : 0 ≤ pct) (hle : pct ≤ pct')
    (h100 : pct' ≤ 100) : percentilePoint values pct ≤ percentilePoint values pct' := by
  have hposition : position values pct ≤ position values pct' :=
    mul_le_mul_of_nonneg_left (div_le_div_of_nonneg_right hle (by norm_num)) (Nat.cast_nonneg _)
  have hmono := along_monotoneOn (K := ℚ) (sortedAt_monotoneOn values)
  exact hmono (position_mem values h0 (hle.trans h100)) (position_mem values (h0.trans hle) h100)
    hposition

end WebrtcTrace.TraceTools
