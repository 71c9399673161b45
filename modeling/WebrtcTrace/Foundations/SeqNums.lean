import Mathlib.Data.UInt

/-! # Steps along the ring of 16-bit sequence numbers

`a + UInt16.ofNat j` is the number `j` steps after `a`.
-/

namespace WebrtcTrace.SeqNums
set_option autoImplicit false

theorem ofNat_succ (j : ℕ) : UInt16.ofNat (j + 1) = UInt16.ofNat j + 1 := UInt16.ofNat_add j 1

theorem add_zero (a : UInt16) : a + UInt16.ofNat 0 = a := by
  have h : UInt16.ofNat 0 = 0 := rfl
  rw [h]
  exact UInt16.add_zero a

theorem add_succ (a : UInt16) (j : ℕ) : a + UInt16.ofNat (j + 1) = a + 1 + UInt16.ofNat j := by
  rw [ofNat_succ]
  grind

/-- Less than a full turn does not lead back. -/
theorem add_ne {a : UInt16} {j : ℕ} (h0 : 0 < j) (hj : j < 65536) : a + UInt16.ofNat j ≠ a := by
  intro h
  have hz : UInt16.ofNat j = 0 := by grind
  have hj0 := congrArg UInt16.toNat hz
  simp at hj0
  omega

/-- The numbers from `a` through the one `n` steps after it, modulo a full turn. -/
theorem count (a : UInt16) (n : ℕ) :
    (a + UInt16.ofNat n + 1 - a).toNat = (n + 1) % 65536 := by
  have h : a + UInt16.ofNat n + 1 - a = UInt16.ofNat (n + 1) := by
    rw [ofNat_succ]
    grind
  rw [h]
  simp

theorem sub_toNat (m base : UInt16) : (m - base).toNat = (65536 - base.toNat + m.toNat) % 65536 :=
  UInt16.toNat_sub m base

/-! ## Offsets from a base -/

/-- The number of steps from `base` up to a number. -/
def offset (base m : UInt16) : ℕ := (m - base).toNat

@[simp] theorem offset_self (a : UInt16) : offset a a = 0 := by
  rw [offset, UInt16.sub_self]
  rfl

theorem offset_lt (base m : UInt16) : offset base m < 65536 := UInt16.toNat_lt _

theorem offset_inj {base m n : UInt16} (h : offset base m = offset base n) : m = n := by
  have hsub := UInt16.toNat_inj.mp h
  grind

theorem offset_pos {a b : UInt16} (h : a ≠ b) : 0 < offset a b := by
  refine Nat.pos_of_ne_zero fun hz => h (@offset_inj a a b ?_)
  rw [hz, offset_self]

/-- From `a` on to `m`, past `b` or not. -/
theorem offset_add (a b m : UInt16) :
    offset a b + offset b m = offset a m ∨ offset a b + offset b m = offset a m + 65536 := by
  have hsum : m - a = (b - a) + (m - b) := by grind
  have hb := offset_lt a b
  have hm := offset_lt b m
  have hmod : offset a m = (offset a b + offset b m) % 65536 := by
    rw [offset, hsum, UInt16.toNat_add]
    rfl
  omega

theorem offset_swap {a b : UInt16} (h : a ≠ b) : offset a b + offset b a = 65536 := by
  have hpos := offset_pos h
  have hadd := offset_add a b a
  rw [offset_self] at hadd
  omega

theorem offset_add_ofNat {base m : UInt16} {j : ℕ} (h : offset base m + j < 65536) :
    offset base (m + UInt16.ofNat j) = offset base m + j := by
  have hsum : m + UInt16.ofNat j - base = (m - base) + UInt16.ofNat j := by grind
  rw [offset, hsum, UInt16.toNat_add, UInt16.toNat_ofNat']
  change (offset base m + j % 65536) % 65536 = _
  omega

theorem offset_succ {base m : UInt16} (h : offset base m + 1 < 65536) :
    offset base (m + 1) = offset base m + 1 := offset_add_ofNat (j := 1) h

/-- The numbers of a window no longer than `2 ^ a` differ modulo `2 ^ a`. -/
theorem eq_of_mod {base m n : UInt16} {a W : ℕ} (hW : W ≤ 2 ^ a) (hm : (m - base).toNat < W)
    (hn : (n - base).toNat < W) (h : m.toNat % 2 ^ a = n.toNat % 2 ^ a) : m = n := by
  obtain hgt | hle := Nat.lt_or_ge 16 a
  · have hbig : ∀ k : UInt16, k.toNat < 2 ^ a := fun k =>
      (UInt16.toNat_lt k).trans (Nat.pow_lt_pow_right (by omega) hgt)
    rw [Nat.mod_eq_of_lt (hbig m), Nat.mod_eq_of_lt (hbig n)] at h
    exact UInt16.toNat_inj.mp h
  · have hdvd : 2 ^ a ∣ 65536 := pow_dvd_pow 2 hle
    have hoff : ∀ k : UInt16, (k - base).toNat < W →
        (k - base).toNat = (65536 - base.toNat + k.toNat) % 2 ^ a := by
      intro k hk
      rw [← Nat.mod_eq_of_lt (hk.trans_le hW), sub_toNat, Nat.mod_mod_of_dvd _ hdvd]
    have hsame : (m - base).toNat = (n - base).toNat := by
      rw [hoff m hm, hoff n hn]
      exact Nat.ModEq.add_left _ h
    have hsub := UInt16.toNat_inj.mp hsame
    grind

/-- Of two numbers of a window, one is less than its length after the other. -/
theorem window_step {base m n : UInt16} {W : ℕ} (hm : (m - base).toNat < W)
    (hn : (n - base).toNat < W) : (m - n).toNat < W ∨ (n - m).toNat < W := by
  have hcut : ∀ {x y : UInt16}, (y - base).toNat ≤ (x - base).toNat →
      (x - y).toNat ≤ (x - base).toNat := by
    intro x y hle
    have hsub : x - y = (x - base) - (y - base) := by grind
    rw [hsub, UInt16.toNat_sub_of_le _ _ (UInt16.le_iff_toNat_le.mpr hle)]
    exact Nat.sub_le _ _
  obtain h | h := Nat.le_total (n - base).toNat (m - base).toNat
  · exact .inl ((hcut h).trans_lt hm)
  · exact .inr ((hcut h).trans_lt hn)

/-- As many numbers in a row as a window may have: a full turn, or the next one is outside it. -/
theorem row_ends {base m : UInt16} {n W : ℕ} (hW : W ≤ n)
    (h : ∀ i < n, (m + UInt16.ofNat i - base).toNat < W) :
    (∃ i < n, m + UInt16.ofNat n = m + UInt16.ofNat i) ∨ W ≤ (m + UInt16.ofNat n - base).toNat := by
  obtain hlt | hge := Nat.lt_or_ge n 65536
  · -- no number of the row is the last of the ring, so each is one further than the one before
    have hoff : ∀ i ≤ n, (m + UInt16.ofNat i - base).toNat = (m - base).toNat + i := by
      intro i
      induction i with
      | zero =>
        intro _
        rw [add_zero, Nat.add_zero]
      | succ i ih =>
        intro hi
        have hprev := h i (by omega)
        have hstep : m + UInt16.ofNat (i + 1) - base = m + UInt16.ofNat i - base + 1 := by
          rw [ofNat_succ]
          grind
        rw [hstep, UInt16.toNat_add, UInt16.toNat_one, Nat.mod_eq_of_lt (by omega),
          ih (by omega)]
        omega
    right
    rw [hoff n le_rfl]
    omega
  · refine .inl ⟨n % 65536, (Nat.mod_lt _ (by decide)).trans_le hge, ?_⟩
    have hturn : UInt16.ofNat (n % 65536) = UInt16.ofNat n := by
      apply UInt16.toNat_inj.mp
      simp
    rw [hturn]

end WebrtcTrace.SeqNums
