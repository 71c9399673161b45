import WebrtcTrace.Foundations.SeqNums
import WebrtcTrace.Packets.PacketBuffer

/-! # The circular order of sequence numbers

`AheadOf` looks half a turn ahead (`SeqNumOps.Circular`), so it orders no set that spans the ring. On the
numbers less than half a turn after a base it is the order of their offsets (`Circular.aheadOf_iff`),
and a set of such numbers is ordered as `std::set` asks (`Circular.isStrictTotalOrder`).
-/

namespace WebrtcTrace.Packets
open OrderedKeys SeqNums
set_option autoImplicit false

/-- A number is ahead of those less than half a turn behind it, and of the one opposite if it is the
larger of the two. The sets of sequence numbers have the numbers ahead at their end. -/
structure SeqNumOps.Circular (S : SeqNumOps) : Prop where
  countsSteps : S.CountsSteps
  ahead : ∀ {a b : UInt16}, a ≠ b → offset b a < 0x8000 → S.aheadOf a b = true
  notAhead : ∀ {a b : UInt16}, offset a b < 0x8000 → S.aheadOf a b = false
  opposite : ∀ {a b : UInt16}, offset b a = 0x8000 → (S.aheadOf a b = true ↔ b < a)
  descending_eq : ∀ a b, S.descending a b = S.aheadOf b a

theorem SeqNumOps.circular_halfRing : SeqNumOps.halfRing.Circular where
  countsSteps _ _ := rfl
  ahead {a b} hne hlt := by
    have hdiff : a - b < 0x8000 := UInt16.lt_iff_toNat_lt.mpr hlt
    have hhalf : a - b ≠ 0x8000 := by
      intro h
      rw [h] at hdiff
      exact absurd hdiff (by decide)
    simp [SeqNumOps.halfRing, hhalf, hne, hdiff]
  notAhead {a b} hlt := by
    by_cases hne : a = b
    · subst hne
      simp [SeqNumOps.halfRing]
    · have hswap := offset_swap hne
      have hback : 0x8000 < offset b a := by omega
      have hhalf : a - b ≠ 0x8000 := by
        intro h
        rw [offset, h] at hback
        exact absurd hback (by decide)
      have hdiff : ¬ a - b < 0x8000 := fun h =>
        absurd (UInt16.lt_iff_toNat_lt.mp h) (Nat.not_lt.mpr hback.le)
      simp [SeqNumOps.halfRing, hhalf, hdiff]
  opposite {a b} hhalf := by
    have h : a - b = 0x8000 := UInt16.toNat_inj.mp hhalf
    simp [SeqNumOps.halfRing, h]
  descending_eq a b := by
    by_cases h : b - a = 0x8000
    · simp [SeqNumOps.halfRing, h]
    · simp [SeqNumOps.halfRing, h]

namespace SeqNumOps.Circular
variable {S : SeqNumOps} {base k m n : UInt16} {keys : List UInt16}

theorem aheadOf_iff (hS : S.Circular) (hm : offset base m < 0x8000) (hn : offset base n < 0x8000) :
    S.aheadOf m n = true ↔ offset base n < offset base m := by
  have hmn := offset_add base m n
  have hnm := offset_add base n m
  have hmn_lt := offset_lt m n
  have hnm_lt := offset_lt n m
  constructor
  · intro hahead
    by_contra hle
    have hback : offset m n < 0x8000 := by omega
    rw [hS.notAhead hback] at hahead
    cases hahead
  · intro hlt
    refine hS.ahead ?_ (by omega)
    rintro rfl
    exact lt_irrefl _ hlt

/-- Of two different numbers one is ahead. -/
theorem aheadOf_total (hS : S.Circular) (hne : m ≠ n) :
    S.aheadOf m n = true ∨ S.aheadOf n m = true := by
  have hswap := offset_swap hne
  obtain hlt | heq | hgt := Nat.lt_trichotomy (offset m n) 0x8000
  · exact .inr (hS.ahead hne.symm hlt)
  · have heq' : offset n m = 0x8000 := by omega
    obtain hlt | hlt := Nat.lt_or_gt_of_ne (mt UInt16.toNat_inj.mp hne)
    · exact .inr ((hS.opposite heq).mpr (UInt16.lt_iff_toNat_lt.mpr hlt))
    · exact .inl ((hS.opposite heq').mpr (UInt16.lt_iff_toNat_lt.mpr hlt))
  · exact .inl (hS.ahead hne (by omega))

theorem ranked (hS : S.Circular) (hk : offset base k < 0x8000)
    (hkeys : ∀ x ∈ keys, offset base x < 0x8000) : Ranked S.descending (offset base) k keys where
  before x hx := by
    rw [hS.descending_eq]
    exact hS.aheadOf_iff hk (hkeys x hx)
  after x hx := by
    rw [hS.descending_eq]
    exact hS.aheadOf_iff (hkeys x hx) hk

/-- **Numbers of less than half a turn are a set in good order.** -/
theorem isStrictTotalOrder (hS : S.Circular) (hkeys : ∀ x ∈ keys, offset base x < 0x8000) :
    IsStrictTotalOrder {x // x ∈ keys} (onKeys S.descending keys) :=
  OrderedKeys.isStrictTotalOrder (fun k hk => hS.ranked (hkeys k hk) hkeys)
    fun _ _ _ _ => @offset_inj base _ _

end SeqNumOps.Circular
end WebrtcTrace.Packets
