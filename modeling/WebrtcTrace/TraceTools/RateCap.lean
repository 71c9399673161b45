import WebrtcTrace.TraceTools.WindowRows
import Mathlib.Order.WithBot

/-! # The emitted rate cap against the measured rate

Headroom, floor, rounding to the quantum and the maximum with 1 are monotone one after the other, so
among positive rates the higher one never has the tighter cap. A measured rate of 0 is caught by the
two guards on `current_rate` before the floor and before the rounding: its `rate_kbit` is empty, which
is no limit at all.
-/

namespace WebrtcTrace.TraceTools.Window
set_option autoImplicit false

-- other orders on ℤ, which do not compute, may be in scope too
local instance limitPreorder : Preorder ℤ := Int.instLinearOrder.toPreorder

section Rates
variable (pstdev : List ℚ → ℚ) (args : Args) (rateSource : RateSource) (b : Bins)

/-- Bytes in a window as kbit/s. -/
def kbitPerSecond (bytes : ℤ) : ℚ := (bytes : ℚ) * 8 / args.windowMs

/-- The rate measured in a window, if there is a sample for it. -/
def rateSample (idx : ℤ) : Option ℚ :=
  match rateSource with
  | .acked => (b.acked.get? idx).map (kbitPerSecond args)
  | .bwe => (b.bwe.get? idx).bind fun targets => if targets = [] then none else some (median targets)
  | .send => (b.send.get? idx).map (kbitPerSecond args)
  | .none => none
  | .auto => none

/-- `q_rate` of a window with a sample. -/
def rateText (rate : ℚ) : String :=
  let scaled := rate * args.rateHeadroom
  let current := if 0 < scaled then max (args.minRateKbit : ℚ) scaled else scaled
  if current ≤ 0 then "" else toString (max 1 (quantize current args.rateQuantumKbit))

/-- The cap that a `rate_kbit` field sets; an empty one sets none. -/
def capOf (rateKbit : String) : WithTop ℤ := if rateKbit = "" then ⊤ else (Py.int rateKbit).getD 0

/-- The cap after a window: that of the last row written by then. -/
def capAt (idx : ℕ) : Option (WithTop ℤ) :=
  (windowRows pstdev args rateSource b idx).getLast?.map fun row => capOf row.rateKbit

/-- The windows only add rows, so what is written by a window begins every longer trace. -/
theorem windowRows_of_le {i j : ℕ} (h : i ≤ j) :
    windowRows pstdev args rateSource b i <+: windowRows pstdev args rateSource b j := by
  induction j, h using Nat.le_induction with
  | base => exact List.prefix_refl _
  | succ j _ ih =>
    refine ih.trans ?_
    have hwindows : windows ((j + 1 : ℕ) : ℤ) = windows j ++ [((j + 1 : ℕ) : ℤ)] := by
      rw [windows, windows, show (((j + 1 : ℕ) : ℤ) + 1).toNat = (((j : ℕ) : ℤ) + 1).toNat + 1 by omega,
        List.range_succ, List.map_append, List.map_singleton,
        show (((j : ℕ) : ℤ) + 1).toNat = j + 1 by omega]
      rfl
    rw [windowRows, windowRows, hwindows, List.foldl_append, List.foldl_cons, List.foldl_nil,
      windowStep]
    split_ifs
    · exact List.prefix_append _ _
    · exact List.prefix_refl _

variable {args rateSource b}

theorem measuredRate_sample {idx : ℤ} {rate : ℚ} (h : rateSample args rateSource b idx = some rate)
    (previousRate : Option ℚ) :
    measuredRate args rateSource b previousRate idx = some (rate * args.rateHeadroom) := by
  cases rateSource with
  | auto => cases h
  | none => cases h
  | acked =>
    obtain ⟨bytes, hbytes, rfl⟩ := Option.map_eq_some_iff.mp h
    rw [measuredRate, hbytes]
    rfl
  | send =>
    obtain ⟨bytes, hbytes, rfl⟩ := Option.map_eq_some_iff.mp h
    rw [measuredRate, hbytes]
    rfl
  | bwe =>
    obtain ⟨targets, htargets, hmedian⟩ := Option.bind_eq_some_iff.mp h
    split_ifs at hmedian with hnil
    cases hmedian
    rw [measuredRate, htargets, Option.elim_some, if_neg hnil]

/-- A window with a sample forgets the rate carried into it. -/
theorem rate_stateAt {idx : ℕ} {rate : ℚ} (h : rateSample args rateSource b idx = some rate) :
    (stateAt pstdev args rateSource b idx).rate = rateText args rate := by
  have hrate : (carriedAfter pstdev args rateSource b (idx + 1)).previousRate =
      some (if 0 < rate * args.rateHeadroom then
        max (args.minRateKbit : ℚ) (rate * args.rateHeadroom) else rate * args.rateHeadroom) := by
    rw [carriedAfter_succ, carryStep, currentRate, measuredRate_sample h, Option.map_some]
  rw [stateAt, windowState, hrate]
  rfl

theorem capAt_sample {idx : ℕ} {rate : ℚ} (h : rateSample args rateSource b idx = some rate) :
    capAt pstdev args rateSource b idx = some (capOf (rateText args rate)) := by
  obtain ⟨j, hlast⟩ : ∃ j, (changes pstdev args rateSource b (idx + 1)).entries.getLast? =
      some (j, stateAt pstdev args rateSource b idx) := ChangeLog.getLast?_upTo idx
  have hrows : (windowRows pstdev args rateSource b idx).getLast? =
      some (rowOf args b (j, stateAt pstdev args rateSource b idx)) := by
    rw [windowRows_changeLog, List.getLast?_map, show ((idx : ℤ) + 1).toNat = idx + 1 by omega,
      hlast, Option.map_some]
  rw [capAt, hrows, Option.map_some, ← rate_stateAt pstdev h]
  rfl

variable {rate rate₁ rate₂ : ℚ}

/-! ## One rate -/

theorem capOf_toString {n : ℤ} (h : 0 ≤ n) : capOf (toString n) = n := by
  rw [capOf, if_neg (Py.toString_ne_empty n), Py.int_toString_of_nonneg h, Option.getD_some]

theorem cap_zero (args : Args) : capOf (rateText args 0) = ⊤ := by
  simp [rateText, capOf]

/-- The cap of a positive rate is a number. -/
theorem cap_pos (hheadroom : 0 < args.rateHeadroom) (hrate : 0 < rate) :
    capOf (rateText args rate) = (max 1 (quantize (max (args.minRateKbit : ℚ)
      (rate * args.rateHeadroom)) args.rateQuantumKbit) : ℤ) := by
  have hscaled : 0 < rate * args.rateHeadroom := mul_pos hrate hheadroom
  have hcurrent : ¬ max (args.minRateKbit : ℚ) (rate * args.rateHeadroom) ≤ 0 :=
    not_le.mpr (hscaled.trans_le (le_max_right _ _))
  simp only [rateText, hscaled, if_true, hcurrent, if_false]
  exact capOf_toString (zero_le_one.trans (le_max_left _ _))

theorem cap_mono (hheadroom : 0 < args.rateHeadroom) (hrate : 0 < rate₁) (hle : rate₁ ≤ rate₂) :
    capOf (rateText args rate₁) ≤ capOf (rateText args rate₂) := by
  have hscaled : rate₁ * args.rateHeadroom ≤ rate₂ * args.rateHeadroom :=
    mul_le_mul_of_nonneg_right hle hheadroom.le
  rw [cap_pos hheadroom hrate, cap_pos hheadroom (hrate.trans_le hle), WithTop.coe_le_coe]
  exact max_le_max_left _ (quantize_mono (max_le_max_left _ hscaled) _)

/-! ## Two windows -/

/-- **The cap is monotone in the measured rate, but for the rate 0.** Among two windows with samples
the one with the lower rate has the looser cap only if its rate is 0, which sets no limit, and the
other's is not. The rows that set the two caps are in every trace with both windows. -/
theorem emitted_cap_monotone (hheadroom : 0 < args.rateHeadroom) {i j : ℕ}
    (hi : rateSample args rateSource b i = some rate₁)
    (hj : rateSample args rateSource b j = some rate₂) (h0 : 0 ≤ rate₁) (hle : rate₁ ≤ rate₂) :
    ∃ cap₁ cap₂, capAt pstdev args rateSource b i = some cap₁ ∧
      capAt pstdev args rateSource b j = some cap₂ ∧
      (cap₁ ≤ cap₂ ↔ 0 < rate₁ ∨ rate₂ = 0) ∧ (rate₁ = 0 → cap₁ = ⊤) ∧
      ∀ n : ℕ, i ≤ n → j ≤ n →
        windowRows pstdev args rateSource b i <+: windowRows pstdev args rateSource b n ∧
        windowRows pstdev args rateSource b j <+: windowRows pstdev args rateSource b n := by
  refine ⟨_, _, capAt_sample pstdev hi, capAt_sample pstdev hj, ?_, ?_, fun n hin hjn =>
    ⟨windowRows_of_le pstdev args rateSource b hin, windowRows_of_le pstdev args rateSource b hjn⟩⟩
  · obtain rfl | hpos := h0.eq_or_lt
    · obtain rfl | hpos₂ := hle.eq_or_lt
      · simp
      · rw [cap_zero, cap_pos hheadroom hpos₂, top_le_iff]
        simp [hpos₂.ne']
    · exact iff_of_true (cap_mono hheadroom hpos hle) (.inl hpos)
  · rintro rfl
    exact cap_zero args

end Rates

/-! ## On one log -/

def sendRateArgs : Args := { rateSource := .send }

/-- A window in which only empty packets were sent, and one with 1000 bytes. -/
def emptyPacketFirst : Logs where
  packetFeedback := none
  bweTarget := none
  rtpSend := some [.full [("send_time_ms", "0"), ("payload_size", "0")],
    .full [("send_time_ms", "50"), ("payload_size", "1000")]]
  receiver := none

def twoRates : Bins := { send := .update (.update .empty 0 0 (· + 500)) 1 0 (· + 1000) }

theorem emitted_cap_monotone_two_rates :
    ∃ cap₁ cap₂, capAt (fun _ => 0) sendRateArgs .send twoRates 0 = some cap₁ ∧
      capAt (fun _ => 0) sendRateArgs .send twoRates 1 = some cap₂ ∧ cap₁ ≤ cap₂ ∧
      windowRows (fun _ => 0) sendRateArgs .send twoRates (0 : ℕ) <+:
        windowRows (fun _ => 0) sendRateArgs .send twoRates (1 : ℕ) := by
  have h0 : rateSample sendRateArgs .send twoRates ((0 : ℕ) : ℤ) = some 80 := by decide +kernel
  have h1 : rateSample sendRateArgs .send twoRates ((1 : ℕ) : ℤ) = some 160 := by decide +kernel
  obtain ⟨cap₁, cap₂, hcap₁, hcap₂, hiff, _, hrows⟩ :=
    emitted_cap_monotone (fun _ => 0) (by decide +kernel) h0 h1 (by norm_num) (by norm_num)
  exact ⟨cap₁, cap₂, hcap₁, hcap₂, hiff.mpr (.inl (by norm_num)), (hrows 1 (by decide) le_rfl).1⟩

/-- The window with rate 0 has no limit, the one with 160 kbit/s is capped at 150. -/
theorem zero_rate_unlimited :
    ∃ inputs b, prepare sendRateArgs emptyPacketFirst = .ok inputs ∧
      collectBins sendRateArgs inputs none = .ok b ∧
      rateSample sendRateArgs inputs.rateSource b 0 = some 0 ∧
      rateSample sendRateArgs inputs.rateSource b 1 = some 160 ∧
      capAt (fun _ => 0) sendRateArgs inputs.rateSource b 0 = some ⊤ ∧
      capAt (fun _ => 0) sendRateArgs inputs.rateSource b 1 = some 150 ∧
      ¬ (⊤ : WithTop ℤ) ≤ 150 := by
  have hrun : ((prepare sendRateArgs emptyPacketFirst).toOption.bind fun inputs =>
      (collectBins sendRateArgs inputs none).toOption.map fun b =>
        (rateSample sendRateArgs inputs.rateSource b 0, rateSample sendRateArgs inputs.rateSource b 1,
          capAt (fun _ => 0) sendRateArgs inputs.rateSource b 0,
          capAt (fun _ => 0) sendRateArgs inputs.rateSource b 1)) =
      some (some 0, some 160, some (⊤ : WithTop ℤ), some (150 : WithTop ℤ)) := by
    decide +kernel
  obtain ⟨inputs, hinputs, hrun⟩ := Option.bind_eq_some_iff.mp hrun
  obtain ⟨b, hb, hvalues⟩ := Option.map_eq_some_iff.mp hrun
  simp only [Prod.mk.injEq] at hvalues
  obtain ⟨h0, h1, hcap0, hcap1⟩ := hvalues
  exact ⟨inputs, b, Except.eq_ok_of_toOption hinputs, Except.eq_ok_of_toOption hb, h0, h1, hcap0,
    hcap1, by decide⟩

end WebrtcTrace.TraceTools.Window
