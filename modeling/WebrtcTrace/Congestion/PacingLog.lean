import WebrtcTrace.Congestion.NetworkControl

/-! # The logged pacing rates against the pacer's

The row of `bwe_target.csv` is computed a second time, beside `GetPacingRates`, from values that
`noteEstimates` has just stored, so its padding rate is the pacer's. Its pacing rate is not limited by
the upper link capacity: where `GetPacingRates` takes that branch (`Limited`), the row has the rate
before it.
-/

namespace WebrtcTrace.Congestion
set_option autoImplicit false

variable (units : Units) {P : Type} (r : Readings P) (s : Controller)

/-- The rate that is multiplied by the pacing factor. -/
def pacingBase : DataRate := max s.minTotalAllocatedBitrate r.targetRate

/-- The upper link capacity limits the pacing rate of an update. -/
def Limited : Prop :=
  s.limitPacingfactorByUpperLinkCapacityEstimate = true ∧ ∃ estimate, s.estimate = some estimate ∧
    isFinite estimate.linkCapacityUpper = true ∧
    estimate.linkCapacityUpper < units.times (pacingBase r s) (paceMultiplier s)

variable {r s}

/-- The pacer's rates after an update, from the state before it. -/
theorem getPacingRates_noteEstimates (atTime : ℤ) :
    (getPacingRates units (noteEstimates r s) atTime).paddingRate =
        (bweTargetRow units r (noteEstimates r s) atTime).paddingRateBps ∧
      (¬ Limited units r s → (getPacingRates units (noteEstimates r s) atTime).pacingRate =
        units.times (pacingBase r s) (paceMultiplier s)) ∧
      ∀ estimate, s.estimate = some estimate → Limited units r s →
        (getPacingRates units (noteEstimates r s) atTime).pacingRate =
          max estimate.linkCapacityUpper (pacingBase r s) := by
  refine ⟨rfl, fun hnot => ?_, fun estimate hestimate hlimited => ?_⟩
  · cases hestimate : s.estimate with
    | none => simp only [getPacingRates, noteEstimates, hestimate, pacingBase, paceMultiplier]
    | some estimate =>
      have hbranch : ¬ (s.limitPacingfactorByUpperLinkCapacityEstimate = true ∧
          isFinite estimate.linkCapacityUpper = true ∧
          estimate.linkCapacityUpper < units.times (pacingBase r s) (paceMultiplier s)) :=
        fun h => hnot ⟨h.1, estimate, hestimate, h.2⟩
      simp only [getPacingRates, noteEstimates, hestimate]
      exact if_neg hbranch
  · obtain ⟨hlimit, estimate', hestimate', hfinite, hlt⟩ := hlimited
    obtain rfl := Option.some.inj (hestimate.symm.trans hestimate')
    simp only [getPacingRates, noteEstimates, hestimate]
    refine (if_pos ⟨hlimit, hfinite, hlt⟩).trans ?_
    exact max_assoc _ _ _

/-- **When the log has the pacer's rates.** A logged padding rate is always the pacer's. A logged
pacing rate is, unless the upper link capacity limits the pacer and the pacing factor changes the rate
it multiplies. -/
theorem logged_rates_iff {logOpen : Bool} {update : NetworkControlUpdate P} {atTime : ℤ}
    {row : BweTargetRow}
    (hlogged : (maybeTriggerOnNetworkChanged units r s logOpen update atTime).logged = some row) :
    ∃ config,
      (maybeTriggerOnNetworkChanged units r s logOpen update atTime).update.pacerConfig = some config ∧
      config = getPacingRates units
        (maybeTriggerOnNetworkChanged units r s logOpen update atTime).controller atTime ∧
      row.paddingRateBps = config.paddingRate ∧
      (row.pacingRateBps = config.pacingRate ∧ row.paddingRateBps = config.paddingRate ↔
        ¬ Limited units r s ∨ units.times (pacingBase r s) (paceMultiplier s) = pacingBase r s) := by
  obtain ⟨hchanged, _, rfl⟩ := logged_eq_some.mp hlogged
  obtain ⟨hcontroller, hconfig⟩ := triggered_of_changed hchanged
  obtain ⟨hpadding, hunlimited, hlimited⟩ := @getPacingRates_noteEstimates units P r s atTime
  refine ⟨_, hconfig, by rw [hcontroller], hpadding.symm, ?_⟩
  rw [hpadding, and_iff_left rfl]
  have hrow : (bweTargetRow units r (noteEstimates r s) atTime).pacingRateBps =
      units.times (pacingBase r s) (paceMultiplier s) := rfl
  rw [hrow]
  by_cases hlim : Limited units r s
  · obtain ⟨_, estimate, hestimate, _, hlt⟩ := id hlim
    rw [hlimited estimate hestimate hlim, or_iff_right (not_not_intro hlim)]
    constructor
    · intro heq
      rw [heq] at hlt
      rw [heq, max_eq_right ((lt_max_iff.mp hlt).resolve_left (lt_irrefl _)).le]
    · intro heq
      rw [heq] at hlt
      rw [heq, max_eq_right hlt.le]
  · exact iff_of_true (hunlimited hlim).symm (.inl hlim)

/-! ## On one update -/

def cappedController (limit : Bool) : Controller where
  limitPacingfactorByUpperLinkCapacityEstimate := limit
  useCongestionWindowDropFrameOnly := false
  firstTransportFeedbackReceived := false
  estimate := some ⟨1500000, 0⟩
  lastLossBasedTargetRate := 300000
  lastPushbackTargetRate := 300000
  lastEstimatedFractionLoss := none
  lastEstimatedRoundTripTime := 0
  lastLossBaseState := .delayBasedEstimate
  pacingFactor := none
  pacingTimeWindow := 500000
  minTotalAllocatedBitrate := 0
  maxPaddingRate := 0

def megabitReadings : Readings Unit where
  fractionLoss := 0
  roundTripTime := 50000
  targetRate := 1000000
  lossBasedState := .delayBasedEstimate
  minBitrate := 5000
  isRttAboveLimit := false
  lastState := .normal
  expectedBwePeriod := 0
  updateTargetBitrate := none
  setEstimatedBitrate _ _ _ := []

/-- The pacer is held to the link capacity of 1.5 Mbit/s; the row says 2.5. -/
theorem limited_pacing_logged_unlimited :
    ∃ row config,
      (maybeTriggerOnNetworkChanged .nearest megabitReadings (cappedController true) true {} 0).logged =
        some row ∧
      (maybeTriggerOnNetworkChanged .nearest megabitReadings (cappedController true) true {}
        0).update.pacerConfig = some config ∧
      row.pacingRateBps = 2500000 ∧ config.pacingRate = 1500000 ∧
      ¬ row.pacingRateBps = config.pacingRate :=
  ⟨_, _, rfl, rfl, by decide +kernel, by decide +kernel, by decide +kernel⟩

theorem logged_rates_iff_without_trial :
    ∃ row config,
      (maybeTriggerOnNetworkChanged .nearest megabitReadings (cappedController false) true {} 0).logged =
        some row ∧
      (maybeTriggerOnNetworkChanged .nearest megabitReadings (cappedController false) true {}
        0).update.pacerConfig = some config ∧
      row.pacingRateBps = config.pacingRate ∧ row.paddingRateBps = config.paddingRate := by
  have hlogged : (maybeTriggerOnNetworkChanged .nearest megabitReadings (cappedController false) true {}
      0).logged = some (bweTargetRow .nearest megabitReadings
        (noteEstimates megabitReadings (cappedController false)) 0) := rfl
  obtain ⟨config, hconfig, _, _, hiff⟩ := logged_rates_iff .nearest hlogged
  exact ⟨_, config, hlogged, hconfig, hiff.mpr (.inl fun hlimited => absurd hlimited.1 (by decide))⟩

end WebrtcTrace.Congestion
