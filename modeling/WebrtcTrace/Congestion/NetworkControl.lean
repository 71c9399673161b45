import Mathlib.Data.Rat.Floor
import Mathlib.Order.Basic

/-! # `webrtc::GoogCcNetworkController` (`goog_cc/goog_cc_network_control.cc`)

What `MaybeTriggerOnNetworkChanged` and `GetPacingRates` read, write and log. A data rate is its int64
count of bits a second, with the two infinite rates at the ends of the range; times are microseconds.

The estimators, the pushback controller and the probe controller belong to the checkout the overlay is
applied to, so a call is given what it reads of them (`Readings`), with any values. `Units` is the
arithmetic of `api/units` on floats; other ratios are exact quotients.
-/

namespace WebrtcTrace.Congestion
set_option autoImplicit false

/-! ## Units -/

abbrev DataRate := ℤ

def plusInfinity : DataRate := 2 ^ 63 - 1

def minusInfinity : DataRate := -2 ^ 63

def isFinite (rate : DataRate) : Bool := rate ≠ plusInfinity && rate ≠ minusInfinity

structure Units where
  /-- `DataRate * double`. -/
  times : DataRate → ℚ → DataRate
  /-- `Timestamp::ms()` and `TimeDelta::ms()`. -/
  ms : ℤ → ℤ

/-- Multiplication rounded to the nearest rate, and whole milliseconds. -/
def Units.nearest : Units where
  times rate factor := ⌊rate * factor + 1 / 2⌋
  ms time := time / 1000

/-! ## Data -/

inductive LossBasedState where
  | increasing
  | increaseUsingPadding
  | decreasing
  | delayBasedEstimate
  deriving DecidableEq, Repr

inductive BandwidthUsage where
  | normal
  | underusing
  | overusing
  deriving DecidableEq, Repr

inductive BandwidthLimitedCause where
  | lossLimitedBweIncreasing
  | lossLimitedBwe
  | delayBasedLimited
  | delayBasedLimitedDelayIncreased
  | rttBasedBackOffHighRtt
  deriving DecidableEq, Repr

def getBandwidthLimitedCause (lossBasedState : LossBasedState) (isRttAboveLimit : Bool)
    (bandwidthUsage : BandwidthUsage) : BandwidthLimitedCause :=
  if bandwidthUsage = .overusing ∨ bandwidthUsage = .underusing then .delayBasedLimitedDelayIncreased
  else if isRttAboveLimit then .rttBasedBackOffHighRtt
  else match lossBasedState with
    | .decreasing => .lossLimitedBwe
    | .increaseUsingPadding => .lossLimitedBwe
    | .increasing => .lossLimitedBweIncreasing
    | .delayBasedEstimate => .delayBasedLimited

structure NetworkStateEstimate where
  linkCapacityUpper : DataRate
  updateTime : ℤ
  deriving DecidableEq, Repr

/-- The arguments of `PacerConfig::Create`. -/
structure PacerConfig where
  atTime : ℤ
  pacingRate : DataRate
  paddingRate : DataRate
  timeWindow : ℤ
  deriving DecidableEq, Repr

structure NetworkEstimate where
  atTime : ℤ
  roundTripTime : ℤ
  lossRateRatio : ℚ
  bwePeriod : ℤ
  deriving DecidableEq

structure TargetTransferRate where
  atTime : ℤ
  targetRate : DataRate
  cwndReduceRatio : ℚ := 0
  networkEstimate : NetworkEstimate
  deriving DecidableEq

/-- An update with probe clusters of type `P`. -/
structure NetworkControlUpdate (P : Type) where
  targetRate : Option TargetTransferRate := none
  probeClusterConfigs : List P := []
  pacerConfig : Option PacerConfig := none
  congestionWindow : Option ℤ := none

/-- A row of `bwe_target.csv`. -/
structure BweTargetRow where
  timestampMs : ℤ
  targetBps : ℤ
  pushbackTargetBps : ℤ
  fractionLossX256 : UInt8
  rttMs : ℤ
  lossBasedState : LossBasedState
  pacingRateBps : ℤ
  paddingRateBps : ℤ
  deriving DecidableEq, Repr

structure Controller where
  limitPacingfactorByUpperLinkCapacityEstimate : Bool
  useCongestionWindowDropFrameOnly : Bool
  firstTransportFeedbackReceived : Bool
  estimate : Option NetworkStateEstimate
  lastLossBasedTargetRate : DataRate
  lastPushbackTargetRate : DataRate
  lastEstimatedFractionLoss : Option UInt8
  lastEstimatedRoundTripTime : ℤ
  lastLossBaseState : LossBasedState
  pacingFactor : Option ℚ
  pacingTimeWindow : ℤ
  minTotalAllocatedBitrate : DataRate
  maxPaddingRate : DataRate
  deriving DecidableEq

/-- What a call reads of the other components. -/
structure Readings (P : Type) where
  fractionLoss : UInt8
  roundTripTime : ℤ
  targetRate : DataRate
  lossBasedState : LossBasedState
  minBitrate : ℤ
  isRttAboveLimit : Bool
  lastState : BandwidthUsage
  expectedBwePeriod : ℤ
  /-- `UpdateTargetBitrate` of the pushback controller, if there is one. -/
  updateTargetBitrate : Option (ℤ → ℤ)
  setEstimatedBitrate : DataRate → BandwidthLimitedCause → ℤ → List P

/-! ## Pacing -/

/-- `2.5f`. -/
def defaultPaceMultiplier : ℚ := 5 / 2

/-- `1.1f`. -/
def defaultPaceMultiplierWithSendSideBwe : ℚ := 9227469 / 8388608

variable (units : Units)

/-- `pacing_factor_.value_or(..)`. -/
def paceMultiplier (s : Controller) : ℚ :=
  s.pacingFactor.getD
    (if s.firstTransportFeedbackReceived then defaultPaceMultiplierWithSendSideBwe
    else defaultPaceMultiplier)

def getPacingRates (s : Controller) (atTime : ℤ) : PacerConfig :=
  let pacingRate := units.times (max s.minTotalAllocatedBitrate s.lastLossBasedTargetRate)
    (paceMultiplier s)
  let limited := match s.estimate with
    | none => pacingRate
    | some estimate =>
      if s.limitPacingfactorByUpperLinkCapacityEstimate ∧ isFinite estimate.linkCapacityUpper ∧
          estimate.linkCapacityUpper < pacingRate then
        max (max estimate.linkCapacityUpper s.minTotalAllocatedBitrate) s.lastLossBasedTargetRate
      else pacingRate
  let paddingRate :=
    if s.lastLossBaseState = .increaseUsingPadding then max s.maxPaddingRate s.lastLossBasedTargetRate
    else s.maxPaddingRate
  { atTime := atTime
    pacingRate := limited
    paddingRate := min paddingRate s.lastPushbackTargetRate
    timeWindow := s.pacingTimeWindow }

/-! ## The update and its log -/

section Update
variable {P : Type} (r : Readings P)

/-- `pushback_target_rate`. -/
def pushbackTargetRate : DataRate :=
  match r.updateTargetBitrate with
  | none => r.targetRate
  | some updateTargetBitrate => max r.minBitrate (updateTargetBitrate r.targetRate)

def cwndReduceRatio (s : Controller) : ℚ :=
  if r.updateTargetBitrate.isSome ∧ s.useCongestionWindowDropFrameOnly then
    (r.targetRate - pushbackTargetRate r : ℤ) / r.targetRate
  else 0

/-- The test for a change since the last update. -/
def NetworkChanged (s : Controller) : Prop :=
  r.targetRate ≠ s.lastLossBasedTargetRate ∨ r.lossBasedState ≠ s.lastLossBaseState ∨
    some r.fractionLoss ≠ s.lastEstimatedFractionLoss ∨
    r.roundTripTime ≠ s.lastEstimatedRoundTripTime ∨ pushbackTargetRate r ≠ s.lastPushbackTargetRate

instance (s : Controller) : Decidable (NetworkChanged r s) :=
  inferInstanceAs (Decidable (_ ∨ _ ∨ _ ∨ _ ∨ _))

/-- The controller with its `last_*` members set. -/
def noteEstimates (s : Controller) : Controller := { s with
  lastLossBasedTargetRate := r.targetRate
  lastPushbackTargetRate := pushbackTargetRate r
  lastEstimatedFractionLoss := some r.fractionLoss
  lastEstimatedRoundTripTime := r.roundTripTime
  lastLossBaseState := r.lossBasedState }

def targetRateMsg (s : Controller) (atTime : ℤ) : TargetTransferRate where
  atTime := atTime
  targetRate := if s.useCongestionWindowDropFrameOnly then r.targetRate else pushbackTargetRate r
  cwndReduceRatio := if s.useCongestionWindowDropFrameOnly then cwndReduceRatio r s else 0
  networkEstimate :=
    { atTime := atTime
      roundTripTime := r.roundTripTime
      lossRateRatio := (r.fractionLoss.toNat : ℚ) / 255
      bwePeriod := r.expectedBwePeriod }

/-- The row computed beside `GetPacingRates`, from the locals. -/
def bweTargetRow (s : Controller) (atTime : ℤ) : BweTargetRow :=
  let pacingRate := units.times (max s.minTotalAllocatedBitrate r.targetRate) (paceMultiplier s)
  let paddingRate :=
    if r.lossBasedState = .increaseUsingPadding then max s.maxPaddingRate r.targetRate
    else s.maxPaddingRate
  { timestampMs := units.ms atTime
    targetBps := r.targetRate
    pushbackTargetBps := pushbackTargetRate r
    fractionLossX256 := r.fractionLoss
    rttMs := units.ms r.roundTripTime
    lossBasedState := r.lossBasedState
    pacingRateBps := pacingRate
    paddingRateBps := min paddingRate (pushbackTargetRate r) }

structure Triggered (P : Type) where
  controller : Controller
  update : NetworkControlUpdate P
  logged : Option BweTargetRow

/-- `logOpen`: the log file could be opened. -/
def maybeTriggerOnNetworkChanged (s : Controller) (logOpen : Bool) (update : NetworkControlUpdate P)
    (atTime : ℤ) : Triggered P :=
  if NetworkChanged r s then
    let s := noteEstimates r s
    { controller := s
      update := { update with
        targetRate := some (targetRateMsg r s atTime)
        probeClusterConfigs := update.probeClusterConfigs ++ r.setEstimatedBitrate r.targetRate
          (getBandwidthLimitedCause r.lossBasedState r.isRttAboveLimit r.lastState) atTime
        pacerConfig := some (getPacingRates units s atTime) }
      logged := if logOpen then some (bweTargetRow units r s atTime) else none }
  else { controller := s, update := update, logged := none }

variable {units r} {s : Controller} {logOpen : Bool} {update : NetworkControlUpdate P} {atTime : ℤ}

theorem logged_eq_some {row : BweTargetRow} :
    (maybeTriggerOnNetworkChanged units r s logOpen update atTime).logged = some row ↔
      NetworkChanged r s ∧ logOpen = true ∧ bweTargetRow units r (noteEstimates r s) atTime = row := by
  by_cases hchanged : NetworkChanged r s
  · rw [maybeTriggerOnNetworkChanged, if_pos hchanged]
    cases logOpen <;> simp [hchanged]
  · rw [maybeTriggerOnNetworkChanged, if_neg hchanged]
    simp [hchanged]

theorem triggered_of_changed (h : NetworkChanged r s) :
    (maybeTriggerOnNetworkChanged units r s logOpen update atTime).controller = noteEstimates r s ∧
      (maybeTriggerOnNetworkChanged units r s logOpen update atTime).update.pacerConfig =
        some (getPacingRates units (noteEstimates r s) atTime) := by
  rw [maybeTriggerOnNetworkChanged, if_pos h]
  exact ⟨rfl, rfl⟩

variable (units r s logOpen update atTime) in
/-- An update changes the `last_*` members only. -/
theorem triggered_minTotalAllocatedBitrate :
    (maybeTriggerOnNetworkChanged units r s logOpen update atTime).controller.minTotalAllocatedBitrate =
      s.minTotalAllocatedBitrate := by
  rw [maybeTriggerOnNetworkChanged]
  split_ifs <;> rfl

end Update
end WebrtcTrace.Congestion
