import WebrtcTrace.Congestion.NetworkControl
import Mathlib.Data.List.Induction
import Mathlib.Order.Bounds.Basic

/-! # The rate constraints of `GoogCcNetworkController`

`OnTargetRateConstraints` and `OnStreamsConfig` with what they call, `ResetConstraints` and
`ClampConstraints`. The estimators and the probe controller belong to the checkout, so a call carries
what they answer (`Answers`) and gives the calls it makes on them (`EstimatorCall`). So does
`kCongestionControllerMinBitrate`, which is a parameter. The first values of the members are in the
header, which is not here, so a sequence of calls starts in any state.

The configured minimum has a member of its own, and the configured maximum has none: it is overwritten
when an allocated minimum exceeds it. So the maximum follows the configuration as long as no allocated
minimum since then was above what the maximum is to be now (`max_data_rate_follows`).
-/

namespace WebrtcTrace.Congestion
set_option autoImplicit false

/-! ## Data -/

structure TargetRateConstraints where
  atTime : ℤ
  minDataRate : Option DataRate
  maxDataRate : Option DataRate
  startingRate : Option DataRate
  deriving DecidableEq, Repr

structure StreamsConfig where
  atTime : ℤ
  requestsAlrProbing : Option Bool
  pacingFactor : Option ℚ
  minTotalAllocatedBitrate : Option DataRate
  maxPaddingRate : Option DataRate
  maxTotalAllocatedBitrate : Option DataRate
  deriving DecidableEq

/-- The controller with the members of its rate constraints. -/
structure ConstrainedController extends Controller where
  useMinAllocatableAsLowerBound : Bool
  minTargetRate : DataRate
  minDataRate : DataRate
  maxDataRate : DataRate
  startingRate : Option DataRate
  deriving DecidableEq

/-- A call on an estimator or on the probe controller that answers nothing. -/
inductive EstimatorCall where
  | setBitrates (startingRate : Option DataRate) (minDataRate maxDataRate : DataRate) (atTime : ℤ)
  | setMinMaxBitrate (minDataRate maxDataRate : DataRate)
  | setStartBitrate (startingRate : DataRate)
  | setMinBitrate (minDataRate : DataRate)
  | enablePeriodicAlrProbing (enable : Bool)
  deriving DecidableEq, Repr

/-- What the other components answer during a call. -/
structure Answers (P : Type) where
  setBitrates : DataRate → DataRate → DataRate → ℤ → List P
  onMaxTotalAllocatedBitrate : DataRate → ℤ → List P
  readings : Readings P
  logOpen : Bool

structure Returned (P : Type) where
  controller : ConstrainedController
  update : NetworkControlUpdate P
  estimatorCalls : List EstimatorCall
  logged : Option BweTargetRow

inductive Call (P : Type) where
  | onTargetRateConstraints (constraints : TargetRateConstraints) (answers : Answers P)
  | onStreamsConfig (msg : StreamsConfig) (answers : Answers P)

/-! ## The calls -/

section Calls
variable (units : Units) (congestionControllerMinBitrate : DataRate) {P : Type}

def clampConstraints (s : ConstrainedController) : ConstrainedController :=
  let minDataRate := max s.minTargetRate congestionControllerMinBitrate
  let minDataRate :=
    if s.useMinAllocatableAsLowerBound then max minDataRate s.minTotalAllocatedBitrate
    else minDataRate
  { s with
    minDataRate := minDataRate
    maxDataRate := if s.maxDataRate < minDataRate then minDataRate else s.maxDataRate
    startingRate := s.startingRate.map fun rate => if rate < minDataRate then minDataRate else rate }

/-- `ResetConstraints` up to its calls. -/
def resetMembers (s : ConstrainedController) (newConstraints : TargetRateConstraints) :
    ConstrainedController :=
  clampConstraints congestionControllerMinBitrate { s with
    minTargetRate := newConstraints.minDataRate.getD 0
    maxDataRate := newConstraints.maxDataRate.getD plusInfinity
    startingRate := newConstraints.startingRate }

/-- The calls `ResetConstraints` makes, from the members it has set. -/
def resetCalls (s : ConstrainedController) (atTime : ℤ) : List EstimatorCall :=
  [.setBitrates s.startingRate s.minDataRate s.maxDataRate atTime] ++
    (s.startingRate.map EstimatorCall.setStartBitrate).toList ++ [.setMinBitrate s.minDataRate]

def onTargetRateConstraints (s : ConstrainedController) (constraints : TargetRateConstraints)
    (answers : Answers P) : Returned P :=
  let s := resetMembers congestionControllerMinBitrate s constraints
  let probes := answers.setBitrates s.minDataRate (s.startingRate.getD 0) s.maxDataRate
    constraints.atTime
  let triggered := maybeTriggerOnNetworkChanged units answers.readings s.toController answers.logOpen
    { probeClusterConfigs := probes } constraints.atTime
  { controller := { s with toController := triggered.controller }
    update := triggered.update
    estimatorCalls := resetCalls s constraints.atTime
    logged := triggered.logged }

/-- The allocated minimum of a message that differs from the one in force. -/
def newAllocated (current : DataRate) (msg : StreamsConfig) : Option DataRate :=
  msg.minTotalAllocatedBitrate.filter fun rate => rate ≠ current

def setPacingFactor (s : ConstrainedController) (msg : StreamsConfig) : ConstrainedController :=
  if msg.pacingFactor.isSome ∧ msg.pacingFactor ≠ s.pacingFactor then
    { s with pacingFactor := msg.pacingFactor }
  else s

def setMinTotalAllocatedBitrate (s : ConstrainedController) (msg : StreamsConfig) :
    ConstrainedController :=
  match newAllocated s.minTotalAllocatedBitrate msg with
  | none => s
  | some rate =>
    let s := { s with minTotalAllocatedBitrate := rate }
    if s.useMinAllocatableAsLowerBound then clampConstraints congestionControllerMinBitrate s else s

def setMaxPaddingRate (s : ConstrainedController) (msg : StreamsConfig) : ConstrainedController :=
  match msg.maxPaddingRate with
  | none => s
  | some rate => if rate ≠ s.maxPaddingRate then { s with maxPaddingRate := rate } else s

/-- `pacing_changed`. -/
def PacingChanged (s : ConstrainedController) (msg : StreamsConfig) : Prop :=
  msg.pacingFactor.isSome ∧ msg.pacingFactor ≠ s.pacingFactor ∨
    (newAllocated s.minTotalAllocatedBitrate msg).isSome ∨
    ∃ rate ∈ msg.maxPaddingRate, rate ≠ s.maxPaddingRate

instance (s : ConstrainedController) (msg : StreamsConfig) : Decidable (PacingChanged s msg) :=
  inferInstanceAs (Decidable (_ ∨ _ ∨ _))

def onStreamsConfig (s : ConstrainedController) (msg : StreamsConfig) (answers : Answers P) :
    Returned P :=
  let probes := match msg.maxTotalAllocatedBitrate with
    | none => []
    | some rate => answers.onMaxTotalAllocatedBitrate rate msg.atTime
  let allocated := setMinTotalAllocatedBitrate congestionControllerMinBitrate
    (setPacingFactor s msg) msg
  let clamped := (newAllocated s.minTotalAllocatedBitrate msg).isSome &&
    s.useMinAllocatableAsLowerBound
  let t := setMaxPaddingRate allocated msg
  { controller := t
    update :=
      { probeClusterConfigs := probes
        pacerConfig :=
          if PacingChanged s msg then some (getPacingRates units t.toController msg.atTime)
          else none }
    estimatorCalls :=
      (msg.requestsAlrProbing.map EstimatorCall.enablePeriodicAlrProbing).toList ++
        if clamped then
          [.setMinBitrate allocated.minDataRate,
            .setMinMaxBitrate allocated.minDataRate allocated.maxDataRate]
        else []
    logged := none }

def perform (s : ConstrainedController) : Call P → Returned P
  | .onTargetRateConstraints constraints answers =>
    onTargetRateConstraints units congestionControllerMinBitrate s constraints answers
  | .onStreamsConfig msg answers => onStreamsConfig units congestionControllerMinBitrate s msg answers

/-- The controller after a sequence of calls. -/
def performAll (s : ConstrainedController) (calls : List (Call P)) : ConstrainedController :=
  calls.foldl (fun s call => (perform units congestionControllerMinBitrate s call).controller) s

end Calls

/-! ## What was configured -/

/-- The configured rates and the allocated minimum of a sequence of calls, with the allocated minima
that have been in force since the last configuration. -/
structure Configured where
  minDataRate : DataRate
  maxDataRate : DataRate
  allocated : DataRate
  inForce : List DataRate
  deriving DecidableEq, Repr

/-- Before any call, nothing has been in force. -/
def configuredAt (s : ConstrainedController) : Configured where
  minDataRate := s.minTargetRate
  maxDataRate := s.maxDataRate
  allocated := s.minTotalAllocatedBitrate
  inForce := []

def follow {P : Type} (g : Configured) : Call P → Configured
  | .onTargetRateConstraints constraints _ => { g with
    minDataRate := constraints.minDataRate.getD 0
    maxDataRate := constraints.maxDataRate.getD plusInfinity
    inForce := [g.allocated] }
  | .onStreamsConfig msg _ =>
    match newAllocated g.allocated msg with
    | none => g
    | some rate => { g with allocated := rate, inForce := g.inForce ++ [rate] }

def configured {P : Type} (s : ConstrainedController) (calls : List (Call P)) : Configured :=
  calls.foldl follow (configuredAt s)

/-! ## The maximum only rises between two configurations -/

section Follows
variable {units : Units} {congestionControllerMinBitrate : DataRate} {P : Type}

/-- The minimum rate while `rate` is allocated. -/
def minRateFor (congestionControllerMinBitrate : DataRate) (g : Configured) (rate : DataRate) :
    DataRate :=
  max (max g.minDataRate congestionControllerMinBitrate) rate

/-- The maximum is the least rate at or above the configured one and every minimum rate since. -/
structure Follows (congestionControllerMinBitrate : DataRate) (g : Configured)
    (s : ConstrainedController) : Prop where
  enabled : s.useMinAllocatableAsLowerBound = true
  minTarget : s.minTargetRate = g.minDataRate
  allocated : s.minTotalAllocatedBitrate = g.allocated
  current : g.inForce ≠ [] → g.allocated ∈ g.inForce ∧
    s.minDataRate = minRateFor congestionControllerMinBitrate g g.allocated
  max : IsLUB (insert g.maxDataRate
    {r | ∃ rate ∈ g.inForce, r = minRateFor congestionControllerMinBitrate g rate}) s.maxDataRate

theorem follows_configuredAt {s : ConstrainedController}
    (henabled : s.useMinAllocatableAsLowerBound = true) :
    Follows congestionControllerMinBitrate (configuredAt s) s where
  enabled := henabled
  minTarget := rfl
  allocated := rfl
  current h := absurd rfl h
  max := by simp [configuredAt]

theorem clampConstraints_maxDataRate (s : ConstrainedController) :
    (clampConstraints congestionControllerMinBitrate s).maxDataRate =
      max (clampConstraints congestionControllerMinBitrate s).minDataRate s.maxDataRate := by
  have hmax : (clampConstraints congestionControllerMinBitrate s).maxDataRate =
      if s.maxDataRate < (clampConstraints congestionControllerMinBitrate s).minDataRate then
        (clampConstraints congestionControllerMinBitrate s).minDataRate
      else s.maxDataRate := rfl
  rw [hmax]
  split_ifs with h
  · exact (max_eq_left h.le).symm
  · exact (max_eq_right (not_lt.mp h)).symm

/-- Clamping adds the allocated minimum to those in force. -/
theorem clampConstraints_follows {g : Configured} {s : ConstrainedController}
    (henabled : s.useMinAllocatableAsLowerBound = true) (hmin : s.minTargetRate = g.minDataRate)
    (hmax : IsLUB (insert g.maxDataRate
      {r | ∃ rate ∈ g.inForce, r = minRateFor congestionControllerMinBitrate g rate}) s.maxDataRate) :
    Follows congestionControllerMinBitrate
      { g with
        allocated := s.minTotalAllocatedBitrate
        inForce := g.inForce ++ [s.minTotalAllocatedBitrate] }
      (clampConstraints congestionControllerMinBitrate s) := by
  have hrate : (clampConstraints congestionControllerMinBitrate s).minDataRate =
      minRateFor congestionControllerMinBitrate g s.minTotalAllocatedBitrate := by
    simp only [clampConstraints, henabled, if_true, minRateFor, hmin]
  refine ⟨henabled, hmin, rfl, fun _ => ⟨by simp, hrate⟩, ?_⟩
  have hset : (insert g.maxDataRate {r | ∃ rate ∈ g.inForce ++ [s.minTotalAllocatedBitrate],
      r = minRateFor congestionControllerMinBitrate g rate} : Set DataRate) =
      insert (minRateFor congestionControllerMinBitrate g s.minTotalAllocatedBitrate)
        (insert g.maxDataRate
          {r | ∃ rate ∈ g.inForce, r = minRateFor congestionControllerMinBitrate g rate}) := by
    ext r
    simp only [List.mem_append, List.mem_singleton, Set.mem_insert_iff, Set.mem_ofPred_eq]
    grind
  have hlub := hmax.insert (minRateFor congestionControllerMinBitrate g s.minTotalAllocatedBitrate)
  rw [clampConstraints_maxDataRate, hrate]
  exact hset ▸ hlub

theorem onTargetRateConstraints_follows {g : Configured} {s : ConstrainedController}
    (constraints : TargetRateConstraints) (answers : Answers P)
    (h : Follows congestionControllerMinBitrate g s) :
    Follows congestionControllerMinBitrate (follow g (.onTargetRateConstraints constraints answers))
      (onTargetRateConstraints units congestionControllerMinBitrate s constraints
        answers).controller := by
  have hreset : Follows congestionControllerMinBitrate
      (follow g (.onTargetRateConstraints constraints answers))
      (resetMembers congestionControllerMinBitrate s constraints) := by
    have hclamp := @clampConstraints_follows congestionControllerMinBitrate
      ⟨constraints.minDataRate.getD 0, constraints.maxDataRate.getD plusInfinity, g.allocated, []⟩
      { s with
        minTargetRate := constraints.minDataRate.getD 0
        maxDataRate := constraints.maxDataRate.getD plusInfinity
        startingRate := constraints.startingRate }
      h.enabled rfl (by simp)
    simpa only [follow, resetMembers, h.allocated, List.nil_append] using hclamp
  -- The update changes none of the members of the constraints.
  have hallocated := fun update => triggered_minTotalAllocatedBitrate units answers.readings
    (resetMembers congestionControllerMinBitrate s constraints).toController answers.logOpen update
    constraints.atTime
  exact ⟨hreset.enabled, hreset.minTarget, (hallocated _).trans hreset.allocated, hreset.current,
    hreset.max⟩

theorem onStreamsConfig_follows {g : Configured} {s : ConstrainedController}
    (msg : StreamsConfig) (answers : Answers P) (h : Follows congestionControllerMinBitrate g s) :
    Follows congestionControllerMinBitrate (follow g (.onStreamsConfig msg answers))
      (onStreamsConfig units congestionControllerMinBitrate s msg answers).controller := by
  have hallocated : Follows congestionControllerMinBitrate (follow g (.onStreamsConfig msg answers))
      (setMinTotalAllocatedBitrate congestionControllerMinBitrate (setPacingFactor s msg) msg) := by
    have hpacing : Follows congestionControllerMinBitrate g (setPacingFactor s msg) := by
      rw [setPacingFactor]
      split_ifs
      · exact ⟨h.enabled, h.minTarget, h.allocated, h.current, h.max⟩
      · exact h
    simp only [setMinTotalAllocatedBitrate, follow, hpacing.allocated]
    cases newAllocated g.allocated msg with
    | none => exact hpacing
    | some rate =>
      have hclamp := @clampConstraints_follows congestionControllerMinBitrate g
        { setPacingFactor s msg with minTotalAllocatedBitrate := rate }
        hpacing.enabled hpacing.minTarget hpacing.max
      simpa only [hpacing.enabled, if_true] using hclamp
  have hpadding : ∀ t : ConstrainedController,
      Follows congestionControllerMinBitrate (follow g (.onStreamsConfig msg answers)) t →
        Follows congestionControllerMinBitrate (follow g (.onStreamsConfig msg answers))
          (setMaxPaddingRate t msg) := by
    intro t ht
    unfold setMaxPaddingRate
    cases msg.maxPaddingRate with
    | none => exact ht
    | some rate =>
      simp only
      by_cases hrate : rate = t.maxPaddingRate
      · rw [if_neg (not_not_intro hrate)]
        exact ht
      · rw [if_pos hrate]
        exact ⟨ht.enabled, ht.minTarget, ht.allocated, ht.current, ht.max⟩
  exact hpadding _ hallocated

theorem perform_follows {g : Configured} {s : ConstrainedController} (call : Call P)
    (h : Follows congestionControllerMinBitrate g s) :
    Follows congestionControllerMinBitrate (follow g call)
      (perform units congestionControllerMinBitrate s call).controller := by
  cases call with
  | onTargetRateConstraints constraints answers =>
    exact onTargetRateConstraints_follows constraints answers h
  | onStreamsConfig msg answers => exact onStreamsConfig_follows msg answers h

theorem performAll_follows {s : ConstrainedController}
    (henabled : s.useMinAllocatableAsLowerBound = true) (calls : List (Call P)) :
    Follows congestionControllerMinBitrate (configured s calls)
      (performAll units congestionControllerMinBitrate s calls) := by
  induction calls using List.reverseRecOn with
  | nil => exact follows_configuredAt henabled
  | append_singleton calls call ih =>
    rw [configured, performAll, List.foldl_append, List.foldl_append]
    exact perform_follows call ih

end Follows

/-! ## The rates after any sequence of calls -/

/-- **When the constraints follow the configuration.** After any calls, once one of them has set the
constraints, the minimum is the one configured and allocated last, and the maximum is exactly when no
allocated minimum since the last configuration was above what the maximum is to be. -/
theorem max_data_rate_follows (units : Units) (congestionControllerMinBitrate : DataRate) {P : Type}
    (s : ConstrainedController) (calls : List (Call P))
    (henabled : s.useMinAllocatableAsLowerBound = true) (hset : (configured s calls).inForce ≠ []) :
    (performAll units congestionControllerMinBitrate s calls).minDataRate =
        max (max congestionControllerMinBitrate (configured s calls).minDataRate)
          (configured s calls).allocated ∧
      ((performAll units congestionControllerMinBitrate s calls).maxDataRate =
          max (performAll units congestionControllerMinBitrate s calls).minDataRate
            (configured s calls).maxDataRate ↔
        ∀ rate ∈ (configured s calls).inForce,
          rate ≤ max (max (max congestionControllerMinBitrate (configured s calls).minDataRate)
            (configured s calls).allocated) (configured s calls).maxDataRate) := by
  have h := @performAll_follows units congestionControllerMinBitrate P s henabled calls
  generalize performAll units congestionControllerMinBitrate s calls = t at h ⊢
  generalize configured s calls = g at h hset ⊢
  obtain ⟨hcurrent, hmin⟩ := h.current hset
  rw [minRateFor, max_comm g.minDataRate] at hmin
  refine ⟨hmin, ?_⟩
  -- The maximum is never below what it is to be.
  have hge : max t.minDataRate g.maxDataRate ≤ t.maxDataRate := by
    refine max_le ?_ (h.max.1 (Set.mem_insert _ _))
    refine h.max.1 (Set.mem_insert_of_mem _ ⟨g.allocated, hcurrent, ?_⟩)
    rw [hmin, minRateFor, max_comm g.minDataRate]
  rw [← hge.ge_iff_eq', ← hmin, isLUB_le_iff h.max]
  constructor
  · intro hbound rate hrate
    refine le_trans ?_ (hbound (Set.mem_insert_of_mem _ ⟨rate, hrate, rfl⟩))
    exact le_max_right _ _
  · rintro hbound r (rfl | ⟨rate, hrate, rfl⟩)
    · exact le_max_right _ _
    · refine max_le ?_ (hbound rate hrate)
      rw [max_comm g.minDataRate, hmin]
      exact (le_max_left _ _).trans (le_max_left _ _)

/-- A controller before its first call. -/
def newController : ConstrainedController where
  limitPacingfactorByUpperLinkCapacityEstimate := false
  useCongestionWindowDropFrameOnly := false
  firstTransportFeedbackReceived := false
  estimate := none
  lastLossBasedTargetRate := 300000
  lastPushbackTargetRate := 300000
  lastEstimatedFractionLoss := none
  lastEstimatedRoundTripTime := 0
  lastLossBaseState := .delayBasedEstimate
  pacingFactor := none
  pacingTimeWindow := 500000
  minTotalAllocatedBitrate := 0
  maxPaddingRate := 0
  useMinAllocatableAsLowerBound := true
  minTargetRate := 0
  minDataRate := 0
  maxDataRate := plusInfinity
  startingRate := none

def quietAnswers : Answers Unit where
  setBitrates _ _ _ _ := []
  onMaxTotalAllocatedBitrate _ _ := []
  readings :=
    { fractionLoss := 0
      roundTripTime := 0
      targetRate := 300000
      lossBasedState := .delayBasedEstimate
      minBitrate := 0
      isRttAboveLimit := false
      lastState := .normal
      expectedBwePeriod := 0
      updateTargetBitrate := none
      setEstimatedBitrate := fun _ _ _ => [] }
  logOpen := false

/-- At most `maxDataRate` is configured, and then the minima `rates` are allocated in turn. -/
def allocateInTurn (maxDataRate : DataRate) (rates : List DataRate) : List (Call Unit) :=
  .onTargetRateConstraints ⟨0, none, some maxDataRate, none⟩ quietAnswers ::
    rates.map fun rate => .onStreamsConfig ⟨0, none, none, some rate, none, none⟩ quietAnswers

theorem max_data_rate_follows_lowered_minimum :
    (performAll .nearest 5000 newController (allocateInTurn 1000000 [600000, 100000])).minDataRate =
        100000 ∧
      (performAll .nearest 5000 newController (allocateInTurn 1000000 [600000, 100000])).maxDataRate =
        1000000 := by
  have h := max_data_rate_follows .nearest 5000 newController
    (allocateInTurn 1000000 [600000, 100000]) rfl (by decide)
  have hmin := h.1
  have hmax := h.2.mpr (by decide)
  rw [hmin] at hmax
  exact ⟨hmin, hmax⟩

/-- The allocated minimum was above the configured maximum, and is lowered again. -/
theorem configured_maximum_lost :
    newController.useMinAllocatableAsLowerBound = true ∧
      (configured newController (allocateInTurn 1000000 [2000000, 100000])).maxDataRate = 1000000 ∧
      (performAll .nearest 5000 newController
        (allocateInTurn 1000000 [2000000, 100000])).minDataRate = 100000 ∧
      (performAll .nearest 5000 newController
        (allocateInTurn 1000000 [2000000, 100000])).maxDataRate = 2000000 ∧
      (performAll .nearest 5000 newController
        (allocateInTurn 1000000 [2000000, 100000])).maxDataRate ≠
          max (performAll .nearest 5000 newController
            (allocateInTurn 1000000 [2000000, 100000])).minDataRate
          (configured newController (allocateInTurn 1000000 [2000000, 100000])).maxDataRate := by
  exact ⟨rfl, rfl, rfl, rfl, by decide⟩

end WebrtcTrace.Congestion
