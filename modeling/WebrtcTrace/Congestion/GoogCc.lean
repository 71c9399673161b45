import WebrtcTrace.Congestion.DelayBasedBwe
import WebrtcTrace.Congestion.RateConstraints
import WebrtcTrace.Foundations.StatePrograms

/-! # The calls of `GoogCcNetworkController` (`goog_cc/goog_cc_network_control.cc`)

All calls on the controller, as programs on a session: the controller with its delay-based estimator, the
other components, the calls made on them, what `MaybeTriggerOnNetworkChanged` read, the rows of
`bwe_target.csv` and the updates given out.

The other components (the bandwidth estimation, the probe controller, the ALR detector, the estimators of
the acknowledged bitrate, of probes and of the network state, and the pushback controller) belong to the
checkout the overlay is applied to. Their state is of any type `W` and they do anything on a call; what is
read of one is not changed by a call on another. The header is there too: `last_estimate()` and
`last_state()` of the delay-based estimator are its previous bitrate and state, and a session starts in any
state. The log could be opened.
-/

namespace WebrtcTrace.Congestion.GoogCc
open Runs StatePrograms
set_option autoImplicit false

/-! ## Data -/

structure Settings where
  safeResetOnRouteChange : Bool
  safeResetAcknowledgedRate : Bool
  ignoreProbesLowerThanNetworkEstimate : Bool
  limitProbesLowerThanThroughputEstimate : Bool
  useCongestionWindow : Bool
  congestionWindowAdditionalTimeMs : ℤ
  /-- There is a `congestion_window_pushback_controller_`. -/
  hasPushbackController : Bool
  /-- There is a `network_estimator_`. -/
  hasNetworkEstimator : Bool
  congestionControllerMinBitrate : DataRate
  separateAudio : BweSeparateAudioPacketsSettings

structure NetworkControllerConfig where
  constraints : TargetRateConstraints
  streamBasedConfig : StreamsConfig
  enableRepeatedInitialProbing : Bool

structure SentPacket where
  sendTime : ℤ
  size : ℕ
  dataInFlight : ℕ

/-- The message with what its methods give; a packet that was lost is in neither list. -/
structure TransportPacketsFeedback where
  feedbackTime : ℤ
  dataInFlight : ℕ
  /-- `packet_feedbacks` is empty. -/
  empty : Bool
  receivedWithSendInfo : List PacketResult
  sortedByReceiveTime : List PacketResult

/-- `link_capacity_lower` beside the members that pacing reads. -/
structure StateEstimate where
  linkCapacityLower : DataRate
  estimate : NetworkStateEstimate

structure NetworkController (I T A : Type) extends ConstrainedController where
  delayBasedBwe : DelayBasedBwe I T A
  initialConfig : Option NetworkControllerConfig
  firstPacketSent : Bool
  previouslyInAlr : Bool
  feedbackMaxRtts : List ℤ
  currentDataWindow : Option ℤ
  /-- Of `estimate_`, when there is one. -/
  linkCapacityLower : DataRate

/-! ## The other components -/

/-- A call that answers nothing. -/
inductive ComponentCall where
  | setBitrates (startingRate : Option DataRate) (minDataRate maxDataRate : DataRate) (atTime : ℤ)
  | setMinMaxBitrate (minDataRate maxDataRate : DataRate)
  | updateEstimate (atTime : ℤ)
  | updateReceiverEstimate (atTime : ℤ) (bandwidth : DataRate)
  | updateRtt (rtt atTime : ℤ)
  | updatePropagationRtt (atTime rtt : ℤ)
  | onSentPacket (sentPacket : SentPacket)
  | onRouteChange
  | updatePacketsLost (packetsLost totalPackets atTime : ℤ)
  | setAcknowledgedRate (rate : Option DataRate) (atTime : ℤ)
  | setSendBitrate (rate : DataRate) (atTime : ℤ)
  | updateDelayBasedEstimate (atTime : ℤ) (rate : DataRate)
  | updateLossBasedEstimator (report : TransportPacketsFeedback) (state : BandwidthUsage)
      (probeBitrate : Option DataRate) (inAlr : Bool)
  | enablePeriodicAlrProbing (enable : Bool)
  | enableRepeatedInitialProbing (enable : Bool)
  | setAlrStartTime (time : Option ℤ)
  | setProbeAlrEndedTime (time : ℤ)
  | resetProbes (atTime : ℤ)
  | setProbeNetworkStateEstimate (estimate : StateEstimate)
  | onBytesSent (size : ℕ) (sendTime : ℤ)
  | setAlrEstimatedBitrate (rate : DataRate)
  | setAlr (inAlr : Bool)
  | setAckedAlrEndedTime (time : ℤ)
  | incomingAckedFeedback (packets : List PacketResult)
  | resetAcknowledgedEstimator
  | handleProbeAndEstimateBitrate (packet : PacketResult)
  | resetProbeEstimator
  | onNetworkRouteChange (atTime : ℤ) (constraints : TargetRateConstraints)
  | onTransportPacketsFeedback (report : TransportPacketsFeedback)
  | updatePacingQueue (bytes : ℕ)
  | updateOutstandingData (bytes : ℕ)
  | setDataWindow (window : ℤ)

/-- A call on the probe controller that answers with probes. -/
inductive ProbeCall where
  | onNetworkAvailability (atTime : ℤ) (available : Bool)
  | setBitrates (minDataRate startingRate maxDataRate : DataRate) (atTime : ℤ)
  | onMaxTotalAllocatedBitrate (rate : DataRate) (atTime : ℤ)
  | process (atTime : ℤ)
  | setEstimatedBitrate (rate : DataRate) (cause : BandwidthLimitedCause) (atTime : ℤ)
  | requestProbe (atTime : ℤ)

structure Components (W P : Type) where
  does : ComponentCall → W → W
  probes : ProbeCall → W → List P × W
  /-- `UpdateTargetBitrate` of the pushback controller. -/
  updateTargetBitrate : ℤ → W → ℤ × W
  fetchAndResetLastEstimatedBitrate : W → Option DataRate × W
  fractionLoss : W → UInt8
  roundTripTime : W → ℤ
  targetRate : W → DataRate
  lossBasedState : W → LossBasedState
  getMinBitrate : W → ℤ
  isRttAboveLimit : W → Bool
  getApplicationLimitedRegionStartTime : W → Option ℤ
  /-- `bitrate()` and `PeekRate()` of the acknowledged bitrate estimator. -/
  bitrate : W → Option DataRate
  peekRate : W → Option DataRate
  getCurrentEstimate : W → Option StateEstimate
  /-- `DataRate * TimeDelta` and `DataSize / 2`. -/
  rateTimes : DataRate → ℤ → ℤ
  halve : ℤ → ℤ

/-! ## Sessions -/

/-- What is compared with the `last_*` members. -/
structure Estimates where
  targetRate : DataRate
  pushbackTargetRate : DataRate
  fractionLoss : Option UInt8
  roundTripTime : ℤ
  lossBasedState : LossBasedState
  deriving DecidableEq

def lastEstimates (s : Controller) : Estimates where
  targetRate := s.lastLossBasedTargetRate
  pushbackTargetRate := s.lastPushbackTargetRate
  fractionLoss := s.lastEstimatedFractionLoss
  roundTripTime := s.lastEstimatedRoundTripTime
  lossBasedState := s.lastLossBaseState

def readEstimates {P : Type} (r : Readings P) : Estimates where
  targetRate := r.targetRate
  pushbackTargetRate := pushbackTargetRate r
  fractionLoss := some r.fractionLoss
  roundTripTime := r.roundTripTime
  lossBasedState := r.lossBasedState

structure Session (I T A W P : Type) where
  controller : NetworkController I T A
  world : W
  calls : List ComponentCall := []
  estimates : List Estimates := []
  bweRows : List BweTargetRow := []
  updates : List (NetworkControlUpdate P) := []

abbrev Program (I T A W P α : Type) := StateM (Session I T A W P) α

section Programs
variable {I T A W P : Type} (units : Units) (o : Estimators I T A) (k : Components W P)
  (settings : Settings)

def onController (f : NetworkController I T A → NetworkController I T A) : Program I T A W P PUnit :=
  modify fun s => { s with controller := f s.controller }

def onDelayBasedBwe (f : DelayBasedBwe I T A → DelayBasedBwe I T A) : Program I T A W P PUnit :=
  onController fun c => { c with delayBasedBwe := f c.delayBasedBwe }

def component (call : ComponentCall) : Program I T A W P PUnit :=
  modify fun s => { s with world := k.does call s.world, calls := s.calls ++ [call] }

def reading {α : Type} (f : W → α) : Program I T A W P α := do return f (← get).world

def answer {α : Type} (f : W → α × W) : Program I T A W P α :=
  modifyGet fun s => ((f s.world).1, { s with world := (f s.world).2 })

def probes (call : ProbeCall) : Program I T A W P (List P) := answer (k.probes call)

/-! ### The update -/

/-- What is read of the components when the probe controller is in the state `probing`. -/
def readings (c : NetworkController I T A) (w probing : W) : Readings P where
  fractionLoss := k.fractionLoss w
  roundTripTime := k.roundTripTime w
  targetRate := k.targetRate w
  lossBasedState := k.lossBasedState w
  minBitrate := k.getMinBitrate w
  isRttAboveLimit := k.isRttAboveLimit w
  lastState := c.delayBasedBwe.prevState
  expectedBwePeriod := c.delayBasedBwe.getExpectedBwePeriod o
  updateTargetBitrate :=
    if settings.hasPushbackController then some fun rate => (k.updateTargetBitrate rate w).1 else none
  setEstimatedBitrate rate cause atTime := (k.probes (.setEstimatedBitrate rate cause atTime) probing).1

/-- `UpdateTargetBitrate` changes the pushback controller. -/
def afterPushback (w : W) : W :=
  if settings.hasPushbackController then (k.updateTargetBitrate (k.targetRate w) w).2 else w

/-- The components after the calls of an update that changes something. -/
def afterChange (c : NetworkController I T A) (w : W) (atTime : ℤ) : W :=
  (k.probes (.setEstimatedBitrate (k.targetRate w)
    (getBandwidthLimitedCause (k.lossBasedState w) (k.isRttAboveLimit w) c.delayBasedBwe.prevState) atTime)
    (k.does (.setAlrEstimatedBitrate (k.targetRate w)) (afterPushback k settings w))).2

def maybeTriggerOnNetworkChanged (update : NetworkControlUpdate P) (atTime : ℤ) :
    Program I T A W P (NetworkControlUpdate P) := do
  let s ← get
  let probing := k.does (.setAlrEstimatedBitrate (k.targetRate s.world)) (afterPushback k settings s.world)
  let r := readings o k settings s.controller s.world probing
  let triggered := Congestion.maybeTriggerOnNetworkChanged units r s.controller.toController true update
    atTime
  set { s with
    controller := { s.controller with toController := triggered.controller }
    world := if NetworkChanged r s.controller.toController then
        afterChange k settings s.controller s.world atTime
      else afterPushback k settings s.world
    calls := s.calls ++ if NetworkChanged r s.controller.toController then
        [ComponentCall.setAlrEstimatedBitrate (k.targetRate s.world)] else []
    estimates := s.estimates ++ [readEstimates r]
    bweRows := s.bweRows ++ triggered.logged.toList }
  return triggered.update

/-! ### Constraints -/

def resetConstraints (newConstraints : TargetRateConstraints) : Program I T A W P (List P) := do
  onController fun c => { c with
    toConstrainedController := resetMembers settings.congestionControllerMinBitrate
      c.toConstrainedController newConstraints }
  let c := (← get).controller
  component k (.setBitrates c.startingRate c.minDataRate c.maxDataRate newConstraints.atTime)
  whenSome c.startingRate fun startingRate =>
    onDelayBasedBwe fun bwe => bwe.setStartBitrate o startingRate
  onDelayBasedBwe fun bwe => bwe.setMinBitrate o c.minDataRate
  probes k (.setBitrates c.minDataRate (c.startingRate.getD 0) c.maxDataRate newConstraints.atTime)

def onTargetRateConstraints (constraints : TargetRateConstraints) :
    Program I T A W P (NetworkControlUpdate P) := do
  let probeClusterConfigs ← resetConstraints o k settings constraints
  maybeTriggerOnNetworkChanged units o k settings { probeClusterConfigs := probeClusterConfigs }
    constraints.atTime

/-- `OnMaxTotalAllocatedBitrate`, if there is such a rate. -/
def totalProbes (rate : Option DataRate) (atTime : ℤ) : Program I T A W P (List P) :=
  rate.elim (pure []) fun rate => probes k (.onMaxTotalAllocatedBitrate rate atTime)

/-- What a message sets, with the calls on the estimators. -/
def setStreams (msg : StreamsConfig) : Program I T A W P PUnit := do
  let c := (← get).controller.toConstrainedController
  let allocated := setMinTotalAllocatedBitrate settings.congestionControllerMinBitrate
    (setPacingFactor c msg) msg
  onController fun d => { d with toConstrainedController := allocated }
  when ((newAllocated c.minTotalAllocatedBitrate msg).isSome ∧ c.useMinAllocatableAsLowerBound) do
    onDelayBasedBwe fun bwe => bwe.setMinBitrate o allocated.minDataRate
    component k (.setMinMaxBitrate allocated.minDataRate allocated.maxDataRate)
  onController fun d => { d with toConstrainedController := setMaxPaddingRate allocated msg }

def onStreamsConfig (msg : StreamsConfig) : Program I T A W P (NetworkControlUpdate P) := do
  whenSome msg.requestsAlrProbing fun enable => component k (.enablePeriodicAlrProbing enable)
  let probeClusterConfigs ← totalProbes k msg.maxTotalAllocatedBitrate msg.atTime
  let c := (← get).controller.toConstrainedController
  setStreams o k settings msg
  let d := (← get).controller.toController
  return {
    probeClusterConfigs := probeClusterConfigs
    pacerConfig := if PacingChanged c msg then some (getPacingRates units d msg.atTime) else none }

/-! ### The congestion window -/

def kMinCwnd : ℤ := 2 * 1500

def kMaxFeedbackRttWindow : ℕ := 32

/-- `UpdateCongestionWindowSize`, for feedback RTTs of which the least is given. -/
def updatedDataWindow (c : NetworkController I T A) (minFeedbackMaxRtt : ℤ) : ℤ :=
  let timeWindow := (minFeedbackMaxRtt + settings.congestionWindowAdditionalTimeMs) * 1000
  let dataWindow := k.rateTimes c.lastLossBasedTargetRate timeWindow
  match c.currentDataWindow with
  | some current => max kMinCwnd (k.halve (dataWindow + current))
  | none => max kMinCwnd dataWindow

def updateCongestionWindowSize : Program I T A W P PUnit :=
  onController fun c =>
    match c.feedbackMaxRtts.min? with
    | some minRtt => { c with currentDataWindow := some (updatedDataWindow k settings c minRtt) }
    | none => c

/-- The window, resized or not, goes to the pushback controller, or else into the update. -/
def handOutDataWindow (resize : Bool) (update : NetworkControlUpdate P) :
    Program I T A W P (NetworkControlUpdate P) := do
  when (resize = true) (updateCongestionWindowSize k settings)
  let window := (← get).controller.currentDataWindow
  if settings.hasPushbackController ∧ window.isSome then do
    whenSome window fun window => component k (.setDataWindow window)
    return update
  else return { update with congestionWindow := window }

/-! ### The other calls -/

def onNetworkAvailability (atTime : ℤ) (available : Bool) : Program I T A W P (NetworkControlUpdate P) := do
  let probeClusterConfigs ← probes k (.onNetworkAvailability atTime available)
  return { probeClusterConfigs := probeClusterConfigs }

/-- `std::min` with the estimate, if there is one. -/
def safeStartingRate (startingRate estimatedBitrate : Option DataRate) : Option DataRate :=
  match startingRate, estimatedBitrate with
  | some startingRate, some estimated => some (min startingRate estimated)
  | none, some estimated => some estimated
  | startingRate, none => startingRate

def onNetworkRouteChange (atTime : ℤ) (constraints : TargetRateConstraints) :
    Program I T A W P (NetworkControlUpdate P) := do
  let w := (← get).world
  let estimatedBitrate :=
    if settings.safeResetOnRouteChange then
      if settings.safeResetAcknowledgedRate then k.bitrate w <|> k.peekRate w else some (k.targetRate w)
    else none
  let constraints := { constraints with
    startingRate := safeStartingRate constraints.startingRate estimatedBitrate }
  component k .resetAcknowledgedEstimator
  component k .resetProbeEstimator
  when (settings.hasNetworkEstimator = true) (component k (.onNetworkRouteChange atTime constraints))
  onDelayBasedBwe fun _ => .create o
  component k .onRouteChange
  component k (.resetProbes atTime)
  let probeClusterConfigs ← resetConstraints o k settings constraints
  maybeTriggerOnNetworkChanged units o k settings { probeClusterConfigs := probeClusterConfigs } atTime

/-- What the first interval does with the configuration. -/
def startUp (config : NetworkControllerConfig) (atTime : ℤ) :
    Program I T A W P (NetworkControlUpdate P) := do
  let probeClusterConfigs ← resetConstraints o k settings config.constraints
  let c := (← get).controller.toController
  whenSome config.streamBasedConfig.requestsAlrProbing fun enable =>
    component k (.enablePeriodicAlrProbing enable)
  component k (.enableRepeatedInitialProbing config.enableRepeatedInitialProbing)
  let total ← totalProbes k config.streamBasedConfig.maxTotalAllocatedBitrate atTime
  onController fun d => { d with initialConfig := none }
  return {
    probeClusterConfigs := probeClusterConfigs ++ total
    pacerConfig := some (getPacingRates units c atTime) }

def onProcessInterval (atTime : ℤ) (pacerQueue : Option ℕ) : Program I T A W P (NetworkControlUpdate P) := do
  let initialConfig := (← get).controller.initialConfig
  let update ← initialConfig.elim (pure {}) fun config => startUp units o k settings config atTime
  whenSome pacerQueue fun bytes =>
    when (settings.hasPushbackController = true) (component k (.updatePacingQueue bytes))
  component k (.updateEstimate atTime)
  let alrStartTime ← reading k.getApplicationLimitedRegionStartTime
  component k (.setAlrStartTime alrStartTime)
  let processed ← probes k (.process atTime)
  let update ← handOutDataWindow k settings settings.useCongestionWindow
    { update with probeClusterConfigs := update.probeClusterConfigs ++ processed }
  maybeTriggerOnNetworkChanged units o k settings update atTime

def onRemoteBitrateReport (receiveTime : ℤ) (bandwidth : DataRate) :
    Program I T A W P (NetworkControlUpdate P) := do
  component k (.updateReceiverEstimate receiveTime bandwidth)
  return {}

def onRoundTripTimeUpdate (receiveTime roundTripTime : ℤ) (smoothed : Bool) :
    Program I T A W P (NetworkControlUpdate P) := do
  when (smoothed = false) do
    onDelayBasedBwe fun bwe => bwe.onRttUpdate o roundTripTime
    component k (.updateRtt roundTripTime receiveTime)
  return {}

def onSentPacket (sentPacket : SentPacket) : Program I T A W P (NetworkControlUpdate P) := do
  component k (.onBytesSent sentPacket.size sentPacket.sendTime)
  let alrStartTime ← reading k.getApplicationLimitedRegionStartTime
  component k (.setAlr alrStartTime.isSome)
  when ((← get).controller.firstPacketSent = false) do
    onController fun c => { c with firstPacketSent := true }
    component k (.updatePropagationRtt sentPacket.sendTime 0)
  component k (.onSentPacket sentPacket)
  if settings.hasPushbackController then do
    component k (.updateOutstandingData sentPacket.dataInFlight)
    maybeTriggerOnNetworkChanged units o k settings {} sentPacket.sendTime
  else return {}

def onTransportLossReport (packetsLostDelta packetsReceivedDelta receiveTime : ℤ) :
    Program I T A W P (NetworkControlUpdate P) := do
  component k (.updatePacketsLost packetsLostDelta (packetsReceivedDelta + packetsLostDelta) receiveTime)
  return {}

def setNetworkStateEstimate (estimate : Option StateEstimate) : Program I T A W P PUnit := do
  let previous := (← get).controller.estimate
  onController fun c => { c with
    estimate := estimate.map StateEstimate.estimate
    linkCapacityLower := (estimate.map StateEstimate.linkCapacityLower).getD c.linkCapacityLower }
  whenSome estimate fun estimate =>
    when (previous.map NetworkStateEstimate.updateTime ≠ some estimate.estimate.updateTime)
      (component k (.setProbeNetworkStateEstimate estimate))

def onNetworkStateEstimate (estimate : StateEstimate) : Program I T A W P (NetworkControlUpdate P) := do
  when (settings.hasNetworkEstimator = false) (setNetworkStateEstimate k (some estimate))
  return {}

/-! ### Feedback -/

/-- The largest feedback RTT and the smallest propagation RTT of a report. -/
def feedbackRtts (report : TransportPacketsFeedback) : Option (ℤ × ℤ) :=
  let feedbacks := report.receivedWithSendInfo
  let maxRecvTime := ((feedbacks.map PacketResult.receiveTime).max?).getD 0
  let rtts := feedbacks.map fun p => report.feedbackTime - p.sendTime
  let propagation := feedbacks.map fun p =>
    report.feedbackTime - p.sendTime - (maxRecvTime - p.receiveTime)
  match rtts.max?, propagation.min? with
  | some maxFeedbackRtt, some minPropagationRtt => some (maxFeedbackRtt, minPropagationRtt)
  | _, _ => none

def pushFeedbackRtt (rtts : List ℤ) (rtt : ℤ) : List ℤ :=
  if kMaxFeedbackRttWindow < (rtts ++ [rtt]).length then (rtts ++ [rtt]).tail else rtts ++ [rtt]

/-- `kProbeDropThroughputFraction`, a double. -/
def kProbeDropThroughputFraction : ℚ := 85 / 100

/-- The probe result that goes to the delay-based estimator. -/
def limitedProbe (c : NetworkController I T A) (acknowledged probe : Option DataRate) : Option DataRate :=
  let probe :=
    if settings.ignoreProbesLowerThanNetworkEstimate ∧ c.estimate.isSome ∧
        ∃ rate ∈ probe, rate < c.delayBasedBwe.prevBitrate ∧ rate < c.linkCapacityLower then none
    else probe
  match probe, acknowledged with
  | some rate, some acked =>
    if settings.limitProbesLowerThanThroughputEstimate then
      some (max rate (min c.delayBasedBwe.prevBitrate (units.times acked kProbeDropThroughputFraction)))
    else probe
  | _, _ => probe

/-- From the round trip times to the probe results. -/
def takeFeedback (report : TransportPacketsFeedback) (rtts : Option (ℤ × ℤ)) (alrStartTime : Option ℤ) :
    Program I T A W P (Option DataRate) := do
  whenSome rtts fun rtts => do
    onController fun c => { c with
      feedbackMaxRtts := pushFeedbackRtt c.feedbackMaxRtts (units.ms rtts.1) }
    component k (.updatePropagationRtt report.feedbackTime rtts.2)
  when ((← get).controller.previouslyInAlr = true ∧ alrStartTime = none) do
    component k (.setAckedAlrEndedTime report.feedbackTime)
    component k (.setProbeAlrEndedTime report.feedbackTime)
  onController fun c => { c with previouslyInAlr := alrStartTime.isSome }
  component k (.incomingAckedFeedback report.sortedByReceiveTime)
  let acknowledged ← reading k.bitrate
  component k (.setAcknowledgedRate acknowledged report.feedbackTime)
  (report.sortedByReceiveTime.filter PacketResult.isProbe).forM fun p =>
    component k (.handleProbeAndEstimateBitrate p)
  return acknowledged

/-- The estimate of the network and the probe result. -/
def takeProbeResult (report : TransportPacketsFeedback) (acknowledged : Option DataRate) :
    Program I T A W P (Option DataRate) := do
  when (settings.hasNetworkEstimator = true) do
    component k (.onTransportPacketsFeedback report)
    setNetworkStateEstimate k (← reading k.getCurrentEstimate)
  let probe ← answer k.fetchAndResetLastEstimatedBitrate
  return limitedProbe units settings (← get).controller acknowledged probe

/-- What the bandwidth estimation is told of the delay-based estimate. -/
def tellDelayBasedEstimate (report : TransportPacketsFeedback) (result : DelayResult)
    (probe : Option DataRate) (inAlr : Bool) : Program I T A W P PUnit := do
  when (result.updated = true) do
    when (result.probe = true) (component k (.setSendBitrate result.targetBitrate report.feedbackTime))
    component k (.updateDelayBasedEstimate report.feedbackTime result.targetBitrate)
  component k (.updateLossBasedEstimator report result.delayDetectorState probe inAlr)

def takeDelayBasedEstimate (report : TransportPacketsFeedback) (acknowledged probe : Option DataRate)
    (inAlr : Bool) : Program I T A W P DelayResult := do
  let c := (← get).controller
  let out := c.delayBasedBwe.incomingPacketFeedbackVector units o settings.separateAudio
    report.sortedByReceiveTime report.feedbackTime acknowledged probe c.estimate inAlr
  onDelayBasedBwe fun _ => out.bwe
  tellDelayBasedEstimate k report out.result probe inAlr
  return out.result

/-- A probe is asked for after the overuse. -/
def recover (alrStartTime : Option ℤ) (atTime : ℤ) : Program I T A W P (List P) := do
  component k (.setAlrStartTime alrStartTime)
  probes k (.requestProbe atTime)

def onTransportPacketsFeedback (report : TransportPacketsFeedback) :
    Program I T A W P (NetworkControlUpdate P) :=
  if report.empty then pure {}
  else do
    onController fun c => { c with firstTransportFeedbackReceived := true }
    when (settings.hasPushbackController = true)
      (component k (.updateOutstandingData report.dataInFlight))
    let rtts := feedbackRtts report
    let alrStartTime ← reading k.getApplicationLimitedRegionStartTime
    let acknowledged ← takeFeedback units k report rtts alrStartTime
    let probe ← takeProbeResult units k settings report acknowledged
    let result ← takeDelayBasedEstimate units o k settings report acknowledged probe alrStartTime.isSome
    let update ← (if result.updated then
      maybeTriggerOnNetworkChanged units o k settings {} report.feedbackTime else pure {})
    let requested ← (if result.recoveredFromOveruse then recover k alrStartTime report.feedbackTime
      else pure [])
    handOutDataWindow k settings (settings.useCongestionWindow && rtts.isSome)
      { update with probeClusterConfigs := update.probeClusterConfigs ++ requested }

/-- `GetNetworkState` -/
def getNetworkState (c : NetworkController I T A) (atTime : ℤ) : NetworkControlUpdate P where
  targetRate := some {
    atTime := atTime
    targetRate := c.lastPushbackTargetRate
    networkEstimate :=
      { atTime := atTime
        roundTripTime := c.lastEstimatedRoundTripTime
        lossRateRatio := ((c.lastEstimatedFractionLoss.getD 0).toNat : ℚ) / 255
        bwePeriod := c.delayBasedBwe.getExpectedBwePeriod o } }
  pacerConfig := some (getPacingRates units c.toController atTime)
  congestionWindow := c.currentDataWindow

/-! ## Runs -/

inductive Op where
  | onNetworkAvailability (atTime : ℤ) (available : Bool)
  | onNetworkRouteChange (atTime : ℤ) (constraints : TargetRateConstraints)
  | onProcessInterval (atTime : ℤ) (pacerQueue : Option ℕ)
  | onRemoteBitrateReport (receiveTime : ℤ) (bandwidth : DataRate)
  | onRoundTripTimeUpdate (receiveTime roundTripTime : ℤ) (smoothed : Bool)
  | onSentPacket (sentPacket : SentPacket)
  | onReceivedPacket
  | onStreamsConfig (msg : StreamsConfig)
  | onTargetRateConstraints (constraints : TargetRateConstraints)
  | onTransportLossReport (packetsLostDelta packetsReceivedDelta receiveTime : ℤ)
  | onTransportPacketsFeedback (report : TransportPacketsFeedback)
  | onNetworkStateEstimate (estimate : StateEstimate)

def perform : Op → Program I T A W P (NetworkControlUpdate P)
  | .onNetworkAvailability atTime available => onNetworkAvailability k atTime available
  | .onNetworkRouteChange atTime constraints => onNetworkRouteChange units o k settings atTime constraints
  | .onProcessInterval atTime pacerQueue => onProcessInterval units o k settings atTime pacerQueue
  | .onRemoteBitrateReport receiveTime bandwidth => onRemoteBitrateReport k receiveTime bandwidth
  | .onRoundTripTimeUpdate receiveTime roundTripTime smoothed =>
    onRoundTripTimeUpdate o k receiveTime roundTripTime smoothed
  | .onSentPacket sentPacket => onSentPacket units o k settings sentPacket
  | .onReceivedPacket => pure {}
  | .onStreamsConfig msg => onStreamsConfig units o k settings msg
  | .onTargetRateConstraints constraints => onTargetRateConstraints units o k settings constraints
  | .onTransportLossReport packetsLostDelta packetsReceivedDelta receiveTime =>
    onTransportLossReport k packetsLostDelta packetsReceivedDelta receiveTime
  | .onTransportPacketsFeedback report => onTransportPacketsFeedback units o k settings report
  | .onNetworkStateEstimate estimate => onNetworkStateEstimate k settings estimate

/-- A call, with its update kept. -/
def handle (op : Op) : Program I T A W P PUnit := do
  let update ← perform units o k settings op
  modify fun s => { s with updates := s.updates ++ [update] }

/-- The session after some calls. -/
def afterOps (s : Session I T A W P) (ops : List Op) : Session I T A W P :=
  ops.foldl (fun s op => (handle units o k settings op s).2) s

end Programs
end WebrtcTrace.Congestion.GoogCc
