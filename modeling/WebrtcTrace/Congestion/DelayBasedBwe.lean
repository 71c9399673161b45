import WebrtcTrace.Congestion.NetworkControl
import WebrtcTrace.Foundations.Runs

/-! # `webrtc::DelayBasedBwe` (`goog_cc/delay_based_bwe.cc`)

Each packet that was received goes to a delay detector, of which there is one for video and one for audio;
the active one and the rate control make the estimate.

`InterArrivalDelta`, `TrendlineEstimator` and `AimdRateControl` belong to the checkout the overlay is
applied to. They are `Estimators`, with states of any types. What `SortedByReceiveTime` gives comes with
the message. There is no network state predictor, the event log is there, and the CSV logs could be opened.
Times are microseconds; a time that is minus infinity is `none`.
-/

namespace WebrtcTrace.Congestion
open Runs
set_option autoImplicit false

/-! ## The estimators -/

/-- What `ComputeDeltas` leaves in its arguments. -/
structure Deltas where
  calculated : Bool
  sendDelta : ℤ
  recvDelta : ℤ
  deriving DecidableEq, Repr

structure Estimators (I T A : Type) where
  newInterArrivalDelta : I
  computeDeltas : (sendTime arrivalTime systemTime : ℤ) → (packetSize : ℕ) → I → Deltas × I
  newDetector : T
  detect : Deltas → (sendTime arrivalTime : ℤ) → (packetSize : ℕ) → T → T
  state : T → BandwidthUsage
  newRateControl : A
  update : BandwidthUsage → Option DataRate → ℤ → A → DataRate × A
  validEstimate : A → Bool
  latestEstimate : A → DataRate
  timeToReduceFurther : ℤ → DataRate → A → Bool
  initialTimeToReduceFurther : ℤ → A → Bool
  setEstimate : DataRate → ℤ → A → A
  setInApplicationLimitedRegion : Bool → A → A
  setNetworkStateEstimate : Option NetworkStateEstimate → A → A
  setRtt : ℤ → A → A
  setStartBitrate : DataRate → A → A
  setMinBitrate : DataRate → A → A
  getExpectedBandwidthPeriod : A → ℤ
  /-- `DataRate / 2`. -/
  halve : DataRate → DataRate

/-! ## Data -/

structure BweSeparateAudioPacketsSettings where
  enabled : Bool
  packetThreshold : ℤ
  timeThreshold : ℤ
  deriving DecidableEq, Repr

/-- A packet that was received. -/
structure PacketResult where
  sendTime : ℤ
  receiveTime : ℤ
  size : ℕ
  audio : Bool
  /-- `probe_cluster_id` is one of a probe. -/
  isProbe : Bool
  deriving DecidableEq, Repr

structure DelayBasedBwe (I T A : Type) where
  audioPacketsSinceLastVideo : ℤ := 0
  lastVideoPacketRecvTime : Option ℤ := none
  videoInterArrivalDelta : I
  videoDelayDetector : T
  audioInterArrivalDelta : I
  audioDelayDetector : T
  /-- `active_delay_detector_` is the one for audio. -/
  activeAudio : Bool := false
  lastSeenPacket : Option ℤ := none
  rateControl : A
  prevBitrate : DataRate := 0
  prevState : BandwidthUsage := .normal

/-- `DelayBasedBwe::Result`. -/
structure DelayResult where
  updated : Bool := false
  probe : Bool := false
  targetBitrate : DataRate := 0
  recoveredFromOveruse : Bool := false
  delayDetectorState : BandwidthUsage := .normal
  deriving DecidableEq, Repr

/-- A row of `packet_feedback.csv`; the deltas are not rounded to milliseconds. -/
structure PacketFeedbackRow where
  atTimeMs : ℤ
  sendTimeMs : ℤ
  recvTimeMs : ℤ
  sendDelta : ℤ
  recvDelta : ℤ
  calculated : Bool
  isAudio : Bool
  sizeBytes : ℕ
  deriving DecidableEq, Repr

/-- A row of `delay_bwe_state.csv`. -/
structure DelayBweRow where
  atTimeMs : ℤ
  detectorState : BandwidthUsage
  targetBps : ℤ
  recoveredFromOveruse : Bool
  deriving DecidableEq, Repr

structure DelayOutcome (I T A : Type) where
  bwe : DelayBasedBwe I T A
  result : DelayResult := {}
  packetRows : List PacketFeedbackRow := []
  stateRows : List DelayBweRow := []
  /-- `RtcEventBweUpdateDelayBased` -/
  events : List (DataRate × BandwidthUsage) := []

def kStreamTimeOut : ℤ := 2000000

/-! ## One packet -/

section Bwe
variable {I T A : Type} (units : Units) (o : Estimators I T A)
  (separateAudio : BweSeparateAudioPacketsSettings)

namespace DelayBasedBwe

def create : DelayBasedBwe I T A where
  videoInterArrivalDelta := o.newInterArrivalDelta
  videoDelayDetector := o.newDetector
  audioInterArrivalDelta := o.newInterArrivalDelta
  audioDelayDetector := o.newDetector
  rateControl := o.newRateControl

/-- `active_delay_detector_->State()` -/
def activeState (s : DelayBasedBwe I T A) : BandwidthUsage :=
  o.state (if s.activeAudio then s.audioDelayDetector else s.videoDelayDetector)

/-- The stream has timed out, or nothing was seen of it. -/
def TimedOut (lastSeenPacket : Option ℤ) (atTime : ℤ) : Prop :=
  ∀ last ∈ lastSeenPacket, kStreamTimeOut < atTime - last

instance (lastSeenPacket : Option ℤ) (atTime : ℤ) : Decidable (TimedOut lastSeenPacket atTime) :=
  inferInstanceAs (Decidable (∀ last ∈ lastSeenPacket, _))

def resetOnTimeOut (s : DelayBasedBwe I T A) (atTime : ℤ) : DelayBasedBwe I T A :=
  if TimedOut s.lastSeenPacket atTime then
    { s with
      videoInterArrivalDelta := o.newInterArrivalDelta
      videoDelayDetector := o.newDetector
      audioInterArrivalDelta := o.newInterArrivalDelta
      audioDelayDetector := o.newDetector
      activeAudio := false }
  else s

/-- Whether audio is far enough ahead of the last video packet. -/
def audioTakesOver (packets : ℤ) (lastVideo : Option ℤ) (receiveTime : ℤ) : Bool :=
  decide (separateAudio.packetThreshold < packets) &&
    lastVideo.all fun last => decide (separateAudio.timeThreshold < receiveTime - last)

/-- Which detector is active from this packet on. -/
def selectDetector (s : DelayBasedBwe I T A) (p : PacketResult) : DelayBasedBwe I T A :=
  if separateAudio.enabled then
    if p.audio then
      let packets := s.audioPacketsSinceLastVideo + 1
      { s with
        audioPacketsSinceLastVideo := packets
        activeAudio := s.activeAudio ||
          audioTakesOver separateAudio packets s.lastVideoPacketRecvTime p.receiveTime }
    else
      { s with
        audioPacketsSinceLastVideo := 0
        lastVideoPacketRecvTime :=
          some (s.lastVideoPacketRecvTime.elim p.receiveTime (max · p.receiveTime))
        activeAudio := false }
  else s

/-- The deltas of the packet and the detector it updates. -/
def updateDetector (s : DelayBasedBwe I T A) (p : PacketResult) (atTime : ℤ) :
    Deltas × DelayBasedBwe I T A :=
  if separateAudio.enabled && p.audio then
    let deltas := o.computeDeltas p.sendTime p.receiveTime atTime p.size s.audioInterArrivalDelta
    (deltas.1, { s with
      audioInterArrivalDelta := deltas.2
      audioDelayDetector := o.detect deltas.1 p.sendTime p.receiveTime p.size s.audioDelayDetector })
  else
    let deltas := o.computeDeltas p.sendTime p.receiveTime atTime p.size s.videoInterArrivalDelta
    (deltas.1, { s with
      videoInterArrivalDelta := deltas.2
      videoDelayDetector := o.detect deltas.1 p.sendTime p.receiveTime p.size s.videoDelayDetector })

def packetFeedbackRow (p : PacketResult) (atTime : ℤ) (deltas : Deltas) : PacketFeedbackRow where
  atTimeMs := units.ms atTime
  sendTimeMs := units.ms p.sendTime
  recvTimeMs := units.ms p.receiveTime
  sendDelta := if deltas.calculated then deltas.sendDelta else 0
  recvDelta := if deltas.calculated then deltas.recvDelta else 0
  calculated := deltas.calculated
  isAudio := p.audio
  sizeBytes := p.size

def incomingPacketFeedback (s : DelayBasedBwe I T A) (p : PacketResult) (atTime : ℤ) :
    DelayBasedBwe I T A × PacketFeedbackRow :=
  let s := { resetOnTimeOut o s atTime with lastSeenPacket := some atTime }
  let updated := updateDetector o separateAudio (selectDetector separateAudio s p) p atTime
  (updated.2, packetFeedbackRow units p atTime updated.1)

/-! ## The estimate -/

/-- `UpdateEstimate`: whether the estimate is valid, and the rate. -/
def updateEstimate (s : DelayBasedBwe I T A) (atTime : ℤ) (ackedBitrate : Option DataRate) :
    Bool × DataRate × A :=
  let updated := o.update (s.activeState o) ackedBitrate atTime s.rateControl
  (o.validEstimate updated.2, updated.1, updated.2)

/-- The estimate by the state of the detector, and the rate control after it. -/
def estimateBitrate (s : DelayBasedBwe I T A) (ackedBitrate probeBitrate : Option DataRate)
    (recoveredFromOveruse : Bool) (atTime : ℤ) : DelayResult × A :=
  if s.activeState o = .overusing then
    match ackedBitrate with
    | some acked =>
      if o.timeToReduceFurther atTime acked s.rateControl then
        let estimate := s.updateEstimate o atTime ackedBitrate
        ({ updated := estimate.1, targetBitrate := estimate.2.1 }, estimate.2.2)
      else ({}, s.rateControl)
    | none =>
      if o.validEstimate s.rateControl && o.initialTimeToReduceFurther atTime s.rateControl then
        -- no acknowledged bitrate yet: half of the rate, every 200 ms
        let rateControl := o.setEstimate (o.halve (o.latestEstimate s.rateControl)) atTime s.rateControl
        ({ updated := true, targetBitrate := o.latestEstimate rateControl }, rateControl)
      else ({}, s.rateControl)
  else
    match probeBitrate with
    | some probe =>
      let rateControl := o.setEstimate probe atTime s.rateControl
      ({ updated := true, probe := true, targetBitrate := o.latestEstimate rateControl }, rateControl)
    | none =>
      let estimate := s.updateEstimate o atTime ackedBitrate
      ({ updated := estimate.1
         targetBitrate := estimate.2.1
         recoveredFromOveruse := recoveredFromOveruse }, estimate.2.2)

def maybeUpdateEstimate (s : DelayBasedBwe I T A) (ackedBitrate probeBitrate : Option DataRate)
    (recoveredFromOveruse : Bool) (atTime : ℤ) : DelayOutcome I T A :=
  let estimate := s.estimateBitrate o ackedBitrate probeBitrate recoveredFromOveruse atTime
  let result := estimate.1
  let detectorState := s.activeState o
  let changed := (result.updated ∧ s.prevBitrate ≠ result.targetBitrate) ∨ detectorState ≠ s.prevState
  let bitrate := if result.updated then result.targetBitrate else s.prevBitrate
  let noted := if changed then { s with prevBitrate := bitrate, prevState := detectorState } else s
  { bwe := { noted with rateControl := estimate.2 }
    result := { result with delayDetectorState := detectorState }
    stateRows :=
      [{ atTimeMs := units.ms atTime
         detectorState := detectorState
         targetBps := if result.updated then result.targetBitrate else noted.prevBitrate
         recoveredFromOveruse := recoveredFromOveruse }]
    events := if changed then [(bitrate, detectorState)] else [] }

/-! ## A vector of feedback -/

/-- The variables of the loop over the packets. -/
structure FeedbackLoop (I T A : Type) where
  bwe : DelayBasedBwe I T A
  recoveredFromOveruse : Bool := false
  prevDetectorState : BandwidthUsage
  rows : List PacketFeedbackRow := []

def incomingPacket (atTime : ℤ) (l : FeedbackLoop I T A) (p : PacketResult) : FeedbackLoop I T A :=
  let handled := l.bwe.incomingPacketFeedback units o separateAudio p atTime
  { bwe := handled.1
    recoveredFromOveruse := l.recoveredFromOveruse ||
      decide (l.prevDetectorState = .underusing ∧ handled.1.activeState o = .normal)
    prevDetectorState := handled.1.activeState o
    rows := l.rows ++ [handled.2] }

def incomingPackets (s : DelayBasedBwe I T A) (packets : List PacketResult) (atTime : ℤ) :
    FeedbackLoop I T A :=
  packets.foldl (incomingPacket units o separateAudio atTime)
    { bwe := s, prevDetectorState := s.activeState o }

/-- `packetFeedbackVector` is `msg.SortedByReceiveTime()`. -/
def incomingPacketFeedbackVector (s : DelayBasedBwe I T A) (packetFeedbackVector : List PacketResult)
    (feedbackTime : ℤ) (ackedBitrate probeBitrate : Option DataRate)
    (networkEstimate : Option NetworkStateEstimate) (inAlr : Bool) : DelayOutcome I T A :=
  if packetFeedbackVector = [] then { bwe := s }
  else
    let loop := s.incomingPackets units o separateAudio packetFeedbackVector feedbackTime
    let rateControl := o.setNetworkStateEstimate networkEstimate
      (o.setInApplicationLimitedRegion inAlr loop.bwe.rateControl)
    { maybeUpdateEstimate units o { loop.bwe with rateControl := rateControl } ackedBitrate probeBitrate
        loop.recoveredFromOveruse feedbackTime with
      packetRows := loop.rows }

/-! ## The other operations -/

/-- `TriggerOveruse`, without the rate it returns. -/
def triggerOveruse (s : DelayBasedBwe I T A) (atTime : ℤ) (linkCapacity : Option DataRate) :
    DelayBasedBwe I T A :=
  { s with rateControl := (o.update .overusing linkCapacity atTime s.rateControl).2 }

def onRttUpdate (s : DelayBasedBwe I T A) (avgRtt : ℤ) : DelayBasedBwe I T A :=
  { s with rateControl := o.setRtt avgRtt s.rateControl }

def setStartBitrate (s : DelayBasedBwe I T A) (startBitrate : DataRate) : DelayBasedBwe I T A :=
  { s with rateControl := o.setStartBitrate startBitrate s.rateControl }

def setMinBitrate (s : DelayBasedBwe I T A) (minBitrate : DataRate) : DelayBasedBwe I T A :=
  { s with rateControl := o.setMinBitrate minBitrate s.rateControl }

def getExpectedBwePeriod (s : DelayBasedBwe I T A) : ℤ := o.getExpectedBandwidthPeriod s.rateControl

end DelayBasedBwe

/-! ## Runs -/

inductive BweOp where
  | incomingPacketFeedbackVector (packetFeedbackVector : List PacketResult) (feedbackTime : ℤ)
      (ackedBitrate probeBitrate : Option DataRate) (networkEstimate : Option NetworkStateEstimate)
      (inAlr : Bool)
  | triggerOveruse (atTime : ℤ) (linkCapacity : Option DataRate)
  | onRttUpdate (avgRtt : ℤ)
  | setStartBitrate (startBitrate : DataRate)
  | setMinBitrate (minBitrate : DataRate)

namespace DelayBasedBwe

def perform (s : DelayBasedBwe I T A) : BweOp → DelayOutcome I T A
  | .incomingPacketFeedbackVector packets feedbackTime acked probe estimate inAlr =>
    s.incomingPacketFeedbackVector units o separateAudio packets feedbackTime acked probe estimate inAlr
  | .triggerOveruse atTime linkCapacity => { bwe := s.triggerOveruse o atTime linkCapacity }
  | .onRttUpdate avgRtt => { bwe := s.onRttUpdate o avgRtt }
  | .setStartBitrate startBitrate => { bwe := s.setStartBitrate o startBitrate }
  | .setMinBitrate minBitrate => { bwe := s.setMinBitrate o minBitrate }

def next (s : DelayBasedBwe I T A) (op : BweOp) : DelayBasedBwe I T A :=
  (s.perform units o separateAudio op).bwe

end DelayBasedBwe

abbrev BweRun : List (DelayBasedBwe I T A × BweOp) → DelayBasedBwe I T A → Prop :=
  Run (fun s op t => t = s.next units o separateAudio op) (.create o)

end Bwe
end WebrtcTrace.Congestion
