import WebrtcTrace.Foundations.Runs
import Mathlib.Data.Rat.Floor
import Mathlib.Data.UInt

/-! # `webrtc::internal::VideoSendStreamImpl` (`video/video_send_stream_impl.cc`)

The part of the send stream between the bitrate allocator and the encoder: when the stream is registered
with the allocator and with which limits, the target the encoder gets, and which bitrate allocations are
sent. The encoder calls in from threads of its own and posts to the worker; a step of the system is one
call on the worker, one call of the encoder or one posted task, so a run is any interleaving of them.

Rates are bits a second, times are milliseconds. The RTP video sender, the allocator and the encoder
belong to the checkout the overlay is applied to; what they answer comes with the operation, and what an
allocation answers about its layers is a parameter. Doubles are exact quotients.
-/

namespace WebrtcTrace.Sending
open Runs
set_option autoImplicit false

/-! ## Data -/

inductive ContentType where
  | realtimeVideo
  | screen
  deriving DecidableEq, Repr

structure VideoStream where
  width : ℕ
  height : ℕ
  minBitrateBps : ℤ
  targetBitrateBps : ℤ
  maxBitrateBps : ℤ
  active : Bool
  bitratePriority : Option ℚ
  numTemporalLayers : Option ℕ
  deriving DecidableEq

structure SpatialLayer where
  active : Bool
  /-- Kilobits a second. -/
  maxBitrate : ℤ
  deriving DecidableEq, Repr

structure VideoEncoderConfig where
  maxBitrateBps : ℤ
  bitratePriority : ℚ
  spatialLayers : List SpatialLayer
  simulcastLayers : List VideoStream
  deriving DecidableEq

/-- The bitrate of each temporal layer of each spatial layer that has one. -/
structure VideoBitrateAllocation where
  bitrates : List (List (Option UInt32))
  deriving DecidableEq, Repr

structure VbaSendContext where
  lastSentAllocation : VideoBitrateAllocation
  throttledAllocation : Option VideoBitrateAllocation
  lastSendTimeMs : ℤ
  deriving DecidableEq, Repr

structure MediaStreamAllocationConfig where
  minBitrateBps : ℤ
  maxBitrateBps : ℤ
  padUpBitrateBps : ℤ
  priorityBitrateBps : ℤ
  enforceMinBitrate : Bool
  bitratePriority : ℚ
  /-- `kCanConsumeExtraRate` is set. -/
  canConsumeExtraRate : Bool
  deriving DecidableEq

structure BitrateAllocationUpdate where
  packetLossRatio : ℚ
  roundTripTimeMs : ℤ
  cwndReduceRatio : ℚ
  deriving DecidableEq

structure EncodedImage where
  rtpTimestamp : UInt32
  ntpTimeMs : ℤ
  captureTimeMs : ℤ
  encodedWidth : ℕ
  encodedHeight : ℕ
  size : ℕ
  frameType : ℤ
  spatialIndex : Option ℤ
  temporalIndex : Option ℤ
  qp : ℤ
  deriving DecidableEq, Repr

/-- A row of `sender_encoded_frames.csv`; a missing layer is written as `-1`. -/
structure EncodedFrameRow where
  timestampMs : ℤ
  image : EncodedImage
  encoderTargetBps : ℤ
  deriving DecidableEq, Repr

/-- A row of `sender_frame_drops.csv`. -/
structure FrameDropRow where
  timestampMs : ℤ
  rtpTimestamp : UInt32
  spatialIdx : ℤ
  isEndOfTemporalUnit : Bool
  encoderTargetBps : ℤ
  deriving DecidableEq, Repr

/-- What is fixed for the life of a stream. -/
structure SendConfig where
  kMaxSpatialLayers : ℕ
  kMaxTemporalStreams : ℕ
  /-- `HasBitrate` of an allocation. -/
  hasBitrate : VideoBitrateAllocation → ℕ → ℕ → Bool
  /-- `get_sum_bps` of an allocation. -/
  getSumBps : VideoBitrateAllocation → UInt32
  /-- `GetExperimentalMinVideoBitrate` for the codec of the stream. -/
  experimentalMinBitrate : Option ℤ
  isAv1 : Bool
  kDefaultMinVideoBitrateBps : ℤ
  suspendBelowMinBitrate : Bool
  hasAlrProbing : Bool
  encoderAv1PriorityBitrateOverrideBps : ℤ
  contentType : ContentType

def kMaxVbaSizeDifferencePercent : UInt32 := 10

def kMaxVbaThrottleTimeMs : ℤ := 500

def kMinDefaultAv1BitrateBps : ℤ := 15000

def SendConfig.getDefaultMinVideoBitrate (config : SendConfig) : ℤ :=
  if config.isAv1 then kMinDefaultAv1BitrateBps else config.kDefaultMinVideoBitrateBps

/-! ## Bitrate limits -/

/-- `static_cast<int>` of a double. -/
def truncate (q : ℚ) : ℤ := if 0 ≤ q then ⌊q⌋ else ⌈q⌉

def hysteresisFactor : ContentType → ℚ
  | .screen => 27 / 20
  | .realtimeVideo => 6 / 5

def calculateMaxPadBitrateBps (streams : List VideoStream) (isSvc : Bool) (contentType : ContentType)
    (minTransmitBitrateBps : ℤ) (padToMinBitrate alrProbing : Bool) : ℤ :=
  let activeStreams := streams.filter VideoStream.active
  let padUpToBitrateBps :=
    match activeStreams with
    | [] => 0
    | first :: others =>
      if others ≠ [] ∨ isSvc = true then
        if alrProbing then first.minBitrateBps
        else if isSvc then truncate (hysteresisFactor contentType * first.targetBitrateBps + 1 / 2)
        else
          let top := activeStreams.getLastD first
          min (truncate (hysteresisFactor contentType * top.minBitrateBps + 1 / 2)) top.targetBitrateBps +
            (activeStreams.dropLast.map VideoStream.targetBitrateBps).sum
      else if padToMinBitrate then first.minBitrateBps
      else 0
  max padUpToBitrateBps minTransmitBitrateBps

/-- Over the activity and the own maximum of each layer. -/
def calculateMaxBitrate (layers : List (Bool × ℤ)) (globalMaxBitrate : ℤ) : Option ℤ :=
  let active := layers.filter Prod.fst
  let caps := (active.map Prod.snd).filter (0 < ·)
  if active = [] then none
  else if caps = [] then if globalMaxBitrate = 0 then none else some globalMaxBitrate
  else some caps.sum

def VideoStream.cap (stream : VideoStream) : Bool × ℤ := (stream.active, max stream.maxBitrateBps 0)

def SpatialLayer.cap (layer : SpatialLayer) : Bool × ℤ := (layer.active, max (1000 * layer.maxBitrate) 0)

def getConfiguredMaxVideoBitrate (config : VideoEncoderConfig) : Option ℤ :=
  if config.spatialLayers ≠ [] then
    calculateMaxBitrate (config.spatialLayers.map SpatialLayer.cap) (max config.maxBitrateBps 0)
  else if config.simulcastLayers ≠ [] then
    calculateMaxBitrate (config.simulcastLayers.map VideoStream.cap) (max config.maxBitrateBps 0)
  else if 0 < config.maxBitrateBps then some config.maxBitrateBps
  else none

def hasActiveEncodings (config : VideoEncoderConfig) : Bool :=
  if config.spatialLayers ≠ [] then config.spatialLayers.any SpatialLayer.active
  else config.simulcastLayers.any VideoStream.active

/-! ## The stream -/

/-- A task the encoder posts to the worker. -/
inductive WorkerTask where
  | encoderConfigurationChanged (streams : List VideoStream) (isSvc : Bool) (contentType : ContentType)
      (minTransmitBitrateBps : ℤ)
  | bitrateAllocationUpdated (allocation : VideoBitrateAllocation)
  | imageEncoded
  deriving DecidableEq

structure VideoSendStream where
  /-- `rtp_video_sender_->IsActive()` -/
  isActive : Bool
  /-- `check_encoder_activity_task_.Running()` -/
  isRunning : Bool
  activity : Bool
  timedOut : Bool
  hasActiveEncodings : Bool
  disablePadding : Bool
  maxPaddingBitrate : ℤ
  encoderMinBitrate : ℤ
  encoderMaxBitrate : Option ℤ
  configuredMaxBitrate : ℤ
  encoderTargetRate : ℤ
  encoderTargetBpsForLogging : ℤ
  encoderBitratePriority : ℚ
  videoBitrateAllocationContext : Option VbaSendContext
  workerQueue : List WorkerTask
  deriving DecidableEq

inductive SendEvent where
  | setSending (sending : Bool)
  | addObserver (config : MediaStreamAllocationConfig)
  | removeObserver
  | sendKeyFrame
  | configureEncoder (config : VideoEncoderConfig)
  | stopEncoder
  | encoderBitrate (target link fractionLoss roundTripTimeMs : ℤ) (cwndReduceRatio : ℚ)
  | encoderTargetStats (bps : ℤ)
  | setEncodingData (width height numTemporalLayers : ℕ)
  | allocation (allocation : VideoBitrateAllocation) (nowMs : ℤ)
  | encodedImage (image : EncodedImage)
  | encodedRow (row : EncodedFrameRow)
  | dropRow (row : FrameDropRow)
  deriving DecidableEq

structure SendOutcome where
  state : VideoSendStream
  events : List SendEvent

variable (config : SendConfig)

def sameStreamsEnabled (lhs rhs : VideoBitrateAllocation) : Bool :=
  (List.range config.kMaxSpatialLayers).all fun si =>
    (List.range config.kMaxTemporalStreams).all fun ti =>
      config.hasBitrate lhs si ti == config.hasBitrate rhs si ti

/-- `is_similar`; the product is one of 32 bits. -/
def isSimilar (allocation last : VideoBitrateAllocation) : Bool :=
  decide (config.getSumBps last ≤ config.getSumBps allocation) &&
    decide (config.getSumBps allocation <
      config.getSumBps last * (100 + kMaxVbaSizeDifferencePercent) / 100) &&
    sameStreamsEnabled config allocation last

namespace VideoSendStream

def getAllocationConfig (s : VideoSendStream) : MediaStreamAllocationConfig where
  minBitrateBps := s.encoderMinBitrate
  maxBitrateBps := s.encoderMaxBitrate.getD 0
  padUpBitrateBps := if s.disablePadding then 0 else s.maxPaddingBitrate % 2 ^ 32
  priorityBitrateBps := config.encoderAv1PriorityBitrateOverrideBps
  enforceMinBitrate := !config.suspendBelowMinBitrate
  bitratePriority := s.encoderBitratePriority
  canConsumeExtraRate := config.contentType = .realtimeVideo

def startupVideoSendStream (s : VideoSendStream) : SendOutcome where
  state := { s with activity := false, timedOut := false, isRunning := true }
  events := [.addObserver (s.getAllocationConfig config), .sendKeyFrame]

def stopVideoSendStream (s : VideoSendStream) : SendOutcome where
  state := { s with isRunning := false }
  events := [.removeObserver, .encoderBitrate 0 0 0 0 0, .encoderTargetStats 0]

def start (s : VideoSendStream) : SendOutcome :=
  let s := { s with isActive := true }
  if !s.isRunning && s.hasActiveEncodings then
    let started := s.startupVideoSendStream config
    { started with events := .setSending true :: started.events }
  else ⟨s, [.setSending true]⟩

def stop (s : VideoSendStream) : SendOutcome :=
  if !s.isActive then ⟨s, []⟩
  else
    let s := { s with isActive := false }
    if s.isRunning then
      let stopped := s.stopVideoSendStream
      { stopped with events := .setSending false :: stopped.events }
    else ⟨s, [.setSending false]⟩

def stopPermanently (s : VideoSendStream) : SendOutcome :=
  let stopped := s.stop
  { stopped with events := .stopEncoder :: stopped.events }

def reconfigureVideoEncoder (s : VideoSendStream) (encoderConfig : VideoEncoderConfig) : SendOutcome :=
  let s := { s with
    hasActiveEncodings := Sending.hasActiveEncodings encoderConfig
    configuredMaxBitrate := max 0 encoderConfig.maxBitrateBps }
  let changed :=
    if s.hasActiveEncodings && s.isActive && !s.isRunning then s.startupVideoSendStream config
    else if !s.hasActiveEncodings && s.isRunning then s.stopVideoSendStream
    else ⟨s, []⟩
  { changed with events := changed.events ++ [.configureEncoder encoderConfig] }

def signalEncoderActive (s : VideoSendStream) : SendOutcome :=
  ⟨s, if s.isRunning then [.addObserver (s.getAllocationConfig config)] else []⟩

/-- The task that startup repeats every two seconds. -/
def checkEncoderActivity (s : VideoSendStream) : SendOutcome :=
  if !s.isRunning then ⟨s, []⟩
  else if !s.activity then
    -- SignalEncoderTimedOut
    { state := { s with timedOut := true, disablePadding := true }
      events := if !s.timedOut ∧ s.encoderTargetRate ≠ 0 then [.removeObserver] else [] }
  else if s.timedOut then
    { state := { s with timedOut := false, activity := false }
      events := (s.signalEncoderActive config).events }
  else ⟨{ s with activity := false }, []⟩

/-- The task of `OnBitrateAllocationUpdated`. -/
def updateAllocation (s : VideoSendStream) (allocation : VideoBitrateAllocation) (nowMs : ℤ) :
    SendOutcome :=
  if s.encoderTargetRate = 0 then ⟨s, []⟩
  else
    let sent : SendOutcome :=
      ⟨{ s with videoBitrateAllocationContext := some ⟨allocation, none, nowMs⟩ },
        [.allocation allocation nowMs]⟩
    match s.videoBitrateAllocationContext with
    | none => sent
    | some context =>
      if isSimilar config allocation context.lastSentAllocation = true ∧
          nowMs - context.lastSendTimeMs < kMaxVbaThrottleTimeMs then
        let throttled := { context with throttledAllocation := some allocation }
        ⟨{ s with videoBitrateAllocationContext := some throttled }, []⟩
      else sent

/-- The task of `OnEncoderConfigurationChanged`; there is a stream at least. -/
def changeEncoderConfiguration (s : VideoSendStream) (streams : List VideoStream) (isSvc : Bool)
    (contentType : ContentType) (minTransmitBitrateBps : ℤ) : SendOutcome :=
  match streams with
  | [] => ⟨s, []⟩
  | first :: others =>
    let encoderMinBitrate := config.experimentalMinBitrate.getD
      (max (max first.minBitrateBps 0) config.getDefaultMinVideoBitrate)
    let s := { s with
      encoderMinBitrate := encoderMinBitrate
      encoderBitratePriority := (streams.filterMap VideoStream.bitratePriority).sum
      encoderMaxBitrate := (calculateMaxBitrate (streams.map VideoStream.cap) s.configuredMaxBitrate).map
        (max encoderMinBitrate)
      maxPaddingBitrate := calculateMaxPadBitrateBps streams isSvc contentType minTransmitBitrateBps
        config.suspendBelowMinBitrate config.hasAlrProbing }
    { state := s
      events := .setEncodingData first.width first.height
          ((others.getLastD first).numTemporalLayers.getD 1) ::
        (s.signalEncoderActive config).events }

/-- The task of `OnEncodedImage`. -/
def imageEncoded (s : VideoSendStream) (nowMs : ℤ) : SendOutcome :=
  let enabled : SendOutcome :=
    if s.disablePadding then ({ s with disablePadding := false } : VideoSendStream).signalEncoderActive config
    else ⟨s, []⟩
  match enabled.state.videoBitrateAllocationContext.bind VbaSendContext.throttledAllocation with
  | none => enabled
  | some allocation =>
    let updated := enabled.state.updateAllocation config allocation nowMs
    { updated with events := enabled.events ++ updated.events }

def runTask (s : VideoSendStream) (nowMs : ℤ) : SendOutcome :=
  match s.workerQueue with
  | [] => ⟨s, []⟩
  | task :: tasks =>
    let s := { s with workerQueue := tasks }
    match task with
    | .encoderConfigurationChanged streams isSvc contentType minTransmitBitrateBps =>
      s.changeEncoderConfiguration config streams isSvc contentType minTransmitBitrateBps
    | .bitrateAllocationUpdated allocation => s.updateAllocation config allocation nowMs
    | .imageEncoded => s.imageEncoded config nowMs

def post (s : VideoSendStream) (task : WorkerTask) : VideoSendStream :=
  { s with workerQueue := s.workerQueue ++ [task] }

def onBitrateAllocationUpdated (s : VideoSendStream) (allocation : VideoBitrateAllocation)
    (isCurrent : Bool) (nowMs : ℤ) : SendOutcome :=
  if isCurrent then s.updateAllocation config allocation nowMs
  else ⟨s.post (.bitrateAllocationUpdated allocation), []⟩

def onEncodedImage (s : VideoSendStream) (image : EncodedImage) (nowMs : ℤ) : SendOutcome where
  state := ({ s with activity := true } : VideoSendStream).post .imageEncoded
  events := [.encodedRow ⟨nowMs, image, s.encoderTargetBpsForLogging⟩, .encodedImage image]

def onFrameDropped (s : VideoSendStream) (rtpTimestamp : UInt32) (spatialId : ℤ)
    (isEndOfTemporalUnit : Bool) (nowMs : ℤ) : SendOutcome where
  state := { s with activity := true }
  events := [.dropRow ⟨nowMs, rtpTimestamp, spatialId, isEndOfTemporalUnit,
    s.encoderTargetBpsForLogging⟩]

/-- The RTP video sender splits the update into these rates; the protection rate is returned. -/
def onBitrateUpdated (s : VideoSendStream) (update : BitrateAllocationUpdate)
    (payloadBitrate protectionBitrate : ℤ) : SendOutcome :=
  let linkAllocation := if protectionBitrate < payloadBitrate then payloadBitrate - protectionBitrate else 0
  let encoderTargetRate := s.encoderMaxBitrate.elim payloadBitrate fun cap => min cap payloadBitrate
  { state := { s with
      encoderTargetRate := encoderTargetRate
      encoderTargetBpsForLogging := encoderTargetRate }
    events := [.encoderBitrate encoderTargetRate (max encoderTargetRate linkAllocation)
        (truncate (update.packetLossRatio * 256)) update.roundTripTimeMs update.cwndReduceRatio,
      .encoderTargetStats encoderTargetRate] }

/-- The constructor, up to the first `ReconfigureVideoEncoder`. -/
def create (encoderConfig : VideoEncoderConfig) : VideoSendStream where
  isActive := false
  isRunning := false
  activity := false
  timedOut := false
  hasActiveEncodings := Sending.hasActiveEncodings encoderConfig
  disablePadding := true
  maxPaddingBitrate := 0
  encoderMinBitrate := 0
  encoderMaxBitrate := getConfiguredMaxVideoBitrate encoderConfig
  configuredMaxBitrate := max 0 encoderConfig.maxBitrateBps
  encoderTargetRate := 0
  encoderTargetBpsForLogging := 0
  encoderBitratePriority := encoderConfig.bitratePriority
  videoBitrateAllocationContext := none
  workerQueue := []

end VideoSendStream

/-! ## Runs -/

inductive SendOp where
  | start
  | stop
  | stopPermanently
  | reconfigureVideoEncoder (encoderConfig : VideoEncoderConfig)
  | checkEncoderActivity
  | onBitrateUpdated (update : BitrateAllocationUpdate) (payloadBitrate protectionBitrate : ℤ)
  | onBitrateAllocationUpdated (allocation : VideoBitrateAllocation) (isCurrent : Bool) (nowMs : ℤ)
  | onEncoderConfigurationChanged (streams : List VideoStream) (isSvc : Bool) (contentType : ContentType)
      (minTransmitBitrateBps : ℤ)
  | onEncodedImage (image : EncodedImage) (nowMs : ℤ)
  | onFrameDropped (rtpTimestamp : UInt32) (spatialId : ℤ) (isEndOfTemporalUnit : Bool) (nowMs : ℤ)
  | runTask (nowMs : ℤ)
  deriving DecidableEq

namespace VideoSendStream

def perform (s : VideoSendStream) : SendOp → SendOutcome
  | .start => s.start config
  | .stop => s.stop
  | .stopPermanently => s.stopPermanently
  | .reconfigureVideoEncoder encoderConfig => s.reconfigureVideoEncoder config encoderConfig
  | .checkEncoderActivity => s.checkEncoderActivity config
  | .onBitrateUpdated update payloadBitrate protectionBitrate =>
    s.onBitrateUpdated update payloadBitrate protectionBitrate
  | .onBitrateAllocationUpdated allocation isCurrent nowMs =>
    s.onBitrateAllocationUpdated config allocation isCurrent nowMs
  | .onEncoderConfigurationChanged streams isSvc contentType minTransmitBitrateBps =>
    ⟨s.post (.encoderConfigurationChanged streams isSvc contentType minTransmitBitrateBps), []⟩
  | .onEncodedImage image nowMs => s.onEncodedImage image nowMs
  | .onFrameDropped rtpTimestamp spatialId isEndOfTemporalUnit nowMs =>
    s.onFrameDropped rtpTimestamp spatialId isEndOfTemporalUnit nowMs
  | .runTask nowMs => s.runTask config nowMs

def next (s : VideoSendStream) (op : SendOp) : VideoSendStream := (s.perform config op).state

end VideoSendStream

/-- A run of a new stream: any interleaving of the worker and the encoder. -/
abbrev SendRun (encoderConfig : VideoEncoderConfig) :
    List (VideoSendStream × SendOp) → VideoSendStream → Prop :=
  Run (fun s op t => t = s.next config op) (.create encoderConfig)

/-- Everything a run calls outside, in order. -/
def sendEvents (tr : List (VideoSendStream × SendOp)) : List SendEvent :=
  tr.flatMap fun e => (e.1.perform config e.2).events

/-- A realtime stream without field trials. -/
def realtime : SendConfig where
  kMaxSpatialLayers := 5
  kMaxTemporalStreams := 4
  hasBitrate a si ti := ((a.bitrates.getD si []).getD ti none).isSome
  getSumBps a := (a.bitrates.flatten.map fun bitrate => bitrate.getD 0).sum
  experimentalMinBitrate := none
  isAv1 := false
  kDefaultMinVideoBitrateBps := 30000
  suspendBelowMinBitrate := false
  hasAlrProbing := false
  encoderAv1PriorityBitrateOverrideBps := 0
  contentType := .realtimeVideo

/-- One layer of up to a megabit. -/
def oneStream : VideoEncoderConfig :=
  ⟨1000000, 1, [], [⟨640, 480, 30000, 500000, 1000000, true, some 1, none⟩]⟩

theorem sendEvents_snoc (tr : List (VideoSendStream × SendOp)) (s : VideoSendStream) (op : SendOp) :
    sendEvents config (tr ++ [(s, op)]) = sendEvents config tr ++ (s.perform config op).events := by
  rw [sendEvents, List.flatMap_append, List.flatMap_singleton]
  rfl

end WebrtcTrace.Sending
