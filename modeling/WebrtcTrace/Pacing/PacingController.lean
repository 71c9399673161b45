import WebrtcTrace.Foundations.Runs
import WebrtcTrace.Foundations.StatePrograms
import Mathlib.Algebra.Order.Ring.Int
import Mathlib.Data.Multiset.AddSub

/-! # `webrtc::PacingController` (`modules/pacing/pacing_controller.cc`)

The controller decides when the packets of its queue leave. Rates are bits a second, sizes are bytes and
times are microseconds, all finite. The queue, the clock, the packet sender and the bitrate prober belong
to the checkout the overlay is applied to; they are an `Outside` with a state of its own that every call
may change, so any behaviour is allowed. A `Session` is the controller, the two states outside and the
calls made there that a `Call` stands for, in order, each with the controller and the queue it was made
from.
-/

namespace WebrtcTrace.Pacing
open StatePrograms Runs
set_option autoImplicit false

/-! ## Packets -/

inductive RtpPacketMediaType where
  | audio
  | video
  | retransmission
  | forwardErrorCorrection
  | padding
  deriving DecidableEq, Repr

/-- `packetType` is set: `EnqueuePacket` checks it. -/
structure RtpPacketToSend where
  ssrc : UInt32
  packetType : RtpPacketMediaType
  isKeyFrame : Bool
  isFirstPacketOfFrame : Bool
  headersSize : ℕ
  payloadSize : ℕ
  paddingSize : ℕ
  size : ℕ
  deriving DecidableEq, Repr

/-- No cluster id stands for `kNotAProbe`. -/
structure PacedPacketInfo where
  probeClusterId : Option ℕ := none
  probeClusterBytesSent : ℤ := 0
  deriving DecidableEq, Repr

structure PacerConfig where
  dataRate : ℤ
  padRate : ℤ
  timeWindow : ℤ
  deriving DecidableEq, Repr

/-- A row of `pacer_rate.csv`. -/
structure PacerRow where
  timestampMs : ℤ
  batchBytes : ℤ
  packetsSent : ℕ
  pacingRateBps : ℤ
  queuePackets : ℤ
  queueBytes : ℤ
  isProbing : Bool
  deriving DecidableEq, Repr

/-! ## Outside the controller -/

/-- A time that may be infinite. -/
inductive Instant where
  | minusInfinity
  | at (time : ℤ)
  | plusInfinity
  deriving DecidableEq, Repr

/-- What the controller calls. `Q` is the state of `packet_queue_`, `W` that of the clock, the packet
sender and the prober. -/
structure Outside (Q W : Type) where
  /-- `DataRate * TimeDelta` -/
  times : ℤ → ℤ → ℤ
  /-- `DataSize / DataRate` -/
  drainTime : ℤ → ℤ → ℤ
  /-- `DataSize / TimeDelta` -/
  rateOver : ℤ → ℤ → ℤ
  /-- `Timestamp::ms()` -/
  ms : ℤ → ℤ
  /-- `PacerConfig::Create` without its first argument. -/
  createPacerConfig : ℤ → ℤ → ℤ → PacerConfig
  kMaxBurstSize : ℤ
  /-- Whether `pacer_rate.csv` could be opened. -/
  logOpen : Bool
  isEmpty : Q → Bool
  sizeInPackets : Q → ℤ
  sizeInPayloadBytes : Q → ℤ
  hasKeyframePackets : UInt32 → Q → Bool
  leadingPacketEnqueueTime : RtpPacketMediaType → Q → Option ℤ
  leadingPacketEnqueueTimeForRetransmission : Q → Option ℤ
  averageQueueTime : Q → ℤ
  push : ℤ → RtpPacketToSend → Q → Q
  pop : Q → Option RtpPacketToSend × Q
  removePacketsForSsrc : UInt32 → Q → Q
  updateAverageQueueTime : ℤ → Q → Q
  setPauseState : Bool → ℤ → Q → Q
  currentTime : W → ℤ × W
  sendPacket : RtpPacketToSend → PacedPacketInfo → W → W
  fetchFec : W → List RtpPacketToSend × W
  generatePadding : ℤ → W → List RtpPacketToSend × W
  getRtxSsrcForMedia : UInt32 → W → Option UInt32
  onBatchComplete : W → W
  isProbing : W → Bool
  nextProbeTime : ℤ → W → Instant
  currentCluster : ℤ → W → Option PacedPacketInfo × W
  recommendedMinProbeSize : W → ℤ
  onIncomingPacket : ℤ → W → W
  probeSent : ℤ → ℤ → W → W

/-! ## The controller -/

structure PacingController where
  drainLargeQueues : Bool
  sendPaddingIfSilent : Bool
  paceAudio : Bool
  ignoreTransportOverhead : Bool
  fastRetransmissions : Bool
  keyframeFlushing : Bool
  transportOverheadPerPacket : ℤ
  sendBurstInterval : ℤ
  lastTimestamp : ℤ
  paused : Bool
  mediaDebt : ℤ
  paddingDebt : ℤ
  pacingRate : ℤ
  adjustedMediaRate : ℤ
  paddingRate : ℤ
  probingSendFailure : Bool
  lastProcessTime : ℤ
  lastSendTime : ℤ
  firstSentPacketTime : Option ℤ
  seenFirstPacket : Bool
  congested : Bool
  queueTimeLimit : ℤ
  accountForAudio : Bool
  includeOverhead : Bool
  circuitBreakerThreshold : ℤ
  deriving DecidableEq, Repr

def kCongestedPacketInterval : ℤ := 500000

def kMaxDebtInTime : ℤ := 500000

def kMaxElapsedTime : ℤ := 2000000

def kPausedProcessInterval : ℤ := kCongestedPacketInterval

def kTargetPaddingDuration : ℤ := 5000

def kMaxPaddingReplayDuration : ℤ := 50000

def kMaxEarlyProbeProcessing : ℤ := 1000

/-- What the field trials and the configuration set. -/
structure Settings where
  drainLargeQueues : Bool
  sendPaddingIfSilent : Bool
  paceAudio : Bool
  ignoreTransportOverhead : Bool
  fastRetransmissions : Bool
  keyframeFlushing : Bool
  sendBurstInterval : ℤ
  queueTimeLimit : ℤ

/-- The constructor reads the clock twice. -/
def PacingController.create (settings : Settings) (firstReading secondReading : ℤ) :
    PacingController where
  drainLargeQueues := settings.drainLargeQueues
  sendPaddingIfSilent := settings.sendPaddingIfSilent
  paceAudio := settings.paceAudio
  ignoreTransportOverhead := settings.ignoreTransportOverhead
  fastRetransmissions := settings.fastRetransmissions
  keyframeFlushing := settings.keyframeFlushing
  transportOverheadPerPacket := 0
  sendBurstInterval := settings.sendBurstInterval
  lastTimestamp := firstReading
  paused := false
  mediaDebt := 0
  paddingDebt := 0
  pacingRate := 0
  adjustedMediaRate := 0
  paddingRate := 0
  probingSendFailure := false
  lastProcessTime := secondReading
  lastSendTime := secondReading
  firstSentPacketTime := none
  seenFirstPacket := false
  congested := false
  queueTimeLimit := settings.queueTimeLimit
  accountForAudio := false
  includeOverhead := false
  circuitBreakerThreshold := 65536

/-- What moves or logs packets, and what is noted as sent. The clock's and the prober's answers, the
queue's averages and the ends of batches are not among the calls. -/
inductive Call where
  | push (packet : RtpPacketToSend)
  | pop (packet : RtpPacketToSend)
  | removePacketsForSsrc (ssrc : UInt32)
  | generatePadding (size : ℤ) (packets : List RtpPacketToSend)
  | fetchFec (packets : List RtpPacketToSend)
  | sendPacket (packet : RtpPacketToSend) (info : PacedPacketInfo)
  | onPacketSent (packetType : RtpPacketMediaType) (size : ℤ) (sendTime : ℤ)
  | log (row : PacerRow)
  deriving DecidableEq, Repr

structure Session (Q W : Type) where
  pacer : PacingController
  queue : Q
  world : W
  calls : List (PacingController × Q × Call)

variable {Q W : Type} (o : Outside Q W)

namespace PacingController

/-! ## Budgets -/

def updateTimeAndGetElapsed (c : PacingController) (now : ℤ) :
    ℤ × PacingController :=
  if now < c.lastProcessTime then (0, c)
  else (min (now - c.lastProcessTime) kMaxElapsedTime, { c with lastProcessTime := now })

def updateBudgetWithElapsedTime (c : PacingController) (delta : ℤ) : PacingController :=
  { c with
    mediaDebt := c.mediaDebt - min c.mediaDebt (o.times c.adjustedMediaRate delta)
    paddingDebt := c.paddingDebt - min c.paddingDebt (o.times c.paddingRate delta) }

def updatePaddingBudgetWithSentData (c : PacingController) (size : ℤ) : PacingController :=
  { c with paddingDebt := min (c.paddingDebt + size) (o.times c.paddingRate kMaxDebtInTime) }

def updateBudgetWithSentData (c : PacingController) (size : ℤ) : PacingController :=
  updatePaddingBudgetWithSentData o
    { c with mediaDebt := min (c.mediaDebt + size) (o.times c.adjustedMediaRate kMaxDebtInTime) } size

def onPacketSent (c : PacingController) (packetType : RtpPacketMediaType) (packetSize : ℤ)
    (sendTime : ℤ) : PacingController :=
  let c := if c.firstSentPacketTime = none ∧ packetType ≠ .padding then
    { c with firstSentPacketTime := some sendTime } else c
  let c := if (packetType ≠ .audio ∨ c.accountForAudio) ∧ 0 < packetSize then
    updateBudgetWithSentData o c packetSize else c
  { c with lastSendTime := sendTime }

/-- The size a packet of the send loop counts with. -/
def packetSize (c : PacingController) (packet : RtpPacketToSend) : ℤ :=
  packet.payloadSize + packet.paddingSize +
    if c.includeOverhead then packet.headersSize + c.transportOverheadPerPacket else 0

/-! ## When to send -/

def shouldSendKeepalive (c : PacingController) (now : ℤ) : Bool :=
  (c.sendPaddingIfSilent || c.paused || c.congested || !c.seenFirstPacket) &&
    decide (kCongestedPacketInterval ≤ now - c.lastSendTime)

/-- `none` stands for `MinusInfinity`. -/
def nextUnpacedSendTime (c : PacingController) (q : Q) : Option ℤ :=
  match if c.paceAudio then none else o.leadingPacketEnqueueTime .audio q with
  | some time => some time
  | none => if c.fastRetransmissions then o.leadingPacketEnqueueTimeForRetransmission q else none

/-- The time of the next probe, if it takes priority. -/
def probeTime (c : PacingController) (w : W) (now : ℤ) : Option ℤ :=
  if o.isProbing w ∧ c.probingSendFailure = false then
    match o.nextProbeTime now w with
    | .plusInfinity => none
    | .minusInfinity => some now
    | .at time => some time
  else none

/-- The end of `NextSendTime`: the time the debts allow. -/
def pacedSendTime (c : PacingController) (q : Q) : ℤ :=
  let next :=
    if 0 < c.adjustedMediaRate ∧ o.isEmpty q = false then
      let drainTime := o.drainTime c.mediaDebt c.adjustedMediaRate
      let sendBurstInterval := min c.sendBurstInterval (o.drainTime o.kMaxBurstSize c.adjustedMediaRate)
      c.lastProcessTime + if drainTime < sendBurstInterval then 0 else drainTime
    else if 0 < c.paddingRate ∧ o.isEmpty q then
      let drainTime := max (o.drainTime c.mediaDebt c.adjustedMediaRate)
        (o.drainTime c.paddingDebt c.paddingRate)
      c.lastProcessTime +
        if drainTime = 0 ∧ (c.mediaDebt ≠ 0 ∨ c.paddingDebt ≠ 0) then 1 else drainTime
    else c.lastProcessTime + kPausedProcessInterval
  if c.sendPaddingIfSilent then min next (c.lastSendTime + kPausedProcessInterval) else next

/-- `NextSendTime` after its reading of the clock. -/
def nextSendTimeAt (c : PacingController) (q : Q) (w : W) (now : ℤ) : ℤ :=
  if c.paused then c.lastSendTime + kPausedProcessInterval
  else match c.probeTime o w now with
    | some time => time
    | none => match c.nextUnpacedSendTime o q with
      | some time => time
      | none =>
        if c.congested ∨ c.seenFirstPacket = false then c.lastSendTime + kCongestedPacketInterval
        else c.pacedSendTime o q

def queueSizeData (c : PacingController) (q : Q) : ℤ :=
  o.sizeInPayloadBytes q +
    if c.includeOverhead then o.sizeInPackets q * c.transportOverheadPerPacket else 0

def paddingToAdd (c : PacingController) (q : Q) (recommendedProbeSize dataSent : ℤ) : ℤ :=
  if o.isEmpty q = false then 0
  else if c.congested then 0
  else if recommendedProbeSize ≠ 0 then
    if dataSent < recommendedProbeSize then recommendedProbeSize - dataSent else 0
  else if 0 < c.paddingRate ∧ c.paddingDebt = 0 then o.times c.paddingRate kTargetPaddingDuration
  else 0

/-- The checks of `GetPendingPacket` that hold the next packet of the queue back. -/
def holdsBack (c : PacingController) (q : Q) (pacingInfo : PacedPacketInfo)
    (targetSendTime now : ℤ) : Bool :=
  (c.nextUnpacedSendTime o q).isNone && pacingInfo.probeClusterId.isNone &&
    (c.congested || (decide (now ≤ targetSendTime) && decide (c.sendBurstInterval = 0) &&
      decide (targetSendTime < now + o.drainTime c.mediaDebt c.adjustedMediaRate)))

end PacingController

/-! ## Programs -/

abbrev Program (Q W α : Type) := StateM (Session Q W) α

/-- An update of the controller alone. -/
def onPacer (f : PacingController → PacingController) : Program Q W PUnit :=
  modify fun s => { s with pacer := f s.pacer }

def onQueue (f : Q → Q) : Program Q W PUnit := modify fun s => { s with queue := f s.queue }

def onWorld (f : W → W) : Program Q W PUnit := modify fun s => { s with world := f s.world }

def askWorld {α : Type} (f : W → α × W) : Program Q W α :=
  modifyGet fun s => ((f s.world).1, { s with world := (f s.world).2 })

def note (call : Call) : Program Q W PUnit :=
  modify fun s => { s with calls := s.calls ++ [(s.pacer, s.queue, call)] }

def currentTime : Program Q W ℤ := do
  let time ← askWorld o.currentTime
  onPacer fun c => { c with lastTimestamp := max time c.lastTimestamp }
  return (← get).pacer.lastTimestamp

def nextSendTime : Program Q W ℤ := do
  let now ← currentTime o
  let s ← get
  return s.pacer.nextSendTimeAt o s.queue s.world now

/-- `UpdateBudgetWithElapsedTime(UpdateTimeAndGetElapsed(time))` -/
def drainUntil (time : ℤ) : Program Q W PUnit :=
  onPacer fun c => (c.updateTimeAndGetElapsed time).2.updateBudgetWithElapsedTime o
    (c.updateTimeAndGetElapsed time).1

def maybeUpdateMediaRateDueToLongQueue (now : ℤ) : Program Q W PUnit := do
  onPacer fun c => { c with adjustedMediaRate := c.pacingRate }
  let s ← get
  let queueSizeData := s.pacer.queueSizeData o s.queue
  when (s.pacer.drainLargeQueues = true ∧ 0 < queueSizeData) do
    onQueue (o.updateAverageQueueTime now)
    let q := (← get).queue
    let avgTimeLeft := max 1000 (s.pacer.queueTimeLimit - o.averageQueueTime q)
    let minRateNeeded := o.rateOver queueSizeData avgTimeLeft
    when (s.pacer.pacingRate < minRateNeeded) do
      onPacer fun c => { c with adjustedMediaRate := minRateNeeded }

def removePacketsForSsrc (ssrc : UInt32) : Program Q W PUnit := do
  note (.removePacketsForSsrc ssrc)
  onQueue (o.removePacketsForSsrc ssrc)

def sendPacket (packet : RtpPacketToSend) (info : PacedPacketInfo) : Program Q W PUnit := do
  note (.sendPacket packet info)
  onWorld (o.sendPacket packet info)

def generatePadding (size : ℤ) : Program Q W (List RtpPacketToSend) := do
  let packets ← askWorld (o.generatePadding size)
  note (.generatePadding size packets)
  return packets

def fetchFec : Program Q W (List RtpPacketToSend) := do
  let packets ← askWorld o.fetchFec
  note (.fetchFec packets)
  return packets

def popPacket : Program Q W (Option RtpPacketToSend) := do
  let s ← get
  match o.pop s.queue with
  | (none, q) => do
    onQueue fun _ => q
    return none
  | (some packet, q) => do
    note (.pop packet)
    onQueue fun _ => q
    return some packet

def onPacketSent (packetType : RtpPacketMediaType) (packetSize : ℤ) (sendTime : ℤ) :
    Program Q W PUnit := do
  note (.onPacketSent packetType packetSize sendTime)
  onPacer fun c => c.onPacketSent o packetType packetSize sendTime

/-! ## Packets that come in -/

/-- The first packet of a keyframe flushes its stream, unless keyframe packets wait already. -/
def flushForKeyframe (packet : RtpPacketToSend) : Program Q W PUnit := do
  let s ← get
  when (s.pacer.keyframeFlushing = true ∧ packet.packetType = .video ∧ packet.isKeyFrame = true ∧
      packet.isFirstPacketOfFrame = true ∧ o.hasKeyframePackets packet.ssrc s.queue = false) do
    removePacketsForSsrc o packet.ssrc
    match o.getRtxSsrcForMedia packet.ssrc s.world with
    | none => pure ⟨⟩
    | some rtxSsrc => removePacketsForSsrc o rtxSsrc

/-- An empty queue forwards the last process time: what passed is no budget for the new packet. -/
def fastForward (now : ℤ) : Program Q W PUnit := do
  let next ← nextSendTime o
  drainUntil o (min now next)

def enqueuePacket (packet : RtpPacketToSend) : Program Q W PUnit := do
  flushForKeyframe o packet
  onWorld (o.onIncomingPacket packet.size)
  let now ← currentTime o
  let s ← get
  when (o.isEmpty s.queue = true) (fastForward o now)
  note (.push packet)
  onQueue (o.push now packet)
  onPacer fun c => { c with seenFirstPacket := true }
  maybeUpdateMediaRateDueToLongQueue o now

/-! ## Packets that go out -/

/-- A probe begins with a small padding packet. -/
def probePadding (pacingInfo : PacedPacketInfo) : Program Q W (Option RtpPacketToSend) :=
  if pacingInfo.probeClusterId.isSome = true ∧ pacingInfo.probeClusterBytesSent = 0 then do
    let padding ← generatePadding o 1
    return padding.head?
  else return none

def getPendingPacket (pacingInfo : PacedPacketInfo) (targetSendTime now : ℤ) :
    Program Q W (Option RtpPacketToSend) := do
  match ← probePadding o pacingInfo with
  | some packet => return some packet
  | none =>
    let s ← get
    if o.isEmpty s.queue = true ∨ s.pacer.holdsBack o s.queue pacingInfo targetSendTime now = true then
      return none
    else popPacket o

/-- The variables of the send loop. -/
structure SendLoop where
  targetSendTime : ℤ
  pacingInfo : PacedPacketInfo
  dataSent : ℤ
  packetsSent : ℕ

/-- What the send loop only reads. -/
structure Batch where
  now : ℤ
  isProbing : Bool
  recommendedProbeSize : ℤ

/-- A round without a packet; the loop goes on with padding it could generate. -/
def padRound (b : Batch) (l : SendLoop) : Program Q W (SendLoop × Bool) := do
  let target := max l.targetSendTime (b.now - kMaxPaddingReplayDuration)
  when (l.targetSendTime < b.now - kMaxPaddingReplayDuration) do
    onPacer fun c => { c with lastProcessTime := max c.lastProcessTime target }
  let s ← get
  let paddingToAdd := s.pacer.paddingToAdd o s.queue b.recommendedProbeSize l.dataSent
  if 0 < paddingToAdd then do
    let packets ← generatePadding o paddingToAdd
    if packets.isEmpty = true then do
      onPacer fun c => c.updatePaddingBudgetWithSentData o paddingToAdd
      return ({ l with targetSendTime := target }, false)
    else do
      packets.forM (enqueuePacket o)
      return ({ l with targetSendTime := target }, true)
  else return ({ l with targetSendTime := target }, false)

def SendLoop.sent (l : SendLoop) (b : Batch) (packetSize : ℤ) : SendLoop :=
  { l with
    dataSent := l.dataSent + packetSize
    packetsSent := l.packetsSent + 1
    pacingInfo := if b.isProbing then
      { l.pacingInfo with probeClusterBytesSent := l.pacingInfo.probeClusterBytesSent + packetSize }
      else l.pacingInfo }

def packetRound (b : Batch) (packet : RtpPacketToSend) (l : SendLoop) :
    Program Q W (SendLoop × Bool) := do
  let s ← get
  let packetSize := s.pacer.packetSize packet
  sendPacket o packet l.pacingInfo
  let fec ← fetchFec o
  fec.forM (enqueuePacket o)
  onPacketSent o packet.packetType packetSize b.now
  let l := l.sent b packetSize
  if b.isProbing = true ∧ b.recommendedProbeSize ≤ l.dataSent then return (l, false)
  else do
    let target ← nextSendTime o
    if b.now < target ∧ b.isProbing = false then return ({ l with targetSendTime := target }, false)
    else do
      let target := min target b.now
      drainUntil o target
      return ({ l with targetSendTime := target }, true)

def sendRound (b : Batch) (l : SendLoop) : Program Q W (SendLoop × Bool) := do
  match ← getPendingPacket o l.pacingInfo l.targetSendTime b.now with
  | none => padRound o b l
  | some packet => packetRound o b packet l

/-- At most `iterations` rounds; the second result is whether the circuit breaker tripped. -/
def sendLoop (b : Batch) : ℕ → SendLoop → Program Q W (SendLoop × Bool)
  | 0, l => return (l, true)
  | iterations + 1, l => do
    let r ← sendRound o b l
    if r.2 = true then sendLoop b iterations r.1 else return (r.1, false)

def sendKeepalivePackets : List RtpPacketToSend → Program Q W ℤ
  | [] => return 0
  | packet :: packets => do
    sendPacket o packet {}
    let fec ← fetchFec o
    fec.forM (enqueuePacket o)
    let rest ← sendKeepalivePackets packets
    return packet.payloadSize + packet.paddingSize + rest

/-- Padding can only follow a normal packet. -/
def generateKeepalive : Program Q W (List RtpPacketToSend) := do
  let s ← get
  if s.pacer.seenFirstPacket = true then generatePadding o 1 else return []

def sendKeepalive (now : ℤ) : Program Q W PUnit := do
  let keepalivePackets ← generateKeepalive o
  let keepaliveDataSent ← sendKeepalivePackets o keepalivePackets
  onPacketSent o .padding keepaliveDataSent now

/-- The cluster of the packets to come and the size of the probe. -/
def beginProbe (now : ℤ) : Program Q W (PacedPacketInfo × Batch) := do
  let w := (← get).world
  if o.isProbing w = true then do
    let cluster ← askWorld (o.currentCluster now)
    let pacingInfo := cluster.getD {}
    let w := (← get).world
    if pacingInfo.probeClusterId.isSome = true then
      return (pacingInfo, ⟨now, true, o.recommendedMinProbeSize w⟩)
    else return (pacingInfo, ⟨now, false, 0⟩)
  else return ({}, ⟨now, false, 0⟩)

/-- A row for every call that sent something. -/
def logBatch (b : Batch) (l : SendLoop) : Program Q W PUnit := do
  let s ← get
  when (0 < l.dataSent ∧ o.logOpen = true) do
    note (.log {
      timestampMs := o.ms b.now
      batchBytes := l.dataSent
      packetsSent := l.packetsSent
      pacingRateBps := s.pacer.pacingRate
      queuePackets := o.sizeInPackets s.queue
      queueBytes := o.sizeInPayloadBytes s.queue
      isProbing := b.isProbing })

/-- What follows the loop when the circuit breaker did not trip. -/
def endBatch (b : Batch) (l : SendLoop) : Program Q W PUnit := do
  when (b.isProbing = true) do
    onPacer fun c => { c with probingSendFailure := decide (l.dataSent = 0) }
    when (l.dataSent ≠ 0) do
      let time ← currentTime o
      onWorld (o.probeSent time l.dataSent)
  logBatch o b l
  let time ← currentTime o
  maybeUpdateMediaRateDueToLongQueue o time

/-- The part of `ProcessPackets` that sends from the queue. -/
def sendBatch (now targetSendTime : ℤ) : Program Q W PUnit := do
  let elapsed ← modifyGet fun s => ((s.pacer.updateTimeAndGetElapsed targetSendTime).1,
    { s with pacer := (s.pacer.updateTimeAndGetElapsed targetSendTime).2 })
  when (0 < elapsed) (onPacer fun c => c.updateBudgetWithElapsedTime o elapsed)
  let (pacingInfo, b) ← beginProbe o now
  let s ← get
  let r ← sendLoop o b s.pacer.circuitBreakerThreshold.toNat ⟨targetSendTime, pacingInfo, 0, 0⟩
  if r.2 = true then onPacer fun c => { c with lastSendTime := now, lastProcessTime := now }
  else endBatch o b r.1

def processPackets : Program Q W PUnit := do
  let now ← currentTime o
  let s ← get
  when (s.pacer.shouldSendKeepalive now = true) (sendKeepalive o now)
  let s ← get
  when (s.pacer.paused = false) do
    let earlyExecuteMargin := if o.isProbing s.world then kMaxEarlyProbeProcessing else 0
    let targetSendTime ← nextSendTime o
    if now + earlyExecuteMargin < targetSendTime then drainUntil o now
    else sendBatch o now targetSendTime
  onWorld o.onBatchComplete

/-! ## The other operations -/

def setPacerConfig (config : PacerConfig) : Program Q W PUnit := do
  onPacer fun c => { c with
    paddingRate := if config.dataRate < config.padRate then config.dataRate else config.padRate
    pacingRate := config.dataRate
    sendBurstInterval := config.timeWindow }
  let now ← currentTime o
  maybeUpdateMediaRateDueToLongQueue o now

def setPacingRates (pacingRate paddingRate : ℤ) : Program Q W PUnit := do
  let s ← get
  setPacerConfig o (o.createPacerConfig pacingRate paddingRate s.pacer.sendBurstInterval)

def setPaused (paused : Bool) : Program Q W PUnit := do
  onPacer fun c => { c with paused := paused }
  let now ← currentTime o
  onQueue (o.setPauseState paused now)

def setCongested (congested : Bool) : Program Q W PUnit := do
  let s ← get
  when (s.pacer.congested = true ∧ congested = false) do
    let now ← currentTime o
    drainUntil o now
  onPacer fun c => { c with congested := congested }

inductive PacerOp (W : Type) where
  | pause
  | resume
  | setCongested (congested : Bool)
  | setCircuitBreakerThreshold (numIterations : ℤ)
  | removePacketsForSsrc (ssrc : UInt32)
  | setPacingRates (pacingRate paddingRate : ℤ)
  | setPacerConfig (config : PacerConfig)
  | enqueuePacket (packet : RtpPacketToSend)
  | setAccountForAudioPackets (accountForAudio : Bool)
  | setIncludeOverhead
  | setTransportOverhead (overheadPerPacket : ℤ)
  | setSendBurstInterval (burstInterval : ℤ)
  | setQueueTimeLimit (limit : ℤ)
  | processPackets
  /-- The public `NextSendTime`: it reads the clock. -/
  | nextSendTime
  /-- Between two calls the clock, the packet sender and the prober change in any way. -/
  | outside (world : W)

def perform : PacerOp W → Program Q W PUnit
  | .pause => setPaused o true
  | .resume => setPaused o false
  | .setCongested congested => setCongested o congested
  | .setCircuitBreakerThreshold numIterations =>
    onPacer fun c => { c with circuitBreakerThreshold := numIterations }
  | .removePacketsForSsrc ssrc => removePacketsForSsrc o ssrc
  | .setPacingRates pacingRate paddingRate => setPacingRates o pacingRate paddingRate
  | .setPacerConfig config => setPacerConfig o config
  | .enqueuePacket packet => enqueuePacket o packet
  | .setAccountForAudioPackets accountForAudio =>
    onPacer fun c => { c with accountForAudio := accountForAudio }
  | .setIncludeOverhead => onPacer fun c => { c with includeOverhead := true }
  | .setTransportOverhead overheadPerPacket => onPacer fun c =>
    if c.ignoreTransportOverhead then c else { c with transportOverheadPerPacket := overheadPerPacket }
  | .setSendBurstInterval burstInterval =>
    onPacer fun c => { c with sendBurstInterval := burstInterval }
  | .setQueueTimeLimit limit => onPacer fun c => { c with queueTimeLimit := limit }
  | .processPackets => processPackets o
  | .nextSendTime => do
    let _ ← nextSendTime o
    return ⟨⟩
  | .outside world => onWorld fun _ => world

def next (s : Session Q W) (op : PacerOp W) : Session Q W := (perform o op s).2

/-- The operations of a new controller, in any order. -/
abbrev PacerRun (s₀ : Session Q W) : List (Session Q W × PacerOp W) → Session Q W → Prop :=
  Run (fun s op t => t = next o s op) s₀

/-- The operations of a new controller, with these objects outside. -/
def Session.create (settings : Settings) (firstReading secondReading : ℤ) (q : Q) (w : W) :
    Session Q W :=
  ⟨.create settings firstReading secondReading, q, w, []⟩

/-! ## A queue in order of arrival -/

/-- A queue of packets with their enqueue times, a clock that shows the time it is set to, and a sender
without padding, FEC and probes. -/
def Outside.fifo : Outside (List (ℤ × RtpPacketToSend)) ℤ where
  times rate time := (rate * time + 4000000) / 8000000
  drainTime size rate := size * 8000000 / rate
  rateOver size time := size * 8000000 / time
  ms time := time / 1000
  createPacerConfig dataRate padRate timeWindow := ⟨dataRate, padRate, timeWindow⟩
  kMaxBurstSize := 63000
  logOpen := true
  isEmpty q := q.isEmpty
  sizeInPackets q := q.length
  sizeInPayloadBytes q := (q.map fun e => (e.2.payloadSize + e.2.paddingSize : ℤ)).sum
  hasKeyframePackets ssrc q := q.any fun e => e.2.ssrc = ssrc && e.2.isKeyFrame
  leadingPacketEnqueueTime packetType q := (q.find? fun e => e.2.packetType = packetType).map (·.1)
  leadingPacketEnqueueTimeForRetransmission q :=
    (q.find? fun e => e.2.packetType = .retransmission).map (·.1)
  averageQueueTime _ := 0
  push now packet q := q ++ [(now, packet)]
  pop q := (q.head?.map (·.2), q.tail)
  removePacketsForSsrc ssrc q := q.filter fun e => e.2.ssrc ≠ ssrc
  updateAverageQueueTime _ q := q
  setPauseState _ _ q := q
  currentTime now := (now, now)
  sendPacket _ _ now := now
  fetchFec now := ([], now)
  generatePadding _ now := ([], now)
  getRtxSsrcForMedia _ _ := none
  onBatchComplete now := now
  isProbing _ := false
  nextProbeTime _ _ := .plusInfinity
  currentCluster _ now := (none, now)
  recommendedMinProbeSize _ := 0
  onIncomingPacket _ now := now
  probeSent _ _ now := now

/-- No trial is on, bursts of 40 ms, queues of 2 s. -/
def Settings.default : Settings := ⟨false, false, false, false, false, false, 40000, 2000000⟩

def fifoStart : Session (List (ℤ × RtpPacketToSend)) ℤ := .create .default 0 0 [] 0

def fifoHistory (ops : List (PacerOp ℤ)) : List (Session (List (ℤ × RtpPacketToSend)) ℤ × PacerOp ℤ) :=
  Runs.history (next .fifo) fifoStart ops

def fifoAfter (ops : List (PacerOp ℤ)) : Session (List (ℤ × RtpPacketToSend)) ℤ :=
  ops.foldl (next .fifo) fifoStart

theorem fifoAfter_run (ops : List (PacerOp ℤ)) :
    PacerRun .fifo fifoStart (fifoHistory ops) (fifoAfter ops) :=
  Run.of_next _ _ ops

/-- A video packet of 1000 bytes. -/
def videoPacket : RtpPacketToSend := ⟨1, .video, false, false, 20, 1000, 0, 1020⟩

end WebrtcTrace.Pacing
