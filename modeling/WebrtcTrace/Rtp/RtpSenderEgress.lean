import WebrtcTrace.Foundations.Runs
import Mathlib.Algebra.Order.Ring.Int

/-! # `webrtc::RtpSenderEgress` (`modules/rtp_rtcp/source/rtp_sender_egress.cc`)

The last station of a packet before the network: it is stamped, waits for the end of its batch if packets
are batched, is logged in `rtp_send.csv`, handed to the transport, kept for retransmission and counted.

The transport, the packet history, the sequencer and the callback for statistics belong to the checkout the
overlay is applied to: what the transport answers comes with the operation, the sequence number with the
packet, and what the callback answers is a function of what it was told. Times are milliseconds.
-/

namespace WebrtcTrace.Rtp
open Runs
set_option autoImplicit false

/-! ## Packets -/

inductive RtpPacketMediaType where
  | audio
  | video
  | retransmission
  | forwardErrorCorrection
  | padding
  deriving DecidableEq, Repr

/-- `static_cast<int>` of the type. -/
def RtpPacketMediaType.code : RtpPacketMediaType → ℕ
  | audio => 0
  | video => 1
  | retransmission => 2
  | forwardErrorCorrection => 3
  | padding => 4

/-- `packet_type()` is set: `SendPacket` checks it. -/
structure RtpPacketToSend where
  ssrc : UInt32
  packetType : RtpPacketMediaType
  sequenceNumber : UInt16
  timestamp : UInt32
  marker : Bool
  headersSize : ℕ
  payloadSize : ℕ
  paddingSize : ℕ
  /-- Unless it is infinite. -/
  captureTime : Option ℤ
  transportSequenceNumber : Option ℤ
  /-- The header has room for a `TransportSequenceNumber`. -/
  extensionRegistered : Bool
  /-- `GetExtension<TransportSequenceNumber>()` -/
  transportSequenceExtension : Option UInt16
  allowRetransmission : Bool
  retransmittedSequenceNumber : Option UInt16
  sendAsEct1 : Bool
  deriving DecidableEq, Repr

def RtpPacketToSend.isMedia (p : RtpPacketToSend) : Bool :=
  p.packetType = .audio || p.packetType = .video

/-- `RtpSenderEgress::Packet`, without the pacing info. -/
structure Packet where
  rtpPacket : RtpPacketToSend
  now : ℤ
  deriving DecidableEq, Repr

/-- `PacketOptions`; no id stands for `-1`. -/
structure PacketOptions where
  packetId : Option ℤ
  isMedia : Bool
  includedInFeedback : Bool
  includedInAllocation : Bool
  sendAsEct1 : Bool
  batchable : Bool
  lastPacketInBatch : Bool
  deriving DecidableEq, Repr

/-- A row of `rtp_send.csv`. -/
structure RtpSendRow where
  sendTimeMs : ℤ
  ssrc : UInt32
  seqNum : UInt16
  rtpTimestamp : UInt32
  marker : Bool
  payloadSize : ℕ
  isAudio : Bool
  packetType : RtpPacketMediaType
  deriving DecidableEq, Repr

/-! ## Counters -/

structure RtpPacketCounter where
  headerBytes : ℕ := 0
  payloadBytes : ℕ := 0
  paddingBytes : ℕ := 0
  packets : ℕ := 0
  deriving DecidableEq, Repr

def RtpPacketCounter.ofPacket (p : RtpPacketToSend) : RtpPacketCounter :=
  ⟨p.headersSize, p.payloadSize, p.paddingSize, 1⟩

def RtpPacketCounter.add (a b : RtpPacketCounter) : RtpPacketCounter :=
  ⟨a.headerBytes + b.headerBytes, a.payloadBytes + b.payloadBytes, a.paddingBytes + b.paddingBytes,
    a.packets + b.packets⟩

structure StreamDataCounters where
  firstPacketTime : Option ℤ := none
  transmitted : RtpPacketCounter := {}
  retransmitted : RtpPacketCounter := {}
  fec : RtpPacketCounter := {}
  deriving DecidableEq, Repr

/-- What `UpdateRtpStats` does to the counters of a packet. -/
def StreamDataCounters.update (c : StreamDataCounters) (p : RtpPacketToSend) (now : ℤ) :
    StreamDataCounters where
  firstPacketTime := some (c.firstPacketTime.getD now)
  transmitted := c.transmitted.add (.ofPacket p)
  retransmitted :=
    if p.packetType = .retransmission then c.retransmitted.add (.ofPacket p) else c.retransmitted
  fec := if p.packetType = .forwardErrorCorrection then c.fec.add (.ofPacket p) else c.fec

/-! ## The egress -/

/-- A call of `DataCountersUpdated`. -/
abbrev CountersUpdate := UInt32 × StreamDataCounters

structure EgressConfig where
  enableSendPacketBatching : Bool
  isAudio : Bool
  ssrc : UInt32
  rtxSsrc : Option UInt32
  hasSendPacketObserver : Bool
  /-- What `GetDataCounters` of the callback answers for an SSRC, after these calls. -/
  rtpStatsCallback : Option (List CountersUpdate → UInt32 → StreamDataCounters)

structure RtpSenderEgress where
  packetsToSend : List Packet := []
  mediaHasBeenSent : Bool := false
  forcePartOfAllocation : Bool := false
  rtpStats : StreamDataCounters := {}
  rtxRtpStats : StreamDataCounters := {}
  /-- What the callback was told, in order. -/
  countersUpdated : List CountersUpdate := []
  /-- `transport_sequence_number_` of the sender that does not pace. -/
  transportSequenceNumber : UInt16 := 0

inductive EgressEvent where
  | onSendPacket (packetId : Option UInt16) (captureTime : ℤ) (ssrc : UInt32)
  | logRow (row : RtpSendRow)
  | sendRtp (packet : Packet) (options : PacketOptions) (success : Bool)
  | putRtpPacket (packet : Packet)
  | markPacketAsSent (sequenceNumber : UInt16)
  deriving DecidableEq, Repr

structure EgressOutcome where
  state : RtpSenderEgress
  events : List EgressEvent

variable (config : EgressConfig)

namespace RtpSenderEgress

def updateRtpStats (s : RtpSenderEgress) (p : Packet) : RtpSenderEgress :=
  let ssrc := p.rtpPacket.ssrc
  match config.rtpStatsCallback with
  | some getDataCounters =>
    let counters := (getDataCounters s.countersUpdated ssrc).update p.rtpPacket p.now
    { s with rtpStats := counters, countersUpdated := s.countersUpdated ++ [(ssrc, counters)] }
  | none =>
    if some ssrc = config.rtxSsrc then
      { s with rtxRtpStats := s.rtxRtpStats.update p.rtpPacket p.now }
    else { s with rtpStats := s.rtpStats.update p.rtpPacket p.now }

def packetOptions (s : RtpSenderEgress) (p : RtpPacketToSend) (lastInBatch : Bool) :
    PacketOptions where
  packetId := (p.transportSequenceExtension.map fun id => (id.toNat : ℤ)) <|> p.transportSequenceNumber
  isMedia := p.isMedia
  includedInFeedback := p.transportSequenceExtension.isSome
  includedInAllocation := s.forcePartOfAllocation || p.transportSequenceExtension.isSome
  sendAsEct1 := p.sendAsEct1
  batchable := config.enableSendPacketBatching && !config.isAudio
  lastPacketInBatch := lastInBatch

def observed (p : RtpPacketToSend) : List EgressEvent :=
  if config.hasSendPacketObserver = true ∧ p.packetType ≠ .padding ∧ p.packetType ≠ .retransmission then
    p.captureTime.toList.map fun time => .onSendPacket p.transportSequenceExtension time p.ssrc
  else []

def sendRow (p : Packet) : RtpSendRow where
  sendTimeMs := p.now
  ssrc := p.rtpPacket.ssrc
  seqNum := p.rtpPacket.sequenceNumber
  rtpTimestamp := p.rtpPacket.timestamp
  marker := p.rtpPacket.marker
  payloadSize := p.rtpPacket.payloadSize
  isAudio := config.isAudio
  packetType := p.rtpPacket.packetType

/-- What the packet history is told, whether or not the packet was sent. -/
def kept (p : Packet) : List EgressEvent :=
  if p.rtpPacket.isMedia && p.rtpPacket.allowRetransmission then [.putRtpPacket p]
  else p.rtpPacket.retransmittedSequenceNumber.toList.map .markPacketAsSent

def completeSendPacket (s : RtpSenderEgress) (p : Packet) (lastInBatch success : Bool) :
    EgressOutcome where
  state := if success then ({ s with mediaHasBeenSent := true } : RtpSenderEgress).updateRtpStats config p
    else s
  events := observed config p.rtpPacket ++
    (if p.rtpPacket.isMedia then [.logRow (sendRow config p)] else []) ++
    [.sendRtp p (s.packetOptions config p.rtpPacket lastInBatch) success] ++ kept p

/-- The extension gets the packet's own number, if there is one. -/
def stamp (p : RtpPacketToSend) : RtpPacketToSend :=
  match p.transportSequenceExtension, p.transportSequenceNumber with
  | some _, some number => { p with transportSequenceExtension := some (UInt16.ofNat (number % 2 ^ 16).toNat) }
  | _, _ => p

def sendPacket (s : RtpSenderEgress) (p : RtpPacketToSend) (now : ℤ) (success : Bool) : EgressOutcome :=
  if config.enableSendPacketBatching && !config.isAudio then
    ⟨{ s with packetsToSend := s.packetsToSend ++ [⟨stamp p, now⟩] }, []⟩
  else s.completeSendPacket config ⟨stamp p, now⟩ false success

/-- The loop of `OnBatchComplete`; the transport answers by position. -/
def completeAll (success : ℕ → Bool) : ℕ → List Packet → RtpSenderEgress → EgressOutcome
  | _, [], s => ⟨s, []⟩
  | i, p :: ps, s =>
    let completed := s.completeSendPacket config p ps.isEmpty (success i)
    let rest := completeAll success (i + 1) ps completed.state
    { rest with events := completed.events ++ rest.events }

def onBatchComplete (s : RtpSenderEgress) (success : ℕ → Bool) : EgressOutcome :=
  let completed := completeAll config success 0 s.packetsToSend s
  { completed with state := { completed.state with packetsToSend := [] } }

/-- `NonPacedPacketSender::PrepareForSend`, with the sequence number given. -/
def prepareForSend (s : RtpSenderEgress) (p : RtpPacketToSend) : RtpPacketToSend × RtpSenderEgress :=
  if p.extensionRegistered then
    let number := s.transportSequenceNumber + 1
    ({ p with transportSequenceExtension := some number }, { s with transportSequenceNumber := number })
  else (p, s)

/-- One turn of the loop of `NonPacedPacketSender::EnqueuePackets`. -/
def enqueueNonPaced (s : RtpSenderEgress) (p : RtpPacketToSend) (now : ℤ) (success : Bool) :
    EgressOutcome :=
  let prepared := s.prepareForSend p
  prepared.2.sendPacket config prepared.1 now success

/-- The counters of the media stream and, if there is one, of the RTX stream. -/
def getDataCounters (s : RtpSenderEgress) : StreamDataCounters × Option StreamDataCounters :=
  match config.rtpStatsCallback with
  | some getDataCounters =>
    (getDataCounters s.countersUpdated config.ssrc,
      config.rtxSsrc.map (getDataCounters s.countersUpdated))
  | none => (s.rtpStats, some s.rtxRtpStats)

end RtpSenderEgress

/-! ## Runs -/

inductive EgressOp where
  | sendPacket (packet : RtpPacketToSend) (now : ℤ) (success : Bool)
  | enqueueNonPaced (packet : RtpPacketToSend) (now : ℤ) (success : Bool)
  | onBatchComplete (success : ℕ → Bool)
  | forceIncludeSendPacketsInAllocation (partOfAllocation : Bool)
  | setMediaHasBeenSent (mediaSent : Bool)
  | onAbortedRetransmissions (sequenceNumbers : List UInt16)

namespace RtpSenderEgress

def perform (s : RtpSenderEgress) : EgressOp → EgressOutcome
  | .sendPacket p now success => s.sendPacket config p now success
  | .enqueueNonPaced p now success => s.enqueueNonPaced config p now success
  | .onBatchComplete success => s.onBatchComplete config success
  | .forceIncludeSendPacketsInAllocation part => ⟨{ s with forcePartOfAllocation := part }, []⟩
  | .setMediaHasBeenSent sent => ⟨{ s with mediaHasBeenSent := sent }, []⟩
  | .onAbortedRetransmissions sequenceNumbers => ⟨s, sequenceNumbers.map .markPacketAsSent⟩

def next (s : RtpSenderEgress) (op : EgressOp) : RtpSenderEgress := (s.perform config op).state

/-- The packet an operation brings, stamped. -/
def taken (s : RtpSenderEgress) : EgressOp → Option Packet
  | .sendPacket p now _ => some ⟨stamp p, now⟩
  | .enqueueNonPaced p now _ => some ⟨stamp (s.prepareForSend p).1, now⟩
  | _ => none

end RtpSenderEgress

abbrev EgressRun : List (RtpSenderEgress × EgressOp) → RtpSenderEgress → Prop :=
  Run (fun s op t => t = s.next config op) {}

/-- Everything a run calls outside, in order. -/
def egressEvents (tr : List (RtpSenderEgress × EgressOp)) : List EgressEvent :=
  tr.flatMap fun e => (e.1.perform config e.2).events

/-- The packets a run was given, in order. -/
def takenPackets (tr : List (RtpSenderEgress × EgressOp)) : List Packet :=
  tr.filterMap fun e => e.1.taken e.2

/-- A packet that was handed to the transport. -/
structure SentPacket where
  packet : Packet
  options : PacketOptions
  success : Bool
  deriving DecidableEq, Repr

def sentPackets (events : List EgressEvent) : List SentPacket :=
  events.filterMap fun e =>
    match e with
    | .sendRtp packet options success => some ⟨packet, options, success⟩
    | _ => none

/-- The rows written to `rtp_send.csv`. -/
def rtpSendRows (events : List EgressEvent) : List RtpSendRow :=
  events.filterMap fun e =>
    match e with
    | .logRow row => some row
    | _ => none

/-- The packets put into the history. -/
def keptPackets (events : List EgressEvent) : List Packet :=
  events.filterMap fun e =>
    match e with
    | .putRtpPacket packet => some packet
    | _ => none

end WebrtcTrace.Rtp
