import WebrtcTrace.Foundations.OrderedKeys
import WebrtcTrace.Foundations.Runs
import Mathlib.Data.UInt
import Mathlib.Logic.Function.Basic

/-! # `webrtc::video_coding::PacketBuffer` (`modules/video_coding/packet_buffer.h`, `packet_buffer.cc`)

Packets wait in the slot of their sequence number modulo the size of the buffer until a frame is
complete. `buffer_` is its size and a function from slot numbers; only slots below the size are used.

A packet has the fields the class reads or writes. `AheadOf`, `ForwardDiff` and
`DescendingSeqNumComp` belong to the checkout the overlay is applied to: they are the parameter
`SeqNumOps`.
-/

namespace WebrtcTrace.Packets
open Runs
set_option autoImplicit false

/-! ## Code outside the overlay -/

/-- `AheadOf` and `ForwardDiff` on `uint16_t`, and the order of the two sets of sequence numbers. -/
structure SeqNumOps where
  aheadOf : UInt16 → UInt16 → Bool
  forwardDiff : UInt16 → UInt16 → ℕ
  descending : UInt16 → UInt16 → Bool

/-- `ForwardDiff(a, b)` is the number of steps from `a` up to `b`, modulo 2^16. -/
def SeqNumOps.CountsSteps (S : SeqNumOps) : Prop := ∀ a b, S.forwardDiff a b = (b - a).toNat

/-- The half of the ring after a number is ahead of it; at the exact half the larger number is. -/
def SeqNumOps.halfRing : SeqNumOps where
  aheadOf a b := if a - b = 0x8000 then b < a else a != b && a - b < 0x8000
  forwardDiff a b := (b - a).toNat
  descending a b := if b - a = 0x8000 then a < b else b != a && b - a < 0x8000

/-! ## Data -/

inductive VideoFrameType where
  | empty
  | key
  | delta
  deriving DecidableEq, Repr

inductive NaluType where
  | sps
  | pps
  | idr
  | other
  deriving DecidableEq, Repr

/-- `isH264` is `codec() == kVideoCodecH264`, `isGeneric` is `video_header.generic.has_value()`, and
`nalus` are those of the H.264 header, if the packet has one. -/
structure Packet where
  seqNum : UInt16
  timestamp : UInt32
  isFirstPacketInFrame : Bool
  isLastPacketInFrame : Bool
  continuous : Bool := false
  markerBit : Bool := false
  ssrc : UInt32 := 0
  payloadSize : ℕ := 0
  isH264 : Bool := false
  isGeneric : Bool := false
  nalus : Option (List NaluType) := none
  width : ℤ := 0
  height : ℤ := 0
  frameType : VideoFrameType := .empty
  deriving DecidableEq, Repr

/-- A packet of a codec other than H.264. -/
def vp8Packet (seqNum : UInt16) (timestamp : UInt32) (first last : Bool) : Packet where
  seqNum := seqNum
  timestamp := timestamp
  isFirstPacketInFrame := first
  isLastPacketInFrame := last

/-- The loop over a frame's range looks at the slot of `seqNum`: what it finds there, with its
boundary flags set. -/
structure Moved where
  seqNum : UInt16
  packet : Option Packet
  deriving DecidableEq, Repr

/-- The two `RTC_DCHECK`s of that loop. -/
def Moved.Checked (m : Moved) : Prop := ∃ p, m.packet = some p ∧ p.seqNum = m.seqNum

/-- The frames in the order they were moved out. -/
structure InsertResult where
  frames : List (List Moved) := []
  bufferCleared : Bool := false
  deriving DecidableEq, Repr

/-- The vector the caller gets. -/
def InsertResult.packets (r : InsertResult) : List Packet := r.frames.flatten.filterMap Moved.packet

/-- Rows of `packet_buffer_events.csv` and `packet_buffer_inserts.csv`, without the time. -/
inductive LogRow where
  | bufferCleared (seqNum : UInt16)
  | frameAssembled (seqNum : UInt16) (framePacketCount : ℕ) (bufferCleared : Bool)
  | insert (ssrc : UInt32) (seqNum : UInt16) (rtpTimestamp : UInt32) (marker : Bool)
      (payloadSize missingCount : ℕ) (smallestMissing : ℤ)
  deriving DecidableEq, Repr

structure PacketBuffer where
  maxSize : ℕ
  firstSeqNum : UInt16
  firstPacketReceived : Bool
  isClearedToFirstSeqNum : Bool
  size : ℕ
  slot : ℕ → Option Packet
  newestInsertedSeqNum : Option UInt16
  missingPackets : List UInt16
  receivedPadding : List UInt16
  spsPpsIdrIsH264Keyframe : Bool

variable (S : SeqNumOps)

namespace PacketBuffer

def create (startBufferSize maxBufferSize : ℕ) : PacketBuffer where
  maxSize := maxBufferSize
  firstSeqNum := 0
  firstPacketReceived := false
  isClearedToFirstSeqNum := false
  size := startBufferSize
  slot := fun _ => none
  newestInsertedSeqNum := none
  missingPackets := []
  receivedPadding := []
  spsPpsIdrIsH264Keyframe := false

def index (s : PacketBuffer) (seqNum : UInt16) : ℕ := seqNum.toNat % s.size

def prevIndex (s : PacketBuffer) (i : ℕ) : ℕ := if 0 < i then i - 1 else s.size - 1

/-- `buffer_[i] = entry`. -/
def setSlot (s : PacketBuffer) (i : ℕ) (entry : Option Packet) : PacketBuffer :=
  { s with slot := Function.update s.slot i entry }

/-! ## Clearing and expanding -/

def clearInternal (s : PacketBuffer) : PacketBuffer := { s with
  slot := fun _ => none
  firstPacketReceived := false
  isClearedToFirstSeqNum := false
  newestInsertedSeqNum := none
  missingPackets := []
  receivedPadding := [] }

/-- The entry at `i` goes to its slot in a vector of the new size. -/
def moveEntry (s : PacketBuffer) (newSize : ℕ) (slots : ℕ → Option Packet) (i : ℕ) :
    ℕ → Option Packet :=
  match s.slot i with
  | none => slots
  | some p => Function.update slots (p.seqNum.toNat % newSize) (some p)

def rehash (s : PacketBuffer) (newSize : ℕ) : ℕ → Option Packet :=
  (List.range s.size).foldl (s.moveEntry newSize) fun _ => none

/-- `none` when the buffer has its maximum size already. -/
def expandBufferSize (s : PacketBuffer) : Option PacketBuffer :=
  if s.size = s.maxSize then none
  else
    let newSize := min s.maxSize (2 * s.size)
    some { s with size := newSize, slot := s.rehash newSize }

/-- The loop of `InsertPacket` that expands until the slot is free, with at most `fuel` rounds. -/
def expandUntilFree (seqNum : UInt16) : ℕ → PacketBuffer → PacketBuffer
  | 0, s => s
  | fuel + 1, s =>
    match s.expandBufferSize with
    | none => s
    | some t => if (t.slot (t.index seqNum)).isSome then expandUntilFree seqNum fuel t else t

def clearToLoop (seqNum : UInt16) : ℕ → PacketBuffer → PacketBuffer
  | 0, s => s
  | n + 1, s =>
    let i := s.index s.firstSeqNum
    let s := if (s.slot i).any fun p => S.aheadOf seqNum p.seqNum then s.setSlot i none else s
    clearToLoop seqNum n { s with firstSeqNum := s.firstSeqNum + 1 }

def clearTo (s : PacketBuffer) (seqNum : UInt16) : PacketBuffer :=
  if S.aheadOf s.firstSeqNum seqNum then s
  else if !s.firstPacketReceived then s
  else
    let seqNum := seqNum + 1
    let diff := S.forwardDiff s.firstSeqNum seqNum
    let s := clearToLoop S seqNum (min diff s.size) s
    { s with
      firstSeqNum := seqNum
      isClearedToFirstSeqNum := true
      missingPackets := OrderedKeys.fromLower S.descending seqNum s.missingPackets
      receivedPadding := OrderedKeys.fromLower S.descending seqNum s.receivedPadding }

/-! ## Missing packets -/

def kMaxPaddingAge : UInt16 := 1000

/-- Every number from `newest` up to `seqNum`, that one not included, is missing. The loop visits no
number twice. -/
def addMissing (seqNum : UInt16) : ℕ → UInt16 → List UInt16 → UInt16 × List UInt16
  | 0, newest, missing => (newest, missing)
  | fuel + 1, newest, missing =>
    if S.aheadOf seqNum newest then
      addMissing seqNum fuel (newest + 1) (OrderedKeys.insert S.descending newest missing)
    else (newest, missing)

def updateMissingPackets (s : PacketBuffer) (seqNum : UInt16) : PacketBuffer :=
  let newest := s.newestInsertedSeqNum.getD seqNum
  if S.aheadOf seqNum newest then
    let oldSeqNum := seqNum - kMaxPaddingAge
    let missing := OrderedKeys.fromLower S.descending oldSeqNum s.missingPackets
    let newest := (if S.aheadOf oldSeqNum newest then oldSeqNum else newest) + 1
    let (newest, missing) := addMissing S seqNum 65536 newest missing
    { s with newestInsertedSeqNum := some newest, missingPackets := missing }
  else { s with
    newestInsertedSeqNum := some newest
    missingPackets := OrderedKeys.eraseKey S.descending seqNum s.missingPackets }

/-! ## The backward search for the start of a frame -/

end PacketBuffer

/-- The variables of the search. -/
structure BackwardSearch where
  startSeqNum : UInt16
  isH264Descriptor : Bool
  hasH264Sps : Bool := false
  hasH264Pps : Bool := false
  hasH264Idr : Bool := false
  isH264Keyframe : Bool := false
  idrWidth : ℤ := -1
  idrHeight : ℤ := -1
  fullFrameFound : Bool := false
  deriving DecidableEq, Repr

def BackwardSearch.noteNalu (b : BackwardSearch) : NaluType → BackwardSearch
  | .sps => { b with hasH264Sps := true }
  | .pps => { b with hasH264Pps := true }
  | .idr => { b with hasH264Idr := true }
  | .other => b

namespace PacketBuffer

/-- The NAL units of one packet, and its resolution if the frame is a keyframe by now. -/
def noteHeader (s : PacketBuffer) (p : Packet) (nalus : List NaluType) (b : BackwardSearch) :
    BackwardSearch :=
  let b := nalus.foldl BackwardSearch.noteNalu b
  if (s.spsPpsIdrIsH264Keyframe && b.hasH264Idr && b.hasH264Sps && b.hasH264Pps) ||
      (!s.spsPpsIdrIsH264Keyframe && b.hasH264Idr) then
    if 0 < p.width ∧ 0 < p.height then
      { b with isH264Keyframe := true, idrWidth := p.width, idrHeight := p.height }
    else { b with isH264Keyframe := true }
  else b

/-- With an H.264 descriptor the entry must have an H.264 header, or `FindFrames` returns. -/
def readHeader (s : PacketBuffer) (entry : Option Packet) (b : BackwardSearch) :
    Option BackwardSearch :=
  if b.isH264Descriptor then
    entry.bind fun p => p.nalus.map fun nalus => s.noteHeader p nalus b
  else some b

/-- The generic descriptor is on the first packet of a frame only, so every entry is asked for it. -/
def askGeneric (entry : Option Packet) (b : BackwardSearch) : BackwardSearch :=
  { b with isH264Descriptor := b.isH264Descriptor && !entry.any (·.isGeneric) }

/-- The loop from the entry at `i` on, with `n` slots left to test. `none` when `FindFrames` returns
from within it. -/
def searchBack (s : PacketBuffer) (frameTimestamp : UInt32) :
    ℕ → ℕ → BackwardSearch → Option BackwardSearch
  | 0, _, b => some b
  | n + 1, i, b =>
    let b := askGeneric (s.slot i) b
    if !b.isH264Descriptor && (s.slot i).all (·.isFirstPacketInFrame) then
      some { b with fullFrameFound := (s.slot i).isSome }
    else (s.readHeader (s.slot i) b).bind fun b =>
      if n = 0 then some b
      else
        let prev := s.prevIndex i
        if b.isH264Descriptor && !(s.slot prev).any (·.timestamp == frameTimestamp) then some b
        else searchBack s frameTimestamp n prev { b with startSeqNum := b.startSeqNum - 1 }

/-! ## Complete frames -/

/-- The frame type, and for a keyframe the resolution, of the first packet of a frame. -/
def describeFirst (s : PacketBuffer) (b : BackwardSearch) : PacketBuffer :=
  s.setSlot (s.index b.startSeqNum) ((s.slot (s.index b.startSeqNum)).map fun p =>
    if b.isH264Keyframe then
      if 0 < b.idrWidth ∧ 0 < b.idrHeight then
        { p with frameType := .key, width := b.idrWidth, height := b.idrHeight }
      else { p with frameType := .key }
    else { p with frameType := .delta })

/-- Moves the `n` entries from number `j` on out of the buffer, as a frame from `first` to `last`. -/
def moveOut (first last : UInt16) : ℕ → UInt16 → PacketBuffer → List Moved × PacketBuffer
  | 0, _, s => ([], s)
  | n + 1, j, s =>
    let packet := (s.slot (s.index j)).map fun p => { p with
      isFirstPacketInFrame := j == first, isLastPacketInFrame := j == last }
    let (rest, t) := moveOut first last n (j + 1) (s.setSlot (s.index j) none)
    (⟨j, packet⟩ :: rest, t)

/-- What the last packet of a frame leads to: the frame moved out, if it is complete, and whether
`FindFrames` returns at this point. -/
structure FrameEnd where
  state : PacketBuffer
  frame : Option (List Moved)
  returns : Bool

def completeFrame (s : PacketBuffer) (start seqNum : UInt16) (entry : Packet) : FrameEnd :=
  match s.searchBack entry.timestamp s.size (s.index seqNum)
      { startSeqNum := seqNum, isH264Descriptor := entry.isH264 && !entry.isGeneric } with
  | none => ⟨s, none, true⟩
  | some b =>
    let s := if b.isH264Descriptor then s.describeFirst b else s
    if b.isH264Descriptor && !b.isH264Keyframe &&
        OrderedKeys.someUpTo S.descending b.startSeqNum s.missingPackets then ⟨s, none, true⟩
    else if b.isH264Descriptor || b.fullFrameFound then
      let (frame, s) :=
        moveOut b.startSeqNum seqNum (seqNum + 1 - b.startSeqNum).toNat b.startSeqNum s
      { state := { s with
          missingPackets := OrderedKeys.fromUpper S.descending seqNum s.missingPackets
          receivedPadding := OrderedKeys.eraseRange S.descending start seqNum s.receivedPadding }
        frame := some frame
        returns := false }
    else ⟨s, none, false⟩

def potentialNewFrame (s : PacketBuffer) (seqNum : UInt16) : Bool :=
  let i := s.index seqNum
  match s.slot i with
  | none => false
  | some entry =>
    if entry.seqNum ≠ seqNum then false
    else if entry.isFirstPacketInFrame then true
    else
      match s.slot (s.prevIndex i) with
      | none => false
      | some prev =>
        if prev.seqNum ≠ entry.seqNum - 1 then false
        else if prev.timestamp ≠ entry.timestamp then false
        else prev.continuous

def setContinuous (s : PacketBuffer) (seqNum : UInt16) : PacketBuffer :=
  s.setSlot (s.index seqNum)
    ((s.slot (s.index seqNum)).map fun p => { p with continuous := true })

/-- The loop of `FindFrames` from `seqNum` on, with `n` rounds left. -/
def findFramesLoop (start : UInt16) : ℕ → UInt16 → PacketBuffer → List (List Moved) × PacketBuffer
  | 0, _, s => ([], s)
  | n + 1, seqNum, s =>
    if OrderedKeys.contains S.descending seqNum s.receivedPadding then
      findFramesLoop start n (seqNum + 1) s
    else if !s.potentialNewFrame seqNum then ([], s)
    else
      let s := s.setContinuous seqNum
      match (s.slot (s.index seqNum)).filter (·.isLastPacketInFrame) with
      | none => findFramesLoop start n (seqNum + 1) s
      | some entry =>
        let done := s.completeFrame S start seqNum entry
        if done.returns then ([], done.state)
        else
          let (frames, t) := findFramesLoop start n (seqNum + 1) done.state
          (done.frame.toList ++ frames, t)

def findFrames (s : PacketBuffer) (seqNum : UInt16) : List (List Moved) × PacketBuffer :=
  findFramesLoop S seqNum s.size seqNum s

/-! ## The operations -/

/-- The first part of `InsertPacket`: `none` for a packet that is ignored because the buffer has been
cleared past it. A large negative jump clears the buffer. -/
def accept (s : PacketBuffer) (seqNum : UInt16) : Option PacketBuffer :=
  if !s.firstPacketReceived then
    some { s with firstSeqNum := seqNum, firstPacketReceived := true }
  else if S.aheadOf s.firstSeqNum seqNum then
    if s.isClearedToFirstSeqNum then none
    else
      let t :=
        if s.maxSize ≤ S.forwardDiff s.firstSeqNum seqNum ∧
            s.maxSize / 2 ≤ S.forwardDiff seqNum s.firstSeqNum then
          { s.clearInternal with firstPacketReceived := true }
        else s
      some { t with firstSeqNum := seqNum }
  else some s

/-- What there is in the place of a packet. -/
inductive Room where
  | free (s : PacketBuffer)
  | duplicate
  | full (s : PacketBuffer)

/-- The second part: the buffer grows while the slot is taken by another packet. -/
def makeRoom (s : PacketBuffer) (seqNum : UInt16) : Room :=
  match s.slot (s.index seqNum) with
  | none => .free s
  | some q =>
    if q.seqNum = seqNum then .duplicate
    else
      let t := expandUntilFree seqNum s.maxSize s
      if (t.slot (t.index seqNum)).isSome then .full t else .free t

def store (s : PacketBuffer) (packet : Packet) : PacketBuffer :=
  s.setSlot (s.index packet.seqNum) (some { packet with continuous := false })

/-- The row of `packet_buffer_inserts.csv` for a stored packet. -/
def insertRow (s : PacketBuffer) (packet : Packet) : LogRow :=
  .insert packet.ssrc packet.seqNum packet.timestamp packet.markerBit packet.payloadSize
    s.missingPackets.length ((s.missingPackets.head?.map fun n => (n.toNat : ℤ)).getD (-1))

def insertPacket (s : PacketBuffer) (packet : Packet) :
    InsertResult × List LogRow × PacketBuffer :=
  match s.accept S packet.seqNum with
  | none => ({}, [], s)
  | some s =>
    match s.makeRoom packet.seqNum with
    | .duplicate => ({}, [], s)
    | .full s => ({ bufferCleared := true }, [.bufferCleared packet.seqNum], s.clearInternal)
    | .free s =>
      let s := (s.store packet).updateMissingPackets S packet.seqNum
      let row := s.insertRow packet
      let oldest := packet.seqNum - UInt16.ofNat (s.size / 4)
      let s := { s with
        receivedPadding := OrderedKeys.fromLower S.descending oldest s.receivedPadding }
      let (frames, s) := s.findFrames S packet.seqNum
      let result : InsertResult := { frames := frames }
      let assembled := if result.packets.isEmpty then []
        else [.frameAssembled packet.seqNum result.packets.length result.bufferCleared]
      (result, assembled ++ [row], s)

def insertPadding (s : PacketBuffer) (seqNum : UInt16) : InsertResult × PacketBuffer :=
  let s := s.updateMissingPackets S seqNum
  let s := { s with receivedPadding := OrderedKeys.insert S.descending seqNum s.receivedPadding }
  let (frames, s) := s.findFrames S (seqNum + 1)
  ({ frames := frames }, s)

def clear (s : PacketBuffer) : PacketBuffer := s.clearInternal

def setSpsPpsIdrIsH264Keyframe (s : PacketBuffer) (value : Bool) : PacketBuffer :=
  { s with spsPpsIdrIsH264Keyframe := value }

def forceSpsPpsIdrIsH264Keyframe (s : PacketBuffer) : PacketBuffer :=
  s.setSpsPpsIdrIsH264Keyframe true

def resetSpsPpsIdrIsH264Keyframe (s : PacketBuffer) : PacketBuffer :=
  s.setSpsPpsIdrIsH264Keyframe false

end PacketBuffer

/-! ## Runs -/

inductive Op where
  | insertPacket (packet : Packet)
  | insertPadding (seqNum : UInt16)
  | clearTo (seqNum : UInt16)
  | clear
  | forceSpsPpsIdrIsH264Keyframe
  | resetSpsPpsIdrIsH264Keyframe
  deriving DecidableEq, Repr

namespace PacketBuffer

/-- The frames an operation returns and the state it leaves. -/
def perform (s : PacketBuffer) : Op → List (List Moved) × PacketBuffer
  | .insertPacket packet => ((s.insertPacket S packet).1.frames, (s.insertPacket S packet).2.2)
  | .insertPadding seqNum => ((s.insertPadding S seqNum).1.frames, (s.insertPadding S seqNum).2)
  | .clearTo seqNum => ([], s.clearTo S seqNum)
  | .clear => ([], s.clear)
  | .forceSpsPpsIdrIsH264Keyframe => ([], s.forceSpsPpsIdrIsH264Keyframe)
  | .resetSpsPpsIdrIsH264Keyframe => ([], s.resetSpsPpsIdrIsH264Keyframe)

def next (s : PacketBuffer) (op : Op) : PacketBuffer := (s.perform S op).2

end PacketBuffer

/-- A run of the operations of a new buffer. -/
abbrev PacketRun (startBufferSize maxBufferSize : ℕ) :
    List (PacketBuffer × Op) → PacketBuffer → Prop :=
  Run (fun s op t => t = s.next S op) (.create startBufferSize maxBufferSize)

end WebrtcTrace.Packets
