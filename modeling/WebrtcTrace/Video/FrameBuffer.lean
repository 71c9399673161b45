import WebrtcTrace.Foundations.KeyedMap
import WebrtcTrace.Foundations.Runs
import Mathlib.Order.WithBot
import Mathlib.Data.Int.Order.Basic

/-! # `webrtc::FrameBuffer` (`api/video/frame_buffer.h`, `frame_buffer.cc`)

Frames ordered by id, grouped into temporal units by RTP timestamp. `frames_` is a `KeyedMap` by
frame id, so an iterator is the id it points at; a temporal unit is the ids of its two ends.

`std::optional<int64_t>` is `WithBot ℤ`: its comparisons put `nullopt` below every id, as the C++
operators do. The id, timestamp and continuity of a frame are what the class reads of it;
`references` lists `references[0 .. num_references)`, so the clamp in `GetReferences` is not seen.

`DecodedFramesHistory` and `AheadOf` belong to the checkout the overlay is applied to. They are the
parameter `Upstream`; what a result needs of them is one of the hypotheses `Upstream.Sound` and
`Upstream.Exact` below.
-/

namespace WebrtcTrace.Video
open Runs
set_option autoImplicit false

-- the conditionally complete order on ℤ, which does not compute, may be in scope too
instance computablePreorder : Preorder ℤ := Int.instLinearOrder.toPreorder

/-! ## Code outside the overlay -/

/-- `video_coding::DecodedFramesHistory` with state `H`, and `AheadOf` on RTP timestamps. -/
structure Upstream (H : Type*) where
  newHistory : H
  insertDecoded : H → ℤ → UInt32 → H
  wasDecoded : H → ℤ → Bool
  getLastDecodedFrameId : H → WithBot ℤ
  getLastDecodedFrameTimestamp : H → Option UInt32
  clearHistory : H → H
  aheadOf : UInt32 → UInt32 → Bool

/-- `WasDecoded` holds only of ids inserted since the last `Clear`, as long as these are inserted in
increasing order, and the last decoded id is the one inserted last. -/
structure Upstream.Sound {H : Type*} (U : Upstream H) : Prop where
  new_wasDecoded : ∀ i, U.wasDecoded U.newHistory i = false
  clear_wasDecoded : ∀ h i, U.wasDecoded (U.clearHistory h) i = false
  insert_wasDecoded : ∀ (h : H) (i : ℤ) (t : UInt32) (j : ℤ), U.getLastDecodedFrameId h < i →
    U.wasDecoded (U.insertDecoded h i t) j = true → j = i ∨ U.wasDecoded h j = true
  new_last : U.getLastDecodedFrameId U.newHistory = ⊥
  clear_last : ∀ h, U.getLastDecodedFrameId (U.clearHistory h) = ⊥
  insert_last : ∀ h i t, U.getLastDecodedFrameId (U.insertDecoded h i t) = i

/-- Nothing inserted since the last `Clear` is forgotten either. -/
structure Upstream.Exact {H : Type*} (U : Upstream H) : Prop extends U.Sound where
  insert_remembers : ∀ (h : H) (i : ℤ) (t : UInt32) (j : ℤ), U.getLastDecodedFrameId h < i →
    j = i ∨ U.wasDecoded h j = true → U.wasDecoded (U.insertDecoded h i t) j = true

/-- A history of unbounded length, latest frame first. -/
def Upstream.unbounded : Upstream (List (ℤ × UInt32)) where
  newHistory := []
  insertDecoded h i t := (i, t) :: h
  wasDecoded h i := h.any (·.1 = i)
  getLastDecodedFrameId h := (h.head?.map Prod.fst).elim ⊥ fun i => i
  getLastDecodedFrameTimestamp h := h.head?.map Prod.snd
  clearHistory _ := []
  aheadOf a b := if a - b = 0x80000000 then b < a else a != b && a - b < 0x80000000

theorem Upstream.unbounded_exact : Upstream.unbounded.Exact where
  new_wasDecoded _ := rfl
  clear_wasDecoded _ _ := rfl
  insert_wasDecoded h i t j _ hj := by
    simp only [unbounded, List.any_cons, Bool.or_eq_true, decide_eq_true_eq] at hj
    exact hj.imp_left Eq.symm
  new_last := rfl
  clear_last _ := rfl
  insert_last _ _ _ := rfl
  insert_remembers h i t j _ hj := by
    simp only [unbounded, List.any_cons, Bool.or_eq_true, decide_eq_true_eq]
    exact hj.imp_left Eq.symm

/-! ## Data -/

structure EncodedFrame where
  id : ℤ
  rtpTimestamp : UInt32
  references : List ℤ
  isLastSpatialLayer : Bool
  isKeyframe : Bool
  deriving DecidableEq, Repr

structure FrameInfo where
  encodedFrame : EncodedFrame
  continuous : Bool := false
  deriving DecidableEq, Repr

abbrev FrameInfo.id (f : FrameInfo) : ℤ := f.encodedFrame.id

abbrev FrameMap := KeyedMap FrameInfo.id

/-- Both ends are inclusive. -/
structure TemporalUnit where
  firstFrame : ℤ
  lastFrame : ℤ
  deriving DecidableEq, Repr

structure DecodabilityInfo where
  nextRtpTimestamp : UInt32
  lastRtpTimestamp : UInt32
  deriving DecidableEq, Repr

structure FrameBuffer (H : Type*) where
  legacyFrameIdJumpBehavior : Bool
  maxSize : ℕ
  frames : FrameMap
  nextDecodableTemporalUnit : Option TemporalUnit
  decodableTemporalUnitsInfo : Option DecodabilityInfo
  lastContinuousFrameId : WithBot ℤ
  lastContinuousTemporalUnitFrameId : WithBot ℤ
  decodedFrameHistory : H
  numContinuousTemporalUnits : ℕ
  numDroppedFrames : ℕ

/-- The inner loop looks for a later equal reference. -/
def validReferences (frameId : ℤ) : List ℤ → Bool
  | [] => true
  | r :: rs => decide (r < frameId) && !rs.contains r && validReferences frameId rs

variable {H : Type*} (U : Upstream H)

namespace FrameBuffer

/-- The constructor, with the field trial already read. -/
def create (legacyFrameIdJumpBehavior : Bool) (maxSize : ℕ) : FrameBuffer H where
  legacyFrameIdJumpBehavior := legacyFrameIdJumpBehavior
  maxSize := maxSize
  frames := .empty
  nextDecodableTemporalUnit := none
  decodableTemporalUnitsInfo := none
  lastContinuousFrameId := ⊥
  lastContinuousTemporalUnitFrameId := ⊥
  decodedFrameHistory := U.newHistory
  numContinuousTemporalUnits := 0
  numDroppedFrames := 0

/-- Neither the counters nor the constants are touched. -/
def clear (s : FrameBuffer H) : FrameBuffer H := { s with
  frames := .empty
  nextDecodableTemporalUnit := none
  decodableTemporalUnitsInfo := none
  lastContinuousFrameId := ⊥
  lastContinuousTemporalUnitFrameId := ⊥
  decodedFrameHistory := U.clearHistory s.decodedFrameHistory }

/-! ## Continuity -/

/-- Whether `frames_` has an entry for this id with the flag set. -/
def flagged (s : FrameBuffer H) (i : ℤ) : Bool := (s.frames.find? i).any (·.continuous)

def isContinuous (s : FrameBuffer H) (f : EncodedFrame) : Bool :=
  f.references.all fun r => U.wasDecoded s.decodedFrameHistory r || s.flagged r

/-- Sets the flag of one entry. -/
def setContinuous (m : FrameMap) (i : ℤ) : FrameMap :=
  m.mapEntries (fun e => if e.id = i then { e with continuous := true } else e) fun e => by
    split <;> rfl

/-- `if (last < id) last = id`. -/
def raiseTo (last : WithBot ℤ) (i : ℤ) : WithBot ℤ := if last < i then i else last

/-- The loop body of `PropagateContinuity` at the entry with id `i`. -/
def propagateAt (s : FrameBuffer H) (i : ℤ) : FrameBuffer H :=
  match s.frames.find? i with
  | none => s
  | some e =>
    if !e.continuous && s.isContinuous U e.encodedFrame then
      let s := { s with
        frames := setContinuous s.frames i
        lastContinuousFrameId := raiseTo s.lastContinuousFrameId i }
      if e.encodedFrame.isLastSpatialLayer then { s with
        numContinuousTemporalUnits := s.numContinuousTemporalUnits + 1
        lastContinuousTemporalUnitFrameId := raiseTo s.lastContinuousTemporalUnitFrameId i }
      else s
    else s

/-- From the entry with id `i` to the end of the map. -/
def propagateContinuity (s : FrameBuffer H) (i : ℤ) : FrameBuffer H :=
  ((s.frames.entries.map FrameInfo.id).filter (i ≤ ·)).foldl (propagateAt U) s

/-! ## The next and the last decodable temporal unit -/

end FrameBuffer

/-- The unit from `first_frame_it` through the frame the scan has just reached: a frame with another
timestamp than the first one's starts a new unit. Its ids are `frames_in_temporal_unit`. -/
def extendUnit (unit : List EncodedFrame) (f : EncodedFrame) : List EncodedFrame :=
  (if unit.head?.any (·.rtpTimestamp != f.rtpTimestamp) then [] else unit) ++ [f]

/-- `temporal_unit_decodable`: every reference is decoded or in the unit. -/
def decodable (decoded : ℤ → Bool) (unit : List EncodedFrame) : Bool :=
  unit.all fun f => f.references.all fun r => decoded r || (unit.map EncodedFrame.id).contains r

/-- What the scan carries from frame to frame. -/
structure Scan where
  unit : List EncodedFrame
  next : Option TemporalUnit
  lastDecodableTimestamp : Option UInt32

def scanFrame (decoded : ℤ → Bool) (sc : Scan) (f : EncodedFrame) : Scan :=
  let unit := extendUnit sc.unit f
  if f.isLastSpatialLayer && decodable decoded unit then
    { unit := unit
      next := sc.next <|> some ⟨(unit.headD f).id, f.id⟩
      lastDecodableTimestamp := some (unit.headD f).rtpTimestamp }
  else { sc with unit := unit }

namespace FrameBuffer

/-- The frames the scan and the unit count look at before they stop at the first id above
`last_continuous_temporal_unit_frame_id_`. -/
def upToLastUnit (s : FrameBuffer H) : List FrameInfo :=
  s.frames.entries.takeWhile fun e => (e.id : WithBot ℤ) ≤ s.lastContinuousTemporalUnitFrameId

def scan (s : FrameBuffer H) : Scan :=
  (s.upToLastUnit.map FrameInfo.encodedFrame).foldl
    (scanFrame (U.wasDecoded s.decodedFrameHistory)) ⟨[], none, none⟩

def findNextAndLastDecodableTemporalUnit (s : FrameBuffer H) : FrameBuffer H :=
  if s.lastContinuousTemporalUnitFrameId = ⊥ then
    { s with nextDecodableTemporalUnit := none, decodableTemporalUnitsInfo := none }
  else { s with
    nextDecodableTemporalUnit := (s.scan U).next
    decodableTemporalUnitsInfo := (s.scan U).next.bind fun tu =>
      (s.frames.find? tu.firstFrame).bind fun e =>
        (s.scan U).lastDecodableTimestamp.map fun last => ⟨e.encodedFrame.rtpTimestamp, last⟩ }

/-! ## The operations -/

/-- From the `emplace` of `InsertFrame` on. -/
def insertInto (s : FrameBuffer H) (frame : EncodedFrame) : Bool × FrameBuffer H :=
  match s.frames.emplace { encodedFrame := frame } with
  | none => (false, s)
  | some frames =>
    (true, findNextAndLastDecodableTemporalUnit U
      (propagateContinuity U { s with frames := frames } frame.id))

/-- From the size test of `InsertFrame` on. -/
def insertUnlessFull (s : FrameBuffer H) (frame : EncodedFrame) : Bool × FrameBuffer H :=
  if s.frames.size = s.maxSize then
    if frame.isKeyframe then (s.clear U).insertInto U frame else (false, s)
  else s.insertInto U frame

/-- Whether an already passed id is a jump of the ids: the legacy behaviour is on and the frame is a
keyframe with a newer timestamp. The last timestamp is there whenever the last id is. -/
def isFrameIdJump (s : FrameBuffer H) (frame : EncodedFrame) : Bool :=
  s.legacyFrameIdJumpBehavior && frame.isKeyframe &&
    (U.getLastDecodedFrameTimestamp s.decodedFrameHistory).any (U.aheadOf frame.rtpTimestamp ·)

def insertFrame (s : FrameBuffer H) (frame : EncodedFrame) : Bool × FrameBuffer H :=
  if !validReferences frame.id frame.references then (false, s)
  else if (frame.id : WithBot ℤ) ≤ U.getLastDecodedFrameId s.decodedFrameHistory then
    if s.isFrameIdJump U frame then (s.clear U).insertUnlessFull U frame else (false, s)
  else s.insertUnlessFull U frame

/-- The entries from one end of a unit to the other. -/
def framesOf (m : FrameMap) (tu : TemporalUnit) : List FrameInfo :=
  m.entries.filter fun e => decide (tu.firstFrame ≤ e.id) && decide (e.id ≤ tu.lastFrame)

/-- Erases through the end of the next unit and counts as dropped what still holds a frame:
`movedOut` says which entries have had their `encoded_frame` moved away. -/
def eraseNextUnit (s : FrameBuffer H) (movedOut : FrameInfo → Bool) : FrameBuffer H :=
  match s.nextDecodableTemporalUnit with
  | none => s
  | some tu => findNextAndLastDecodableTemporalUnit U { s with
      numDroppedFrames := s.numDroppedFrames +
        s.frames.entries.countP fun e => decide (e.id ≤ tu.lastFrame) && !movedOut e
      frames := s.frames.eraseThrough tu.lastFrame }

def dropNextDecodableTemporalUnit (s : FrameBuffer H) : FrameBuffer H :=
  s.eraseNextUnit U fun _ => false

def extractNextDecodableTemporalUnit (s : FrameBuffer H) : List EncodedFrame × FrameBuffer H :=
  match s.nextDecodableTemporalUnit with
  | none => ([], s)
  | some tu =>
    let unit := framesOf s.frames tu
    let history := unit.foldl
      (fun h e => U.insertDecoded h e.id e.encodedFrame.rtpTimestamp) s.decodedFrameHistory
    (unit.map FrameInfo.encodedFrame,
      eraseNextUnit U { s with decodedFrameHistory := history } fun e => unit.contains e)

def getNumberOfBufferedContinuousTemporalUnits (s : FrameBuffer H) : ℕ :=
  if s.lastContinuousTemporalUnitFrameId = ⊥ then 0
  else s.upToLastUnit.countP fun e => e.continuous && e.encodedFrame.isLastSpatialLayer

def currentSize (s : FrameBuffer H) : ℕ := s.frames.size

end FrameBuffer

/-! ## Runs -/

inductive Op where
  | insertFrame (frame : EncodedFrame)
  | extractNextDecodableTemporalUnit
  | dropNextDecodableTemporalUnit
  deriving DecidableEq, Repr

def apply (s : FrameBuffer H) : Op → FrameBuffer H
  | .insertFrame frame => (s.insertFrame U frame).2
  | .extractNextDecodableTemporalUnit => (s.extractNextDecodableTemporalUnit U).2
  | .dropNextDecodableTemporalUnit => s.dropNextDecodableTemporalUnit U

/-- A run of the operations from a new buffer. -/
abbrev BufferRun (legacy : Bool) (maxSize : ℕ) : List (FrameBuffer H × Op) → FrameBuffer H → Prop :=
  Run (fun s op t => t = apply U s op) (.create U legacy maxSize)

end WebrtcTrace.Video
