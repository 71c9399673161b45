import WebrtcTrace.Video.FrameBuffer

/-! # `webrtc::VideoStreamBufferController` (`video/video_stream_buffer_controller.cc`)

The controller owns a `FrameBuffer`, two flags, the base of its drop statistics and, in the frame
decode scheduler, at most one frame that waits for its time. An operation is a function of the state
that returns the next state and what it called outside: the stats proxy and the receiver, in order.

The decode timing answers each question of `MaybeScheduleFrameForRelease` with a schedule or with
`nullopt` (`DecodeTiming`); any answers are allowed. Clock, jitter estimator, `VCMTiming` and the
timeout tracker only feed these answers and the moments at which the scheduler and the timeout fire,
so they are not part of the state.
-/

namespace WebrtcTrace.Video
open Runs
set_option autoImplicit false

/-- `OnFrameBufferUpdated` as one `MaybeScheduleFrameForRelease` sees it: whether its `n`-th call
returns a schedule for this information, with too many frames queued or not. -/
abbrev DecodeTiming := ℕ → DecodabilityInfo → Bool → Bool

/-- A call to the stats proxy or the receiver, or the comparison `RTC_DCHECK_EQ` makes. -/
inductive Event where
  | completeFrame (isKeyframe : Bool)
  | droppedFrames (frames : ℕ)
  | frameReady (frames : List EncodedFrame)
  | decodableFrameTimeout
  | dcheckEq (rtpTimestamp nextRtpTimestamp : UInt32)
  deriving DecidableEq, Repr

structure BufferController (H : Type*) where
  buffer : FrameBuffer H
  zeroPlayoutDelayMaxDecodeQueueSize : ℕ
  decoderReadyForNewFrame : Bool
  keyframeRequired : Bool
  framesDroppedBeforeLastNewFrame : ℕ
  /-- `frame_decode_scheduler_->ScheduledRtpTimestamp()` -/
  scheduledRtpTimestamp : Option UInt32

/-- Max number of frames the buffer will hold. -/
def kMaxFramesBuffered : ℕ := 800

variable {H : Type*} (U : Upstream H)

/-- What an operation leaves and what it called. -/
structure Outcome (H : Type*) where
  state : BufferController H
  events : List Event

namespace BufferController

/-- The constructor, with the field trials already read. -/
def create (legacyFrameIdJumpBehavior : Bool) (maxDecodeQueueSize : ℕ) : BufferController H where
  buffer := .create U legacyFrameIdJumpBehavior kMaxFramesBuffered
  zeroPlayoutDelayMaxDecodeQueueSize := maxDecodeQueueSize
  decoderReadyForNewFrame := false
  keyframeRequired := false
  framesDroppedBeforeLastNewFrame := 0
  scheduledRtpTimestamp := none

/-! ## Releasing a unit -/

def updateDroppedFrames (s : BufferController H) : Outcome H where
  state := { s with framesDroppedBeforeLastNewFrame := s.buffer.numDroppedFrames }
  events :=
    if s.framesDroppedBeforeLastNewFrame < s.buffer.numDroppedFrames then
      [.droppedFrames (s.buffer.numDroppedFrames - s.framesDroppedBeforeLastNewFrame)]
    else []

def onFrameReady (s : BufferController H) (frames : List EncodedFrame) : Outcome H :=
  let s := if frames.head?.any (·.isKeyframe) then { s with keyframeRequired := false } else s
  let reported := s.updateDroppedFrames
  { state := { reported.state with decoderReadyForNewFrame := false }
    events := reported.events ++ [.frameReady frames] }

/-- The callback of the scheduler. -/
def frameReadyForDecode (s : BufferController H) (rtpTimestamp : UInt32) : Outcome H :=
  match s.buffer.decodableTemporalUnitsInfo with
  | none => ⟨s, []⟩
  | some info =>
    let check := Event.dcheckEq rtpTimestamp info.nextRtpTimestamp
    let (frames, buffer) := s.buffer.extractNextDecodableTemporalUnit U
    if frames.isEmpty then ⟨{ s with buffer := buffer }, [check]⟩
    else
      let ready := onFrameReady { s with buffer := buffer } frames
      { ready with events := check :: ready.events }

/-- The loop of `ForceKeyFrameReleaseImmediately`, which has at most `fuel` rounds left. An empty unit
and one that does not start with a keyframe are treated alike: the search goes on. -/
def forceKeyFrameReleaseImmediately : ℕ → BufferController H → Outcome H
  | 0, s => ⟨s, []⟩
  | fuel + 1, s =>
    match s.buffer.decodableTemporalUnitsInfo with
    | none => ⟨s, []⟩
    | some _ =>
      let (nextFrame, buffer) := s.buffer.extractNextDecodableTemporalUnit U
      let s := { s with buffer := buffer }
      if nextFrame.head?.any (·.isKeyframe) then s.onFrameReady nextFrame
      else forceKeyFrameReleaseImmediately fuel s

/-! ## Scheduling -/

def isTooManyFramesQueued (s : BufferController H) : Bool :=
  s.zeroPlayoutDelayMaxDecodeQueueSize < s.buffer.currentSize

/-- `CancelOutstanding` and `ScheduleFrame`, unless that frame is the one waiting. -/
def scheduleFrame (s : BufferController H) (rtpTimestamp : UInt32) : BufferController H :=
  if s.scheduledRtpTimestamp = some rtpTimestamp then s
  else { s with scheduledRtpTimestamp := some rtpTimestamp }

/-- The loop of `MaybeScheduleFrameForRelease`, which asks the timing for the `n`-th time and has at
most `fuel` rounds left. -/
def scheduleOrDrop (timing : DecodeTiming) : ℕ → ℕ → BufferController H → BufferController H
  | _, 0, s => s
  | n, fuel + 1, s =>
    match s.buffer.decodableTemporalUnitsInfo with
    | none => s
    | some info =>
      if timing n info s.isTooManyFramesQueued then s.scheduleFrame info.nextRtpTimestamp
      else scheduleOrDrop timing (n + 1) fuel
        { s with buffer := s.buffer.dropNextDecodableTemporalUnit U }

/-- Both loops take a frame out of the buffer in every round, so they end within `CurrentSize`
rounds. -/
def maybeScheduleFrameForRelease (timing : DecodeTiming) (s : BufferController H) : Outcome H :=
  if s.decoderReadyForNewFrame then
    match s.buffer.decodableTemporalUnitsInfo with
    | none => ⟨s, []⟩
    | some info =>
      if s.keyframeRequired then forceKeyFrameReleaseImmediately U s.buffer.currentSize s
      else if s.scheduledRtpTimestamp = some info.nextRtpTimestamp then ⟨s, []⟩
      else ⟨scheduleOrDrop U timing 0 s.buffer.currentSize s, []⟩
  else ⟨s, []⟩

/-! ## The operations -/

/-- Returns the last continuous frame id as well. -/
def insertFrame (s : BufferController H) (frame : EncodedFrame) (timing : DecodeTiming) :
    WithBot ℤ × Outcome H :=
  let completeUnitsBefore := s.buffer.numContinuousTemporalUnits
  let (inserted, buffer) := s.buffer.insertFrame U frame
  let s := { s with buffer := buffer }
  let outcome : Outcome H :=
    if inserted && decide (completeUnitsBefore < s.buffer.numContinuousTemporalUnits) then
      let released := s.maybeScheduleFrameForRelease U timing
      { released with events := .completeFrame frame.isKeyframe :: released.events }
    else ⟨s, []⟩
  (outcome.state.buffer.lastContinuousFrameId, outcome)

def startNextDecode (s : BufferController H) (keyframeRequired : Bool) (timing : DecodeTiming) :
    Outcome H :=
  maybeScheduleFrameForRelease U timing
    { s with keyframeRequired := keyframeRequired, decoderReadyForNewFrame := true }

/-- The time of the waiting frame has come: the scheduler forgets it and calls back. -/
def schedulerFires (s : BufferController H) : Outcome H :=
  match s.scheduledRtpTimestamp with
  | none => ⟨s, []⟩
  | some rtpTimestamp =>
    frameReadyForDecode U { s with scheduledRtpTimestamp := none } rtpTimestamp

def onTimeout (s : BufferController H) : Outcome H :=
  if s.decoderReadyForNewFrame then
    ⟨{ s with decoderReadyForNewFrame := false }, [.decodableFrameTimeout]⟩
  else ⟨s, []⟩

/-- The new buffer is made from the same field trials. -/
def clear (s : BufferController H) : Outcome H where
  state := { s with
    buffer := .create U s.buffer.legacyFrameIdJumpBehavior kMaxFramesBuffered
    scheduledRtpTimestamp := none }
  events := [.droppedFrames s.buffer.currentSize]

end BufferController

/-! ## Runs -/

inductive ControllerOp where
  | insertFrame (frame : EncodedFrame) (timing : DecodeTiming)
  | startNextDecode (keyframeRequired : Bool) (timing : DecodeTiming)
  | schedulerFires
  | onTimeout
  | clear

namespace BufferController

def perform (s : BufferController H) : ControllerOp → Outcome H
  | .insertFrame frame timing => (s.insertFrame U frame timing).2
  | .startNextDecode keyframeRequired timing => s.startNextDecode U keyframeRequired timing
  | .schedulerFires => s.schedulerFires U
  | .onTimeout => s.onTimeout
  | .clear => s.clear U

def next (s : BufferController H) (op : ControllerOp) : BufferController H := (s.perform U op).state

end BufferController

/-- A run of the operations of a new controller. -/
abbrev ControllerRun (legacy : Bool) (maxDecodeQueueSize : ℕ) :
    List (BufferController H × ControllerOp) → BufferController H → Prop :=
  Run (fun s op t => t = s.next U op) (.create U legacy maxDecodeQueueSize)

/-- Every question to the decode timing gets a schedule. -/
def inTime : DecodeTiming := fun _ _ _ => true

/-- The history of these operations of a new controller, with an unbounded decode history. -/
def controllerHistory (ops : List ControllerOp) :
    List (BufferController (List (ℤ × UInt32)) × ControllerOp) :=
  Runs.history (BufferController.next .unbounded) (.create .unbounded true 8) ops

def controllerAfter (ops : List ControllerOp) : BufferController (List (ℤ × UInt32)) :=
  ops.foldl (BufferController.next .unbounded) (.create .unbounded true 8)

theorem controllerAfter_run (ops : List ControllerOp) :
    ControllerRun .unbounded true 8 (controllerHistory ops) (controllerAfter ops) :=
  Run.of_next _ _ ops

end WebrtcTrace.Video
