import WebrtcTrace.Video.BufferController
import WebrtcTrace.Video.RecordableOutput

/-! # `webrtc::internal::VideoReceiveStream2` (`video/video_receive_stream2.cc`)

The way of a frame through the stream: the buffer controller releases it on the worker, `OnEncodedFrame`
posts it to the decode queue, and the decode queue posts the result back, which starts the next decode.
Both queues are lists of tasks in order; a step of the system is one call on the worker or one task of
one of the queues, so a run is any interleaving of the two. `Stop` and `SetAndGetRecordingState` block
the worker until the task they have posted has run (`blocked`).

Times are microseconds. The decoder, the RTP receiver and the clock belong to the checkout the overlay is
applied to: what they answer comes with the operation. The combined frame of a temporal unit is its first
one (`CombineAndDeleteFrames` keeps its header).
-/

namespace WebrtcTrace.Video
open Runs
set_option autoImplicit false

/-! ## Tasks -/

/-- `WEBRTC_VIDEO_CODEC_OK`, `WEBRTC_VIDEO_CODEC_OK_REQUEST_KEYFRAME`, and any other code. -/
inductive DecodeCode where
  | ok
  | okRequestKeyframe
  | other
  deriving DecidableEq, Repr

structure DecodeFrameResult where
  forceRequestKeyFrame : Bool
  decodedFramePictureId : Option ℤ
  keyframeRequired : Bool
  deriving DecidableEq, Repr

/-- What `OnEncodedFrame` posts. -/
structure DecodeTask where
  frame : EncodedFrame
  now : ℤ
  keyframeRequestIsDue : Bool
  keyframeRequired : Bool
  deriving DecidableEq, Repr

/-- A task of `decode_queue_`. -/
inductive DecoderTask where
  | start
  | stop
  | setRecordingState (callback : Option ℕ)
  | decode (task : DecodeTask)
  deriving DecidableEq, Repr

/-- A task the decode queue posts to the worker. -/
structure ResultTask where
  task : DecodeTask
  result : DecodeFrameResult
  deriving DecidableEq, Repr

/-! ## The stream -/

/-- The waits the header sets, and whether frames must be encrypted. -/
structure StreamConfig where
  kMaxWaitForKeyFrame : ℤ
  kMaxWaitForFrame : ℤ
  requireFrameEncryption : Bool

/-- The initial values of the members that the header sets. -/
structure StreamMembers where
  decoderStopped : Bool
  keyframeRequired : Bool
  frameDecoded : Bool
  keyframeGenerationRequested : Bool

structure ReceiveStream (H : Type*) where
  buffer : BufferController H
  decoderRunning : Bool
  keyframeRequired : Bool
  keyframeGenerationRequested : Bool
  lastKeyframeRequest : Option ℤ
  lastDecodedRtpTimestamp : Option UInt32
  rtpHistoryMs : ℤ
  maxWaitForKeyframe : ℤ
  maxWaitForFrame : ℤ
  /-- The worker waits for a task of the decode queue. -/
  blocked : Bool
  decoderStopped : Bool
  frameDecoded : Bool
  output : EncodedFrameOutput
  decodeQueue : List DecoderTask
  workerQueue : List ResultTask

/-- What the RTP receiver answers. -/
structure Reception where
  lastReceivedPacketMs : Option ℤ
  lastReceivedKeyframePacketMs : Option ℤ
  isDecryptable : Bool
  deriving DecidableEq, Repr

/-- A frame that was handed to the decoder, and whether its result asks for a keyframe. -/
structure Decoded where
  task : DecodeTask
  code : DecodeCode
  forced : Bool
  deriving DecidableEq, Repr

inductive StreamEvent where
  | buffer (e : Event)
  | requestKeyFrame
  | frameDecoded (pictureId : ℤ)
  | streamInactive
  | decoded (d : Decoded)
  | dispatched (d : Dispatched)
  deriving DecidableEq, Repr

/-- What the tasks of the decode queue do. -/
def StreamEvent.ofDecodeQueue : StreamEvent → Bool
  | .decoded _ => true
  | .dispatched _ => true
  | _ => false

structure StreamOutcome (H : Type*) where
  state : ReceiveStream H
  events : List StreamEvent

variable {H : Type*} (U : Upstream H) (config : StreamConfig) (res : Resolutions)

def determineMaxWaitForFrame (rtpHistory : ℤ) (isKeyframe : Bool) : ℤ :=
  let conversionFactor := 3
  if 0 < rtpHistory ∧ conversionFactor * rtpHistory < config.kMaxWaitForFrame then
    if isKeyframe then rtpHistory else conversionFactor * rtpHistory
  else if isKeyframe then config.kMaxWaitForKeyFrame else config.kMaxWaitForFrame

/-- `VideoStreamBufferController::Stop`. -/
def BufferController.stop (s : BufferController H) : BufferController H :=
  { s with scheduledRtpTimestamp := none, decoderReadyForNewFrame := false }

namespace ReceiveStream

def create (members : StreamMembers) (legacyFrameIdJumpBehavior : Bool) (maxDecodeQueueSize : ℕ)
    (rtpHistoryMs : ℤ) : ReceiveStream H where
  buffer := .create U legacyFrameIdJumpBehavior maxDecodeQueueSize
  decoderRunning := false
  keyframeRequired := members.keyframeRequired
  keyframeGenerationRequested := members.keyframeGenerationRequested
  lastKeyframeRequest := none
  lastDecodedRtpTimestamp := none
  rtpHistoryMs := rtpHistoryMs
  maxWaitForKeyframe := determineMaxWaitForFrame config (1000 * rtpHistoryMs) true
  maxWaitForFrame := determineMaxWaitForFrame config (1000 * rtpHistoryMs) false
  blocked := false
  decoderStopped := members.decoderStopped
  frameDecoded := members.frameDecoded
  output := {}
  decodeQueue := []
  workerQueue := []

/-! ## Keyframe requests -/

def requestKeyFrame (s : ReceiveStream H) (now : ℤ) : StreamOutcome H :=
  ⟨{ s with lastKeyframeRequest := some now }, [.requestKeyFrame]⟩

def isReceivingKeyFrame (s : ReceiveStream H) (reception : Reception) (now : ℤ) : Bool :=
  reception.lastReceivedKeyframePacketMs.any fun ms => decide (now - 1000 * ms < s.maxWaitForKeyframe)

def handleKeyFrameGeneration (s : ReceiveStream H) (reception : Reception)
    (receivedFrameIsKeyframe : Bool) (now : ℤ) (alwaysRequestKeyFrame keyframeRequestIsDue : Bool) :
    StreamOutcome H :=
  let repeats := s.keyframeGenerationRequested && !receivedFrameIsKeyframe && keyframeRequestIsDue &&
    !s.isReceivingKeyFrame reception now
  let s := { s with
    keyframeGenerationRequested := s.keyframeGenerationRequested && !receivedFrameIsKeyframe }
  if alwaysRequestKeyFrame || repeats then s.requestKeyFrame now else ⟨s, []⟩

/-! ## Frames out of the buffer -/

def onEncodedFrame (s : ReceiveStream H) (now : ℤ) (frame : EncodedFrame) : ReceiveStream H :=
  let keyframeRequestIsDue := s.lastKeyframeRequest.all fun last =>
    decide (last + s.maxWaitForKeyframe ≤ now)
  { s with decodeQueue := s.decodeQueue ++
      [.decode ⟨frame, now, keyframeRequestIsDue, s.keyframeRequired⟩] }

/-- The frames of the units an operation of the buffer controller has released. -/
def released (events : List Event) : List EncodedFrame :=
  events.filterMap fun e =>
    match e with
    | .frameReady frames => frames.head?
    | _ => none

/-- The stream after an operation of the buffer controller: a released unit is posted. -/
def afterBuffer (s : ReceiveStream H) (now : ℤ) (outcome : Outcome H) : StreamOutcome H where
  state := (released outcome.events).foldl (fun s frame => s.onEncodedFrame now frame)
    { s with buffer := outcome.state }
  events := outcome.events.map .buffer

def startNextDecode (s : ReceiveStream H) (now : ℤ) (keyframeRequired : Bool) (timing : DecodeTiming) :
    StreamOutcome H :=
  s.afterBuffer now (s.buffer.startNextDecode U keyframeRequired timing)

def onDecodableFrameTimeout (s : ReceiveStream H) (now clock : ℤ) (reception : Reception)
    (timing : DecodeTiming) : StreamOutcome H :=
  let streamIsActive := reception.lastReceivedPacketMs.any fun ms => decide (now - 1000 * ms < 5000000)
  let requested : StreamOutcome H :=
    if streamIsActive && !s.isReceivingKeyFrame reception now &&
      (!config.requireFrameEncryption || reception.isDecryptable)
    then s.requestKeyFrame now else ⟨s, []⟩
  let started := requested.state.startNextDecode U clock s.keyframeRequired timing
  { state := started.state
    events := (if streamIsActive then [] else [.streamInactive]) ++ requested.events ++ started.events }

/-! ## The decode queue -/

def handleEncodedFrameOnDecodeQueue (s : ReceiveStream H) (task : DecodeTask) (code : DecodeCode) :
    DecodeFrameResult × ReceiveStream H :=
  match code with
  | .ok => (⟨false, some task.frame.id, false⟩, { s with frameDecoded := true })
  | .okRequestKeyframe => (⟨true, some task.frame.id, false⟩, { s with frameDecoded := true })
  | .other =>
    if s.frameDecoded = false ∨ task.keyframeRequired = false ∨ task.keyframeRequestIsDue = true then
      (⟨true, none, true⟩, s)
    else (⟨false, none, task.keyframeRequired⟩, s)

/-- The next task of the decode queue; a frame gets this code from the decoder, which delivers pictures
of these resolutions meanwhile. -/
def decodeNext (s : ReceiveStream H) (code : DecodeCode) (delivered : List EncodedResolution) :
    StreamOutcome H :=
  match s.decodeQueue with
  | [] => ⟨s, []⟩
  | .start :: tasks => ⟨{ s with decodeQueue := tasks, decoderStopped := false }, []⟩
  | .stop :: tasks =>
    ⟨{ s with decodeQueue := tasks, decoderStopped := true, decoderRunning := false, blocked := false }, []⟩
  | .setRecordingState callback :: tasks =>
    ⟨{ s with
        decodeQueue := tasks
        output := s.output.next res (.setCallback callback)
        blocked := false }, []⟩
  | .decode task :: tasks =>
    if s.decoderStopped then ⟨{ s with decodeQueue := tasks }, []⟩
    else
      let output := s.output.perform res (.decode task.frame delivered)
      let handled := s.handleEncodedFrameOnDecodeQueue task code
      { state := { handled.2 with
          decodeQueue := tasks
          output := output.1
          workerQueue := s.workerQueue ++ [⟨task, handled.1⟩] }
        events := .decoded ⟨task, code, handled.1.forceRequestKeyFrame⟩ :: output.2.map .dispatched }

/-! ## The worker -/

/-- The next result the decode queue has posted. -/
def handleResult (s : ReceiveStream H) (clock : ℤ) (reception : Reception) (timing : DecodeTiming) :
    StreamOutcome H :=
  match s.workerQueue with
  | [] => ⟨s, []⟩
  | r :: results =>
    let s := { s with
      workerQueue := results
      keyframeRequired := r.result.keyframeRequired
      lastDecodedRtpTimestamp := some r.task.frame.rtpTimestamp }
    let handled := s.handleKeyFrameGeneration reception r.task.frame.isKeyframe r.task.now
      r.result.forceRequestKeyFrame r.task.keyframeRequestIsDue
    let started := handled.state.startNextDecode U clock handled.state.keyframeRequired timing
    { state := started.state
      events := r.result.decodedFramePictureId.toList.map .frameDecoded ++ handled.events ++
        started.events }

def start (s : ReceiveStream H) (now : ℤ) (timing : DecodeTiming) : StreamOutcome H :=
  if s.decoderRunning then ⟨s, []⟩
  else
    let posted : ReceiveStream H := { s with decodeQueue := s.decodeQueue ++ [.start] }
    let started := posted.startNextDecode U now true timing
    { started with state := { started.state with decoderRunning := true } }

/-- `Stop` up to its wait. -/
def stop (s : ReceiveStream H) : StreamOutcome H :=
  let s := { s with buffer := s.buffer.stop }
  if s.decoderRunning then ⟨{ s with decodeQueue := s.decodeQueue ++ [.stop], blocked := true }, []⟩
  else ⟨s, []⟩

/-- `OnCompleteFrame` without the playout delays. -/
def onCompleteFrame (s : ReceiveStream H) (now : ℤ) (frame : EncodedFrame) (timing : DecodeTiming) :
    StreamOutcome H :=
  s.afterBuffer now (s.buffer.insertFrame U frame timing).2

def onTimeout (s : ReceiveStream H) (now clock : ℤ) (reception : Reception) (timing : DecodeTiming) :
    StreamOutcome H :=
  let timedOut := s.buffer.onTimeout
  let s := { s with buffer := timedOut.state }
  if timedOut.events = [] then ⟨s, []⟩ else s.onDecodableFrameTimeout U config now clock reception timing

def setNackHistory (s : ReceiveStream H) (historyMs : ℤ) : ReceiveStream H :=
  if s.rtpHistoryMs = historyMs then s
  else { s with
    rtpHistoryMs := historyMs
    maxWaitForKeyframe := determineMaxWaitForFrame config (1000 * historyMs) true
    maxWaitForFrame := determineMaxWaitForFrame config (1000 * historyMs) false }

def generateKeyFrame (s : ReceiveStream H) (now : ℤ) : StreamOutcome H :=
  let requested := s.requestKeyFrame now
  { requested with state := { requested.state with keyframeGenerationRequested := true } }

/-- `SetAndGetRecordingState` up to its wait. -/
def setAndGetRecordingState (s : ReceiveStream H) (callback : Option ℕ)
    (lastKeyframeRequestMs : Option ℤ) (generateKeyFrame : Bool) (now : ℤ) : StreamOutcome H where
  state := { s with
    lastKeyframeRequest := some (if generateKeyFrame then now else 1000 * lastKeyframeRequestMs.getD 0)
    decodeQueue := s.decodeQueue ++ [.setRecordingState callback]
    keyframeGenerationRequested := s.keyframeGenerationRequested || generateKeyFrame
    blocked := true }
  events := if generateKeyFrame then [.requestKeyFrame] else []

end ReceiveStream

/-! ## Runs -/

inductive StreamOp where
  | start (now : ℤ) (timing : DecodeTiming)
  | stop
  | onCompleteFrame (now : ℤ) (frame : EncodedFrame) (timing : DecodeTiming)
  | schedulerFires (now : ℤ)
  | onTimeout (now clock : ℤ) (reception : Reception) (timing : DecodeTiming)
  | handleResult (clock : ℤ) (reception : Reception) (timing : DecodeTiming)
  | setNackHistory (historyMs : ℤ)
  | generateKeyFrame (now : ℤ)
  | setAndGetRecordingState (callback : Option ℕ) (lastKeyframeRequestMs : Option ℤ)
      (generateKeyFrame : Bool) (now : ℤ)
  | decodeNext (code : DecodeCode) (delivered : List EncodedResolution)
  /-- A picture comes out of an asynchronous decoder. -/
  | onFrame (resolution : EncodedResolution)

/-- What does not run on the worker. -/
def StreamOp.offWorker : StreamOp → Bool
  | .decodeNext _ _ => true
  | .onFrame _ => true
  | _ => false

namespace ReceiveStream

def perform (s : ReceiveStream H) : StreamOp → StreamOutcome H
  | .start now timing => s.start U now timing
  | .stop => s.stop
  | .onCompleteFrame now frame timing => s.onCompleteFrame U now frame timing
  | .schedulerFires now => s.afterBuffer now (s.buffer.schedulerFires U)
  | .onTimeout now clock reception timing => s.onTimeout U config now clock reception timing
  | .handleResult clock reception timing => s.handleResult U clock reception timing
  | .setNackHistory historyMs => ⟨s.setNackHistory config historyMs, []⟩
  | .generateKeyFrame now => s.generateKeyFrame now
  | .setAndGetRecordingState callback lastKeyframeRequestMs generateKeyFrame now =>
    s.setAndGetRecordingState callback lastKeyframeRequestMs generateKeyFrame now
  | .decodeNext code delivered => s.decodeNext res code delivered
  | .onFrame resolution => ⟨{ s with output := s.output.next res (.onFrame resolution) }, []⟩

/-- A blocked worker runs nothing. -/
def Step (s : ReceiveStream H) (op : StreamOp) (t : ReceiveStream H) : Prop :=
  (s.blocked = true → op.offWorker = true) ∧ t = (s.perform U config res op).state

/-- `Step` as a function of the operation. -/
def next (s : ReceiveStream H) (op : StreamOp) : Option (ReceiveStream H) :=
  if s.blocked && !op.offWorker then none else some (s.perform U config res op).state

theorem step_of_next {s t : ReceiveStream H} {op : StreamOp} (h : s.next U config res op = some t) :
    Step U config res s op t := by
  unfold next at h
  split_ifs at h with hblocked
  refine ⟨fun hb => ?_, (Option.some.inj h).symm⟩
  simpa [hb] using hblocked

end ReceiveStream

/-- A run of a new stream. -/
abbrev StreamRun (members : StreamMembers) (legacy : Bool) (maxDecodeQueueSize : ℕ) (rtpHistoryMs : ℤ) :
    List (ReceiveStream H × StreamOp) → ReceiveStream H → Prop :=
  Run (ReceiveStream.Step U config res)
    (.create U config members legacy maxDecodeQueueSize rtpHistoryMs)

/-- The stream is started, and was not running. -/
def StreamOp.starts (s : ReceiveStream H) : StreamOp → Bool
  | .start _ _ => !s.decoderRunning
  | _ => false

/-- How often a run starts the stream. -/
def startCount (tr : List (ReceiveStream H × StreamOp)) : ℕ := tr.countP fun e => e.2.starts e.1

/-- Everything a run calls outside, in order. -/
def streamEvents (tr : List (ReceiveStream H × StreamOp)) : List StreamEvent :=
  tr.flatMap fun e => (e.1.perform U config res e.2).events

/-- The frames that were handed to the decoder. -/
def decodedOf (events : List StreamEvent) : List Decoded :=
  events.filterMap fun e =>
    match e with
    | .decoded d => some d
    | _ => none

/-- The frames a run hands to the decoder, in order. -/
def decodedFrames (tr : List (ReceiveStream H × StreamOp)) : List Decoded :=
  decodedOf (streamEvents U config res tr)

end WebrtcTrace.Video
