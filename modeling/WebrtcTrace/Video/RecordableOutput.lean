import WebrtcTrace.Video.FrameBuffer

/-! # Recordable encoded frames (`video/video_receive_stream2.cc`)

`DecodeAndMaybeDispatchEncodedFrame` keeps the encoded frames for a recorder until the resolution of the
stream is known. The resolution comes with the frame or, if a keyframe does not carry it, with the first
decoded picture, which the decoder delivers through `OnFrame` at any time.

Each operation keeps the output sound (`Sound.next`), gives out what it takes out of the buffer
(`perform_ledger`), and leaves a full buffer full (`full_halts`); `StreamRecording` has the runs.
-/

namespace WebrtcTrace.Video
set_option autoImplicit false

structure EncodedResolution where
  width : ℕ
  height : ℕ
  deriving DecidableEq, Repr

def EncodedResolution.empty (r : EncodedResolution) : Bool := r.width == 0 && r.height == 0

/-- `encoded_frame_buffer_function_`, as the name of the callback, with the members it goes with. -/
structure EncodedFrameOutput where
  encodedFrameBufferFunction : Option ℕ := none
  bufferedEncodedFrames : List EncodedFrame := []
  pendingResolution : Option EncodedResolution := none

/-- A frame and the resolution it was given to the callback with. -/
structure Dispatched where
  callback : ℕ
  frame : EncodedFrame
  resolution : EncodedResolution
  deriving DecidableEq, Repr

def kBufferedEncodedFramesMaxSize : ℕ := 60

/-- `_encodedWidth` and `_encodedHeight` of a frame. -/
abbrev Resolutions := EncodedFrame → EncodedResolution

variable (res : Resolutions)

def isKeyFrameAndUnspecifiedResolution (frame : EncodedFrame) : Bool :=
  frame.isKeyframe && (res frame).empty

namespace EncodedFrameOutput

def enabled (o : EncodedFrameOutput) : Bool :=
  o.encodedFrameBufferFunction.isSome &&
    decide (o.bufferedEncodedFrames.length < kBufferedEncodedFramesMaxSize)

/-- The end of `OnFrame`. -/
def onFrame (o : EncodedFrameOutput) (resolution : EncodedResolution) : EncodedFrameOutput :=
  if o.pendingResolution.isSome then { o with pendingResolution := some resolution } else o

/-- The first part of `DecodeAndMaybeDispatchEncodedFrame`, with output enabled. -/
def buffer (o : EncodedFrameOutput) (frame : EncodedFrame) : EncodedFrameOutput :=
  { o with
    bufferedEncodedFrames := o.bufferedEncodedFrames ++ [frame]
    pendingResolution :=
      if isKeyFrameAndUnspecifiedResolution res frame = true ∧ o.pendingResolution = none
      then some ⟨0, 0⟩ else o.pendingResolution }

/-- The resolution a frame is dispatched with; `*pending_resolution` needs one that is set. -/
def dispatchResolution (o : EncodedFrameOutput) (frame : EncodedFrame) : EncodedResolution :=
  if isKeyFrameAndUnspecifiedResolution res frame then o.pendingResolution.getD ⟨0, 0⟩ else res frame

/-- The last part: the buffered frames go out, unless the resolution is awaited. -/
def flush (o : EncodedFrameOutput) : EncodedFrameOutput × List Dispatched :=
  match o.encodedFrameBufferFunction with
  | none => (o, [])
  | some callback =>
    if o.pendingResolution.all fun r => !r.empty then
      ({ o with bufferedEncodedFrames := [] },
        o.bufferedEncodedFrames.map fun frame => ⟨callback, frame, o.dispatchResolution res frame⟩)
    else (o, [])

/-- `DecodeAndMaybeDispatchEncodedFrame`; the decoder delivers pictures of these resolutions. -/
def decodeAndMaybeDispatchEncodedFrame (o : EncodedFrameOutput) (frame : EncodedFrame)
    (delivered : List EncodedResolution) : EncodedFrameOutput × List Dispatched :=
  if o.enabled then (delivered.foldl onFrame (o.buffer res frame)).flush res
  else (delivered.foldl onFrame o, [])

end EncodedFrameOutput

inductive OutputOp where
  | setCallback (callback : Option ℕ)
  | decode (frame : EncodedFrame) (delivered : List EncodedResolution)
  | onFrame (resolution : EncodedResolution)
  deriving DecidableEq, Repr

namespace EncodedFrameOutput

def perform (o : EncodedFrameOutput) : OutputOp → EncodedFrameOutput × List Dispatched
  | .setCallback callback => ({ o with encodedFrameBufferFunction := callback }, [])
  | .decode frame delivered => o.decodeAndMaybeDispatchEncodedFrame res frame delivered
  | .onFrame resolution => (o.onFrame resolution, [])

def next (o : EncodedFrameOutput) (op : OutputOp) : EncodedFrameOutput := (o.perform res op).1

end EncodedFrameOutput

/-! ## One operation -/

namespace EncodedFrameOutput
variable {res} {o : EncodedFrameOutput}

/-- A frame that waits for its resolution has one pending, and the buffer is bounded. -/
structure Sound (res : Resolutions) (o : EncodedFrameOutput) : Prop where
  awaited : ∀ frame ∈ o.bufferedEncodedFrames, isKeyFrameAndUnspecifiedResolution res frame = true →
    o.pendingResolution.isSome = true
  bounded : o.bufferedEncodedFrames.length ≤ kBufferedEncodedFramesMaxSize

theorem onFrame_buffered (o : EncodedFrameOutput) (resolution : EncodedResolution) :
    (o.onFrame resolution).bufferedEncodedFrames = o.bufferedEncodedFrames ∧
      (o.onFrame resolution).encodedFrameBufferFunction = o.encodedFrameBufferFunction ∧
      (o.onFrame resolution).pendingResolution.isSome = o.pendingResolution.isSome := by
  unfold onFrame
  split_ifs with h
  · exact ⟨rfl, rfl, h.symm⟩
  · exact ⟨rfl, rfl, rfl⟩

theorem onFrames_buffered (delivered : List EncodedResolution) : ∀ o : EncodedFrameOutput,
    (delivered.foldl onFrame o).bufferedEncodedFrames = o.bufferedEncodedFrames ∧
      (delivered.foldl onFrame o).encodedFrameBufferFunction = o.encodedFrameBufferFunction ∧
      (delivered.foldl onFrame o).pendingResolution.isSome = o.pendingResolution.isSome := by
  induction delivered with
  | nil => exact fun o => ⟨rfl, rfl, rfl⟩
  | cons resolution delivered ih =>
    intro o
    obtain ⟨hbuffered, hcallback, hpending⟩ := ih (o.onFrame resolution)
    obtain ⟨hbuffered', hcallback', hpending'⟩ := onFrame_buffered o resolution
    exact ⟨hbuffered.trans hbuffered', hcallback.trans hcallback', hpending.trans hpending'⟩

theorem Sound.onFrame (h : Sound res o) (resolution : EncodedResolution) :
    Sound res (o.onFrame resolution) := by
  obtain ⟨hbuffered, _, hpending⟩ := onFrame_buffered o resolution
  refine ⟨?_, hbuffered ▸ h.bounded⟩
  rw [hbuffered, hpending]
  exact h.awaited

theorem Sound.onFrames (h : Sound res o) (delivered : List EncodedResolution) :
    Sound res (delivered.foldl EncodedFrameOutput.onFrame o) := by
  obtain ⟨hbuffered, _, hpending⟩ := onFrames_buffered delivered o
  refine ⟨?_, hbuffered ▸ h.bounded⟩
  rw [hbuffered, hpending]
  exact h.awaited

theorem Sound.buffer (h : Sound res o) (henabled : o.enabled = true) (frame : EncodedFrame) :
    Sound res (o.buffer res frame) := by
  simp only [enabled, Bool.and_eq_true, decide_eq_true_eq] at henabled
  refine ⟨fun f hf hunspecified => ?_, ?_⟩
  · simp only [EncodedFrameOutput.buffer]
    obtain hf | hf := List.mem_append.mp hf
    · split_ifs
      · rfl
      · exact h.awaited f hf hunspecified
    · rw [List.mem_singleton.mp hf] at hunspecified
      cases hpending : o.pendingResolution with
      | none => rw [if_pos ⟨hunspecified, rfl⟩, Option.isSome_some]
      | some r => rw [if_neg (fun hno => by cases hno.2), Option.isSome_some]
  · simp only [EncodedFrameOutput.buffer, List.length_append, List.length_singleton]
    exact henabled.2

/-- A flush gives out what is buffered, or nothing. -/
theorem flush_cases (res : Resolutions) (o : EncodedFrameOutput) :
    o.flush res = (o, []) ∨
      ∃ callback, o.encodedFrameBufferFunction = some callback ∧
        (∀ r ∈ o.pendingResolution, r.empty = false) ∧
        o.flush res = ({ o with bufferedEncodedFrames := [] },
          o.bufferedEncodedFrames.map fun frame => ⟨callback, frame, o.dispatchResolution res frame⟩) := by
  unfold flush
  cases hcallback : o.encodedFrameBufferFunction with
  | none => exact .inl rfl
  | some callback =>
    dsimp only
    split_ifs with hknown
    · refine .inr ⟨callback, rfl, fun r hr => ?_, rfl⟩
      rw [Option.mem_def.mp hr] at hknown
      simpa using hknown
    · exact .inl rfl

/-- What a flush leaves and what it gave out. -/
theorem flush_ledger (res : Resolutions) (o : EncodedFrameOutput) :
    (o.flush res).2.map Dispatched.frame ++ (o.flush res).1.bufferedEncodedFrames =
      o.bufferedEncodedFrames := by
  obtain heq | ⟨callback, _, _, heq⟩ := flush_cases res o <;> rw [heq]
  · rfl
  · simp [Function.comp_def]

theorem Sound.flush (h : Sound res o) : Sound res (o.flush res).1 := by
  obtain heq | ⟨callback, _, _, heq⟩ := flush_cases res o <;> rw [heq]
  · exact h
  · exact ⟨fun frame hframe => absurd hframe List.not_mem_nil, Nat.zero_le _⟩

/-- A keyframe is not given out without a resolution. -/
theorem flush_resolution (h : Sound res o) {d : Dispatched} (hd : d ∈ (o.flush res).2)
    (hkey : d.frame.isKeyframe = true) : d.resolution.empty = false := by
  obtain heq | ⟨callback, _, hknown, heq⟩ := flush_cases res o <;> rw [heq] at hd
  · cases hd
  · obtain ⟨frame, hframe, rfl⟩ := List.mem_map.mp hd
    dsimp only at hkey ⊢
    unfold dispatchResolution
    split_ifs with hunspecified
    · obtain ⟨r, hr⟩ := Option.isSome_iff_exists.mp (h.awaited frame hframe hunspecified)
      rw [hr, Option.getD_some]
      exact hknown r hr
    · simpa [isKeyFrameAndUnspecifiedResolution, hkey] using hunspecified

/-- What an operation accepts. -/
def accepts (o : EncodedFrameOutput) : OutputOp → List EncodedFrame
  | .decode frame _ => if o.enabled then [frame] else []
  | _ => []

theorem Sound.next (h : Sound res o) (op : OutputOp) : Sound res (o.next res op) := by
  cases op with
  | setCallback callback => exact ⟨h.awaited, h.bounded⟩
  | onFrame resolution => exact h.onFrame resolution
  | decode frame delivered =>
    unfold EncodedFrameOutput.next perform decodeAndMaybeDispatchEncodedFrame
    dsimp only
    split_ifs with henabled
    · exact ((h.buffer henabled frame).onFrames delivered).flush
    · exact h.onFrames delivered

theorem perform_ledger (o : EncodedFrameOutput) (op : OutputOp) :
    (o.perform res op).2.map Dispatched.frame ++ (o.next res op).bufferedEncodedFrames =
      o.bufferedEncodedFrames ++ o.accepts op := by
  cases op with
  | setCallback callback => exact (List.append_nil _).symm
  | onFrame resolution => exact (onFrame_buffered o resolution).1.trans (List.append_nil _).symm
  | decode frame delivered =>
    unfold EncodedFrameOutput.next perform decodeAndMaybeDispatchEncodedFrame accepts
    dsimp only
    split_ifs with henabled
    · rw [flush_ledger, (onFrames_buffered delivered _).1]
      rfl
    · rw [(onFrames_buffered delivered o).1]
      exact (List.append_nil _).symm

theorem perform_resolution (h : Sound res o) (op : OutputOp) {d : Dispatched}
    (hd : d ∈ (o.perform res op).2) (hkey : d.frame.isKeyframe = true) : d.resolution.empty = false := by
  cases op with
  | setCallback callback => cases hd
  | onFrame resolution => cases hd
  | decode frame delivered =>
    unfold perform decodeAndMaybeDispatchEncodedFrame at hd
    dsimp only at hd
    split_ifs at hd with henabled
    · exact flush_resolution ((h.buffer henabled frame).onFrames delivered) hd hkey
    · cases hd

/-- A full buffer stays as it is. -/
theorem full_halts (hfull : o.bufferedEncodedFrames.length = kBufferedEncodedFramesMaxSize)
    (op : OutputOp) : (o.perform res op).2 = [] ∧
      (o.next res op).bufferedEncodedFrames.length = kBufferedEncodedFramesMaxSize := by
  have hdisabled : o.enabled = false := by
    simp [enabled, hfull]
  cases op with
  | setCallback callback => exact ⟨rfl, hfull⟩
  | onFrame resolution =>
    refine ⟨rfl, ?_⟩
    change (o.onFrame resolution).bufferedEncodedFrames.length = _
    rw [(onFrame_buffered o resolution).1, hfull]
  | decode frame delivered =>
    unfold EncodedFrameOutput.next perform decodeAndMaybeDispatchEncodedFrame
    rw [hdisabled]
    refine ⟨rfl, ?_⟩
    change (delivered.foldl EncodedFrameOutput.onFrame o).bufferedEncodedFrames.length = _
    rw [(onFrames_buffered delivered o).1, hfull]

end EncodedFrameOutput

end WebrtcTrace.Video
