import WebrtcTrace.Video.KeyframeGate

/-! # What a stream records

The output of recordable frames inside the stream: each step of the stream is at most one operation of
its output (`perform_carries`), so every frame that reaches the decoder while the output takes frames is
given to a recorder once and in order or still waits (`frames_recorded_in_order`).
-/

namespace WebrtcTrace.Video
open Runs ReceiveStream
set_option autoImplicit false

variable {H : Type*} {U : Upstream H} {config : StreamConfig} {res : Resolutions}

/-- The frames that were given to a callback. -/
def dispatchedOf (events : List StreamEvent) : List Dispatched :=
  events.filterMap fun e =>
    match e with
    | .dispatched d => some d
    | _ => none

theorem dispatchedOf_append (events events' : List StreamEvent) :
    dispatchedOf (events ++ events') = dispatchedOf events ++ dispatchedOf events' :=
  List.filterMap_append

/-- The worker dispatches nothing. -/
theorem dispatchedOf_worker {events : List StreamEvent} (h : ∀ e ∈ events, e.ofDecodeQueue = false) :
    dispatchedOf events = [] := by
  rw [dispatchedOf, List.filterMap_eq_nil_iff]
  intro e he
  cases e with
  | dispatched d => cases h _ he
  | buffer | requestKeyFrame | frameDecoded | streamInactive | decoded => rfl

theorem dispatchedOf_dispatched (ds : List Dispatched) :
    dispatchedOf (ds.map .dispatched) = ds := by
  induction ds with
  | nil => rfl
  | cons d ds ih => exact congrArg (d :: ·) ih

/-! ## The output of one step -/

theorem afterBuffer_output (s : ReceiveStream H) (now : ℤ) (out : Outcome H) :
    (s.afterBuffer now out).state.output = s.output := by
  have hfold : ∀ (frames : List EncodedFrame) (t : ReceiveStream H),
      (frames.foldl (fun s frame => s.onEncodedFrame now frame) t).output = t.output := by
    intro frames
    induction frames with
    | nil => exact fun t => rfl
    | cons frame frames ih => exact fun t => ih _
  exact hfold _ _

/-- The worker does not touch the output. -/
theorem perform_output (s : ReceiveStream H) {op : StreamOp} (hop : op.offWorker = false) :
    (s.perform U config res op).state.output = s.output := by
  cases op with
  | decodeNext | onFrame => cases hop
  | generateKeyFrame | setAndGetRecordingState => rfl
  | onCompleteFrame now frame timing => exact afterBuffer_output s now _
  | schedulerFires now => exact afterBuffer_output s now _
  | start now timing =>
    simp only [ReceiveStream.perform, ReceiveStream.start]
    split_ifs
    · rfl
    · exact afterBuffer_output { s with decodeQueue := s.decodeQueue ++ [.start] } now _
  | stop =>
    simp only [ReceiveStream.perform, ReceiveStream.stop]
    split_ifs <;> rfl
  | setNackHistory historyMs =>
    simp only [ReceiveStream.perform, ReceiveStream.setNackHistory]
    split_ifs <;> rfl
  | onTimeout now clock reception timing =>
    simp only [ReceiveStream.perform, ReceiveStream.onTimeout]
    split_ifs
    · rfl
    · simp only [onDecodableFrameTimeout, startNextDecode, afterBuffer_output]
      split_ifs <;> rfl
  | handleResult clock reception timing =>
    simp only [ReceiveStream.perform, ReceiveStream.handleResult]
    split
    · rfl
    · simp only [startNextDecode, afterBuffer_output]
      rename_i r results _
      obtain ⟨last, requested, heq⟩ := handleKeyFrameGeneration_frame
        { s with
          workerQueue := results
          keyframeRequired := r.result.keyframeRequired
          lastDecodedRtpTimestamp := some r.task.frame.rtpTimestamp }
        reception r.task.frame.isKeyframe r.result.forceRequestKeyFrame r.task.keyframeRequestIsDue
      rw [heq]

variable (U config res)

/-- The frames a step hands to the decoder. -/
def decodedBy (s : ReceiveStream H) (op : StreamOp) : List EncodedFrame :=
  (decodedOf (s.perform U config res op).events).map fun d => d.task.frame

/-- The frames a run hands to the decoder while the output takes frames. -/
def acceptedFrames (tr : List (ReceiveStream H × StreamOp)) : List EncodedFrame :=
  tr.flatMap fun e => if e.1.output.enabled then decodedBy U config res e.1 e.2 else []

/-- A step of the stream is this operation of its output. -/
structure Carries (s : ReceiveStream H) (op : StreamOp) (o : OutputOp) : Prop where
  output : (s.perform U config res op).state.output = s.output.next res o
  dispatched : dispatchedOf (s.perform U config res op).events = (s.output.perform res o).2
  accepted : s.output.accepts o =
    if s.output.enabled then decodedBy U config res s op else []

/-- A step of the stream that leaves its output alone. -/
structure Silent (s : ReceiveStream H) (op : StreamOp) : Prop where
  output : (s.perform U config res op).state.output = s.output
  dispatched : dispatchedOf (s.perform U config res op).events = []
  decoded : decodedBy U config res s op = []

variable {U config res}

theorem Silent.of_events {s : ReceiveStream H} {op : StreamOp}
    (houtput : (s.perform U config res op).state.output = s.output)
    (hevents : (s.perform U config res op).events = []) : Silent U config res s op where
  output := houtput
  dispatched := congrArg dispatchedOf hevents
  decoded := by
    rw [decodedBy, hevents]
    rfl

/-- A frame on the decode queue, with the decoder not stopped. -/
theorem decode_carries {s : ReceiveStream H} {task : DecodeTask} {tasks : List DecoderTask}
    (hqueue : s.decodeQueue = .decode task :: tasks) (hrunning : ¬ s.decoderStopped = true)
    (code : DecodeCode) (delivered : List EncodedResolution) :
    Carries U config res s (.decodeNext code delivered) (.decode task.frame delivered) := by
  have hperform : s.perform U config res (.decodeNext code delivered) =
      { state := { (s.handleEncodedFrameOnDecodeQueue task code).2 with
          decodeQueue := tasks
          output := (s.output.perform res (.decode task.frame delivered)).1
          workerQueue := s.workerQueue ++ [⟨task, (s.handleEncodedFrameOnDecodeQueue task code).1⟩] }
        events := .decoded
            ⟨task, code, (s.handleEncodedFrameOnDecodeQueue task code).1.forceRequestKeyFrame⟩ ::
          (s.output.perform res (.decode task.frame delivered)).2.map .dispatched } := by
    simp only [ReceiveStream.perform, ReceiveStream.decodeNext, hqueue]
    rw [if_neg hrunning]
  constructor
  · rw [hperform]
    rfl
  · rw [hperform]
    exact dispatchedOf_dispatched _
  · rw [decodedBy, hperform]
    exact congrArg (fun ds : List Decoded => if s.output.enabled then
      task.frame :: ds.map (fun d => d.task.frame) else []) (decodedOf_dispatched _).symm

variable (U config res) in
/-- Each step of the stream is at most one operation of its output. -/
theorem perform_carries (s : ReceiveStream H) (op : StreamOp) :
    Silent U config res s op ∨ ∃ o, Carries U config res s op o := by
  by_cases hworker : op.offWorker = false
  · have hop : ∀ code delivered, op ≠ .decodeNext code delivered := by
      rintro code delivered rfl
      cases hworker
    exact .inl ⟨perform_output s hworker, dispatchedOf_worker (perform_events s hop),
      by rw [decodedBy, perform_decoded s hop, List.map_nil]⟩
  cases op with
  | onFrame resolution => exact .inr ⟨.onFrame resolution, rfl, rfl, (ite_self []).symm⟩
  | decodeNext code delivered =>
    cases hqueue : s.decodeQueue with
    | nil =>
      refine .inl (.of_events ?_ ?_) <;>
        simp only [ReceiveStream.perform, ReceiveStream.decodeNext, hqueue]
    | cons task tasks =>
      cases task with
      | start =>
        refine .inl (.of_events ?_ ?_) <;>
          simp only [ReceiveStream.perform, ReceiveStream.decodeNext, hqueue]
      | stop =>
        refine .inl (.of_events ?_ ?_) <;>
          simp only [ReceiveStream.perform, ReceiveStream.decodeNext, hqueue]
      | setRecordingState callback =>
        have hperform : s.perform U config res (.decodeNext code delivered) =
            ⟨{ s with
                decodeQueue := tasks
                output := s.output.next res (.setCallback callback)
                blocked := false }, []⟩ := by
          simp only [ReceiveStream.perform, ReceiveStream.decodeNext, hqueue]
        refine .inr ⟨.setCallback callback, ?_, ?_, ?_⟩
        · rw [hperform]
        · rw [hperform]
          rfl
        · rw [decodedBy, hperform]
          exact (ite_self []).symm
      | decode task =>
        by_cases hstopped : s.decoderStopped = true
        · refine .inl (.of_events ?_ ?_) <;>
            simp only [ReceiveStream.perform, ReceiveStream.decodeNext, hqueue, if_pos hstopped]
        · exact .inr ⟨_, decode_carries hqueue hstopped code delivered⟩
  | start | stop | onCompleteFrame | schedulerFires | onTimeout | handleResult | setNackHistory |
      generateKeyFrame | setAndGetRecordingState => exact absurd rfl hworker

/-! ## Runs -/

variable (U config res) in
/-- A full buffer stays full, and nothing is dispatched. -/
theorem perform_full {s : ReceiveStream H} (op : StreamOp)
    (hfull : s.output.bufferedEncodedFrames.length = kBufferedEncodedFramesMaxSize) :
    dispatchedOf (s.perform U config res op).events = [] ∧
      (s.perform U config res op).state.output.bufferedEncodedFrames.length =
        kBufferedEncodedFramesMaxSize := by
  obtain hsilent | ⟨o, hcarries⟩ := perform_carries U config res s op
  · exact ⟨hsilent.dispatched, hsilent.output ▸ hfull⟩
  · obtain ⟨hnone, hnext⟩ := @EncodedFrameOutput.full_halts res s.output hfull o
    exact ⟨hcarries.dispatched.trans hnone, hcarries.output ▸ hnext⟩

/-- From a full buffer on, nothing is dispatched. -/
theorem dispatched_full {o s : ReceiveStream H} {tr : List (ReceiveStream H × StreamOp)}
    (h : Run (Step U config res) o tr s)
    (hfull : o.output.bufferedEncodedFrames.length = kBufferedEncodedFramesMaxSize) :
    dispatchedOf (streamEvents U config res tr) = [] := by
  refine (h.history (I := fun tr s => dispatchedOf (streamEvents U config res tr) = [] ∧
    s.output.bufferedEncodedFrames.length = kBufferedEncodedFramesMaxSize) ⟨rfl, hfull⟩ ?_).1
  rintro tr s op t ⟨hnone, hs⟩ ⟨_, rfl⟩
  obtain ⟨hop, hnext⟩ := perform_full U config res op hs
  exact ⟨by rw [streamEvents_snoc, dispatchedOf_append, hnone, hop, List.append_nil], hnext⟩

/-- What the frames recorded up to now must satisfy. -/
structure Recorded (res : Resolutions) (accepted : List EncodedFrame) (ds : List Dispatched)
    (o : EncodedFrameOutput) : Prop where
  sound : o.Sound res
  ledger : ds.map Dispatched.frame ++ o.bufferedEncodedFrames = accepted
  resolution : ∀ d ∈ ds, d.frame.isKeyframe = true → d.resolution.empty = false

theorem Recorded.step {tr : List (ReceiveStream H × StreamOp)} {s : ReceiveStream H}
    (h : Recorded res (acceptedFrames U config res tr) (dispatchedOf (streamEvents U config res tr))
      s.output) (op : StreamOp) :
    Recorded res (acceptedFrames U config res (tr ++ [(s, op)]))
      (dispatchedOf (streamEvents U config res (tr ++ [(s, op)])))
      (s.perform U config res op).state.output := by
  have haccepted : acceptedFrames U config res (tr ++ [(s, op)]) = acceptedFrames U config res tr ++
      if s.output.enabled then decodedBy U config res s op else [] := by
    rw [acceptedFrames, List.flatMap_append, List.flatMap_singleton]
    rfl
  rw [haccepted, streamEvents_snoc, dispatchedOf_append]
  obtain hsilent | ⟨o, hcarries⟩ := perform_carries U config res s op
  · rw [hsilent.dispatched, hsilent.decoded, hsilent.output, ite_self, List.append_nil,
      List.append_nil]
    exact h
  · rw [hcarries.dispatched, hcarries.output, ← hcarries.accepted]
    refine ⟨h.sound.next o, ?_, fun d hd => ?_⟩
    · rw [List.map_append, List.append_assoc, EncodedFrameOutput.perform_ledger, ← List.append_assoc,
        h.ledger]
    · obtain hd | hd := List.mem_append.mp hd
      · exact h.resolution d hd
      · exact EncodedFrameOutput.perform_resolution h.sound o hd

/-- **Recorded frames go out once and in order.** In every run of a stream, with recorders that come and
go: the frames given to a recorder and those that wait are, in order, the frames that reached the decoder
while output was enabled; at most 60 wait; a keyframe is given out with a resolution; and once 60 wait,
nothing is given out any more, whichever recorder is set. -/
theorem frames_recorded_in_order (members : StreamMembers) (legacy : Bool) (maxDecodeQueueSize : ℕ)
    (rtpHistoryMs : ℤ) (tr : List (ReceiveStream H × StreamOp)) (s : ReceiveStream H)
    (h : StreamRun U config res members legacy maxDecodeQueueSize rtpHistoryMs tr s) :
    (dispatchedOf (streamEvents U config res tr)).map Dispatched.frame ++
        s.output.bufferedEncodedFrames = acceptedFrames U config res tr ∧
      s.output.bufferedEncodedFrames.length ≤ kBufferedEncodedFramesMaxSize ∧
      (∀ d ∈ dispatchedOf (streamEvents U config res tr),
        d.frame.isKeyframe = true → d.resolution.empty = false) ∧
      ∀ pre e post, tr = pre ++ e :: post →
        e.1.output.bufferedEncodedFrames.length = kBufferedEncodedFramesMaxSize →
        dispatchedOf (streamEvents U config res (e :: post)) = [] := by
  have hrecorded : Recorded res (acceptedFrames U config res tr)
      (dispatchedOf (streamEvents U config res tr)) s.output := by
    refine h.history (I := fun tr s => Recorded res (acceptedFrames U config res tr)
      (dispatchedOf (streamEvents U config res tr)) s.output) ?_ ?_
    · exact ⟨⟨fun _ hf => absurd hf List.not_mem_nil, Nat.zero_le _⟩, rfl, nofun⟩
    rintro tr s op t hs ⟨_, rfl⟩
    exact hs.step op
  refine ⟨hrecorded.ledger, hrecorded.sound.bounded, hrecorded.resolution, ?_⟩
  rintro pre e post rfl hfull
  obtain ⟨t, _, ht, hafter⟩ := h.after
  exact dispatched_full (Run.cons ht hafter) hfull

/-- The keyframe waits until the picture of the second frame tells the resolution. -/
def recordingOps : List StreamOp :=
  [.setAndGetRecordingState (some 7) none false 0, .decodeNext .ok []] ++ keyframeOps ++
    [.handleResult 2000 ⟨none, none, true⟩ inTime, .onCompleteFrame 3000 ⟨2, 20, [1], true, false⟩ inTime,
      .schedulerFires 4000, .decodeNext .ok [⟨640, 480⟩]]

theorem frames_recorded_in_order_recording :
    ∃ tr s, StreamRun .unbounded defaultStream unspecified headerMembers true 8 0 tr s ∧
      (dispatchedOf (streamEvents .unbounded defaultStream unspecified tr)).map
        (fun d => (d.frame.id, d.resolution)) = [(1, ⟨640, 480⟩), (2, ⟨0, 0⟩)] ∧
      s.output.bufferedEncodedFrames.length ≤ 60 := by
  obtain ⟨tr, s, hexecute⟩ : ∃ tr s, Runs.execute
      (ReceiveStream.next .unbounded defaultStream unspecified) newStream recordingOps = some (tr, s) :=
    ⟨_, _, rfl⟩
  have hrun : StreamRun .unbounded defaultStream unspecified headerMembers true 8 0 tr s :=
    (Run.execute hexecute).mono fun _ _ _ ht => step_of_next _ _ _ ht
  obtain ⟨rfl, rfl⟩ := Prod.mk.inj (Option.some.inj hexecute)
  refine ⟨_, _, hrun, by decide +kernel, ?_⟩
  exact (frames_recorded_in_order headerMembers true 8 0 _ _ hrun).2.1

end WebrtcTrace.Video
