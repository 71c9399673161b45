import WebrtcTrace.Video.FramesInFlight

/-! # Delta frames after decoded frames only

What a stream that is started once hands to the decoder, read as a log: a frame that is no keyframe
comes right after a frame that was decoded, and a failed frame asks for a keyframe the first time, and
later only if such a request is due. The invariant is that of `FramesInFlight`.
-/

namespace WebrtcTrace.Video
open Runs ReceiveStream
set_option autoImplicit false

variable {H : Type*} {U : Upstream H} {config : StreamConfig} {res : Resolutions}

/-- A frame handed to the decoder after these frames. -/
structure Follows (before : List Decoded) (d : Decoded) : Prop where
  gate : d.task.frame.isKeyframe = true ∨ lastDecoded before = true
  forced : d.forced = true ↔ d.code = .okRequestKeyframe ∨ d.code = .other ∧
    ((∀ d' ∈ before, d'.code = .other) ∨ lastDecoded before = true ∨
      d.task.keyframeRequestIsDue = true)

/-- The result of a frame, by what its task knows. -/
theorem handleEncodedFrame_forced (s : ReceiveStream H) (task : DecodeTask) (code : DecodeCode) :
    (s.handleEncodedFrameOnDecodeQueue task code).1.forceRequestKeyFrame = true ↔
      code = .okRequestKeyframe ∨ code = .other ∧
        (s.frameDecoded = false ∨ task.keyframeRequired = false ∨ task.keyframeRequestIsDue = true) := by
  unfold handleEncodedFrameOnDecodeQueue
  cases code with
  | ok => simp
  | okRequestKeyframe => simp
  | other =>
    dsimp only
    split_ifs with hforce <;> simp [hforce]

variable {n : ℕ} {log : List Decoded} {s : ReceiveStream H}

/-- The next frame of the decode queue follows the frames before it. -/
theorem InFlight.follows (h : InFlight n log s) {task : DecodeTask}
    (hmem : .decode task ∈ s.decodeQueue) (code : DecodeCode) :
    Follows log
      ⟨task, code, (s.handleEncodedFrameOnDecodeQueue task code).1.forceRequestKeyFrame⟩ := by
  obtain ⟨hrequired, hgate⟩ := h.tasks task hmem
  have hfailed : s.frameDecoded = false ↔ ∀ d ∈ log, d.code = .other := by
    rw [h.decoded, List.any_eq_false]
    simp
  refine ⟨hgate, ?_⟩
  rw [handleEncodedFrame_forced, hfailed, hrequired, Bool.not_eq_false']

/-- The frames a step hands to the decoder follow the frames before them. -/
theorem InFlight.step_follows (h : InFlight n log s) (op : StreamOp)
    (hlog : ∀ before d after, log = before ++ d :: after → Follows before d) :
    ∀ before d after, log ++ decodedOf (s.perform U config res op).events = before ++ d :: after →
      Follows before d := by
  have hnone : decodedOf (s.perform U config res op).events = [] ∨
      ∃ d, decodedOf (s.perform U config res op).events = [d] ∧ Follows log d := by
    cases op with
    | decodeNext code delivered =>
      simp only [ReceiveStream.perform, ReceiveStream.decodeNext]
      cases hqueue : s.decodeQueue with
      | nil => exact .inl rfl
      | cons task tasks =>
        cases task with
        | start | stop | setRecordingState => exact .inl rfl
        | decode task =>
          dsimp only
          split_ifs
          · exact .inl rfl
          · exact .inr ⟨_, congrArg _ (decodedOf_dispatched _),
              h.follows (hqueue ▸ List.mem_cons_self) code⟩
    | start | stop | onCompleteFrame | schedulerFires | onTimeout | handleResult | setNackHistory |
        generateKeyFrame | setAndGetRecordingState | onFrame =>
      exact .inl (perform_decoded s fun code delivered heq => by cases heq)
  obtain hnone | ⟨d, hone, hd⟩ := hnone
  · rw [hnone, List.append_nil]
    exact hlog
  · rw [hone]
    exact splits_snoc hlog hd

/-- **No delta frame without its reference decoded, and no storm of keyframe requests.** In every run of
a stream that is started once, for each frame handed to the decoder and the frames before it: it is a
keyframe or comes right after a frame that was decoded; and its result forces a keyframe request exactly
when the decoder asks for one or, for a frame that failed, when no frame was decoded yet, when the one
before it was decoded, or when a request was due as it left the buffer. -/
theorem delta_follows_decoded {members : StreamMembers} (hmembers : members.Initial) (legacy : Bool)
    (maxDecodeQueueSize : ℕ) (rtpHistoryMs : ℤ) (tr : List (ReceiveStream H × StreamOp))
    (s : ReceiveStream H)
    (h : StreamRun U config res members legacy maxDecodeQueueSize rtpHistoryMs tr s)
    (honce : startCount tr ≤ 1) :
    ∀ before d after, decodedFrames U config res tr = before ++ d :: after → Follows before d := by
  have hruns : ∀ {tr s}, StreamRun U config res members legacy maxDecodeQueueSize rtpHistoryMs tr s →
      startCount tr ≤ 1 → InFlight (startCount tr) (decodedFrames U config res tr) s :=
    fun h honce => inFlight_run hmembers h honce
  induction h with
  | start =>
    intro before d after heq
    exact absurd (congrArg List.length heq) (by simp [decodedFrames, streamEvents, decodedOf])
  | @snoc tr s t op hr ht ih =>
    have hcount : startCount tr ≤ 1 :=
      (List.Sublist.countP_le (List.sublist_append_left tr [(s, op)])).trans honce
    rw [decodedFrames_snoc]
    exact (hruns hr hcount).step_follows op (ih hcount)

/-- The delta frame waits for its time, and fails. -/
def deltaOps : List StreamOp :=
  keyframeOps ++ [.handleResult 2000 ⟨none, none, true⟩ inTime,
    .onCompleteFrame 3000 ⟨2, 20, [1], true, false⟩ inTime, .schedulerFires 4000, .decodeNext .other []]

theorem delta_follows_decoded_delta :
    ∃ tr s, StreamRun .unbounded defaultStream unspecified headerMembers true 8 0 tr s ∧
      (decodedFrames .unbounded defaultStream unspecified tr).map
        (fun d => (d.task.frame.id, d.code, d.forced)) = [(1, .ok, false), (2, .other, true)] ∧
      ∀ before d after, decodedFrames .unbounded defaultStream unspecified tr =
        before ++ d :: after → Follows before d := by
  obtain ⟨tr, s, hexecute⟩ : ∃ tr s, Runs.execute
      (ReceiveStream.next .unbounded defaultStream unspecified) newStream deltaOps = some (tr, s) :=
    ⟨_, _, rfl⟩
  have hrun : StreamRun .unbounded defaultStream unspecified headerMembers true 8 0 tr s :=
    (Run.execute hexecute).mono fun _ _ _ ht => step_of_next _ _ _ ht
  obtain ⟨rfl, rfl⟩ := Prod.mk.inj (Option.some.inj hexecute)
  refine ⟨_, _, hrun, by decide +kernel, ?_⟩
  exact delta_follows_decoded ⟨rfl, rfl⟩ true 8 0 _ _ hrun (by decide +kernel)

end WebrtcTrace.Video
