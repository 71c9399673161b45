import WebrtcTrace.Video.BufferController
import WebrtcTrace.Video.Removal

/-! # What the loops of the controller do

One round of each loop by the case it takes (`scheduleOrDrop_round`, `forceKeyFrame_round`), and the
cases of the functions that enter them. A round of either loop takes the next unit out of the buffer,
so `CurrentSize` rounds are enough (`scheduleOrDrop_next`, `forceKeyFrame_next`).
-/

namespace WebrtcTrace.Video
open FrameBuffer
set_option autoImplicit false

variable {H : Type*} {U : Upstream H}

theorem info_next {s : FrameBuffer H} (hs : Settled U s) {info : DecodabilityInfo}
    (h : s.decodableTemporalUnitsInfo = some info) : s.nextTimestamp U = some info.nextRtpTimestamp := by
  rw [← settled_info hs, h, Option.map_some]

/-- The information is there exactly when the search finds a unit. -/
theorem info_cases {s : FrameBuffer H} (hs : Settled U s) :
    (s.nextUnit U = none ∧ s.decodableTemporalUnitsInfo = none) ∨
      ∃ u rest info, s.nextUnit U = some (u, rest) ∧ s.decodableTemporalUnitsInfo = some info ∧
        s.nextTimestamp U = some info.nextRtpTimestamp := by
  cases hi : s.decodableTemporalUnitsInfo with
  | none => exact .inl ⟨(info_eq_none hs).mp hi, rfl⟩
  | some info =>
    cases hu : s.nextUnit U with
    | none =>
      rw [(info_eq_none hs).mpr hu] at hi
      cases hi
    | some p => exact .inr ⟨p.1, p.2, info, rfl, rfl, info_next hs hi⟩

namespace BufferController
variable {s : BufferController H}

variable (U) in
/-- The controller without the unit it has taken out of its buffer. -/
def taken (s : BufferController H) : BufferController H :=
  { s with buffer := (s.buffer.extractNextDecodableTemporalUnit U).2 }

variable (U) in
/-- The controller without the unit that came too late. -/
def late (s : BufferController H) : BufferController H :=
  { s with buffer := s.buffer.dropNextDecodableTemporalUnit U }

/-- The controller whose scheduler has forgotten the frame that fires. -/
def fired (s : BufferController H) : BufferController H := { s with scheduledRtpTimestamp := none }

@[simp] theorem taken_buffer (s : BufferController H) :
    (s.taken U).buffer = (s.buffer.extractNextDecodableTemporalUnit U).2 := rfl

@[simp] theorem late_buffer (s : BufferController H) :
    (s.late U).buffer = s.buffer.dropNextDecodableTemporalUnit U := rfl

/-- What a release changes. -/
theorem onFrameReady_state (s : BufferController H) (frames : List EncodedFrame) :
    (s.onFrameReady frames).state.buffer = s.buffer ∧
      (s.onFrameReady frames).state.decoderReadyForNewFrame = false ∧
      (s.onFrameReady frames).state.framesDroppedBeforeLastNewFrame =
        s.buffer.numDroppedFrames := by
  unfold onFrameReady
  split_ifs <;> exact ⟨rfl, rfl, rfl⟩

theorem onFrameReady_events (s : BufferController H) (frames : List EncodedFrame) :
    (s.onFrameReady frames).events = (if s.framesDroppedBeforeLastNewFrame < s.buffer.numDroppedFrames
      then [.droppedFrames (s.buffer.numDroppedFrames - s.framesDroppedBeforeLastNewFrame)] else []) ++
      [.frameReady frames] := by
  unfold onFrameReady updateDroppedFrames
  split <;> rfl

/-! ## One round -/

theorem scheduleOrDrop_round (hs : Settled U s.buffer) (timing : DecodeTiming) (n fuel : ℕ) :
    (s.buffer.nextUnit U = none ∧ scheduleOrDrop U timing n (fuel + 1) s = s) ∨
      ∃ u rest info, s.buffer.nextUnit U = some (u, rest) ∧
        s.buffer.decodableTemporalUnitsInfo = some info ∧
        ((timing n info s.isTooManyFramesQueued = true ∧
            scheduleOrDrop U timing n (fuel + 1) s = s.scheduleFrame info.nextRtpTimestamp) ∨
          (timing n info s.isTooManyFramesQueued = false ∧
            scheduleOrDrop U timing n (fuel + 1) s =
              scheduleOrDrop U timing (n + 1) fuel (s.late U))) := by
  obtain ⟨hu, hi⟩ | ⟨u, rest, info, hu, hi, _⟩ := info_cases hs
  · exact .inl ⟨hu, by rw [scheduleOrDrop, hi]⟩
  · refine .inr ⟨u, rest, info, hu, hi, ?_⟩
    cases ht : timing n info s.isTooManyFramesQueued with
    | true => exact .inl ⟨rfl, by simp only [scheduleOrDrop, hi, ht, if_true]⟩
    | false => exact .inr ⟨rfl, by simp only [scheduleOrDrop, hi, ht, Bool.false_eq_true, if_false]; rfl⟩

theorem forceKeyFrame_round (hs : Settled U s.buffer) (fuel : ℕ) :
    (s.buffer.nextUnit U = none ∧ forceKeyFrameReleaseImmediately U (fuel + 1) s = ⟨s, []⟩) ∨
      ∃ u rest, s.buffer.nextUnit U = some (u, rest) ∧
        ((u.head?.any (·.isKeyframe) = true ∧
            forceKeyFrameReleaseImmediately U (fuel + 1) s = (s.taken U).onFrameReady u) ∨
          (u.head?.any (·.isKeyframe) = false ∧
            forceKeyFrameReleaseImmediately U (fuel + 1) s =
              forceKeyFrameReleaseImmediately U fuel (s.taken U))) := by
  obtain ⟨hu, hi⟩ | ⟨u, rest, info, hu, hi, _⟩ := info_cases hs
  · exact .inl ⟨hu, by rw [forceKeyFrameReleaseImmediately, hi]⟩
  · obtain ⟨_, _, hunit, _⟩ := extract_removes hs hu
    refine .inr ⟨u, rest, hu, ?_⟩
    cases hk : u.head?.any (·.isKeyframe) with
    | true =>
      refine .inl ⟨rfl, ?_⟩
      simp only [forceKeyFrameReleaseImmediately, hi, hunit, hk, if_true]
      rfl
    | false =>
      refine .inr ⟨rfl, ?_⟩
      simp only [forceKeyFrameReleaseImmediately, hi, hunit, hk, Bool.false_eq_true, if_false]
      rfl

/-! ## The functions around the loops -/

theorem maybeSchedule_cases (hs : Settled U s.buffer) (timing : DecodeTiming) :
    ((s.decoderReadyForNewFrame = false ∨ s.buffer.nextUnit U = none) ∧
        s.maybeScheduleFrameForRelease U timing = ⟨s, []⟩) ∨
      s.decoderReadyForNewFrame = true ∧ (∃ p, s.buffer.nextUnit U = some p) ∧
      ((s.keyframeRequired = true ∧ s.maybeScheduleFrameForRelease U timing =
          forceKeyFrameReleaseImmediately U s.buffer.currentSize s) ∨
        s.keyframeRequired = false ∧ ∃ info, s.buffer.decodableTemporalUnitsInfo = some info ∧
        ((s.scheduledRtpTimestamp = some info.nextRtpTimestamp ∧
            s.maybeScheduleFrameForRelease U timing = ⟨s, []⟩) ∨
          (s.scheduledRtpTimestamp ≠ some info.nextRtpTimestamp ∧
            s.maybeScheduleFrameForRelease U timing =
              ⟨scheduleOrDrop U timing 0 s.buffer.currentSize s, []⟩))) := by
  unfold maybeScheduleFrameForRelease
  cases hr : s.decoderReadyForNewFrame with
  | false => exact .inl ⟨.inl rfl, by simp⟩
  | true =>
    obtain ⟨hu, hi⟩ | ⟨u, rest, info, hu, hi, _⟩ := info_cases hs
    · exact .inl ⟨.inr hu, by simp [hi]⟩
    · refine .inr ⟨rfl, ⟨_, hu⟩, ?_⟩
      cases hk : s.keyframeRequired with
      | true => exact .inl ⟨rfl, by simp [hi]⟩
      | false =>
        refine .inr ⟨rfl, info, hi, ?_⟩
        by_cases hsched : s.scheduledRtpTimestamp = some info.nextRtpTimestamp
        · exact .inl ⟨hsched, by simp [hi, hsched]⟩
        · exact .inr ⟨hsched, by simp [hi, hsched]⟩

/-- A firing releases the next unit, if there is one. -/
theorem schedulerFires_cases (hs : Settled U s.buffer) :
    (s.scheduledRtpTimestamp = none ∧ s.schedulerFires U = ⟨s, []⟩) ∨
      ∃ rtpTimestamp, s.scheduledRtpTimestamp = some rtpTimestamp ∧
      ((s.buffer.nextUnit U = none ∧
          s.schedulerFires U = ⟨s.fired, []⟩) ∨
        ∃ u rest info, s.buffer.nextUnit U = some (u, rest) ∧
          s.buffer.decodableTemporalUnitsInfo = some info ∧
          (s.schedulerFires U).state = ((s.fired.taken U).onFrameReady u).state ∧
          (s.schedulerFires U).events = .dcheckEq rtpTimestamp info.nextRtpTimestamp ::
            ((s.fired.taken U).onFrameReady u).events) := by
  unfold schedulerFires
  cases hsched : s.scheduledRtpTimestamp with
  | none => exact .inl ⟨rfl, rfl⟩
  | some rtpTimestamp =>
    refine .inr ⟨rtpTimestamp, rfl, ?_⟩
    obtain ⟨hu, hi⟩ | ⟨u, rest, info, hu, hi, _⟩ := info_cases hs
    · exact .inl ⟨hu, by simp [frameReadyForDecode, hi, fired]⟩
    · obtain ⟨pre, hpre, hunit, _⟩ := extract_removes hs hu
      refine .inr ⟨u, rest, info, hu, hi, ?_⟩
      simp only [frameReadyForDecode, hi, hunit, List.isEmpty_iff, hpre.unit, if_false]
      exact ⟨rfl, rfl⟩

/-! ## The rounds are enough -/

theorem nextUnit_of_empty {b : FrameBuffer H} (h : b.currentSize = 0) : b.nextUnit U = none := by
  rw [← held_length, List.length_eq_zero_iff] at h
  rw [nextUnit, visible, h]
  rfl

theorem taken_smaller {u rest : List EncodedFrame} (hs : Settled U s.buffer)
    (hu : s.buffer.nextUnit U = some (u, rest)) :
    (s.taken U).buffer.currentSize < s.buffer.currentSize := by
  obtain ⟨pre, hpre, _⟩ := extract_removes hs hu
  have hlen := List.length_pos_iff.mpr hpre.unit
  rw [hpre.size, taken_buffer]
  omega

theorem late_smaller {u rest : List EncodedFrame} (hs : Settled U s.buffer)
    (hu : s.buffer.nextUnit U = some (u, rest)) :
    (s.late U).buffer.currentSize < s.buffer.currentSize := by
  obtain ⟨pre, hpre, _⟩ := drop_removes hs hu
  have hlen := List.length_pos_iff.mpr hpre.unit
  rw [hpre.size, late_buffer]
  omega

theorem scheduleFrame_eq (s : BufferController H) (rtpTimestamp : UInt32) :
    s.scheduleFrame rtpTimestamp = { s with scheduledRtpTimestamp := some rtpTimestamp } := by
  unfold scheduleFrame
  split_ifs with h
  · cases s
    simp_all
  · rfl

/-- The scheduling loop ends with the next unit scheduled, or with no unit left. -/
theorem scheduleOrDrop_next (timing : DecodeTiming) (fuel : ℕ) :
    ∀ (n : ℕ) (s : BufferController H), WellFormed U s.buffer → s.buffer.currentSize ≤ fuel →
      WellFormed U (scheduleOrDrop U timing n fuel s).buffer ∧
      ∀ ts ∈ (scheduleOrDrop U timing n fuel s).buffer.nextTimestamp U,
        (scheduleOrDrop U timing n fuel s).scheduledRtpTimestamp = some ts := by
  induction fuel with
  | zero =>
    intro n s hw hfuel
    refine ⟨hw, fun ts hts => ?_⟩
    rw [scheduleOrDrop, Option.mem_def,
      nextTimestamp_eq_none.mpr (nextUnit_of_empty (Nat.le_zero.mp hfuel))] at hts
    cases hts
  | succ fuel ih =>
    intro n s hw hfuel
    obtain ⟨hu, hres⟩ | ⟨u, rest, info, hu, hi, ⟨_, hres⟩ | ⟨_, hres⟩⟩ :=
      scheduleOrDrop_round hw.settled timing n fuel <;> rw [hres]
    · refine ⟨hw, fun ts hts => ?_⟩
      rw [Option.mem_def, nextTimestamp_eq_none.mpr hu] at hts
      cases hts
    · rw [scheduleFrame_eq]
      refine ⟨hw, fun ts hts => ?_⟩
      rw [Option.mem_def, info_next hw.settled hi] at hts
      exact hts
    · refine ih (n + 1) (s.late U) (drop_wellFormed hw) ?_
      have := late_smaller hw.settled hu
      omega

/-- The forced search ends with a release or with no unit left. -/
theorem forceKeyFrame_next (hU : U.Sound) (fuel : ℕ) :
    ∀ s : BufferController H, WellFormed U s.buffer → s.buffer.currentSize ≤ fuel →
      WellFormed U (forceKeyFrameReleaseImmediately U fuel s).state.buffer ∧
      ((forceKeyFrameReleaseImmediately U fuel s).state.decoderReadyForNewFrame = true →
        (forceKeyFrameReleaseImmediately U fuel s).state.buffer.nextUnit U = none) := by
  induction fuel with
  | zero =>
    intro s hw hfuel
    exact ⟨hw, fun _ => nextUnit_of_empty (Nat.le_zero.mp hfuel)⟩
  | succ fuel ih =>
    intro s hw hfuel
    obtain ⟨hu, hres⟩ | ⟨u, rest, hu, ⟨_, hres⟩ | ⟨_, hres⟩⟩ :=
      forceKeyFrame_round hw.settled fuel <;> rw [hres]
    · exact ⟨hw, fun _ => hu⟩
    · obtain ⟨hbuffer, hready, _⟩ := onFrameReady_state (s.taken U) u
      rw [hbuffer, hready]
      exact ⟨extract_wellFormed hU hw, fun h => by cases h⟩
    · refine ih (s.taken U) (extract_wellFormed hU hw) ?_
      have := taken_smaller hw.settled hu
      omega

/-! ## Every operation keeps the invariant of the buffer -/

theorem maybeSchedule_wellFormed (hU : U.Sound) (hw : WellFormed U s.buffer)
    (timing : DecodeTiming) : WellFormed U (s.maybeScheduleFrameForRelease U timing).state.buffer := by
  obtain ⟨_, hres⟩ | ⟨_, _, ⟨_, hres⟩ | ⟨_, _, _, ⟨_, hres⟩ | ⟨_, hres⟩⟩⟩ :=
    maybeSchedule_cases hw.settled timing <;> rw [hres]
  · exact hw
  · exact (forceKeyFrame_next hU s.buffer.currentSize s hw le_rfl).1
  · exact hw
  · exact (scheduleOrDrop_next timing s.buffer.currentSize 0 s hw le_rfl).1

theorem next_wellFormed (hU : U.Sound) (hw : WellFormed U s.buffer) (op : ControllerOp) :
    WellFormed U (s.next U op).buffer := by
  cases op with
  | insertFrame frame timing =>
    have hw' := insertFrame_wellFormed hU hw frame
    simp only [next, perform, insertFrame]
    split_ifs
    · exact maybeSchedule_wellFormed hU hw' timing
    · exact hw'
  | startNextDecode keyframeRequired timing =>
    simp only [next, perform, startNextDecode]
    apply maybeSchedule_wellFormed hU
    exact hw
  | schedulerFires =>
    simp only [next, perform]
    obtain ⟨_, hres⟩ | ⟨_, _, ⟨_, hres⟩ | ⟨u, _, _, _, _, hstate, _⟩⟩ :=
      schedulerFires_cases hw.settled
    · rwa [hres]
    · rw [hres]
      exact hw
    · rw [hstate, (onFrameReady_state _ u).1]
      exact extract_wellFormed hU hw
  | onTimeout =>
    simp only [next, perform, onTimeout]
    split_ifs <;> exact hw
  | clear => exact wellFormed_create _ _

theorem wellFormed_controllerRun (hU : U.Sound) {legacy : Bool} {maxDecodeQueueSize : ℕ}
    {tr : List (BufferController H × ControllerOp)}
    (h : ControllerRun U legacy maxDecodeQueueSize tr s) : WellFormed U s.buffer := by
  refine h.invariant (I := fun s => WellFormed U s.buffer) (wellFormed_create legacy _) ?_
  rintro s op t hw rfl
  exact next_wellFormed hU hw op

end BufferController
end WebrtcTrace.Video
