import WebrtcTrace.Video.ReleaseLoops
import Mathlib.Data.Set.Card

/-! # The scheduler holds the frame a ready decoder waits for

The next unit changes with every insertion and every removal; it is scheduled again when a decode
starts and when the count of continuous units grows. The one gap is a frame that joins the buffer
without completing a unit (`Joins`, `CompletesUnit`): it can take the next unit apart. Apart from that
gap the scheduled timestamp is the buffer's next one whenever the decoder is ready (`Awaited`).
-/

namespace WebrtcTrace.Video
open Runs Saturation
set_option autoImplicit false

variable {H : Type*} (U : Upstream H)

namespace FrameBuffer

/-! ## A frame that completes no unit -/

/-- The buffer with the frame in its place and no flag set yet. -/
def placed (s : FrameBuffer H) (frame : EncodedFrame) : FrameBuffer H :=
  { s with frames := s.frames.place { encodedFrame := frame } }

/-- With the frame in its place, some last spatial layer becomes continuous that was not. -/
def CompletesUnit (s : FrameBuffer H) (frame : EncodedFrame) : Prop :=
  ∃ C, Saturated (s.placed frame).deps (s.decodedIds U) (s.placed frame).ids s.flaggedIds C ∧
    ∃ f ∈ (s.placed frame).held, f.isLastSpatialLayer = true ∧ f.id ∈ C ∧ f.id ∉ s.flaggedIds

variable {U} {s t : FrameBuffer H} {frame : EncodedFrame}

theorem inserted_held_eq (s : FrameBuffer H) (frame : EncodedFrame) :
    (inserted U s frame).held = (s.placed frame).held := by
  rw [inserted, findNext_held, propagateContinuity, propagate_held]
  rfl

theorem unitCount_eq_ncard (s : FrameBuffer H) : s.unitCount = s.flaggedUnits.ncard := by
  have hset : s.flaggedUnits = {i | i ∈ s.flaggedUnitIds} := by
    ext i
    exact mem_flaggedUnitIds.symm
  rw [hset, ← List.coe_toFinset, Set.ncard_coe_finset,
    List.toFinset_card_of_nodup s.nodup_flaggedUnitIds, length_flaggedUnitIds]

theorem flaggedUnits_finite (s : FrameBuffer H) : s.flaggedUnits.Finite :=
  s.ids_finite.subset (s.flaggedUnits_sub.trans s.flaggedIds_sub)

/-- The counter grows when a unit is completed. -/
theorem completesUnit_counted (hw : WellFormed U s) (hj : Joins U s frame)
    (hc : CompletesUnit U s frame) :
    s.numContinuousTemporalUnits < (inserted U s frame).numContinuousTemporalUnits := by
  obtain ⟨C, hC, f, hf, hl, hfC, hnew⟩ := hc
  have hsat := inserted_saturated hw hj.fresh (validReferences_backward hj.valid)
  have hwf := inserted_wellFormed hw hj.fresh (validReferences_backward hj.valid) hj.above
  have hheld : (inserted U s frame).held = (s.placed frame).held := inserted_held_eq s frame
  rw [← deps_congr hheld, ← ids_congr hheld] at hC
  have hflag : f.id ∈ (inserted U s frame).flaggedIds := by
    rw [hsat.unique (ids_finite _) hwf.dep_lt hC]
    exact hfC
  have hunit : f.id ∈ (inserted U s frame).flaggedUnits := by
    rw [← hheld] at hf
    obtain ⟨e, he, rfl⟩ := mem_held.mp hf
    exact ⟨e, he, rfl, (flagged_entry he).mp hflag, hl⟩
  have hadv := inserted_advances (U := U) hj.fresh
  have hlt : s.unitCount < (inserted U s frame).unitCount := by
    rw [unitCount_eq_ncard, unitCount_eq_ncard]
    refine Set.ncard_lt_ncard ⟨hadv.units.grows, fun hsub => hnew ?_⟩ (flaggedUnits_finite _)
    exact s.flaggedUnits_sub (hsub hunit)
  have := hadv.count
  omega

/-- While the counter stands still, the search runs over the frames in their places. -/
theorem nextTimestamp_uncounted (hw : WellFormed U s) (hfresh : Fresh s frame)
    (hsame : ¬ s.numContinuousTemporalUnits < (inserted U s frame).numContinuousTemporalUnits) :
    (inserted U s frame).nextTimestamp U = (s.placed frame).nextTimestamp U := by
  have hadv := inserted_advances (U := U) hfresh
  have hunits : (inserted U s frame).flaggedUnits = s.flaggedUnits := by
    have hle : (inserted U s frame).flaggedUnits.ncard ≤ s.flaggedUnits.ncard := by
      rw [← unitCount_eq_ncard, ← unitCount_eq_ncard]
      have := hadv.count
      omega
    exact (Set.eq_of_subset_of_ncard_le hadv.units.grows hle (flaggedUnits_finite _)).symm
  have hlast : (inserted U s frame).lastContinuousTemporalUnitFrameId =
      s.lastContinuousTemporalUnitFrameId := by
    have htracks := hadv.units
    rw [hunits] at htracks
    exact htracks.unique hw.unitCap (.refl _ _)
  have hvisible : (inserted U s frame).visible = (s.placed frame).visible := by
    rw [visible, visible, hlast, inserted_held_eq]
    rfl
  rw [nextTimestamp, nextTimestamp, nextUnit, nextUnit, hvisible, hadv.history]
  rfl

/-- A `Clear` leaves no unit behind, so a frame that follows it and completes none shows none. -/
theorem nextTimestamp_cleared (hlast : s.lastContinuousTemporalUnitFrameId = ⊥) :
    (s.placed frame).nextTimestamp U = none := by
  rw [nextTimestamp_eq_none, nextUnit, visible_nil]
  · rfl
  · exact hlast

end FrameBuffer

open FrameBuffer

/-! ## The controller -/

namespace BufferController

/-- While the decoder is ready, the scheduled frame is the buffer's next one. -/
def Awaited (s : BufferController H) : Prop :=
  s.decoderReadyForNewFrame = true →
    ∀ ts ∈ s.buffer.nextTimestamp U, s.scheduledRtpTimestamp = some ts

/-- A frame that joins the buffer of a ready decoder and completes no unit shows no other next unit
than before, if it shows one. -/
def Undisturbed (s : BufferController H) : ControllerOp → Prop
  | .insertFrame frame _ =>
    s.decoderReadyForNewFrame = true → Joins U s.buffer frame →
      ¬ CompletesUnit U s.buffer frame →
      ∀ ts ∈ (s.buffer.placed frame).nextTimestamp U, s.buffer.nextTimestamp U = some ts
  | _ => True

variable {U} {s : BufferController H}

theorem awaited_of_none (hu : s.buffer.nextUnit U = none) : Awaited U s := by
  intro _ ts hts
  rw [Option.mem_def, nextTimestamp_eq_none.mpr hu] at hts
  cases hts

theorem awaited_of_notReady (hr : s.decoderReadyForNewFrame = false) : Awaited U s := by
  intro hr'
  rw [hr] at hr'
  cases hr'

/-- Scheduling restores the invariant whatever was scheduled before. -/
theorem maybeSchedule_awaited (hU : U.Sound) (hw : WellFormed U s.buffer) (timing : DecodeTiming) :
    Awaited U (s.maybeScheduleFrameForRelease U timing).state := by
  obtain ⟨hno | hu, hres⟩ | ⟨_, _, ⟨_, hres⟩ | ⟨_, info, hi, ⟨hsched, hres⟩ | ⟨_, hres⟩⟩⟩ :=
    maybeSchedule_cases hw.settled timing <;> rw [hres]
  · exact awaited_of_notReady hno
  · exact awaited_of_none hu
  · intro hr
    exact awaited_of_none ((forceKeyFrame_next hU s.buffer.currentSize s hw le_rfl).2 hr) hr
  · intro _ ts hts
    rw [Option.mem_def, info_next hw.settled hi] at hts
    rw [hsched, hts]
  · exact fun _ => (scheduleOrDrop_next timing s.buffer.currentSize 0 s hw le_rfl).2

theorem insertFrame_awaited (hU : U.Sound) (hw : WellFormed U s.buffer) (h : Awaited U s)
    {frame : EncodedFrame} {timing : DecodeTiming}
    (hc : Undisturbed U s (.insertFrame frame timing)) :
    Awaited U (s.insertFrame U frame timing).2.state := by
  unfold insertFrame
  dsimp only
  split_ifs with hgrew
  · exact maybeSchedule_awaited hU (insertFrame_wellFormed hU hw frame) timing
  · intro hr ts hts
    simp only [Bool.and_eq_true, decide_eq_true_eq, not_and] at hgrew
    refine h hr ts ?_
    obtain ⟨_, hres⟩ | ⟨hvalid, s₀, hs₀, hfresh, habove, hres⟩ :=
      insertFrame_cases hU s.buffer frame
    · simpa only [hres] using hts
    · simp only [hres, forall_const] at hgrew hts
      obtain ⟨rfl, hno⟩ | ⟨hclear, _⟩ := hs₀
      · rw [nextTimestamp_uncounted hw hfresh hgrew] at hts
        have hj := joins_of_inserted hvalid habove hfresh hno (by rw [hres])
        exact hc hr hj (fun hcomplete => hgrew (completesUnit_counted hw hj hcomplete)) ts hts
      · -- the counter is not cleared, and after a `Clear` there is nothing to decode
        have hw₀ : WellFormed U s₀ := by
          obtain rfl | rfl := hclear <;> exact wellFormed_clear _
        have hnum : s₀.numContinuousTemporalUnits = s.buffer.numContinuousTemporalUnits ∧
            s₀.lastContinuousTemporalUnitFrameId = ⊥ := by
          obtain rfl | rfl := hclear <;> exact ⟨rfl, rfl⟩
        rw [← hnum.1] at hgrew
        rw [nextTimestamp_uncounted hw₀ hfresh hgrew, nextTimestamp_cleared hnum.2] at hts
        cases hts

theorem schedulerFires_awaited (hw : WellFormed U s.buffer) (h : Awaited U s) :
    Awaited U (s.schedulerFires U).state := by
  obtain ⟨_, hres⟩ | ⟨_, _, ⟨hu, hres⟩ | ⟨u, _, _, _, _, hstate, _⟩⟩ :=
    schedulerFires_cases hw.settled
  · rwa [hres]
  · rw [hres]
    exact awaited_of_none hu
  · rw [hstate]
    exact awaited_of_notReady (onFrameReady_state (s.fired.taken U) u).2.1

theorem onTimeout_awaited (h : Awaited U s) : Awaited U s.onTimeout.state := by
  unfold onTimeout
  split_ifs
  · exact awaited_of_notReady rfl
  · exact h

theorem next_awaited (hU : U.Sound) (hw : WellFormed U s.buffer) (h : Awaited U s)
    {op : ControllerOp} (hc : Undisturbed U s op) : Awaited U (s.next U op) := by
  cases op with
  | insertFrame frame timing => exact insertFrame_awaited hU hw h hc
  | startNextDecode keyframeRequired timing =>
    apply maybeSchedule_awaited hU
    exact hw
  | schedulerFires => exact schedulerFires_awaited hw h
  | onTimeout => exact onTimeout_awaited h
  | clear => exact awaited_of_none (nextUnit_of_empty rfl)

/-- The comparison a firing makes. -/
theorem schedulerFires_check (hw : WellFormed U s.buffer) {rtpTimestamp nextRtpTimestamp : UInt32}
    (he : .dcheckEq rtpTimestamp nextRtpTimestamp ∈ (s.schedulerFires U).events) :
    s.scheduledRtpTimestamp = some rtpTimestamp ∧
      s.buffer.nextTimestamp U = some nextRtpTimestamp := by
  obtain ⟨_, hres⟩ | ⟨ts, hsched, ⟨_, hres⟩ | ⟨u, _, info, _, hi, _, hevents⟩⟩ :=
    schedulerFires_cases hw.settled
  · rw [hres] at he
    cases he
  · rw [hres] at he
    cases he
  · rw [hevents] at he
    obtain he | he := List.mem_cons.mp he
    · obtain ⟨rfl, rfl⟩ := Event.dcheckEq.inj he
      exact ⟨hsched, info_next hw.settled hi⟩
    · -- a release makes no comparison
      rw [onFrameReady_events] at he
      split_ifs at he <;> simp at he

theorem awaited_run (hU : U.Sound) {legacy : Bool} {maxDecodeQueueSize : ℕ}
    {tr : List (BufferController H × ControllerOp)}
    (h : Run (fun s op t => t = s.next U op ∧ Undisturbed U s op)
      (.create U legacy maxDecodeQueueSize) tr s) : WellFormed U s.buffer ∧ Awaited U s := by
  refine h.invariant (I := fun s => WellFormed U s.buffer ∧ Awaited U s)
    ⟨wellFormed_create legacy _, awaited_of_notReady rfl⟩ ?_
  rintro s op t ⟨hw, hs⟩ ⟨rfl, hc⟩
  exact ⟨next_wellFormed hU hw op, next_awaited hU hw hs hc⟩

end BufferController

open BufferController

/-- **A ready decoder waits for the scheduled frame.** In a run in which no frame disturbs the next
unit without completing one: in every state with a ready decoder and a decodable unit the scheduler
holds the timestamp the buffer calls the next one, and when the scheduler fires then, the
`RTC_DCHECK_EQ` of `FrameReadyForDecode` holds. -/
theorem ready_decoder_scheduled (hU : U.Sound) (legacy : Bool) (maxDecodeQueueSize : ℕ)
    (tr : List (BufferController H × ControllerOp)) (s : BufferController H)
    (h : ControllerRun U legacy maxDecodeQueueSize tr s)
    (hc : ∀ e ∈ tr, Undisturbed U e.1 e.2) :
    ∀ s' ∈ visited tr s, s'.decoderReadyForNewFrame = true →
      (∀ info, s'.buffer.decodableTemporalUnitsInfo = some info →
        s'.scheduledRtpTimestamp = some info.nextRtpTimestamp) ∧
      ∀ rtpTimestamp nextRtpTimestamp,
        .dcheckEq rtpTimestamp nextRtpTimestamp ∈ (s'.perform U .schedulerFires).events →
          rtpTimestamp = nextRtpTimestamp := by
  intro s' hs' hr
  obtain ⟨hw, ha⟩ := Run.visits (fun hrun => awaited_run hU hrun) (h.restrict hc) s' hs'
  refine ⟨fun info hi => ha hr _ (info_next hw.settled hi), fun a b he => ?_⟩
  obtain ⟨hsched, hnext⟩ := schedulerFires_check hw he
  exact Option.some_injective _ (hsched.symm.trans (ha hr b hnext))

/-- A layer with a missing reference comes late, before the scheduled unit. -/
def lateLayerBefore : List ControllerOp :=
  [.startNextDecode false inTime, .insertFrame ⟨3, 20, [], true, true⟩ inTime,
    .insertFrame ⟨2, 10, [0], false, false⟩ inTime]

theorem ready_decoder_scheduled_late_layer :
    (controllerAfter lateLayerBefore).scheduledRtpTimestamp = some 20 := by
  have hc : ∀ e ∈ controllerHistory lateLayerBefore, Undisturbed .unbounded e.1 e.2 := by
    intro e he
    simp only [controllerHistory, lateLayerBefore, Runs.history, List.mem_cons,
      List.not_mem_nil, or_false] at he
    obtain rfl | rfl | rfl := he
    · trivial
    · intro _ _ _ ts hts
      cases hts
    · intro _ _ _ ts hts
      exact hts
  have h := ready_decoder_scheduled .unbounded Upstream.unbounded_exact.toSound true 8
    (controllerHistory lateLayerBefore) (controllerAfter lateLayerBefore)
    (controllerAfter_run lateLayerBefore) hc (controllerAfter lateLayerBefore)
    (List.mem_append_right _ (List.mem_singleton_self _)) (by decide)
  exact h.1 ⟨20, 20⟩ (by decide)

/-- The same layer belongs to the scheduled unit: it makes the unit undecodable and completes
none, so nothing is scheduled again. -/
def lateLayerInside : List ControllerOp :=
  [.startNextDecode false inTime, .insertFrame ⟨2, 10, [], true, true⟩ inTime,
    .insertFrame ⟨3, 20, [], true, true⟩ inTime,
    .insertFrame ⟨1, 10, [0], false, false⟩ inTime]

theorem late_layer_leaves_old_schedule :
    ∃ tr s, ControllerRun .unbounded true 8 tr s ∧ s.decoderReadyForNewFrame = true ∧
      s.buffer.decodableTemporalUnitsInfo = some ⟨20, 20⟩ ∧ s.scheduledRtpTimestamp = some 10 ∧
      .dcheckEq 10 20 ∈ (s.perform Upstream.unbounded .schedulerFires).events :=
  ⟨_, controllerAfter lateLayerInside, controllerAfter_run lateLayerInside, by decide, by decide,
    by decide, by decide⟩

end WebrtcTrace.Video
