import WebrtcTrace.Foundations.WhileLoops
import WebrtcTrace.Video.ReleaseLoops

/-! # The release loops end

The two loops of the controller as the source has them, without fuel (`keyFrameRound`,
`scheduleRound`). Each round takes a unit out of the buffer, so `CurrentSize` rounds are enough, and the
fuel the model gives its loops does not run out (`keyFrame_result`, `schedule_result`).
-/

namespace WebrtcTrace.Video
open FrameBuffer Runs WhileLoops
set_option autoImplicit false

variable {H : Type*} (U : Upstream H)

namespace BufferController

/-- A round of the loop of `ForceKeyFrameReleaseImmediately`. -/
def keyFrameRound (s : BufferController H) : Round (BufferController H) (Outcome H) :=
  match s.buffer.decodableTemporalUnitsInfo with
  | none => .stop ⟨s, []⟩
  | some _ =>
    let (nextFrame, buffer) := s.buffer.extractNextDecodableTemporalUnit U
    let s := { s with buffer := buffer }
    if nextFrame.isEmpty then .again s
    else if nextFrame.head?.any (·.isKeyframe) then .leave (s.onFrameReady nextFrame)
    else .again s

/-- A round of the loop of `MaybeScheduleFrameForRelease`, which has asked the timing `n` times. -/
def scheduleRound (timing : DecodeTiming) (loop : ℕ × BufferController H) :
    Round (ℕ × BufferController H) (BufferController H) :=
  match loop.2.buffer.decodableTemporalUnitsInfo with
  | none => .stop loop.2
  | some info =>
    if timing loop.1 info loop.2.isTooManyFramesQueued then
      .leave (loop.2.scheduleFrame info.nextRtpTimestamp)
    else .again (loop.1 + 1, { loop.2 with buffer := loop.2.buffer.dropNextDecodableTemporalUnit U })

variable {U} {s : BufferController H} {n fuel : ℕ}

/-! ## The loops with fuel -/

theorem keyFrame_succ (fuel : ℕ) (s : BufferController H) :
    forceKeyFrameReleaseImmediately U (fuel + 1) s =
      (keyFrameRound U s).resolve (forceKeyFrameReleaseImmediately U fuel) := by
  rw [forceKeyFrameReleaseImmediately, keyFrameRound]
  cases s.buffer.decodableTemporalUnitsInfo with
  | none => rfl
  | some info =>
    -- the source tells an empty unit from one without a keyframe, and goes on in both cases
    cases hunit : (s.buffer.extractNextDecodableTemporalUnit U).1 with
    | nil => simp [hunit, Round.resolve]
    | cons f fs =>
      cases hkey : f.isKeyframe <;> simp [hunit, hkey, Round.resolve]

theorem schedule_succ (timing : DecodeTiming) (fuel : ℕ) (loop : ℕ × BufferController H) :
    scheduleOrDrop U timing loop.1 (fuel + 1) loop.2 =
      (scheduleRound U timing loop).resolve fun l => scheduleOrDrop U timing l.1 fuel l.2 := by
  rw [scheduleOrDrop, scheduleRound]
  cases loop.2.buffer.decodableTemporalUnitsInfo with
  | none => rfl
  | some info =>
    dsimp only
    split_ifs <;> rfl

/-- Where the loop stops without a run of its body, it returns the state it is in. -/
theorem keyFrame_stop {r : Outcome H} (h : keyFrameRound U s = .stop r) : ⟨s, []⟩ = r := by
  unfold keyFrameRound at h
  split at h
  · injection h
  · dsimp only at h
    split_ifs at h

theorem schedule_stop {timing : DecodeTiming} {loop : ℕ × BufferController H}
    {r : BufferController H} (h : scheduleRound U timing loop = .stop r) : loop.2 = r := by
  unfold scheduleRound at h
  split at h
  · injection h
  · split_ifs at h

/-! ## The rounds -/

/-- Extraction returns a frame exactly when there is information on the next unit. -/
theorem info_isSome_iff {b : FrameBuffer H} (hs : Settled U b) :
    b.decodableTemporalUnitsInfo.isSome = true ↔
      1 ≤ (b.extractNextDecodableTemporalUnit U).1.length := by
  obtain ⟨hu, hi⟩ | ⟨u, rest, info, hu, hi, _⟩ := info_cases hs
  · rw [hi, extract_none hs hu]
    constructor <;> intro h <;> cases h
  · obtain ⟨pre, hpre, hunit, _⟩ := extract_removes hs hu
    rw [hi, hunit]
    exact ⟨fun _ => List.length_pos_iff.mpr hpre.unit, fun _ => rfl⟩

/-- A round takes a unit out of the buffer, if there is one. -/
theorem keyFrameRound_lowers (hU : U.Sound) (s : BufferController H) (hw : WellFormed U s.buffer) :
    Lowers (keyFrameRound U) (fun s => WellFormed U s.buffer) (fun s => s.buffer.currentSize) s := by
  unfold Lowers keyFrameRound
  obtain ⟨_, hi⟩ | ⟨u, rest, info, hu, hi, _⟩ := info_cases hw.settled
  · rw [hi]
    trivial
  · have hsmaller := taken_smaller hw.settled hu
    rw [hi]
    dsimp only
    split_ifs
    · exact ⟨extract_wellFormed hU hw, hsmaller⟩
    · exact (Nat.zero_le _).trans_lt hsmaller
    · exact ⟨extract_wellFormed hU hw, hsmaller⟩

theorem scheduleRound_lowers (timing : DecodeTiming) (loop : ℕ × BufferController H)
    (hw : WellFormed U loop.2.buffer) :
    Lowers (scheduleRound U timing) (fun l => WellFormed U l.2.buffer)
      (fun l => l.2.buffer.currentSize) loop := by
  unfold Lowers scheduleRound
  obtain ⟨_, hi⟩ | ⟨u, rest, info, hu, hi, _⟩ := info_cases hw.settled
  · rw [hi]
    trivial
  · have hsmaller := late_smaller hw.settled hu
    rw [hi]
    dsimp only
    split_ifs
    · exact (Nat.zero_le _).trans_lt hsmaller
    · exact ⟨drop_wellFormed hw, hsmaller⟩

end BufferController
open BufferController

variable {U}

/-- **The release loops end.** With any buffer a run can reach, and whatever the decode timing answers,
both loops run their bodies at most `CurrentSize` times, with the results the controller has; and at
each of their tests, the first one and `FrameReadyForDecode` included, the buffer has information on a
next unit exactly when its extraction returns a frame. -/
theorem release_loops_end (hU : U.Sound) {legacy : Bool} {maxSize : ℕ}
    {tr : List (FrameBuffer H × Op)} {s : BufferController H}
    (h : BufferRun U legacy maxSize tr s.buffer) (timing : DecodeTiming) :
    (∃ n ≤ s.buffer.currentSize, Loops (keyFrameRound U) s n
      (forceKeyFrameReleaseImmediately U s.buffer.currentSize s)) ∧
    (∃ n ≤ s.buffer.currentSize, Loops (scheduleRound U timing) (0, s) n
      (scheduleOrDrop U timing 0 s.buffer.currentSize s)) ∧
    ∀ t, (Tested (keyFrameRound U) s t ∨ ∃ n, Tested (scheduleRound U timing) (0, s) (n, t)) →
      (t.buffer.decodableTemporalUnitsInfo.isSome = true ↔
        1 ≤ (t.buffer.extractNextDecodableTemporalUnit U).1.length) := by
  have hw := wellFormed_run hU h
  refine ⟨?_, ?_, ?_⟩
  · obtain ⟨n, hn, r, hloops⟩ := Loops.of_measure _ (keyFrameRound_lowers hU) s hw
    rw [hloops.fuelled (fun _ _ => keyFrame_stop) keyFrame_succ _ hn]
    exact ⟨n, hn, hloops⟩
  · obtain ⟨n, hn, r, hloops⟩ := Loops.of_measure _ (scheduleRound_lowers timing) (0, s) hw
    have hresult := hloops.fuelled (f := fun fuel l => scheduleOrDrop U timing l.1 fuel l.2)
      (fun _ _ => schedule_stop) (schedule_succ timing) _ hn
    exact ⟨n, hn, hresult ▸ hloops⟩
  · rintro t (ht | ⟨n, ht⟩)
    · exact info_isSome_iff (ht.invariant (keyFrameRound_lowers hU) hw).settled
    · exact info_isSome_iff (ht.invariant (scheduleRound_lowers timing) hw).settled

/-- Three frames in two units, in a buffer of their own. -/
def twoUnitOps : List Op :=
  [.insertFrame ⟨1, 10, [], false, true⟩, .insertFrame ⟨2, 10, [1], true, false⟩,
    .insertFrame ⟨3, 20, [], true, true⟩]

def twoUnitController : BufferController (List (ℤ × UInt32)) :=
  { BufferController.create .unbounded true 8 with
    buffer := twoUnitOps.foldl (apply .unbounded) (.create .unbounded true 10) }

theorem release_loops_end_two_units :
    (∃ n ≤ 3, Loops (scheduleRound .unbounded fun _ _ _ => false) (0, twoUnitController) n
      (scheduleOrDrop .unbounded (fun _ _ _ => false) 0 3 twoUnitController)) ∧
    (scheduleOrDrop .unbounded (fun _ _ _ => false) 0 3 twoUnitController).buffer.currentSize = 0 :=
  ⟨(release_loops_end (s := twoUnitController) Upstream.unbounded_exact.toSound
    (Run.of_next (apply .unbounded) (.create .unbounded true 10) twoUnitOps) fun _ _ _ => false).2.1,
    by decide⟩

end WebrtcTrace.Video
