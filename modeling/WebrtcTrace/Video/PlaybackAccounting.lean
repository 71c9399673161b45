import WebrtcTrace.Video.QualityObserver

/-! # The time the quality observer accounts for

Every call of `OnRenderedFrame` puts the time since the last frame under one heading: a pause, a freeze
or smooth playback (`Books`). The time from the first frame to the last is then divided in two ways,
and the freeze rows are apart.
-/

namespace WebrtcTrace.Video.Quality
set_option autoImplicit false

/-- The amounts that the accounts are about. -/
structure Books where
  last : ℤ
  first : ℤ
  unfreeze : ℤ
  resolutions : ℤ
  freezes : ℤ
  numFreezes : ℕ
  pauses : ℤ
  smooth : ℤ
  rows : List FreezeRow

section Calls
variable {μ : Type*} (average : MovingAverage μ) (o : VideoQualityObserver μ)

def timeInResolutions : ℤ :=
  o.timeInResolutionMs .low + o.timeInResolutionMs .medium + o.timeInResolutionMs .high

def books : Books where
  last := o.lastFrameRenderedMs
  first := o.firstFrameRenderedMs
  unfreeze := o.lastUnfreezeTimeMs
  resolutions := timeInResolutions o
  freezes := o.freezesDurations.sum
  numFreezes := o.freezesDurations.numSamples
  pauses := o.pausesDurations.sum
  smooth := o.smoothPlaybackDurations.sum
  rows := o.freezeLog

/-! ## What a frame does -/

theorem books_keepFrame (frame : VideoFrameMetaData) :
    books (keepFrame o frame) = { books o with last := frame.decodeTimestampMs } := rfl

theorem books_countSpatial (interframeDelayMs : ℤ) : books (countSpatial o interframeDelayMs) =
    { books o with resolutions := (books o).resolutions + interframeDelayMs } := by
  have htotal : timeInResolutions (countSpatial o interframeDelayMs) =
      timeInResolutions o + interframeDelayMs := by
    unfold timeInResolutions countSpatial
    cases o.currentResolution <;> simp [Function.update] <;> omega
  simp only [books, htotal]
  rfl

theorem sum_addSmoothPlayback : (addSmoothPlayback o).sum =
    o.smoothPlaybackDurations.sum + max 0 (o.lastFrameRenderedMs - o.lastUnfreezeTimeMs) := by
  unfold addSmoothPlayback SampleCounter.add
  split_ifs with h
  · rw [max_eq_right (by omega)]
  · rw [max_eq_left (by omega), Int.add_zero]

theorem books_endPause (ms : ℤ) (hpaused : o.isPaused = true) (hnum : 0 < o.numFramesRendered) :
    books (endPause o ms) = { books o with
      unfreeze := ms
      pauses := (books o).pauses + (ms - (books o).last)
      smooth := (books o).smooth + max 0 ((books o).last - (books o).unfreeze) } := by
  simp only [endPause, hpaused, if_true, hnum, books, sum_addSmoothPlayback]
  rfl

variable (frame : VideoFrameMetaData)

@[simp] theorem numFramesRendered_startClock (ms : ℤ) :
    (startClock o ms).numFramesRendered = o.numFramesRendered := by
  unfold startClock
  split <;> rfl

theorem numFramesRendered_onRenderedFrame :
    (onRenderedFrame average o frame).numFramesRendered = o.numFramesRendered + 1 := by
  have hdelay : ∀ (o : VideoQualityObserver μ) ms,
      (processInterframeDelay average o ms).numFramesRendered = o.numFramesRendered := by
    intro o ms
    unfold processInterframeDelay
    dsimp only
    split_ifs <;> rfl
  have hpause : ∀ (o : VideoQualityObserver μ) ms,
      (endPause o ms).numFramesRendered = o.numFramesRendered := by
    intro o ms
    unfold endPause
    split_ifs <;> rfl
  simp only [onRenderedFrame, keepFrame, hpause, hdelay, numFramesRendered_startClock]

/-- The first frame, which is not before the last one that was never rendered. -/
theorem books_first (hnum : o.numFramesRendered = 0)
    (hlast : o.lastFrameRenderedMs ≤ frame.decodeTimestampMs) :
    books (onRenderedFrame average o frame) = { books o with
      last := frame.decodeTimestampMs
      first := frame.decodeTimestampMs
      unfreeze := frame.decodeTimestampMs } := by
  have hstart : startClock o frame.decodeTimestampMs = { o with
      firstFrameRenderedMs := frame.decodeTimestampMs
      lastUnfreezeTimeMs := frame.decodeTimestampMs } := if_pos hnum
  have hsmooth : ¬ frame.decodeTimestampMs < o.lastFrameRenderedMs := by omega
  rw [onRenderedFrame, books_keepFrame, hstart, processInterframeDelay, if_pos hnum]
  cases hpaused : o.isPaused with
  | true =>
    simp only [endPause, if_true, books, timeInResolutions, addSmoothPlayback, if_neg hsmooth, hnum,
      Nat.lt_irrefl, if_false]
  | false =>
    simp only [endPause, Bool.false_eq_true, if_false]
    rfl

/-- A frame after `OnStreamInactive` ends a pause. -/
theorem books_pause (hnum : 0 < o.numFramesRendered) (hpaused : o.isPaused = true) :
    books (onRenderedFrame average o frame) = { books o with
      last := frame.decodeTimestampMs
      unfreeze := frame.decodeTimestampMs
      pauses := (books o).pauses + (frame.decodeTimestampMs - (books o).last)
      smooth := (books o).smooth + max 0 ((books o).last - (books o).unfreeze) } := by
  have hne : o.numFramesRendered ≠ 0 := by omega
  obtain ⟨squares, hdelay⟩ : ∃ squares, processInterframeDelay average o frame.decodeTimestampMs =
      { o with sumSquaredInterframeDelaysSecs := squares } := by
    rw [processInterframeDelay, if_neg hne]
    simp only [hpaused, if_true]
    exact ⟨_, rfl⟩
  rw [onRenderedFrame, books_keepFrame, startClock, if_neg hne, hdelay,
    books_endPause { o with sumSquaredInterframeDelaysSecs := squares } _ hpaused hnum]
  rfl

/-- Any other frame ends a freeze or goes on with smooth playback. -/
theorem books_playing (hnum : 0 < o.numFramesRendered) (hplaying : o.isPaused = false) :
    books (onRenderedFrame average o frame) = { books o with
        last := frame.decodeTimestampMs
        unfreeze := frame.decodeTimestampMs
        freezes := (books o).freezes + (frame.decodeTimestampMs - (books o).last)
        numFreezes := (books o).numFreezes + 1
        smooth := (books o).smooth + ((books o).last - (books o).unfreeze)
        rows := (books o).rows ++ [⟨frame.decodeTimestampMs,
          frame.decodeTimestampMs - (books o).last, (books o).numFreezes + 1⟩] } ∨
      books (onRenderedFrame average o frame) = { books o with
        last := frame.decodeTimestampMs
        resolutions := (books o).resolutions + (frame.decodeTimestampMs - (books o).last) } := by
  have hne : o.numFramesRendered ≠ 0 := by omega
  rw [onRenderedFrame, books_keepFrame, startClock, if_neg hne, processInterframeDelay, if_neg hne]
  simp only [hplaying, Bool.false_eq_true, if_false]
  split_ifs with hfreeze
  · left
    rw [endPause, if_neg (by simp [recordFreeze])]
    rfl
  · right
    rw [endPause, if_neg (by simp [countSpatial]), books_countSpatial]
    rfl

end Calls

/-! ## The accounts -/

/-- What holds of an observer between its calls. -/
structure Balanced {μ : Type*} (o : VideoQualityObserver μ) : Prop where
  resolutions : (books o).resolutions + (books o).freezes + (books o).pauses =
    (books o).last - (books o).first
  smooth : (books o).smooth + max 0 ((books o).last - (books o).unfreeze) + (books o).freezes +
    (books o).pauses = (books o).last - (books o).first
  unfreeze : 0 < o.numFramesRendered → (books o).unfreeze ≤ (books o).last
  fresh : o.numFramesRendered = 0 → (books o).last = -1 ∧ (books o).freezes = 0 ∧
    (books o).pauses = 0 ∧ (books o).smooth = 0 ∧ (books o).resolutions = 0
  rows : ((books o).rows.map FreezeRow.freezeDurationMs).sum = (books o).freezes
  count : (books o).rows.length = (books o).numFreezes
  past : ∀ row ∈ (books o).rows, row.timestampMs ≤ (books o).last
  apart : (books o).rows.Pairwise fun row row' => row.timestampMs ≤ row'.timestampMs - row'.freezeDurationMs

section Runs
variable {μ : Type*} {average : MovingAverage μ} {o : VideoQualityObserver μ}

theorem Balanced.of_books {o' : VideoQualityObserver μ} (h : Balanced o) (hbooks : books o' = books o)
    (hnum : o'.numFramesRendered = o.numFramesRendered) : Balanced o' := by
  constructor
  · rw [hbooks]; exact h.resolutions
  · rw [hbooks]; exact h.smooth
  · rw [hbooks, hnum]; exact h.unfreeze
  · rw [hbooks, hnum]; exact h.fresh
  · rw [hbooks]; exact h.rows
  · rw [hbooks]; exact h.count
  · rw [hbooks]; exact h.past
  · rw [hbooks]; exact h.apart

theorem Balanced.first (h : Balanced o) {frame : VideoFrameMetaData} (hnum : o.numFramesRendered = 0)
    (hlast : (books o).last ≤ frame.decodeTimestampMs) : Balanced (onRenderedFrame average o frame) := by
  obtain ⟨_, hfreezes, hpauses, hsmooth, hresolutions⟩ := h.fresh hnum
  have hbooks := books_first average o frame hnum hlast
  have hnum' := numFramesRendered_onRenderedFrame average o frame
  constructor <;> simp only [hbooks, hnum']
  · omega
  · omega
  · exact fun _ => le_rfl
  · intro hzero
    omega
  · exact h.rows
  · exact h.count
  · intro row hrow
    exact (h.past row hrow).trans hlast
  · exact h.apart

theorem Balanced.pause (h : Balanced o) {frame : VideoFrameMetaData} (hnum : 0 < o.numFramesRendered)
    (hpaused : o.isPaused = true) (hlast : (books o).last ≤ frame.decodeTimestampMs) :
    Balanced (onRenderedFrame average o frame) := by
  have hresolutions := h.resolutions
  have hsmooth := h.smooth
  have hbooks := books_pause average o frame hnum hpaused
  have hnum' := numFramesRendered_onRenderedFrame average o frame
  constructor <;> simp only [hbooks, hnum']
  · omega
  · omega
  · exact fun _ => le_rfl
  · intro hzero
    omega
  · exact h.rows
  · exact h.count
  · intro row hrow
    exact (h.past row hrow).trans hlast
  · exact h.apart

theorem Balanced.playing (h : Balanced o) {frame : VideoFrameMetaData}
    (hnum : 0 < o.numFramesRendered) (hplaying : o.isPaused = false)
    (hlast : (books o).last ≤ frame.decodeTimestampMs) :
    Balanced (onRenderedFrame average o frame) := by
  have hresolutions := h.resolutions
  have hsmooth := h.smooth
  have hunfreeze := h.unfreeze hnum
  have hrows := h.rows
  have hnum' := numFramesRendered_onRenderedFrame average o frame
  obtain hbooks | hbooks := books_playing average o frame hnum hplaying
  · constructor <;> simp only [hbooks, hnum']
    · omega
    · omega
    · exact fun _ => le_rfl
    · intro hzero
      omega
    · rw [List.map_append, List.sum_append, hrows]
      simp
    · rw [List.length_append, h.count, List.length_singleton]
    · intro row hrow
      obtain hrow | hrow := List.mem_append.mp hrow
      · exact (h.past row hrow).trans hlast
      · rw [List.mem_singleton.mp hrow]
    · refine List.pairwise_append.mpr ⟨h.apart, List.pairwise_singleton _ _, ?_⟩
      intro row hrow row' hrow'
      have hpast := h.past row hrow
      rw [List.mem_singleton.mp hrow']
      dsimp only
      omega
  · constructor <;> simp only [hbooks, hnum']
    · omega
    · omega
    · intro _
      omega
    · intro hzero
      omega
    · exact hrows
    · exact h.count
    · intro row hrow
      exact (h.past row hrow).trans hlast
    · exact h.apart

/-- The two `RTC_DCHECK`s of `OnRenderedFrame`, of which the second follows from the first. -/
theorem Balanced.onRenderedFrame (h : Balanced o) {frame : VideoFrameMetaData}
    (hlast : (books o).last ≤ frame.decodeTimestampMs) :
    Balanced (onRenderedFrame average o frame) := by
  obtain hnum | hnum := Nat.eq_zero_or_pos o.numFramesRendered
  · exact h.first hnum hlast
  · cases hpaused : o.isPaused with
    | true => exact h.pause hnum hpaused hlast
    | false => exact h.playing hnum hpaused hlast

theorem balanced_create : Balanced (VideoQualityObserver.create average) := by
  constructor <;> simp [books, timeInResolutions, VideoQualityObserver.create]

theorem onDecodedFrame_frame (o : VideoQualityObserver μ) (rtpFrameTimestamp : UInt32) (qp : Option ℕ)
    (codec : VideoCodecType) : onDecodedFrame o rtpFrameTimestamp qp codec =
      { o with blockyFrames := (onDecodedFrame o rtpFrameTimestamp qp codec).blockyFrames } := by
  unfold onDecodedFrame
  split <;> rfl

theorem Balanced.onDecodedFrame (h : Balanced o) (rtpFrameTimestamp : UInt32) (qp : Option ℕ)
    (codec : VideoCodecType) : Balanced (onDecodedFrame o rtpFrameTimestamp qp codec) := by
  rw [onDecodedFrame_frame]
  exact h.of_books rfl rfl

def Call.renderedMs : Call → Option ℤ
  | renderedFrame frame => some frame.decodeTimestampMs
  | decodedFrame _ _ _ => none
  | streamInactive => none

/-- The times of the rendered frames. -/
def renderedTimes (calls : List Call) : List ℤ := calls.filterMap Call.renderedMs

theorem Balanced.run (h : Balanced o) (calls : List Call)
    (hlast : ∀ t ∈ renderedTimes calls, (books o).last ≤ t)
    (hordered : (renderedTimes calls).Pairwise (· ≤ ·)) : Balanced (calls.foldl (apply average) o) := by
  induction calls generalizing o with
  | nil => exact h
  | cons call calls ih =>
    rw [List.foldl_cons]
    cases call with
    | renderedFrame frame =>
      obtain ⟨hnext, hordered⟩ := List.pairwise_cons.mp hordered
      apply ih (h.onRenderedFrame (hlast _ List.mem_cons_self)) _ hordered
      exact hnext
    | decodedFrame rtpFrameTimestamp qp codec =>
      apply ih (h.onDecodedFrame rtpFrameTimestamp qp codec) _ hordered
      rw [onDecodedFrame_frame]
      exact hlast
    | streamInactive => exact ih (h.of_books rfl rfl) hlast hordered

/-- `UpdateHistograms` adds the piece that is not over yet: then smooth playback, freezes and pauses are
the whole time. -/
theorem Balanced.smooth_updateHistograms (h : Balanced o) (hframes : o.numFramesRendered ≠ 0) :
    (books (updateHistograms o)).smooth + (books o).freezes + (books o).pauses =
      (books o).last - (books o).first := by
  have hsmooth := h.smooth
  rw [updateHistograms, if_neg hframes]
  simp only [books, sum_addSmoothPlayback] at hsmooth ⊢
  exact hsmooth

end Runs

/-! ## Every millisecond once -/

/-- **The observer accounts for every millisecond once.** The frames come in time order, from the time
0 on that the `RTC_DCHECK`s ask of the first one. Then at every point the time between the first and the
last frame is what was counted for the resolutions, the freezes and the pauses, and also what was
counted for smooth playback, with the piece that is not over yet, for the freezes and the pauses; that
piece is what `UpdateHistograms` adds to the smooth playback. The rows of the freezes are one after the
other, and their durations add up to the total as a `uint32_t`. -/
theorem every_millisecond_once {μ : Type*} (average : MovingAverage μ) (calls : List Call)
    (hordered : (renderedTimes calls).Pairwise (· ≤ ·)) (hstart : ∀ t ∈ renderedTimes calls, 0 ≤ t) :
    let o := observe average calls
    (timeInResolutions o + o.freezesDurations.sum + o.pausesDurations.sum =
        o.lastFrameRenderedMs - o.firstFrameRenderedMs) ∧
      (o.smoothPlaybackDurations.sum + max 0 (o.lastFrameRenderedMs - o.lastUnfreezeTimeMs) +
          o.freezesDurations.sum + o.pausesDurations.sum =
        o.lastFrameRenderedMs - o.firstFrameRenderedMs) ∧
      (o.numFramesRendered ≠ 0 →
        (updateHistograms o).smoothPlaybackDurations.sum + o.freezesDurations.sum +
            o.pausesDurations.sum =
          o.lastFrameRenderedMs - o.firstFrameRenderedMs) ∧
      (o.freezeLog.Pairwise fun row row' =>
        row.timestampMs ≤ row'.timestampMs - row'.freezeDurationMs) ∧
      (o.freezeLog.map FreezeRow.freezeDurationMs).sum = o.freezesDurations.sum ∧
      (o.freezeLog.map FreezeRow.freezeDurationMs).sum % 2 ^ 32 = totalFreezesDurationMs o := by
  have hbalanced : Balanced (observe average calls) := by
    apply balanced_create.run calls _ hordered
    intro t ht
    have hnonneg := hstart t ht
    change (-1 : ℤ) ≤ t
    omega
  refine ⟨hbalanced.resolutions, hbalanced.smooth, hbalanced.smooth_updateHistograms, hbalanced.apart,
    hbalanced.rows, ?_⟩
  have hrows := hbalanced.rows
  have hcount := hbalanced.count
  simp only [books] at hrows hcount
  rw [totalFreezesDurationMs, SampleCounter.sumOf, ← hrows, ← hcount]
  split_ifs with hnone
  · have hnil : (observe average calls).freezeLog = [] := by
      apply List.eq_nil_of_length_eq_zero
      exact Nat.lt_one_iff.mp hnone
    rw [hnil]
    rfl
  · rfl

/-! ### On two streams -/

/-- The average of the last samples. -/
def lastSamples : MovingAverage (ℕ × List ℤ) where
  create window := (window, [])
  addSample m sample := (m.1, (sample :: m.2).take m.1)
  size m := m.2.length
  averageRoundedDown m := m.2.sum / m.2.length

def renderedAt (ms : ℤ) : Call := .renderedFrame ⟨0, 640, 360, ms⟩

/-- Ten frames 10 ms apart and three more, 2 * 10^9 ms apart. -/
def longFreezes : List Call :=
  ([0, 10, 20, 30, 40, 50, 60, 70, 80, 90, 100] ++
    [2000000100, 4000000100, 6000000100]).map renderedAt

/-- Three freezes of 2 * 10^9 ms each are more than a `uint32_t` holds. -/
theorem total_freezes_duration_wraps :
    (renderedTimes longFreezes).Pairwise (· ≤ ·) ∧ (∀ t ∈ renderedTimes longFreezes, 0 ≤ t) ∧
      ((observe lastSamples longFreezes).freezeLog.map FreezeRow.freezeDurationMs).sum = 6000000000 ∧
      totalFreezesDurationMs (observe lastSamples longFreezes) = 1705032704 := by
  decide +kernel

theorem every_millisecond_once_paused :
    let calls := [.streamInactive] ++ ([0, 40, 80].map renderedAt) ++ [.streamInactive, renderedAt 500]
    let o := observe lastSamples calls
    timeInResolutions o + o.freezesDurations.sum + o.pausesDurations.sum = 500 := by
  have h := (every_millisecond_once lastSamples
    ([.streamInactive] ++ ([0, 40, 80].map renderedAt) ++ [.streamInactive, renderedAt 500])
    (by decide) (by decide)).1
  exact h.trans (by decide)

end WebrtcTrace.Video.Quality
