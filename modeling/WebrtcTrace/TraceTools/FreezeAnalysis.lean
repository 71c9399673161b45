import WebrtcTrace.TraceTools.GapAnalysis
import WebrtcTrace.Video.PlaybackAccounting
import Mathlib.Tactic.IntervalCases
import Mathlib.Tactic.Ring

/-! # `trace_tools/analyze_freeze_mechanisms.py`

The freeze loop of the tool, from the rows of the two logs to the frames it puts around each freeze.
The quality observer logs a freeze with the time of the frame that ends it and its duration, so the
freeze starts at the very time of the frame before (`freezeLog_consecutive`). `bisect_left` finds that
frame itself, and the tool takes it for the one after the freeze (`freeze_frames_off_by_one`).
-/

namespace WebrtcTrace.TraceTools.Freezes
open Video.Quality
set_option autoImplicit false

def toFloat (row : Row) (key : String) : Option ℚ := Gaps.toFloat row key

def percentile : List ℚ → ℚ → Except PyError (Option ℚ) := Gaps.percentile

/-- `row.get(key, "")`, which is `None` in a short row. -/
def textOr (row : Row) (key : String) : Option String := (row.get? key).getD (some "")

structure RenderedFrame where
  timestampMs : ℚ
  renderTimeMs : ℚ
  rtpTimestamp : Option String
  packetCount : ℚ
  width : Option String
  height : Option String
  deriving DecidableEq, Repr

def renderedFrame (row : Row) (t : ℚ) : RenderedFrame where
  timestampMs := t
  renderTimeMs := (toFloat row "render_time_ms").getD t
  rtpTimestamp := textOr row "rtp_timestamp"
  packetCount := (toFloat row "packet_count").getD 0
  width := textOr row "width"
  height := textOr row "height"

def loadRendered (rows : List Row) : List RenderedFrame :=
  (rows.filterMap fun row => (toFloat row "timestamp_ms").map (renderedFrame row)).insertionSort
    fun r r' => r.timestampMs ≤ r'.timestampMs

structure Freeze where
  startMs : ℚ
  endMs : ℚ
  durationMs : ℚ
  deriving DecidableEq, Repr

def readFreeze (row : Row) : Option Freeze :=
  match toFloat row "timestamp_ms", toFloat row "freeze_duration_ms" with
  | some finish, some duration => some ⟨finish - duration, finish, duration⟩
  | _, _ => none

def bisectLeft (times : List ℚ) (t : ℚ) : ℕ := bisect (fun a => decide (a < t)) times

/-- `prev_idx` and `next_idx`. -/
def frameIndexes (rendered : List RenderedFrame) (freeze : Freeze) : ℕ × ℕ :=
  let pos := bisectLeft (rendered.map RenderedFrame.timestampMs) freeze.startMs
  (pos - 1, min (rendered.length - 1) pos)

/-- What the tool says of a freeze from the frames around it. -/
structure FreezeFrames where
  prevFrame : RenderedFrame
  nextFrame : RenderedFrame
  renderGap : ℚ
  freezeMinusRenderGap : ℚ
  deriving DecidableEq, Repr

def freezeFrames (rendered : List RenderedFrame) (freeze : Freeze) : Option FreezeFrames :=
  match rendered[(frameIndexes rendered freeze).1]?, rendered[(frameIndexes rendered freeze).2]? with
  | some prevFrame, some nextFrame =>
    let renderGap := nextFrame.timestampMs - prevFrame.timestampMs
    some ⟨prevFrame, nextFrame, renderGap, freeze.durationMs - renderGap⟩
  | _, _ => none

/-- A row of `video_freeze.csv` as the observer prints it. -/
def freezeCsvRow (row : FreezeRow) : Row :=
  .full [("timestamp_ms", toString row.timestampMs),
    ("freeze_duration_ms", toString row.freezeDurationMs),
    ("total_freeze_count", toString row.totalFreezeCount)]

/-! ## The freezes the observer logs -/

section Writer
variable {μ : Type*} (average : MovingAverage μ)

theorem freezeLog_processInterframeDelay (o : VideoQualityObserver μ) (ms : ℤ) :
    (processInterframeDelay average o ms).freezeLog = o.freezeLog ∨
      0 < o.numFramesRendered ∧ ∃ count, (processInterframeDelay average o ms).freezeLog =
        o.freezeLog ++ [⟨ms, ms - o.lastFrameRenderedMs, count⟩] := by
  unfold processInterframeDelay
  dsimp only
  split_ifs with hnum hpaused hfreeze
  · exact .inl rfl
  · exact .inl rfl
  · exact .inr ⟨Nat.pos_of_ne_zero hnum, _, rfl⟩
  · exact .inl rfl

theorem freezeLog_onRenderedFrame (o : VideoQualityObserver μ) (frame : VideoFrameMetaData) :
    (onRenderedFrame average o frame).freezeLog = o.freezeLog ∨
      0 < o.numFramesRendered ∧ ∃ count, (onRenderedFrame average o frame).freezeLog =
        o.freezeLog ++ [⟨frame.decodeTimestampMs,
          frame.decodeTimestampMs - o.lastFrameRenderedMs, count⟩] := by
  have hpause : ∀ (o : VideoQualityObserver μ) ms, (endPause o ms).freezeLog = o.freezeLog := by
    intro o ms
    unfold endPause
    split <;> rfl
  have hdelay := freezeLog_processInterframeDelay average (startClock o frame.decodeTimestampMs)
    frame.decodeTimestampMs
  have hlog : (startClock o frame.decodeTimestampMs).freezeLog = o.freezeLog := by
    unfold startClock
    split <;> rfl
  have hlast : (startClock o frame.decodeTimestampMs).lastFrameRenderedMs = o.lastFrameRenderedMs := by
    unfold startClock
    split <;> rfl
  rw [numFramesRendered_startClock, hlog, hlast] at hdelay
  rw [onRenderedFrame, keepFrame, hpause]
  exact hdelay

/-- The rows of the freezes are those of frames and the frames before them. -/
structure Logged (times : List ℤ) (o : VideoQualityObserver μ) : Prop where
  count : o.numFramesRendered = times.length
  last : ∀ t, times.getLast? = some t → o.lastFrameRenderedMs = t
  rows : ∀ row ∈ o.freezeLog, ∃ before t after, times = before ++ t :: row.timestampMs :: after ∧
    row.freezeDurationMs = row.timestampMs - t

theorem Logged.onRenderedFrame {times : List ℤ} {o : VideoQualityObserver μ} (h : Logged times o)
    (frame : VideoFrameMetaData) :
    Logged (times ++ [frame.decodeTimestampMs]) (onRenderedFrame average o frame) := by
  have hearlier : ∀ row ∈ o.freezeLog, ∃ before t after,
      times ++ [frame.decodeTimestampMs] = before ++ t :: row.timestampMs :: after ∧
        row.freezeDurationMs = row.timestampMs - t := by
    intro row hrow
    obtain ⟨before, t, after, htimes, hduration⟩ := h.rows row hrow
    refine ⟨before, t, after ++ [frame.decodeTimestampMs], ?_, hduration⟩
    rw [htimes, List.append_assoc]
    rfl
  refine ⟨?_, ?_, ?_⟩
  · rw [numFramesRendered_onRenderedFrame, h.count, List.length_append, List.length_singleton]
  · intro t ht
    rw [List.getLast?_concat] at ht
    exact Option.some.inj ht
  · obtain hsame | ⟨hnum, count, hnew⟩ := freezeLog_onRenderedFrame average o frame
    · rw [hsame]
      exact hearlier
    · rw [hnew]
      intro row hrow
      obtain hrow | hrow := List.mem_append.mp hrow
      · exact hearlier row hrow
      · obtain rfl := List.mem_singleton.mp hrow
        rw [h.count] at hnum
        obtain rfl | ⟨before, t, rfl⟩ := List.eq_nil_or_concat times
        · cases hnum
        · rw [List.concat_eq_append] at h ⊢
          refine ⟨before, t, [], ?_, ?_⟩
          · rw [List.append_assoc]
            rfl
          · rw [h.last t (List.getLast?_concat)]

/-- **A freeze is logged with its frame and the frame before.** -/
theorem freezeLog_consecutive (calls : List Call) :
    Logged (renderedTimes calls) (observe average calls) := by
  induction calls using List.reverseRecOn with
  | nil => exact ⟨rfl, by simp [renderedTimes], by simp [observe, VideoQualityObserver.create]⟩
  | append_singleton calls call ih =>
    rw [observe, List.foldl_append, ← observe, renderedTimes, List.filterMap_append, ← renderedTimes]
    cases call with
    | renderedFrame frame => exact ih.onRenderedFrame average frame
    | decodedFrame rtpFrameTimestamp qp codec =>
      rw [show [Call.decodedFrame rtpFrameTimestamp qp codec].filterMap Call.renderedMs = [] from rfl,
        List.append_nil, List.foldl_cons, List.foldl_nil, apply, onDecodedFrame_frame]
      exact ⟨ih.count, ih.last, ih.rows⟩
    | streamInactive =>
      rw [show [Call.streamInactive].filterMap Call.renderedMs = [] from rfl, List.append_nil]
      exact ⟨ih.count, ih.last, ih.rows⟩

end Writer

/-! ## The frames the tool selects -/

theorem toFloat_of_get? {row : Row} {key : String} {n : ℤ} (hn : 0 ≤ n)
    (h : row.get? key = some (some (toString n))) : toFloat row key = some (n : ℚ) := by
  simp only [toFloat, Gaps.toFloat, h, if_neg (Py.toString_ne_empty n), Py.float_toString_of_nonneg hn]

/-- What the observer prints of a freeze is read back. -/
theorem readFreeze_freezeCsvRow {row : FreezeRow} (hend : 0 ≤ row.timestampMs)
    (hduration : 0 ≤ row.freezeDurationMs) :
    readFreeze (freezeCsvRow row) = some ⟨row.timestampMs - row.freezeDurationMs, row.timestampMs,
      row.freezeDurationMs⟩ := by
  have hts : toFloat (freezeCsvRow row) "timestamp_ms" = some (row.timestampMs : ℚ) :=
    toFloat_of_get? hend rfl
  have hd : toFloat (freezeCsvRow row) "freeze_duration_ms" = some (row.freezeDurationMs : ℚ) :=
    toFloat_of_get? hduration rfl
  simp only [readFreeze, hts, hd]

theorem loadRendered_times {rows : List Row} {times : List ℚ} (hordered : times.Pairwise (· ≤ ·))
    (hrows : (rows.filterMap (toFloat · "timestamp_ms")).Perm times) :
    (loadRendered rows).map RenderedFrame.timestampMs = times := by
  have : Std.Total fun r r' : RenderedFrame => r.timestampMs ≤ r'.timestampMs :=
    ⟨fun r r' => le_total r.timestampMs r'.timestampMs⟩
  have : IsTrans RenderedFrame fun r r' => r.timestampMs ≤ r'.timestampMs := ⟨fun _ _ _ => le_trans⟩
  apply List.Perm.eq_of_pairwise' (r := (· ≤ ·))
  · rw [List.pairwise_map]
    exact List.pairwise_insertionSort (fun r r' : RenderedFrame => r.timestampMs ≤ r'.timestampMs) _
  · exact hordered
  · refine ((List.perm_insertionSort _ _).map RenderedFrame.timestampMs).trans ?_
    have htimes : (rows.filterMap fun row => (toFloat row "timestamp_ms").map (renderedFrame row)).map
        RenderedFrame.timestampMs = rows.filterMap (toFloat · "timestamp_ms") := by
      rw [List.map_filterMap]
      congr 1
      funext row
      cases toFloat row "timestamp_ms" <;> rfl
    rw [htimes]
    exact hrows

/-- In a list without repetitions `bisect_left` finds an element itself. -/
theorem bisectLeft_self {before after : List ℚ} {t : ℚ}
    (hordered : (before ++ t :: after).Pairwise (· < ·)) :
    bisectLeft (before ++ t :: after) t = before.length := by
  have hbefore : ∀ a ∈ before, decide (a < t) = true := by
    intro a ha
    exact decide_eq_true ((List.pairwise_append.mp hordered).2.2 a ha t List.mem_cons_self)
  rw [bisectLeft, bisect_eq (partitioned_lt (hordered.imp le_of_lt) t),
    List.takeWhile_append_of_pos hbefore, List.takeWhile_cons_of_neg (by simp), List.append_nil]

/-- **The freeze analysis takes the frame before a freeze for the one after it.** A freeze between the
frames `n` and `n + 1` is put between the frames `n - 1` and `n`. -/
theorem freeze_frames_off_by_one {μ : Type*} (average : MovingAverage μ) (calls : List Call)
    (hordered : (renderedTimes calls).Pairwise (· < ·)) (hstart : ∀ t ∈ renderedTimes calls, 0 ≤ t)
    (renderedRows : List Row)
    (hrendered : (renderedRows.filterMap (toFloat · "timestamp_ms")).Perm
      ((renderedTimes calls).map (Int.cast : ℤ → ℚ))) :
    ∀ row ∈ (observe average calls).freezeLog, ∃ n t freeze,
      (renderedTimes calls)[n]? = some t ∧ (renderedTimes calls)[n + 1]? = some row.timestampMs ∧
      row.freezeDurationMs = row.timestampMs - t ∧
      readFreeze (freezeCsvRow row) = some freeze ∧
      frameIndexes (loadRendered renderedRows) freeze = (n - 1, n) ∧
      frameIndexes (loadRendered renderedRows) freeze ≠ (n, n + 1) := by
  intro row hrow
  obtain ⟨before, t, after, htimes, hduration⟩ := (freezeLog_consecutive average calls).rows row hrow
  have hlt : t < row.timestampMs := by
    rw [htimes] at hordered
    exact (List.pairwise_cons.mp (List.pairwise_append.mp hordered).2.1).1 _ List.mem_cons_self
  have hread := @readFreeze_freezeCsvRow row (hstart _ (by rw [htimes]; simp)) (by omega)
  have hfs : (row.timestampMs : ℚ) - row.freezeDurationMs = t := by
    rw [hduration]
    push_cast
    ring
  have hcast : ((renderedTimes calls).map (Int.cast : ℤ → ℚ)).Pairwise (· < ·) := by
    rw [List.pairwise_map]
    exact hordered.imp fun h => by exact_mod_cast h
  have hloaded := loadRendered_times (hcast.imp le_of_lt) hrendered
  have hlength : (loadRendered renderedRows).length = before.length + (after.length + 2) := by
    have h := congrArg List.length hloaded
    rw [List.length_map, List.length_map, htimes] at h
    simpa using h
  have hindexes : frameIndexes (loadRendered renderedRows)
      ⟨row.timestampMs - row.freezeDurationMs, row.timestampMs, row.freezeDurationMs⟩ =
        (before.length - 1, before.length) := by
    rw [htimes, List.map_append, List.map_cons] at hcast hloaded
    have hpos := bisectLeft_self hcast
    rw [List.length_map] at hpos
    simp only [frameIndexes, hloaded, hfs, hpos, hlength, Prod.mk.injEq, true_and]
    omega
  refine ⟨before.length, t, _, ?_, ?_, hduration, hread, hindexes, ?_⟩
  · rw [htimes]
    simp
  · rw [htimes]
    simp
  · rw [hindexes]
    simp

/-! ### On one stream -/

/-- Six frames 10 ms apart and one a second later. -/
def oneSecondFreeze : List Call := [0, 10, 20, 30, 40, 50, 1050].map renderedAt

def renderedLog : List Row :=
  ["0", "10", "20", "30", "40", "50", "1050"].map fun t => .full [("timestamp_ms", t)]

/-- A freeze of 1000 ms is shown with a render gap of 10 ms. -/
theorem freeze_shown_with_earlier_gap :
    (observe lastSamples oneSecondFreeze).freezeLog = [⟨1050, 1000, 1⟩] ∧
      ((readFreeze (freezeCsvRow ⟨1050, 1000, 1⟩)).bind fun freeze =>
        (freezeFrames (loadRendered renderedLog) freeze).map fun f => (freeze.durationMs, f.renderGap)) =
        some (1000, 10) := by
  decide +kernel

theorem freeze_frames_off_by_one_second :
    ∃ freeze, readFreeze (freezeCsvRow ⟨1050, 1000, 1⟩) = some freeze ∧
      frameIndexes (loadRendered renderedLog) freeze ≠ (5, 6) := by
  have hrow : (⟨1050, 1000, 1⟩ : FreezeRow) ∈ (observe lastSamples oneSecondFreeze).freezeLog := by
    decide +kernel
  obtain ⟨n, t, freeze, ht, hnext, _, hread, _, hne⟩ := freeze_frames_off_by_one lastSamples
    oneSecondFreeze (by decide) (by decide) renderedLog (by decide +kernel) _ hrow
  obtain ⟨hn, _⟩ := List.getElem?_eq_some_iff.mp hnext
  have hlength : (renderedTimes oneSecondFreeze).length = 7 := rfl
  have hfive : n = 5 := by
    have hsmall : n ≤ 5 := by omega
    interval_cases n <;> first | rfl | exact absurd hnext (by decide)
  subst hfive
  exact ⟨freeze, hread, hne⟩

end WebrtcTrace.TraceTools.Freezes
