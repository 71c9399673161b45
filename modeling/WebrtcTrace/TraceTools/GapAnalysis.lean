import WebrtcTrace.Foundations.Bisect
import WebrtcTrace.TraceTools.Percentile

/-! # `trace_tools/analyze_buffer_exhausting_gaps.py`

From the packet log and the frame log to the gaps between packets, and from the gaps to episodes. Times
are exact rationals, also the order offsets of a millionth that `load_video_gaps` sorts by.
-/

namespace WebrtcTrace.TraceTools.Gaps
set_option autoImplicit false

/-! ## Numbers -/

/-- `to_float(row.get(key))`. -/
def toFloat (row : Row) (key : String) : Option ℚ :=
  match row.get? key with
  | none => none
  | some none => none
  | some (some value) =>
    if value = "" then none
    else match Py.float value with
      | some (.finite q) => some q
      | _ => none

/-- `int(to_float(row.get(key), 0) or 0)`. -/
def toCount (row : Row) (key : String) : ℤ := Py.trunc ((toFloat row key).getD 0)

def percentile (values : List ℚ) (pct : ℚ) : Except PyError (Option ℚ) :=
  let vals := sorted values
  if vals = [] then .ok none
  else
    let k := ((vals.length - 1 : ℕ) : ℚ) * pct / 100
    if ⌊k⌋ = ⌈k⌉ then (item vals ⌊k⌋).map some
    else (item vals ⌊k⌋).bind fun lo => (item vals ⌈k⌉).map fun hi =>
      some (lo * (⌈k⌉ - k) + hi * (k - ⌊k⌋))

theorem percentile_eq {values : List ℚ} (hne : values ≠ []) {pct : ℚ} (h0 : 0 ≤ pct)
    (h100 : pct ≤ 100) : percentile values pct = .ok (some (percentilePoint values pct)) := by
  obtain ⟨hfloor, hceil⟩ := items_position hne h0 h100
  have hsorted : sorted values ≠ [] := by
    rw [← List.length_pos_iff, sorted_length]
    exact List.length_pos_iff.mpr hne
  have hposition : (((sorted values).length - 1 : ℕ) : ℚ) * pct / 100 = position values pct := by
    rw [sorted_length, position, mul_div_assoc]
  rw [percentile]
  dsimp only
  rw [if_neg hsorted, hposition, hfloor, hceil, percentilePoint]
  split_ifs with hsame
  · rw [along_of_floor_eq_ceil _ hsame]
    rfl
  · rw [along_of_floor_ne_ceil _ hsame]
    rfl

/-! ## Gaps between packets -/

structure RawGap where
  startMs : ℚ
  endMs : ℚ
  gapMs : ℚ
  deriving DecidableEq, Repr

/-- The variables of the loop that orders the packets. -/
structure OrderLoop where
  lastT : Option ℚ := none
  orderOffset : ℚ := 0
  ordered : List (ℚ × ℚ) := []

def orderStep (st : OrderLoop) (t : ℚ) : OrderLoop :=
  let orderOffset := if st.lastT = some t then st.orderOffset + 1 / 10 ^ 6 else 0
  ⟨some t, orderOffset, st.ordered ++ [(t + orderOffset, t)]⟩

def packetTimes (rows : List Row) : List ℚ := rows.filterMap (toFloat · "timestamp_ms")

/-- `times` of `load_video_gaps`. -/
def orderedTimes (times : List ℚ) (warmupStartMs : ℚ) : List ℚ :=
  let ordered := (times.foldl orderStep {}).ordered.insertionSort fun x y => x.1 ≤ y.1
  (ordered.map Prod.snd).filter (warmupStartMs ≤ ·)

def gapsBetween (times : List ℚ) : List RawGap :=
  times.zipWith (fun start finish => ⟨start, finish, max 0 (finish - start)⟩) times.tail

def loadVideoGaps (rows : List Row) (warmupStartMs : ℚ) : List RawGap :=
  gapsBetween (orderedTimes (packetTimes rows) warmupStartMs)

/-! ## Frame states -/

structure FrameState where
  playableUnits : ℤ
  continuousUnits : ℤ
  bufferSize : ℤ
  deriving DecidableEq, Repr

def frameState (row : Row) : FrameState where
  playableUnits := toCount row "playable_units"
  continuousUnits := toCount row "continuous_units"
  bufferSize := toCount row "buffer_size"

/-- The rows of the frame log with a time, as the times and the states of `load_frame_states`. -/
def loadFrameStates (rows : List Row) : List (ℚ × FrameState) :=
  rows.filterMap fun row => (toFloat row "timestamp_ms").map fun t => (t, frameState row)

def bisectRight (times : List ℚ) (t : ℚ) : ℕ := bisect (fun a => decide (a ≤ t)) times

def latestState (stateTimes : List ℚ) (states : List FrameState) (t : ℚ) : Option FrameState :=
  let idx : ℤ := (bisectRight stateTimes t : ℤ) - 1
  if idx < 0 then none else states[idx.toNat]?

/-! ## Baselines and gaps -/

/-- `compute_baselines`, from the deque of the gaps still in the window. -/
def baselinesFrom (windowMs : ℚ) (window : List (ℚ × ℚ)) :
    List RawGap → Except PyError (List (Option ℚ))
  | [] => .ok []
  | raw :: rest =>
    let cutoff := raw.startMs - windowMs
    let window := window.dropWhile (·.1 < cutoff)
    (percentile (window.map Prod.snd) 75).bind fun baseline =>
      (baselinesFrom windowMs (window ++ [(raw.startMs, raw.gapMs)]) rest).map (baseline :: ·)

def computeBaselines (rawGaps : List RawGap) (windowMs : ℚ) : Except PyError (List (Option ℚ)) :=
  baselinesFrom windowMs [] rawGaps

structure Gap where
  idx : ℕ
  startMs : ℚ
  endMs : ℚ
  gapMs : ℚ
  baselineP75Ms : Option ℚ
  playableUnits : Option ℤ
  continuousUnits : Option ℤ
  bufferSize : Option ℤ
  budgetMs : Option ℚ
  bufferExhausting : Bool
  elevated : Bool
  deriving DecidableEq, Repr

/-- The body of the loop of `build_gaps`. -/
def gapOf (frameIntervalMs : ℚ) (idx : ℕ) (raw : RawGap) (baseline : Option ℚ)
    (state : Option FrameState) : Gap :=
  let playable := state.map FrameState.playableUnits
  let budget := playable.map fun n => (n : ℚ) * frameIntervalMs
  let elevatedFloor := max (baseline.getD 0) (budget.getD 0)
  { idx := idx
    startMs := raw.startMs
    endMs := raw.endMs
    gapMs := raw.gapMs
    baselineP75Ms := baseline
    playableUnits := playable
    continuousUnits := state.map FrameState.continuousUnits
    bufferSize := state.map FrameState.bufferSize
    budgetMs := budget
    bufferExhausting := budget.any (· < raw.gapMs)
    elevated := elevatedFloor < raw.gapMs }

def buildGaps (rawGaps : List RawGap) (stateTimes : List ℚ) (states : List FrameState)
    (frameIntervalMs windowMs : ℚ) : Except PyError (List Gap) :=
  (computeBaselines rawGaps windowMs).map fun baselines =>
    (rawGaps.zip baselines).mapIdx fun idx e =>
      gapOf frameIntervalMs idx e.1 e.2 (latestState stateTimes states e.1.startMs)

/-! ## Episodes -/

structure Episode where
  episodeId : ℕ
  startMs : ℚ
  endMs : ℚ
  peakGap : Gap
  gaps : List Gap
  deriving DecidableEq, Repr

/-- `max(first and rest, key=...)`, the first of the largest. -/
def largestGap (first : Gap) (rest : List Gap) : Gap :=
  rest.foldl (fun best g => if best.gapMs < g.gapMs then g else best) first

/-- The variables of `build_episodes`. -/
structure EpisodeLoop where
  active : List Gap := []
  belowSince : Option ℚ := none
  episodeId : ℕ := 1
  episodes : List Episode := []

def flush (st : EpisodeLoop) : EpisodeLoop :=
  match st.active with
  | [] => st
  | first :: rest =>
    match (first :: rest).filter Gap.bufferExhausting with
    | [] => { st with active := [], belowSince := none }
    | exhausting :: others =>
      { active := []
        belowSince := none
        episodeId := st.episodeId + 1
        episodes := st.episodes ++
          [{ episodeId := st.episodeId
             startMs := first.startMs
             endMs := ((first :: rest).getLast (List.cons_ne_nil _ _)).endMs
             peakGap := largestGap exhausting others
             gaps := first :: rest }] }

def startsEpisode (g : Gap) : Bool := g.elevated && g.bufferExhausting

def episodeStep (holdMs : ℚ) (st : EpisodeLoop) (g : Gap) : EpisodeLoop :=
  if st.active = [] then
    if startsEpisode g then { st with active := [g], belowSince := none } else st
  else
    let st := { st with active := st.active ++ [g] }
    if g.elevated then { st with belowSince := none }
    else
      let belowSince := st.belowSince.getD g.startMs
      let st := { st with belowSince := some belowSince }
      if holdMs ≤ g.endMs - belowSince then flush st else st

def buildEpisodes (gaps : List Gap) (holdMs : ℚ) : List Episode :=
  (flush (gaps.foldl (episodeStep holdMs) {})).episodes

end WebrtcTrace.TraceTools.Gaps
