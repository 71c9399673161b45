import Mathlib.Algebra.BigOperators.Group.List.Basic
import Mathlib.Data.Rat.Defs
import Mathlib.Algebra.Order.Ring.Rat
import Mathlib.Data.List.Pairwise

/-! # `video/video_quality_observer2.cc`

The state of the observer and its calls. `OnRenderedFrame` is cut at its comments: the delay since the
last frame, the end of a pause, and what is kept of the frame. `rtc::MovingAverage` is a parameter and
`rtc::SampleCounter` adds exactly.
-/

namespace WebrtcTrace.Video.Quality
set_option autoImplicit false

/-! ## Constants -/

def minFrameSamplesToDetectFreeze : ℕ := 5
def minIncreaseForFreezeMs : ℤ := 150
def avgInterframeDelaysWindowSizeFrames : ℕ := 30
def minRequiredSamples : ℕ := 1
def pixelsInHighResolution : ℤ := 960 * 540
def pixelsInMediumResolution : ℤ := 640 * 360
def blockyQpThresholdVp8 : ℕ := 70
def blockyQpThresholdVp9 : ℕ := 180
def maxNumCachedBlockyFrames : ℕ := 100

/-! ## What the observer uses -/

structure SampleCounter where
  sum : ℤ := 0
  numSamples : ℕ := 0
  deriving DecidableEq, Repr

def SampleCounter.add (c : SampleCounter) (sample : ℤ) : SampleCounter :=
  ⟨c.sum + sample, c.numSamples + 1⟩

/-- `Sum(min_required_samples)`. -/
def SampleCounter.sumOf (c : SampleCounter) (minSamples : ℕ) : Option ℤ :=
  if c.numSamples < minSamples then none else some c.sum

/-- A moving average over states `μ`. With at least one sample `GetAverageRoundedDown` has a value. -/
structure MovingAverage (μ : Type*) where
  create : ℕ → μ
  addSample : μ → ℤ → μ
  size : μ → ℕ
  averageRoundedDown : μ → ℤ

inductive Resolution where
  | low
  | medium
  | high
  deriving DecidableEq, Repr

inductive VideoCodecType where
  | vp8
  | vp9
  | other
  deriving DecidableEq, Repr

structure VideoFrameMetaData where
  rtpTimestamp : UInt32
  width : ℤ
  height : ℤ
  decodeTimestampMs : ℤ
  deriving DecidableEq, Repr

/-- A row of `video_freeze.csv`. -/
structure FreezeRow where
  timestampMs : ℤ
  freezeDurationMs : ℤ
  totalFreezeCount : ℕ
  deriving DecidableEq, Repr

/-- The observer, with the rows it has logged. -/
structure VideoQualityObserver (μ : Type*) where
  lastFrameRenderedMs : ℤ := -1
  numFramesRendered : ℕ := 0
  firstFrameRenderedMs : ℤ := -1
  lastFramePixels : ℤ := 0
  isLastFrameBlocky : Bool := false
  lastUnfreezeTimeMs : ℤ := 0
  renderInterframeDelays : μ
  sumSquaredInterframeDelaysSecs : ℚ := 0
  timeInResolutionMs : Resolution → ℤ := fun _ => 0
  currentResolution : Resolution := .low
  numResolutionDowngrades : ℕ := 0
  timeInBlockyVideoMs : ℤ := 0
  isPaused : Bool := false
  blockyFrames : List UInt32 := []
  freezesDurations : SampleCounter := {}
  pausesDurations : SampleCounter := {}
  smoothPlaybackDurations : SampleCounter := {}
  freezeLog : List FreezeRow := []

section Observer
variable {μ : Type*} (average : MovingAverage μ)

def VideoQualityObserver.create : VideoQualityObserver μ where
  renderInterframeDelays := average.create avgInterframeDelaysWindowSizeFrames

/-! ## `OnRenderedFrame` -/

/-- The first frame starts the clock. -/
def startClock (o : VideoQualityObserver μ) (ms : ℤ) : VideoQualityObserver μ :=
  if o.numFramesRendered = 0 then { o with firstFrameRenderedMs := ms, lastUnfreezeTimeMs := ms } else o

def wasFreeze (delays : μ) (interframeDelayMs : ℤ) : Bool :=
  decide (minFrameSamplesToDetectFreeze ≤ average.size delays) &&
    decide (max (3 * average.averageRoundedDown delays)
      (average.averageRoundedDown delays + minIncreaseForFreezeMs) ≤ interframeDelayMs)

def recordFreeze (o : VideoQualityObserver μ) (ms interframeDelayMs : ℤ) : VideoQualityObserver μ :=
  let freezesDurations := o.freezesDurations.add interframeDelayMs
  { o with
    freezesDurations := freezesDurations
    smoothPlaybackDurations :=
      o.smoothPlaybackDurations.add (o.lastFrameRenderedMs - o.lastUnfreezeTimeMs)
    lastUnfreezeTimeMs := ms
    freezeLog := o.freezeLog ++ [⟨ms, interframeDelayMs, freezesDurations.numSamples⟩] }

/-- Counts spatial metrics if there was no freeze. -/
def countSpatial (o : VideoQualityObserver μ) (interframeDelayMs : ℤ) : VideoQualityObserver μ :=
  { o with
    timeInResolutionMs := Function.update o.timeInResolutionMs o.currentResolution
      (o.timeInResolutionMs o.currentResolution + interframeDelayMs)
    timeInBlockyVideoMs := o.timeInBlockyVideoMs + if o.isLastFrameBlocky then interframeDelayMs else 0 }

def processInterframeDelay (o : VideoQualityObserver μ) (ms : ℤ) : VideoQualityObserver μ :=
  if o.numFramesRendered = 0 then o
  else
    let interframeDelayMs := ms - o.lastFrameRenderedMs
    let interframeDelaysSecs : ℚ := interframeDelayMs / 1000
    let o := { o with
      sumSquaredInterframeDelaysSecs :=
        o.sumSquaredInterframeDelaysSecs + interframeDelaysSecs * interframeDelaysSecs }
    if o.isPaused then o
    else
      let delays := average.addSample o.renderInterframeDelays interframeDelayMs
      let o := { o with renderInterframeDelays := delays }
      if wasFreeze average delays interframeDelayMs then recordFreeze o ms interframeDelayMs
      else countSpatial o interframeDelayMs

/-- The smooth playback up to the last frame, if there was any. -/
def addSmoothPlayback (o : VideoQualityObserver μ) : SampleCounter :=
  if o.lastUnfreezeTimeMs < o.lastFrameRenderedMs then
    o.smoothPlaybackDurations.add (o.lastFrameRenderedMs - o.lastUnfreezeTimeMs)
  else o.smoothPlaybackDurations

def endPause (o : VideoQualityObserver μ) (ms : ℤ) : VideoQualityObserver μ :=
  if o.isPaused then
    { o with
      isPaused := false
      smoothPlaybackDurations := addSmoothPlayback o
      lastUnfreezeTimeMs := ms
      pausesDurations :=
        if 0 < o.numFramesRendered then o.pausesDurations.add (ms - o.lastFrameRenderedMs)
        else o.pausesDurations }
  else o

def resolutionOf (pixels : ℤ) : Resolution :=
  if pixelsInHighResolution ≤ pixels then .high
  else if pixelsInMediumResolution ≤ pixels then .medium
  else .low

def keepFrame (o : VideoQualityObserver μ) (frame : VideoFrameMetaData) : VideoQualityObserver μ :=
  let pixels := frame.width * frame.height
  let isBlocky : Bool := decide (frame.rtpTimestamp ∈ o.blockyFrames)
  { o with
    currentResolution := resolutionOf pixels
    numResolutionDowngrades := o.numResolutionDowngrades + if pixels < o.lastFramePixels then 1 else 0
    lastFramePixels := pixels
    lastFrameRenderedMs := frame.decodeTimestampMs
    isLastFrameBlocky := isBlocky
    -- `blocky_frames_` is ordered, and all frames up to this one are erased
    blockyFrames :=
      if isBlocky then o.blockyFrames.filter (frame.rtpTimestamp < ·) else o.blockyFrames
    numFramesRendered := o.numFramesRendered + 1 }

def onRenderedFrame (o : VideoQualityObserver μ) (frame : VideoFrameMetaData) :
    VideoQualityObserver μ :=
  let ms := frame.decodeTimestampMs
  keepFrame (endPause (processInterframeDelay average (startClock o ms) ms) ms) frame

/-! ## The other calls -/

def qpBlockyThreshold : VideoCodecType → Option ℕ
  | .vp8 => some blockyQpThresholdVp8
  | .vp9 => some blockyQpThresholdVp9
  | .other => none

def onDecodedFrame (o : VideoQualityObserver μ) (rtpFrameTimestamp : UInt32) (qp : Option ℕ)
    (codec : VideoCodecType) : VideoQualityObserver μ :=
  if qp.any fun qp => (qpBlockyThreshold codec).any (· < qp) then
    let cached :=
      if maxNumCachedBlockyFrames < o.blockyFrames.length then
        o.blockyFrames.drop (maxNumCachedBlockyFrames / 2)
      else o.blockyFrames
    { o with
      blockyFrames := cached.filter (· < rtpFrameTimestamp) ++ rtpFrameTimestamp ::
        cached.filter (rtpFrameTimestamp < ·) }
  else o

def onStreamInactive (o : VideoQualityObserver μ) : VideoQualityObserver μ := { o with isPaused := true }

/-- What `UpdateHistograms` does to the observer. -/
def updateHistograms (o : VideoQualityObserver μ) : VideoQualityObserver μ :=
  if o.numFramesRendered = 0 then o else { o with smoothPlaybackDurations := addSmoothPlayback o }

/-- A `uint32_t`. -/
def totalFreezesDurationMs (o : VideoQualityObserver μ) : ℤ :=
  (o.freezesDurations.sumOf minRequiredSamples).getD 0 % 2 ^ 32

inductive Call where
  | renderedFrame (frame : VideoFrameMetaData)
  | decodedFrame (rtpFrameTimestamp : UInt32) (qp : Option ℕ) (codec : VideoCodecType)
  | streamInactive
  deriving DecidableEq, Repr

def apply (o : VideoQualityObserver μ) : Call → VideoQualityObserver μ
  | .renderedFrame frame => onRenderedFrame average o frame
  | .decodedFrame rtpFrameTimestamp qp codec => onDecodedFrame o rtpFrameTimestamp qp codec
  | .streamInactive => onStreamInactive o

/-- An observer after some calls. -/
def observe (calls : List Call) : VideoQualityObserver μ := calls.foldl (apply average) (.create average)

end Observer
end WebrtcTrace.Video.Quality
