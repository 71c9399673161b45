import WebrtcTrace.Foundations.PyNumbers
import WebrtcTrace.Foundations.PySlices
import Mathlib.Data.Int.ConditionallyCompleteOrder

/-! # `simulate_audio_gaps.py`

The simulator overwrites the audible part of each gap of a signal with what a packet loss concealment
would play: the short history before it, repeated and faded, or silence. Samples are interleaved:
sample `i` belongs to channel `i % channels`.

Times and fades are exact rationals. The files that are read and written are left out, and so is the
summary that `main` prints.
-/

namespace WebrtcTrace.AudioLab
set_option autoImplicit false

/-! ## Data -/

/-- `plc_mode`. -/
inductive PlcMode where
  | holdFade
  | silence
  deriving DecidableEq, Repr

/-- The parameters of `apply_events` but the signal and the events. -/
structure Settings where
  sampleRate : ℕ
  channels : ℕ
  frameMs : ℚ
  jitterBufferMs : ℚ
  redFrames : ℤ
  plcMode : PlcMode
  deriving DecidableEq

structure Event where
  eventId : ℕ
  timeSec : ℚ
  gapMs : ℚ
  label : String
  deriving DecidableEq

/-- A row of the applied list: the event, and what was added to it. -/
structure AppliedRow where
  event : Event
  redFrames : ℤ
  jitterBufferMs : Option ℚ := none
  recoveredMs : Option ℚ := none
  audibleGapMs : ℚ
  applied : Bool
  deriving DecidableEq

/-- The loop of `read_events` over the rows, numbered from 1. -/
def readEvents (rows : List (ℚ × ℚ × String)) : List Event :=
  let events := (rows.zipIdx 1).filterMap fun ((timeSec, gapMs, label), idx) =>
    if timeSec < 0 ∨ gapMs ≤ 0 then none else some (Event.mk idx timeSec gapMs label)
  events.mergeSort fun e e' => e.timeSec ≤ e'.timeSec

/-! ## Concealment -/

/-- The fade of sample `i` of a segment. -/
def fade (lengthSamples : ℤ) (channels i : ℕ) : ℚ :=
  let sampleIdx := i / channels
  max (15 / 100) (1 - sampleIdx / max 1 ((lengthSamples : ℚ) / channels))

def makePlcSegment (samples : List ℤ) (startSample lengthSamples frameSamples : ℤ) (channels : ℕ)
    (mode : PlcMode) : List ℤ :=
  if lengthSamples ≤ 0 then []
  else if mode = .silence ∨ startSample ≤ 0 then List.replicate lengthSamples.toNat 0
  else
    let historyLen := min (frameSamples * channels) startSample
    let historyStart := startSample - historyLen
    let history := Py.slice samples historyStart startSample
    if history.isEmpty then List.replicate lengthSamples.toNat 0
    else
      let out := Py.extendTo history lengthSamples.toNat lengthSamples.toNat []
      let out := Py.slice out 0 lengthSamples
      out.mapIdx fun i (x : ℤ) => Py.trunc (x * fade lengthSamples channels i)

/-! ## The events -/

namespace Settings

def frameSamplesPerChannel (c : Settings) : ℤ := max 1 (Py.round (c.sampleRate * c.frameMs / 1000))

def recoveredMs (c : Settings) : ℚ := c.redFrames * c.frameMs

def audibleGapMs (c : Settings) (event : Event) : ℚ :=
  max 0 (event.gapMs - c.jitterBufferMs - c.recoveredMs)

def startSample (c : Settings) (event : Event) : ℤ :=
  Py.round (event.timeSec * c.sampleRate) * c.channels

def lengthSamples (c : Settings) (event : Event) : ℤ :=
  Py.round (c.audibleGapMs event * c.sampleRate / 1000) * c.channels

end Settings

/-- One round of `apply_events`: the signal, and the row for the applied list. -/
def applyEvent (c : Settings) (out : List ℤ) (event : Event) : List ℤ × AppliedRow :=
  let audibleGapMs := c.audibleGapMs event
  let startSample := c.startSample event
  let lengthSamples := c.lengthSamples event
  if (out.length : ℤ) ≤ startSample ∨ lengthSamples ≤ 0 then
    (out, { event := event, redFrames := c.redFrames, audibleGapMs := audibleGapMs, applied := false })
  else
    let endSample := min (out.length : ℤ) (startSample + lengthSamples)
    let replacement := makePlcSegment out startSample (endSample - startSample)
      c.frameSamplesPerChannel c.channels c.plcMode
    (Py.setSlice out startSample endSample replacement, {
      event := event
      redFrames := c.redFrames
      jitterBufferMs := some c.jitterBufferMs
      recoveredMs := some c.recoveredMs
      audibleGapMs := audibleGapMs
      applied := true })

def applyEvents (c : Settings) (out : List ℤ) : List Event → List ℤ × List AppliedRow
  | [] => (out, [])
  | event :: events =>
    let (out, row) := applyEvent c out event
    let (out, applied) := applyEvents c out events
    (out, row :: applied)

/-! ## The gaps -/

/-- The audible gap of an event, in samples. -/
def Settings.gap (c : Settings) (event : Event) : Set ℤ :=
  Set.Ico (c.startSample event) (c.startSample event + c.lengthSamples event)

/-- The positions of a signal of `n` samples that the events replace. -/
def Settings.replaced (c : Settings) (events : List Event) (n : ℕ) : Set ℕ :=
  {i | i < n ∧ ∃ event ∈ events, (i : ℤ) ∈ c.gap event}

theorem readEvents_time {rows : List (ℚ × ℚ × String)} {event : Event}
    (h : event ∈ readEvents rows) : 0 ≤ event.timeSec := by
  obtain ⟨⟨⟨timeSec, gapMs, label⟩, idx⟩, _, hrow⟩ := List.mem_filterMap.mp (List.mem_mergeSort.mp h)
  dsimp only at hrow
  split_ifs at hrow with hskip
  obtain rfl := Option.some.inj hrow
  exact not_lt.mp (not_or.mp hskip).1

end WebrtcTrace.AudioLab
