import WebrtcTrace.Video.ReleaseLoops
import Mathlib.Algebra.Order.Ring.Nat

/-! # The books of the controller

Every accepted frame is handed to `OnFrameReady`, still buffered, reported as dropped, or counted by
the buffer and not reported yet. `assets` is what the controller still has to answer for and `paid`
what an operation settles; no operation settles more than it had (`perform_balance`), and the ones that
lose nothing are those `KeepsBooks` describes.
-/

namespace WebrtcTrace.Video
open FrameBuffer Runs
set_option autoImplicit false

variable {H : Type*} (U : Upstream H)

/-! ## What is counted -/

def Event.handed : Event → ℕ
  | .frameReady frames => frames.length
  | _ => 0

def Event.reported : Event → ℕ
  | .droppedFrames frames => frames
  | _ => 0

/-- The frames a list of calls hands to `OnFrameReady`. -/
def handedOver (events : List Event) : ℕ := (events.map Event.handed).sum

/-- The sum of the `OnDroppedFrames` reports in a list of calls. -/
def reportedDropped (events : List Event) : ℕ := (events.map Event.reported).sum

def paid (events : List Event) : ℕ := handedOver events + reportedDropped events

theorem paid_append (es fs : List Event) : paid (es ++ fs) = paid es + paid fs := by
  simp only [paid, handedOver, reportedDropped, List.map_append, List.sum_append]
  omega

@[simp] theorem paid_nil : paid [] = 0 := rfl

theorem paid_cons (e : Event) (es : List Event) : paid (e :: es) = e.handed + e.reported + paid es := by
  simp only [paid, handedOver, reportedDropped, List.map_cons, List.sum_cons]
  omega

namespace BufferController

/-- The frames buffered or counted as dropped and not reported. -/
def assets (s : BufferController H) : ℕ :=
  s.buffer.currentSize + (s.buffer.numDroppedFrames - s.framesDroppedBeforeLastNewFrame)

/-- The frames the buffer accepts in one operation: one or none. -/
def accepted (s : BufferController H) : ControllerOp → ℕ
  | .insertFrame frame _ => if (s.buffer.insertFrame U frame).1 then 1 else 0
  | _ => 0

/-! ## When no frame is lost -/

/-- The base of the statistics is not ahead of the counter of the buffer, as it is after `Clear` has
put a new buffer in the place of one that had dropped frames. -/
def DropsCounted (s : BufferController H) : Prop :=
  s.framesDroppedBeforeLastNewFrame ≤ s.buffer.numDroppedFrames

/-- A release of the next unit reports the frames it skips, or there are none before the unit. -/
def SkipsReported (s : BufferController H) : Prop :=
  ∀ u rest, s.buffer.nextUnit U = some (u, rest) →
    s.DropsCounted ∨ s.buffer.held.head? = u.head?

/-- The forced search finds a keyframe at once, if it finds anything. -/
def SearchKeeps (s : BufferController H) : Prop :=
  ∀ u rest, s.buffer.nextUnit U = some (u, rest) → u.head?.any (·.isKeyframe) = true

/-- A unit that is too late is reported, or the first one asked for is not too late. -/
def LateReported (timing : DecodeTiming) (s : BufferController H) : Prop :=
  ∀ info, s.buffer.decodableTemporalUnitsInfo = some info →
    s.DropsCounted ∨ s.scheduledRtpTimestamp = some info.nextRtpTimestamp ∨
      timing 0 info s.isTooManyFramesQueued = true

/-- `MaybeScheduleFrameForRelease` loses no frame. -/
def ScheduleKeeps (timing : DecodeTiming) (s : BufferController H) : Prop :=
  s.decoderReadyForNewFrame = true →
    if s.keyframeRequired then s.SearchKeeps U ∧ s.SkipsReported U else s.LateReported timing

/-- The operation loses no frame: no `Clear` inside the buffer takes frames along, the forced search
passes no unit, no drop goes uncounted because of an old base, and `Clear` finds all drops reported. -/
def KeepsBooks (s : BufferController H) : ControllerOp → Prop
  | .insertFrame frame timing =>
    (s.buffer.clears U frame = true → s.buffer.currentSize = 0) ∧
      (s.buffer.numContinuousTemporalUnits <
          (s.buffer.insertFrame U frame).2.numContinuousTemporalUnits →
        ScheduleKeeps U timing { s with buffer := (s.buffer.insertFrame U frame).2 })
  | .startNextDecode keyframeRequired timing => ScheduleKeeps U timing
      { s with keyframeRequired := keyframeRequired, decoderReadyForNewFrame := true }
  | .schedulerFires => s.scheduledRtpTimestamp ≠ none → s.SkipsReported U
  | .onTimeout => True
  | .clear => s.buffer.numDroppedFrames ≤ s.framesDroppedBeforeLastNewFrame

variable {U} {s t : BufferController H}

/-- `a` pays for `b`: nothing is created, and nothing is lost exactly under the condition. -/
def Settles (a b : ℕ) (kept : Prop) : Prop := b ≤ a ∧ (b = a ↔ kept)

/-- A loss before a step that settles. -/
theorem Settles.after_loss {a b m lost : ℕ} {kept kept' : Prop} (h : Settles m b kept')
    (ha : m + lost = a) (hlost : lost = 0 ↔ kept) : Settles a b (kept ∧ kept') := by
  obtain ⟨hle, hiff⟩ := h
  refine ⟨by omega, fun heq => ⟨hlost.mp (by omega), hiff.mp (by omega)⟩, ?_⟩
  rintro ⟨hk, hk'⟩
  have := hlost.mpr hk
  have := hiff.mpr hk'
  omega

/-! ## Releases -/

theorem paid_onFrameReady (s : BufferController H) (frames : List EncodedFrame) :
    (s.onFrameReady frames).state.assets + paid (s.onFrameReady frames).events =
      s.assets + frames.length := by
  obtain ⟨hbuffer, _, hbase⟩ := onFrameReady_state s frames
  rw [onFrameReady_events, paid_append, paid_cons, paid_nil, assets, assets, hbuffer, hbase]
  split_ifs with h
  · rw [paid_cons, paid_nil]
    simp only [Event.handed, Event.reported]
    omega
  · rw [paid_nil]
    simp only [Event.handed, Event.reported]
    omega

theorem skipsReported_iff {u rest pre : List EncodedFrame}
    (hu : s.buffer.nextUnit U = some (u, rest)) {b : FrameBuffer H}
    (hpre : Removes s.buffer b pre u) : s.SkipsReported U ↔ s.DropsCounted ∨ pre = [] := by
  obtain ⟨f, fs, rfl⟩ := List.exists_cons_of_ne_nil hpre.unit
  have hhead : s.buffer.held.head? = (f :: fs).head? ↔ pre = [] := by
    rw [hpre.held]
    constructor
    · intro h
      cases pre with
      | nil => rfl
      | cons g gs =>
        -- the frame at the head would stand before itself
        have hord := s.buffer.held_ordered
        obtain rfl : g = f := by simpa using h
        rw [hpre.held, List.append_assoc, List.pairwise_append] at hord
        exact absurd (hord.2.2 g List.mem_cons_self g (by simp)) (lt_irrefl _)
    · rintro rfl
      rfl
  rw [← hhead]
  constructor
  · exact fun h => h _ _ hu
  · intro h u' rest' hu'
    rw [hu] at hu'
    obtain ⟨rfl, rfl⟩ := Prod.mk.inj (Option.some.inj hu')
    exact h

/-- What taking the next unit out of the buffer loses. -/
theorem taken_settles (hs : Settled U s.buffer) {u rest : List EncodedFrame}
    (hu : s.buffer.nextUnit U = some (u, rest)) :
    Settles s.assets ((s.taken U).assets + u.length) (s.SkipsReported U) := by
  obtain ⟨pre, hpre, _, hdropped⟩ := extract_removes hs hu
  have hbase : (s.taken U).framesDroppedBeforeLastNewFrame = s.framesDroppedBeforeLastNewFrame := rfl
  rw [Settles, skipsReported_iff hu hpre, assets, assets, taken_buffer, hdropped, hpre.size, hbase,
    DropsCounted, ← List.length_eq_zero_iff]
  omega

/-! ## The scheduling loop -/

theorem late_books (hs : Settled U s.buffer) {u rest : List EncodedFrame}
    (hu : s.buffer.nextUnit U = some (u, rest)) :
    (s.late U).buffer.currentSize + (s.late U).buffer.numDroppedFrames =
        s.buffer.currentSize + s.buffer.numDroppedFrames ∧
      s.buffer.numDroppedFrames < (s.late U).buffer.numDroppedFrames := by
  obtain ⟨pre, hpre, hdropped⟩ := drop_removes hs hu
  have hlen := List.length_pos_iff.mpr hpre.unit
  rw [late_buffer, hdropped, hpre.size]
  omega

/-- Every frame that leaves in the loop is counted as dropped. -/
theorem scheduleOrDrop_books (timing : DecodeTiming) (fuel : ℕ) :
    ∀ (n : ℕ) (s t : BufferController H), WellFormed U s.buffer →
      scheduleOrDrop U timing n fuel s = t →
      t.buffer.currentSize + t.buffer.numDroppedFrames =
          s.buffer.currentSize + s.buffer.numDroppedFrames ∧
        s.buffer.numDroppedFrames ≤ t.buffer.numDroppedFrames ∧
        t.framesDroppedBeforeLastNewFrame = s.framesDroppedBeforeLastNewFrame := by
  induction fuel with
  | zero =>
    rintro n s t _ rfl
    exact ⟨rfl, le_rfl, rfl⟩
  | succ fuel ih =>
    rintro n s t hw rfl
    obtain ⟨_, hres⟩ | ⟨u, rest, info, hu, _, ⟨_, hres⟩ | ⟨_, hres⟩⟩ :=
      scheduleOrDrop_round hw.settled timing n fuel <;> rw [hres]
    · exact ⟨rfl, le_rfl, rfl⟩
    · rw [scheduleFrame_eq]
      exact ⟨rfl, le_rfl, rfl⟩
    · obtain ⟨hbooks, hlt⟩ := late_books hw.settled hu
      obtain ⟨hbooks', hle, hbase⟩ := ih (n + 1) (s.late U) _ (drop_wellFormed hw) rfl
      exact ⟨hbooks'.trans hbooks, hlt.le.trans hle, hbase⟩

theorem scheduleOrDrop_settles (hw : WellFormed U s.buffer) (timing : DecodeTiming)
    {info : DecodabilityInfo} (hi : s.buffer.decodableTemporalUnitsInfo = some info) (fuel : ℕ) :
    Settles s.assets (scheduleOrDrop U timing 0 (fuel + 1) s).assets
      (s.DropsCounted ∨ timing 0 info s.isTooManyFramesQueued = true) := by
  obtain ⟨hu, _⟩ | ⟨u, rest, info', hu, hi', hround⟩ := scheduleOrDrop_round hw.settled timing 0 fuel
  · rw [(info_eq_none hw.settled).mpr hu] at hi
    cases hi
  · obtain rfl := Option.some.inj (hi.symm.trans hi')
    obtain ⟨ht, hres⟩ | ⟨ht, hres⟩ := hround <;> rw [hres, ht, Settles]
    · rw [scheduleFrame_eq]
      exact ⟨le_rfl, fun _ => .inr rfl, fun _ => rfl⟩
    · obtain ⟨hbooks, hlt⟩ := late_books hw.settled hu
      obtain ⟨hbooks', hle, hbase⟩ :=
        scheduleOrDrop_books timing fuel (0 + 1) (s.late U) _ (drop_wellFormed hw) rfl
      have hbase' : (s.late U).framesDroppedBeforeLastNewFrame =
        s.framesDroppedBeforeLastNewFrame := rfl
      rw [assets, assets, hbase, hbase', DropsCounted]
      simp only [Bool.false_eq_true, or_false]
      omega

/-! ## The forced search -/

theorem forceKeyFrame_le (hU : U.Sound) (fuel : ℕ) :
    ∀ s : BufferController H, WellFormed U s.buffer →
      (forceKeyFrameReleaseImmediately U fuel s).state.assets +
        paid (forceKeyFrameReleaseImmediately U fuel s).events ≤ s.assets := by
  induction fuel with
  | zero => exact fun s _ => le_rfl
  | succ fuel ih =>
    intro s hw
    obtain ⟨hu, hres⟩ | ⟨u, rest, hu, ⟨_, hres⟩ | ⟨_, hres⟩⟩ :=
      forceKeyFrame_round hw.settled fuel <;> rw [hres]
    · exact le_rfl
    · rw [paid_onFrameReady]
      exact (taken_settles hw.settled hu).1
    · have htaken := (taken_settles hw.settled hu).1
      have := ih (s.taken U) (extract_wellFormed hU hw)
      omega

theorem forceKeyFrame_settles (hU : U.Sound) (hw : WellFormed U s.buffer) (fuel : ℕ) :
    Settles s.assets ((forceKeyFrameReleaseImmediately U (fuel + 1) s).state.assets +
        paid (forceKeyFrameReleaseImmediately U (fuel + 1) s).events)
      (s.SearchKeeps U ∧ s.SkipsReported U) := by
  obtain ⟨hu, hres⟩ | ⟨u, rest, hu, ⟨hk, hres⟩ | ⟨hk, hres⟩⟩ :=
    forceKeyFrame_round hw.settled fuel <;> rw [hres]
  · refine ⟨le_rfl, fun _ => ⟨fun u rest hu' => ?_, fun u rest hu' => ?_⟩, fun _ => rfl⟩ <;>
      · rw [hu] at hu'
        cases hu'
  · have hkeeps : s.SearchKeeps U := by
      intro u' rest' hu'
      obtain ⟨rfl, rfl⟩ := Prod.mk.inj (Option.some.inj (hu.symm.trans hu'))
      exact hk
    rw [paid_onFrameReady, Settles, and_iff_right hkeeps]
    exact taken_settles hw.settled hu
  · -- the unit the search passes is lost
    obtain ⟨pre, hpre, _⟩ := extract_removes hw.settled hu
    have hlen := List.length_pos_iff.mpr hpre.unit
    have htaken := (taken_settles hw.settled hu).1
    have hle := forceKeyFrame_le hU fuel (s.taken U) (extract_wellFormed hU hw)
    refine ⟨by omega, fun heq => by omega, fun hkeeps => ?_⟩
    rw [hkeeps.1 u rest hu] at hk
    cases hk

/-! ## The operations -/

theorem currentSize_pos {b : FrameBuffer H} {p : List EncodedFrame × List EncodedFrame}
    (hu : b.nextUnit U = some p) : ∃ n, b.currentSize = n + 1 := by
  cases hsize : b.currentSize with
  | zero =>
    rw [nextUnit_of_empty hsize] at hu
    cases hu
  | succ n => exact ⟨n, rfl⟩

theorem maybeSchedule_settles (hU : U.Sound) (hw : WellFormed U s.buffer) (timing : DecodeTiming) :
    Settles s.assets ((s.maybeScheduleFrameForRelease U timing).state.assets +
        paid (s.maybeScheduleFrameForRelease U timing).events) (s.ScheduleKeeps U timing) := by
  have hidle : s.ScheduleKeeps U timing → Settles s.assets s.assets (s.ScheduleKeeps U timing) :=
    fun h => ⟨le_rfl, fun _ => h, fun _ => rfl⟩
  obtain ⟨hno, hres⟩ | ⟨hr, ⟨p, hp⟩,
      ⟨hk, hres⟩ | ⟨hk, info, hi, ⟨hsched, hres⟩ | ⟨hsched, hres⟩⟩⟩ := maybeSchedule_cases hw.settled timing <;>
    rw [hres]
  · refine hidle fun hr => ?_
    obtain hno | hu := hno
    · rw [hno] at hr
      cases hr
    · split_ifs
      · refine ⟨fun u rest hu' => ?_, fun u rest hu' => ?_⟩ <;>
          · rw [hu] at hu'
            cases hu'
      · intro info hi
        rw [(info_eq_none hw.settled).mpr hu] at hi
        cases hi
  · obtain ⟨n, hn⟩ := currentSize_pos hp
    have hiff : s.ScheduleKeeps U timing ↔ s.SearchKeeps U ∧ s.SkipsReported U := by
      simp only [ScheduleKeeps, hr, hk, if_true, true_imp_iff]
    rw [hn, hiff]
    exact forceKeyFrame_settles hU hw n
  · refine hidle fun _ => ?_
    rw [hk]
    intro info' hi'
    obtain rfl := Option.some.inj (hi.symm.trans hi')
    exact .inr (.inl hsched)
  · obtain ⟨n, hn⟩ := currentSize_pos hp
    have hiff : s.ScheduleKeeps U timing ↔
        s.DropsCounted ∨ timing 0 info s.isTooManyFramesQueued = true := by
      simp only [ScheduleKeeps, hr, hk, Bool.false_eq_true, if_false, true_imp_iff]
      constructor
      · exact fun h => (h info hi).imp_right fun h => h.resolve_left hsched
      · intro h info' hi'
        obtain rfl := Option.some.inj (hi.symm.trans hi')
        exact h.imp_right .inr
    rw [hn, hiff, paid_nil]
    exact scheduleOrDrop_settles hw timing hi n

/-- What an insertion does to the buffer. -/
theorem inserted_books (hU : U.Sound) (b : FrameBuffer H) (frame : EncodedFrame) :
    (b.insertFrame U frame).2.numDroppedFrames = b.numDroppedFrames ∧
      (((b.insertFrame U frame).1 = false ∧ b.clears U frame = false ∧
          (b.insertFrame U frame).2 = b) ∨
        ((b.insertFrame U frame).1 = true ∧ (b.insertFrame U frame).2.currentSize =
          (if b.clears U frame then 0 else b.currentSize) + 1)) := by
  obtain ⟨hno, hres⟩ | ⟨_, s₀, hs₀, hfresh, _, hres⟩ := insertFrame_cases hU b frame <;> rw [hres]
  · exact ⟨rfl, .inl ⟨rfl, hno, rfl⟩⟩
  · dsimp only
    rw [(inserted_advances (U := U) hfresh).dropped, inserted_size hfresh]
    obtain ⟨rfl, hno⟩ | ⟨rfl | rfl, hyes⟩ := hs₀
    · exact ⟨rfl, .inr ⟨rfl, by simp [hno]⟩⟩
    · exact ⟨rfl, .inr ⟨rfl, by simp [hyes]; rfl⟩⟩
    · exact ⟨rfl, .inr ⟨rfl, by simp [hyes]; rfl⟩⟩

theorem insertFrame_settles (hU : U.Sound) (hw : WellFormed U s.buffer) (frame : EncodedFrame)
    (timing : DecodeTiming) :
    Settles (s.assets + s.accepted U (.insertFrame frame timing))
      ((s.next U (.insertFrame frame timing)).assets +
        paid (s.perform U (.insertFrame frame timing)).events)
      (s.KeepsBooks U (.insertFrame frame timing)) := by
  obtain ⟨hdropped, hcases⟩ := inserted_books hU s.buffer frame
  have hw' := insertFrame_wellFormed hU hw frame
  set b := (s.buffer.insertFrame U frame).2 with hb
  set s' : BufferController H := { s with buffer := b } with hs'
  have hassets : s'.assets = b.currentSize +
      (s.buffer.numDroppedFrames - s.framesDroppedBeforeLastNewFrame) := by
    rw [assets, hs', hdropped]
  simp only [next, perform, insertFrame, accepted, KeepsBooks, ← hb, ← hs']
  -- first what a `Clear` inside the buffer takes along, then what the scheduling loses
  have hloss : s'.assets + (if s.buffer.clears U frame then s.buffer.currentSize else 0) =
      s.assets + if (s.buffer.insertFrame U frame).1 then 1 else 0 := by
    rw [hassets, assets]
    obtain ⟨hin, hno, hsame⟩ | ⟨hin, hsize⟩ := hcases
    · rw [hin, hno, hsame]
      simp
    · rw [hin, hsize, if_pos rfl]
      split_ifs <;> omega
  have hnone : (if s.buffer.clears U frame then s.buffer.currentSize else 0) = 0 ↔
      (s.buffer.clears U frame = true → s.buffer.currentSize = 0) := by
    split_ifs with hclear
    · rw [forall_prop_of_true hclear]
    · exact ⟨fun _ h => absurd h hclear, fun _ => rfl⟩
  refine Settles.after_loss ?_ hloss hnone
  split_ifs with hgrew
  · have hevents : ∀ events : List Event,
        paid (.completeFrame frame.isKeyframe :: events) = paid events := by
      intro events
      rw [paid_cons]
      simp [Event.handed, Event.reported]
    simp only [Bool.and_eq_true, decide_eq_true_eq] at hgrew
    rw [hevents, forall_prop_of_true hgrew.2]
    exact maybeSchedule_settles hU hw' timing
  · refine ⟨le_rfl, fun _ hlt => ?_, fun _ => rfl⟩
    simp only [Bool.and_eq_true, decide_eq_true_eq, not_and] at hgrew
    obtain ⟨_, _, hsame⟩ | ⟨hin, _⟩ := hcases
    · rw [hsame] at hlt
      exact absurd hlt (lt_irrefl _)
    · exact absurd hlt (hgrew hin)

theorem schedulerFires_settles (hw : WellFormed U s.buffer) :
    Settles s.assets ((s.schedulerFires U).state.assets + paid (s.schedulerFires U).events)
      (s.scheduledRtpTimestamp ≠ none → s.SkipsReported U) := by
  obtain ⟨hno, hres⟩ | ⟨ts, hsched, ⟨hu, hres⟩ | ⟨u, rest, info, hu, _, hstate, hevents⟩⟩ :=
    schedulerFires_cases hw.settled
  · rw [hres]
    exact ⟨le_rfl, fun _ h => absurd hno h, fun _ => rfl⟩
  · rw [hres]
    refine ⟨le_rfl, fun _ _ u rest hu' => ?_, fun _ => rfl⟩
    rw [hu] at hu'
    cases hu'
  · have hcheck : (Event.dcheckEq ts info.nextRtpTimestamp).handed +
        (Event.dcheckEq ts info.nextRtpTimestamp).reported = 0 := rfl
    have hne : s.scheduledRtpTimestamp ≠ none := by
      rw [hsched]
      exact Option.some_ne_none ts
    rw [hstate, hevents, paid_cons, hcheck, zero_add, paid_onFrameReady, forall_prop_of_true hne]
    exact taken_settles (s := s.fired) hw.settled hu

theorem clear_settles (s : BufferController H) :
    Settles s.assets ((s.clear U).state.assets + paid (s.clear U).events)
      (s.buffer.numDroppedFrames ≤ s.framesDroppedBeforeLastNewFrame) := by
  have hnew : (s.clear U).state.assets = 0 := by
    simp only [assets, BufferController.clear, FrameBuffer.create, Nat.zero_sub, add_zero]
    rfl
  have hpaid : paid (s.clear U).events = s.buffer.currentSize := by
    simp only [BufferController.clear, paid_cons, paid_nil, Event.handed, Event.reported]
    omega
  rw [hnew, hpaid, assets, Settles]
  omega

/-- **Each operation**: what it accepts and what was there before is there afterwards, handed over or
reported; frames are lost exactly where `KeepsBooks` fails. -/
theorem perform_settles (hU : U.Sound) (hw : WellFormed U s.buffer) (op : ControllerOp) :
    Settles (s.assets + s.accepted U op) ((s.next U op).assets + paid (s.perform U op).events)
      (s.KeepsBooks U op) := by
  cases op with
  | insertFrame frame timing => exact insertFrame_settles hU hw frame timing
  | startNextDecode keyframeRequired timing =>
    exact maybeSchedule_settles (s := { s with
      keyframeRequired := keyframeRequired, decoderReadyForNewFrame := true }) hU hw timing
  | schedulerFires => exact schedulerFires_settles hw
  | onTimeout =>
    refine ⟨?_, fun _ => trivial, fun _ => ?_⟩ <;>
      · simp only [next, perform, onTimeout, accepted]
        split_ifs <;> simp [assets, paid_cons, Event.handed, Event.reported]
  | clear => exact clear_settles s

/-! ## The base at a release -/

theorem forceKeyFrame_base (fuel : ℕ) {frames : List EncodedFrame} :
    ∀ s : BufferController H, WellFormed U s.buffer → U.Sound →
      .frameReady frames ∈ (forceKeyFrameReleaseImmediately U fuel s).events →
      (forceKeyFrameReleaseImmediately U fuel s).state.framesDroppedBeforeLastNewFrame =
        (forceKeyFrameReleaseImmediately U fuel s).state.buffer.numDroppedFrames := by
  induction fuel with
  | zero =>
    intro s _ _ h
    cases h
  | succ fuel ih =>
    intro s hw hU h
    obtain ⟨_, hres⟩ | ⟨u, rest, _, ⟨_, hres⟩ | ⟨_, hres⟩⟩ :=
      forceKeyFrame_round hw.settled fuel <;> rw [hres] at h ⊢
    · cases h
    · obtain ⟨hbuffer, _, hbase⟩ := onFrameReady_state (s.taken U) u
      rw [hbuffer, hbase]
    · exact ih (s.taken U) (extract_wellFormed hU hw) hU h

theorem maybeSchedule_base (hU : U.Sound) (hw : WellFormed U s.buffer) {timing : DecodeTiming}
    {frames : List EncodedFrame}
    (h : .frameReady frames ∈ (s.maybeScheduleFrameForRelease U timing).events) :
    (s.maybeScheduleFrameForRelease U timing).state.framesDroppedBeforeLastNewFrame =
      (s.maybeScheduleFrameForRelease U timing).state.buffer.numDroppedFrames := by
  obtain ⟨_, hres⟩ | ⟨_, _, ⟨_, hres⟩ | ⟨_, _, _, ⟨_, hres⟩ | ⟨_, hres⟩⟩⟩ :=
    maybeSchedule_cases hw.settled timing <;> rw [hres] at h ⊢
  · cases h
  · exact forceKeyFrame_base _ s hw hU h
  · cases h
  · cases h

/-- Right after a release the base is the counter of the buffer. -/
theorem released_base (hU : U.Sound) (hw : WellFormed U s.buffer) {op : ControllerOp}
    {frames : List EncodedFrame} (h : .frameReady frames ∈ (s.perform U op).events) :
    (s.next U op).framesDroppedBeforeLastNewFrame = (s.next U op).buffer.numDroppedFrames := by
  cases op with
  | insertFrame frame timing =>
    simp only [next, perform, insertFrame] at h ⊢
    split_ifs at h ⊢
    · obtain h | h := List.mem_cons.mp h
      · cases h
      · exact maybeSchedule_base hU (insertFrame_wellFormed hU hw frame) h
    · cases h
  | startNextDecode keyframeRequired timing =>
    exact maybeSchedule_base (s := { s with
      keyframeRequired := keyframeRequired, decoderReadyForNewFrame := true }) hU hw h
  | schedulerFires =>
    simp only [next, perform] at h ⊢
    obtain ⟨_, hres⟩ | ⟨_, _, ⟨_, hres⟩ | ⟨u, _, _, _, _, hstate, _⟩⟩ :=
      schedulerFires_cases hw.settled
    · rw [hres] at h
      cases h
    · rw [hres] at h
      cases h
    · obtain ⟨hbuffer, _, hbase⟩ := onFrameReady_state (s.fired.taken U) u
      rw [hstate, hbuffer, hbase]
  | onTimeout =>
    simp only [perform, onTimeout] at h
    split_ifs at h <;> simp at h
  | clear => simp [perform, BufferController.clear] at h

/-! ## Runs -/

variable (U) in
/-- The frames accepted in a run. -/
def acceptedIn (tr : List (BufferController H × ControllerOp)) : ℕ :=
  (tr.map fun e => e.1.accepted U e.2).sum

variable (U) in
/-- What the controller called in a run. -/
def calls (tr : List (BufferController H × ControllerOp)) : List Event :=
  tr.flatMap fun e => (e.1.perform U e.2).events

variable (U) in
/-- The accepted frames that have gone missing. -/
def missing (tr : List (BufferController H × ControllerOp)) (s : BufferController H) : ℤ :=
  acceptedIn U tr - (paid (calls U tr) + s.assets : ℕ)

theorem missing_step (hU : U.Sound) (hw : WellFormed U s.buffer)
    (tr : List (BufferController H × ControllerOp)) (op : ControllerOp) :
    missing U tr s ≤ missing U (tr ++ [(s, op)]) (s.next U op) ∧
      (missing U (tr ++ [(s, op)]) (s.next U op) = missing U tr s ↔ s.KeepsBooks U op) := by
  obtain ⟨hle, hiff⟩ := perform_settles hU hw op
  have haccepted : acceptedIn U (tr ++ [(s, op)]) = acceptedIn U tr + s.accepted U op := by
    simp [acceptedIn]
  have hpaid : paid (calls U (tr ++ [(s, op)])) =
      paid (calls U tr) + paid (s.perform U op).events := by
    simp [calls, paid_append]
  rw [← hiff, missing, missing, haccepted, hpaid]
  omega

theorem missing_iff (hU : U.Sound) {legacy : Bool} {maxDecodeQueueSize : ℕ}
    {tr : List (BufferController H × ControllerOp)}
    (h : ControllerRun U legacy maxDecodeQueueSize tr s) :
    missing U tr s = 0 ↔ ∀ e ∈ tr, KeepsBooks U e.1 e.2 := by
  refine (h.zero_iff (D := missing U) (P := KeepsBooks U) rfl ?_).2
  rintro tr s op t hrun rfl
  exact missing_step hU (wellFormed_controllerRun hU hrun) tr op

end BufferController
open BufferController

/-- **The books at a release.** Right after a step that hands frames to `OnFrameReady`, the frames
the buffer accepted in the run are the frames handed over, those still buffered and those reported as
dropped, exactly when every step of the run, this one included, has kept the books. -/
theorem drop_statistics_complete_iff (hU : U.Sound) (legacy : Bool) (maxDecodeQueueSize : ℕ)
    (tr : List (BufferController H × ControllerOp)) (s t : BufferController H) (op : ControllerOp)
    (h : ControllerRun U legacy maxDecodeQueueSize (tr ++ [(s, op)]) t)
    (hrelease : ∃ frames, .frameReady frames ∈ (s.perform U op).events) :
    acceptedIn U (tr ++ [(s, op)]) = handedOver (calls U (tr ++ [(s, op)])) + t.buffer.currentSize +
        reportedDropped (calls U (tr ++ [(s, op)])) ↔
      ∀ e ∈ tr ++ [(s, op)], KeepsBooks U e.1 e.2 := by
  obtain ⟨frames, hframes⟩ := hrelease
  obtain ⟨hbefore, rfl⟩ := h.last
  have hbase := released_base hU (wellFormed_controllerRun hU hbefore) hframes
  rw [← missing_iff hU h, missing, assets, hbase, paid]
  omega

/-- A unit is dropped as too late, then a keyframe is released. -/
def oneDropOneRelease : List ControllerOp :=
  [.insertFrame ⟨1, 10, [], true, true⟩ inTime, .startNextDecode false fun n _ _ => n != 0,
    .insertFrame ⟨2, 20, [], true, true⟩ inTime]

theorem drop_statistics_complete_iff_one_drop :
    (controllerAfter oneDropOneRelease).KeepsBooks .unbounded .schedulerFires :=
  (drop_statistics_complete_iff .unbounded Upstream.unbounded_exact.toSound true 8
    (controllerHistory oneDropOneRelease) (controllerAfter oneDropOneRelease)
    ((controllerAfter oneDropOneRelease).next .unbounded .schedulerFires) .schedulerFires
    ((controllerAfter_run oneDropOneRelease).snoc rfl)
    ⟨[⟨2, 20, [], true, true⟩], by decide⟩).mp (by decide) _
    (List.mem_append_right _ (List.mem_singleton_self _))

/-- A keyframe is released; the frame after it is passed by the search for the next keyframe. -/
def deltaFramePassed : List ControllerOp :=
  [.insertFrame ⟨1, 10, [], true, true⟩ inTime, .insertFrame ⟨2, 20, [1], true, false⟩ inTime,
    .startNextDecode false inTime, .schedulerFires, .startNextDecode true inTime]

/-- Three frames are accepted and two handed over; nothing is buffered and nothing was reported. -/
theorem passed_frame_never_reported :
    ∃ tr s op t, ControllerRun .unbounded true 8 (tr ++ [(s, op)]) t ∧
      (∃ frames, .frameReady frames ∈ (s.perform Upstream.unbounded op).events) ∧
      acceptedIn .unbounded (tr ++ [(s, op)]) = 3 ∧
      handedOver (calls .unbounded (tr ++ [(s, op)])) = 2 ∧ t.buffer.currentSize = 0 ∧
      reportedDropped (calls .unbounded (tr ++ [(s, op)])) = 0 :=
  ⟨controllerHistory deltaFramePassed, controllerAfter deltaFramePassed,
    .insertFrame ⟨3, 30, [], true, true⟩ inTime, _, (controllerAfter_run deltaFramePassed).snoc rfl,
    ⟨[⟨3, 30, [], true, true⟩], by decide⟩, by decide, by decide, by decide, by decide⟩

end WebrtcTrace.Video
