import WebrtcTrace.Video.Invariant

/-! # Frames that `InsertFrame` refuses

A refused frame leaves no trace (`failed_insertion_changes_nothing`). A duplicate is refused unless the
full-buffer branch, which is tested before it, has cleared the buffer (`duplicate_refused_iff`).
-/

namespace WebrtcTrace.Video
open Runs
set_option autoImplicit false

variable {H : Type*} {U : Upstream H}

namespace FrameBuffer
variable {s : FrameBuffer H} {frame : EncodedFrame}

/-- A buffered id lies above the last decoded one, so such a frame never takes the jump of the ids. -/
theorem duplicate_above (hw : WellFormed U s) (hdup : ∃ f ∈ s.held, f.id = frame.id) :
    U.getLastDecodedFrameId s.decodedFrameHistory < frame.id := by
  obtain ⟨f, hf, hid⟩ := hdup
  exact hid ▸ hw.above f hf

theorem duplicate_not_fresh (hdup : ∃ f ∈ s.held, f.id = frame.id) : ¬ Fresh s frame := by
  obtain ⟨f, hf, hid⟩ := hdup
  obtain ⟨e, he, rfl⟩ := mem_held.mp hf
  exact fun hfresh => hfresh e he hid

/-- The only `Clear` on the way of a duplicate is the one for a keyframe into a full buffer. -/
theorem duplicate_clears (hw : WellFormed U s) (hdup : ∃ f ∈ s.held, f.id = frame.id) :
    s.clears U frame = true ↔ validReferences frame.id frame.references = true ∧
      s.currentSize = s.maxSize ∧ frame.isKeyframe = true := by
  rw [clears, if_neg (not_le.mpr (duplicate_above hw hdup)), Bool.and_eq_true, Bool.and_eq_true,
    decide_eq_true_eq, currentSize]

/-- A duplicate that clears nothing finds its entry; one that clears finds none. -/
theorem duplicate_refused (hU : U.Sound) (hdup : ∃ f ∈ s.held, f.id = frame.id) :
    s.insertFrame U frame = (false, s) ↔ s.clears U frame = false := by
  obtain ⟨hno, hres⟩ | ⟨_, s₀, hs₀, hfresh, _, hres⟩ := insertFrame_cases hU s frame
  · exact ⟨fun _ => hno, fun _ => hres⟩
  · rw [hres]
    obtain ⟨rfl, _⟩ | ⟨_, hyes⟩ := hs₀
    · exact absurd hfresh (duplicate_not_fresh hdup)
    · rw [hyes]
      constructor <;> intro h <;> cases h

end FrameBuffer
open FrameBuffer

/-- **A failed insertion changes nothing.** Whichever exit returns false, and whatever state the buffer
is in, it is as before: both branches that clear it go on to insert the frame. -/
theorem failed_insertion_changes_nothing (hU : U.Sound) (s : FrameBuffer H) (frame : EncodedFrame)
    (hfailed : (s.insertFrame U frame).1 = false) : (s.insertFrame U frame).2 = s := by
  obtain ⟨_, hres⟩ | ⟨_, _, _, _, _, hres⟩ := insertFrame_cases hU s frame <;> rw [hres] at hfailed ⊢
  cases hfailed

/-- Two keyframes fill a buffer of size two. -/
def filledOps : List Op :=
  [.insertFrame ⟨1, 10, [], true, true⟩, .insertFrame ⟨2, 20, [], true, true⟩]

def filledBuffer : FrameBuffer (List (ℤ × UInt32)) :=
  filledOps.foldl (apply .unbounded) (.create .unbounded true 2)

theorem filledBuffer_run : BufferRun .unbounded true 2
    (Runs.history (apply .unbounded) (.create .unbounded true 2) filledOps) filledBuffer :=
  Run.of_next _ _ _

theorem failed_insertion_changes_nothing_full :
    (filledBuffer.insertFrame .unbounded ⟨3, 30, [1], true, false⟩).2.currentSize = 2 := by
  rw [failed_insertion_changes_nothing Upstream.unbounded_exact.toSound filledBuffer _ (by decide)]
  decide

/-- **A duplicate is refused and leaves the buffer as it is**, except a keyframe with valid references
that comes when the buffer is full: the buffer is cleared before the duplicate is looked for. -/
theorem duplicate_refused_iff (hU : U.Sound) {legacy : Bool} {maxSize : ℕ}
    {tr : List (FrameBuffer H × Op)} {s : FrameBuffer H} (h : BufferRun U legacy maxSize tr s)
    (frame : EncodedFrame) (hdup : ∃ f ∈ s.held, f.id = frame.id) :
    s.insertFrame U frame = (false, s) ↔ ¬ (validReferences frame.id frame.references = true ∧
      s.currentSize = s.maxSize ∧ frame.isKeyframe = true) := by
  rw [duplicate_refused hU hdup, ← Bool.not_eq_true, duplicate_clears (wellFormed_run hU h) hdup]

theorem duplicate_refused_iff_delta_frame :
    filledBuffer.insertFrame .unbounded ⟨2, 20, [], true, false⟩ = (false, filledBuffer) :=
  (duplicate_refused_iff Upstream.unbounded_exact.toSound filledBuffer_run
    ⟨2, 20, [], true, false⟩ ⟨⟨2, 20, [], true, true⟩, by decide, rfl⟩).mpr fun h => by simp at h

/-- The second keyframe comes again: it is accepted, and the first one is gone. -/
theorem duplicate_keyframe_clears :
    ∃ tr s, BufferRun .unbounded true 2 tr s ∧
      ∃ frame ∈ s.held, (s.insertFrame Upstream.unbounded frame).1 = true ∧
        s.currentSize = 2 ∧ (s.insertFrame Upstream.unbounded frame).2.currentSize = 1 :=
  ⟨_, filledBuffer, filledBuffer_run, ⟨2, 20, [], true, true⟩, by decide, by decide, by decide,
    by decide⟩

end WebrtcTrace.Video
