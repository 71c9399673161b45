import WebrtcTrace.Foundations.Ledgers
import WebrtcTrace.Video.Removal
import Mathlib.Algebra.Order.Sub.Basic
import Mathlib.Data.Multiset.OrderedMonoid

/-! # The ledger of a buffer

Every frame a buffer accepts is later extracted, still buffered, or dropped, and `num_dropped_frames_`
counts the dropped ones, as long as no insertion clears the buffer. The frames are counted as multisets,
so that an accepted frame is in one of the three and in no two.
-/

namespace WebrtcTrace.Video
open Runs
set_option autoImplicit false

variable {H : Type*} (U : Upstream H)

namespace FrameBuffer

def acceptedBy (s : FrameBuffer H) : Op → Multiset EncodedFrame
  | .insertFrame frame => if (s.insertFrame U frame).1 then {frame} else 0
  | .extractNextDecodableTemporalUnit => 0
  | .dropNextDecodableTemporalUnit => 0

def extractedBy (s : FrameBuffer H) : Op → Multiset EncodedFrame
  | .insertFrame _ => 0
  | .extractNextDecodableTemporalUnit => (s.extractNextDecodableTemporalUnit U).1
  | .dropNextDecodableTemporalUnit => 0

/-- The frames that were buffered before an operation, are not any more, and were not returned. -/
def droppedBy (s : FrameBuffer H) (op : Op) : Multiset EncodedFrame :=
  (s.held : Multiset EncodedFrame) - (extractedBy U s op + ((apply U s op).held : Multiset EncodedFrame))

variable {U} {s t : FrameBuffer H}

/-! ## One operation -/

/-- A step of the ledger, and what it does to the counter of dropped frames and to the size. -/
structure Balances (s t : FrameBuffer H) (accepted extracted dropped : Multiset EncodedFrame) : Prop where
  frames : (s.held : Multiset EncodedFrame) + accepted = extracted + dropped + t.held
  counter : t.numDroppedFrames = s.numDroppedFrames + dropped.card
  maxSize : t.maxSize = s.maxSize
  fits : s.currentSize ≤ s.maxSize → t.currentSize ≤ t.maxSize

theorem balances_refl (s : FrameBuffer H) : Balances s s 0 0 0 :=
  ⟨by rw [zero_add, zero_add, add_zero], rfl, rfl, id⟩

theorem held_inserted {frame : EncodedFrame} (hfresh : Fresh s frame) :
    ((inserted U s frame).held : Multiset EncodedFrame) = s.held + {frame} := by
  have hperm : (inserted U s frame).held.Perm (frame :: s.held) := by
    refine (List.perm_ext_iff_of_nodup (held_nodup _) ?_).mpr fun f => ?_
    · exact List.nodup_cons.mpr ⟨fun hf => fresh_iff.mp hfresh frame hf rfl, held_nodup s⟩
    · rw [inserted_held hfresh, List.mem_cons]
  rw [Multiset.coe_eq_coe.mpr hperm, ← Multiset.cons_coe, ← Multiset.singleton_add, add_comm]

theorem insert_balances (hU : U.Sound) (frame : EncodedFrame) (hno : s.clears U frame = false) :
    Balances s (s.insertFrame U frame).2 (acceptedBy U s (.insertFrame frame))
      0 (droppedBy U s (.insertFrame frame)) := by
  simp only [droppedBy, acceptedBy, extractedBy, apply, zero_add]
  obtain ⟨_, hres⟩ | ⟨hvalid, s₀, ⟨rfl, _⟩ | ⟨_, hyes⟩, hfresh, habove, hres⟩ :=
    insertFrame_cases hU s frame
  · rw [hres, if_neg Bool.false_ne_true, tsub_self]
    exact balances_refl s
  · have hroom := (joins_of_inserted hvalid habove hfresh hno (by rw [hres])).room
    have hadvances := inserted_advances (U := U) hfresh
    rw [hres, if_pos rfl, held_inserted hfresh, tsub_eq_zero_of_le (Multiset.le_add_right _ _)]
    refine ⟨?_, hadvances.dropped, hadvances.maxSize, fun hfits => ?_⟩
    · rw [held_inserted hfresh, zero_add, zero_add]
    · rw [inserted_size hfresh, hadvances.maxSize]
      exact lt_of_le_of_ne hfits hroom
  · rw [hyes] at hno
    cases hno

theorem Removes.books {pre u : List EncodedFrame} (h : Removes s t pre u) :
    (s.held : Multiset EncodedFrame) = pre + u + t.held := by
  rw [h.held, Multiset.coe_add, Multiset.coe_add]

/-- A removal balances when what it counts as dropped is what it does not return. -/
theorem Removes.balances {pre u : List EncodedFrame} {extracted dropped : Multiset EncodedFrame}
    (h : Removes s t pre u) (hmax : t.maxSize = s.maxSize)
    (hout : extracted + dropped = (pre + u : Multiset EncodedFrame))
    (hcounter : t.numDroppedFrames = s.numDroppedFrames + dropped.card) :
    Balances s t 0 extracted dropped where
  frames := by rw [h.books, add_zero, hout]
  counter := hcounter
  maxSize := hmax
  fits hfits := by
    have := h.size
    omega

theorem extract_balances (hs : Settled U s) :
    Balances s (s.extractNextDecodableTemporalUnit U).2 0
      (extractedBy U s .extractNextDecodableTemporalUnit)
      (droppedBy U s .extractNextDecodableTemporalUnit) := by
  have hmax := (extract_keeps (U := U) s).1
  simp only [droppedBy, extractedBy, apply]
  cases hu : s.nextUnit U with
  | none =>
    rw [extract_none hs hu, Multiset.coe_nil, zero_add, tsub_self]
    exact balances_refl s
  | some p =>
    obtain ⟨pre, hpre, hunit, hcounter⟩ := extract_removes hs hu
    have hdropped : (s.held : Multiset EncodedFrame) -
        ((s.extractNextDecodableTemporalUnit U).1 +
          (s.extractNextDecodableTemporalUnit U).2.held) = pre := by
      rw [hunit, hpre.books, add_assoc, add_tsub_cancel_right]
    rw [hdropped, hunit]
    exact hpre.balances hmax (add_comm _ _) (by rw [hcounter, Multiset.coe_card])

theorem drop_balances (hs : Settled U s) :
    Balances s (s.dropNextDecodableTemporalUnit U) 0 0
      (droppedBy U s .dropNextDecodableTemporalUnit) := by
  have hmax : (s.dropNextDecodableTemporalUnit U).maxSize = s.maxSize :=
    (eraseNextUnit_keeps s _).1
  simp only [droppedBy, extractedBy, apply, zero_add]
  cases hu : s.nextUnit U with
  | none =>
    rw [drop_none hs hu, tsub_self]
    exact balances_refl s
  | some p =>
    obtain ⟨pre, hpre, hcounter⟩ := drop_removes hs hu
    have hdropped : (s.held : Multiset EncodedFrame) - (s.dropNextDecodableTemporalUnit U).held =
        pre + p.1 := by
      rw [hpre.books, add_tsub_cancel_right]
    rw [hdropped]
    refine hpre.balances hmax (zero_add _) ?_
    rw [hcounter, Multiset.card_add, Multiset.coe_card, Multiset.coe_card]

/-- **One operation that clears nothing balances.** -/
theorem apply_balances (hU : U.Sound) (hw : WellFormed U s) (op : Op)
    (hno : s.clearsBy U op = false) :
    Balances s (apply U s op) (acceptedBy U s op) (extractedBy U s op) (droppedBy U s op) := by
  cases op with
  | insertFrame frame => exact insert_balances hU frame hno
  | extractNextDecodableTemporalUnit => exact extract_balances hw.settled
  | dropNextDecodableTemporalUnit => exact drop_balances hw.settled

/-- The counter and the size over a run that clears nothing. -/
theorem counted_run (hU : U.Sound) {legacy : Bool} {maxSize : ℕ} {tr : List (FrameBuffer H × Op)}
    (h : Run (fun s op t => t = apply U s op ∧ s.clearsBy U op = false) (.create U legacy maxSize)
      tr s) :
    WellFormed U s ∧ s.numDroppedFrames = (total (droppedBy U) tr).card ∧ s.maxSize = maxSize ∧
      s.currentSize ≤ s.maxSize := by
  refine h.history (I := fun tr s => WellFormed U s ∧
    s.numDroppedFrames = (total (droppedBy U) tr).card ∧ s.maxSize = maxSize ∧
      s.currentSize ≤ s.maxSize) ⟨wellFormed_create legacy maxSize, rfl, rfl, Nat.zero_le _⟩ ?_
  rintro tr s op t ⟨hw, hcounter, hmax, hfits⟩ ⟨rfl, hno⟩
  have hstep := apply_balances hU hw op hno
  refine ⟨apply_wellFormed hU hw op, ?_, hstep.maxSize.trans hmax, hstep.fits hfits⟩
  rw [total_concat, Multiset.card_add, ← hcounter, hstep.counter]

end FrameBuffer
open FrameBuffer

variable {U}

/-- **The frame ledger balances.** In a run without an internal `Clear`, the frames accepted are those
extracted, those dropped and those buffered, each in one place; `GetTotalNumberOfDroppedFrames` counts
the dropped ones, and the buffer never holds more than `max_size` frames. -/
theorem frame_ledger_balances (hU : U.Sound) {legacy : Bool} {maxSize : ℕ}
    {tr : List (FrameBuffer H × Op)} {s : FrameBuffer H} (h : BufferRun U legacy maxSize tr s)
    (hclear : ∀ e ∈ tr, e.1.clearsBy U e.2 = false) :
    total (acceptedBy U) tr = total (extractedBy U) tr + total (droppedBy U) tr + s.held ∧
    (total (droppedBy U) tr).card = s.numDroppedFrames ∧
    (total (acceptedBy U) tr).card =
      (total (extractedBy U) tr).card + s.currentSize + s.numDroppedFrames ∧
    s.currentSize ≤ maxSize := by
  have hrun := h.restrict (P := fun s op => s.clearsBy U op = false) hclear
  have hbooks := hrun.balance (fun s => (s.held : Multiset EncodedFrame)) (acceptedBy U)
    (fun s op => extractedBy U s op + droppedBy U s op) ?_
  · obtain ⟨_, hcounter, hmax, hfits⟩ := counted_run hU hrun
    have hframes : total (acceptedBy U) tr =
        total (extractedBy U) tr + total (droppedBy U) tr + (s.held : Multiset EncodedFrame) := by
      rw [← total_add, ← hbooks]
      exact (zero_add _).symm
    refine ⟨hframes, hcounter.symm, ?_, hmax ▸ hfits⟩
    rw [hframes, Multiset.card_add, Multiset.card_add, Multiset.coe_card, held_length, hcounter]
    omega
  · rintro tr s op t hr ⟨rfl, hno⟩
    exact (apply_balances hU (wellFormed_run hU (hr.mono fun _ _ _ ht => ht.1)) op hno).frames

/-- A frame that waits for a lost one is passed by an extraction, and a keyframe is dropped, then sent
and inserted again. -/
def passedFrameOps : List Op :=
  [.insertFrame ⟨1, 10, [], true, true⟩, .extractNextDecodableTemporalUnit,
    .insertFrame ⟨3, 30, [2], true, false⟩, .insertFrame ⟨4, 40, [1], true, false⟩,
    .extractNextDecodableTemporalUnit, .insertFrame ⟨6, 60, [], true, true⟩,
    .dropNextDecodableTemporalUnit, .insertFrame ⟨6, 60, [], true, true⟩]

theorem frame_ledger_balances_passed_frame :
    (total (acceptedBy .unbounded)
      (Runs.history (apply .unbounded) (.create .unbounded true 10) passedFrameOps)).card = 2 + 1 + 2 := by
  rw [(frame_ledger_balances Upstream.unbounded_exact.toSound
    (Run.of_next (apply .unbounded) (.create .unbounded true 10) passedFrameOps) (by decide)).2.2.1]
  decide

end WebrtcTrace.Video
