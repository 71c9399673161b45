import WebrtcTrace.Video.Invariant

/-! # `FrameBuffer` hands out a decodable stream

What was extracted since the last `Clear` is a function of the history of a run
(`extractedSinceClear`). `Streamed` ties it to the decode history of the state, and the decode history
is what the scan and the id test of `InsertFrame` ask.
-/

namespace WebrtcTrace.Video
open Runs
set_option autoImplicit false

variable {H : Type*} (U : Upstream H)

namespace FrameBuffer

/-- The frames extracted since the last `Clear`, one more operation later. -/
def noteExtracted (out : List EncodedFrame) : FrameBuffer H × Op → List EncodedFrame
  | (s, .insertFrame frame) => if s.clears U frame then [] else out
  | (s, .extractNextDecodableTemporalUnit) => out ++ (s.extractNextDecodableTemporalUnit U).1
  | (_, .dropNextDecodableTemporalUnit) => out

def extractedSinceClear (tr : List (FrameBuffer H × Op)) : List EncodedFrame :=
  tr.foldl (noteExtracted U) []

/-- What the extracted frames have to do with the state. -/
structure Streamed (out : List EncodedFrame) (s : FrameBuffer H) : Prop where
  increasing : out.Pairwise fun f g => f.id < g.id
  known : ∀ i ∈ s.decodedIds U, i ∈ out.map EncodedFrame.id
  passed : ∀ f ∈ out, (f.id : WithBot ℤ) ≤ U.getLastDecodedFrameId s.decodedFrameHistory

variable {U} {s t : FrameBuffer H} {out : List EncodedFrame}

theorem Streamed.congr (h : Streamed U out s)
    (hh : t.decodedFrameHistory = s.decodedFrameHistory) : Streamed U out t where
  increasing := h.increasing
  known := by
    rw [decodedIds_congr hh]
    exact h.known
  passed := by
    rw [hh]
    exact h.passed

/-- Nothing is decoded in a history that is new or cleared. -/
theorem streamed_nil (h : ∀ i, U.wasDecoded s.decodedFrameHistory i = false) : Streamed U [] s where
  increasing := .nil
  known i hi := by
    rw [decodedIds, Set.mem_ofPred_eq, h i] at hi
    cases hi
  passed f hf := absurd hf List.not_mem_nil

theorem streamed_insert (hU : U.Sound) (h : Streamed U out s) (frame : EncodedFrame) :
    Streamed U (if s.clears U frame then [] else out) (s.insertFrame U frame).2 := by
  obtain ⟨hno, hres⟩ | ⟨_, s₀, hs₀, hfresh, _, hres⟩ := insertFrame_cases hU s frame
  · rwa [hno, hres]
  · rw [hres]
    have hh := (inserted_advances (U := U) hfresh).history
    obtain ⟨rfl, hno⟩ | ⟨hc, hyes⟩ := hs₀
    · rw [hno]
      exact h.congr hh
    · rw [hyes]
      refine streamed_nil fun i => ?_
      rw [hh]
      obtain rfl | rfl := hc <;> exact hU.clear_wasDecoded _ _

theorem streamed_extract (hU : U.Sound) (hw : WellFormed U s) (h : Streamed U out s) :
    Streamed U (out ++ (s.extractNextDecodableTemporalUnit U).1)
      (s.extractNextDecodableTemporalUnit U).2 := by
  obtain ⟨_, hres⟩ | ⟨u, rest, hu, b, hb, t, hres, _, hh⟩ := extract_cases hw.settled
  · rwa [hres, List.append_nil]
  · rw [hres]
    have hin := nextUnit_inOrder hw hu
    have hlast : U.getLastDecodedFrameId t.decodedFrameHistory = b.id := by
      rw [hh]
      exact lastDecoded_noteDecoded hU _ hb
    have hmax : ∀ f ∈ u, f.id ≤ b.id := by
      intro f hf
      rw [← List.dropLast_append_getLast? b hb] at hf hin
      obtain hf | hf := List.mem_append.mp hf
      · exact ((List.pairwise_append.mp hin.1).2.2 f hf b (List.mem_singleton_self b)).le
      · rw [List.mem_singleton.mp hf]
    refine ⟨?_, ?_, ?_⟩
    · refine List.pairwise_append.mpr ⟨h.increasing, hin.1, fun f hf g hg => ?_⟩
      exact WithBot.coe_lt_coe.mp ((h.passed f hf).trans_lt (hin.2 g hg))
    · intro i hi
      rw [decodedIds, Set.mem_ofPred_eq, hh] at hi
      rw [List.map_append, List.mem_append]
      exact (wasDecoded_noteDecoded hU hin hi).symm.imp_left (h.known i)
    · intro f hf
      rw [hlast]
      obtain hf | hf := List.mem_append.mp hf
      · refine (h.passed f hf).trans ((hin.2 b (List.mem_of_getLast? hb)).le)
      · exact WithBot.coe_le_coe.mpr (hmax f hf)

theorem streamed_run (hU : U.Sound) {legacy : Bool} {maxSize : ℕ}
    {tr : List (FrameBuffer H × Op)} (h : BufferRun U legacy maxSize tr s) :
    WellFormed U s ∧ Streamed U (extractedSinceClear U tr) s := by
  refine h.history (I := fun tr s => WellFormed U s ∧ Streamed U (extractedSinceClear U tr) s)
    ⟨wellFormed_create legacy maxSize, streamed_nil hU.new_wasDecoded⟩ ?_
  rintro tr s op t ⟨hw, hs⟩ rfl
  rw [extractedSinceClear, List.foldl_append]
  cases op with
  | insertFrame frame => exact ⟨insertFrame_wellFormed hU hw frame, streamed_insert hU hs frame⟩
  | extractNextDecodableTemporalUnit =>
    exact ⟨extract_wellFormed hU hw, streamed_extract hU hw hs⟩
  | dropNextDecodableTemporalUnit =>
    refine ⟨drop_wellFormed hw, hs.congr ?_⟩
    obtain ⟨_, hd⟩ | ⟨_, _, _, _, _, _, hh⟩ := drop_cases hw.settled
    · exact congrArg _ hd
    · exact hh

/-- What one extraction returns, read against what was extracted before it. -/
theorem extract_decodable (hw : WellFormed U s) (hs : Streamed U out s) :
    OneTimestamp (s.extractNextDecodableTemporalUnit U).1 ∧
    (∀ f ∈ (s.extractNextDecodableTemporalUnit U).1.getLast?, f.isLastSpatialLayer = true) ∧
    ∀ before f after, (s.extractNextDecodableTemporalUnit U).1 = before ++ f :: after →
      ∀ r ∈ f.references, ∃ g ∈ out ++ before, g.id = r := by
  obtain ⟨_, hres⟩ | ⟨u, rest, hu, b, hb, t, hres, _, _⟩ := extract_cases hw.settled <;> rw [hres]
  · refine ⟨oneTimestamp_nil, fun f hf => absurd hf (by simp), fun before f after h => ?_⟩
    exact absurd h.symm (by simp)
  · obtain ⟨hfound, _⟩ := nextUnit_split hu
    refine ⟨hfound.oneTimestamp, ?_, ?_⟩
    · obtain ⟨f, hf, hl⟩ := hfound.last
      intro g hg
      rwa [← Option.mem_unique hf hg]
    · intro before f after hsplit r hr
      obtain rfl : u = before ++ f :: after := hsplit
      have hf : f ∈ before ++ f :: after := List.mem_append_right _ List.mem_cons_self
      obtain hd | ⟨g, hg, rfl⟩ := decodable_ref hfound.decodable f hf r hr
      · obtain ⟨g, hg, hid⟩ := List.mem_map.mp (hs.known r hd)
        exact ⟨g, List.mem_append_left _ hg, hid⟩
      · -- a reference inside the unit has a lower id, so it stands before the frame
        have hlt := hw.backward f (nextUnit_sub hu f hf) g.id hr
        have hord := (nextUnit_inOrder hw hu).1
        rw [List.pairwise_append, List.pairwise_cons] at hord
        refine ⟨g, List.mem_append_right _ ?_, rfl⟩
        obtain hg | hg := List.mem_append.mp hg
        · exact hg
        · obtain rfl | hg := List.mem_cons.mp hg
          · exact absurd hlt (lt_irrefl _)
          · exact absurd (hlt.trans (hord.2.1.1 g hg)) (lt_irrefl _)

end FrameBuffer

open FrameBuffer

/-- **The extracted frames are a decodable stream.** In every run, at every point of it: the frames
extracted since the last `Clear` have strictly increasing ids; and an extraction returns frames of
one timestamp that end in a last spatial layer, each with its references among the frames extracted
since the last `Clear` or before it in the unit. -/
theorem extracted_stream_decodable (hU : U.Sound) (legacy : Bool) (maxSize : ℕ)
    (tr : List (FrameBuffer H × Op)) (s : FrameBuffer H) (h : BufferRun U legacy maxSize tr s) :
    (∀ pre post, tr = pre ++ post →
      (extractedSinceClear U pre).Pairwise fun f g => f.id < g.id) ∧
    ∀ pre s' post, tr = pre ++ (s', .extractNextDecodableTemporalUnit) :: post →
      OneTimestamp (s'.extractNextDecodableTemporalUnit U).1 ∧
      (∀ f ∈ (s'.extractNextDecodableTemporalUnit U).1.getLast?, f.isLastSpatialLayer = true) ∧
      ∀ before f after, (s'.extractNextDecodableTemporalUnit U).1 = before ++ f :: after →
        ∀ r ∈ f.references, ∃ g ∈ extractedSinceClear U pre ++ before, g.id = r := by
  constructor
  · intro pre post hsplit
    cases post with
    | nil =>
      rw [List.append_nil] at hsplit
      exact hsplit ▸ (streamed_run hU h).2.increasing
    | cons e post => exact (streamed_run hU (h.before hsplit)).2.increasing
  · intro pre s' post hsplit
    obtain ⟨hw, hs⟩ := streamed_run hU (h.before hsplit)
    exact extract_decodable hw hs

/-- Two interleaved streams, the second one ahead of the first. -/
def interleavedOps : List Op :=
  [.insertFrame ⟨3, 30, [1], true, false⟩, .insertFrame ⟨1, 10, [], true, true⟩,
    .extractNextDecodableTemporalUnit, .insertFrame ⟨2, 20, [], true, true⟩,
    .insertFrame ⟨4, 40, [2], true, false⟩, .extractNextDecodableTemporalUnit,
    .dropNextDecodableTemporalUnit, .extractNextDecodableTemporalUnit,
    .insertFrame ⟨2, 50, [], true, true⟩, .extractNextDecodableTemporalUnit]

def interleavedRun : List (FrameBuffer (List (ℤ × UInt32)) × Op) :=
  Runs.history (apply .unbounded) (.create .unbounded true 10) interleavedOps

theorem extracted_stream_decodable_interleaved :
    (extractedSinceClear .unbounded (interleavedRun.take 8)).map EncodedFrame.id = [1, 2, 4] ∧
    (extractedSinceClear .unbounded (interleavedRun.take 8)).Pairwise fun f g => f.id < g.id := by
  refine ⟨by decide, ?_⟩
  exact (extracted_stream_decodable .unbounded Upstream.unbounded_exact.toSound true 10
    interleavedRun _ (Run.of_next _ _ interleavedOps)).1 _ (interleavedRun.drop 8)
    (List.take_append_drop 8 _).symm

end WebrtcTrace.Video
