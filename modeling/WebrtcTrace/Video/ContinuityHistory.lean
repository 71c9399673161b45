import WebrtcTrace.Video.Invariant

/-! # Which frames were ever flagged continuous

The flags an operation sets are read off the states around it (`newlyFlagged`); only an insertion sets
any. `Recorded` ties the two "last continuous" ids and the unit counter to all flags set since the last
`Clear`, and ever. It is kept because an insertion moves them with the frames it flags (`Advances`),
and nothing else touches them but `Clear`.
-/

namespace WebrtcTrace.Video
open Runs Saturation
set_option autoImplicit false

variable {H : Type*} (U : Upstream H)

namespace FrameBuffer

/-! ## Flags set by an operation -/

/-- The frames that carry the flag in `t` and not in `s`. -/
def flaggedBetween (s t : FrameBuffer H) : List EncodedFrame :=
  (t.frames.entries.filter fun e => e.continuous && !s.flagged e.id).map FrameInfo.encodedFrame

/-- The frames whose flag an operation sets. A `Clear` in between takes all flags away first. -/
def newlyFlagged (s : FrameBuffer H) (op : Op) : List EncodedFrame :=
  (if s.clearsBy U op then s.clear U else s).flaggedBetween (apply U s op)

def noteFlagged (flagged : List EncodedFrame) (e : FrameBuffer H × Op) : List EncodedFrame :=
  (if e.1.clearsBy U e.2 then [] else flagged) ++ newlyFlagged U e.1 e.2

def flaggedSinceClear (tr : List (FrameBuffer H × Op)) : List EncodedFrame :=
  tr.foldl (noteFlagged U) []

def flaggedEver (tr : List (FrameBuffer H × Op)) : List EncodedFrame :=
  tr.flatMap fun e => newlyFlagged U e.1 e.2

variable {U} {s t : FrameBuffer H} {i : ℤ}

theorem mem_flaggedBetween {f : EncodedFrame} :
    f ∈ flaggedBetween s t ↔ f ∈ t.held ∧ f.id ∈ t.flaggedIds ∧ f.id ∉ s.flaggedIds := by
  simp only [flaggedBetween, List.mem_map, List.mem_filter, Bool.and_eq_true, Bool.not_eq_true',
    ← KeyedMap.mem_iff, mem_held, flaggedIds, Set.mem_ofPred_eq, Bool.not_eq_true]
  constructor
  · rintro ⟨e, ⟨he, hc, hs⟩, rfl⟩
    exact ⟨⟨e, he, rfl⟩, (flagged_entry he).mpr hc, hs⟩
  · rintro ⟨⟨e, he, rfl⟩, ht, hs⟩
    exact ⟨e, ⟨he, (flagged_entry he).mp ht, hs⟩, rfl⟩

theorem flaggedBetween_eq_nil (h : t.flaggedIds ⊆ s.flaggedIds) : flaggedBetween s t = [] := by
  refine List.eq_nil_iff_forall_not_mem.mpr fun f hf => ?_
  obtain ⟨_, ht, hs⟩ := mem_flaggedBetween.mp hf
  exact hs (h ht)

theorem mem_flaggedBetween_ids :
    i ∈ (flaggedBetween s t).map EncodedFrame.id ↔ i ∈ t.flaggedIds ∧ i ∉ s.flaggedIds := by
  simp only [List.mem_map, mem_flaggedBetween]
  constructor
  · rintro ⟨f, ⟨_, hf⟩, rfl⟩
    exact hf
  · rintro ⟨ht, hs⟩
    obtain ⟨f, hf, rfl⟩ := t.flaggedIds_sub ht
    exact ⟨f, ⟨hf, ht, hs⟩, rfl⟩

/-- Among the last-layer frames too, when no frame got lost. -/
theorem mem_flaggedBetween_units (hheld : ∀ f ∈ s.held, f ∈ t.held) :
    i ∈ ((flaggedBetween s t).filter EncodedFrame.isLastSpatialLayer).map EncodedFrame.id ↔
      i ∈ t.flaggedUnits ∧ i ∉ s.flaggedUnits := by
  simp only [List.mem_map, List.mem_filter, mem_flaggedBetween]
  constructor
  · rintro ⟨f, ⟨⟨hf, ht, hs⟩, hlast⟩, rfl⟩
    obtain ⟨e, he, rfl⟩ := mem_held.mp hf
    exact ⟨⟨e, he, rfl, (flagged_entry he).mp ht, hlast⟩, fun h => hs (s.flaggedUnits_sub h)⟩
  · rintro ⟨⟨e, he, rfl, hc, hlast⟩, hs⟩
    refine ⟨e.encodedFrame, ⟨⟨mem_held.mpr ⟨e, he, rfl⟩, (flagged_entry he).mpr hc, fun hf => ?_⟩,
      hlast⟩, rfl⟩
    -- a flagged entry of `s` with this id is this frame
    obtain ⟨e', he', hid, hc'⟩ := flagged_iff.mp hf
    have hframe : e'.encodedFrame = e.encodedFrame :=
      held_injOn (hheld _ (mem_held.mpr ⟨e', he', rfl⟩)) (mem_held.mpr ⟨e, he, rfl⟩) hid
    exact hs ⟨e', he', hid, hc', hframe ▸ hlast⟩

/-- The flagged last-layer frames after some insertions are those before them and the new ones. -/
theorem unitCount_flaggedBetween (hheld : ∀ f ∈ s.held, f ∈ t.held)
    (hgrows : s.flaggedUnits ⊆ t.flaggedUnits) :
    t.unitCount = s.unitCount + (flaggedBetween s t).countP EncodedFrame.isLastSpatialLayer := by
  set new := ((flaggedBetween s t).filter EncodedFrame.isLastSpatialLayer).map EncodedFrame.id with hnew
  have hnodup : new.Nodup := by
    have hsub : new.Sublist ((flaggedBetween s t).map EncodedFrame.id) := List.filter_sublist.map _
    refine List.Nodup.sublist hsub ?_
    rw [flaggedBetween, List.map_map]
    exact t.nodup_ids_filter _
  have hperm : t.flaggedUnitIds.Perm (s.flaggedUnitIds ++ new) := by
    refine (List.perm_ext_iff_of_nodup t.nodup_flaggedUnitIds
      (List.nodup_append.mpr ⟨s.nodup_flaggedUnitIds, hnodup, ?_⟩)).mpr fun i => ?_
    · rintro i hi j hj rfl
      exact ((mem_flaggedBetween_units hheld).mp hj).2 (mem_flaggedUnitIds.mp hi)
    · rw [List.mem_append, mem_flaggedUnitIds, mem_flaggedUnitIds, hnew, mem_flaggedBetween_units hheld]
      constructor
      · intro ht
        by_cases hs : i ∈ s.flaggedUnits
        · exact .inl hs
        · exact .inr ⟨ht, hs⟩
      · rintro (hs | ⟨ht, _⟩)
        · exact hgrows hs
        · exact ht
  rw [← length_flaggedUnitIds, hperm.length_eq, List.length_append, length_flaggedUnitIds, hnew,
    List.length_map, List.countP_eq_length_filter]

/-! ## The record of a run -/

variable (U) in
/-- What the last ids and the unit counter say about the flags set so far. -/
structure Recorded (since ever : List EncodedFrame) (s : FrameBuffer H) : Prop where
  frame : s.lastContinuousFrameId = (since.map EncodedFrame.id).maximum
  unit : s.lastContinuousTemporalUnitFrameId =
    ((since.filter EncodedFrame.isLastSpatialLayer).map EncodedFrame.id).maximum
  count : s.numContinuousTemporalUnits = ever.countP EncodedFrame.isLastSpatialLayer

variable {since ever : List EncodedFrame}

theorem Recorded.advances (hw : WellFormed U s) (h : Recorded since ever s) (ha : Advances s t)
    (hheld : ∀ f ∈ s.held, f ∈ t.held) :
    Recorded (since ++ flaggedBetween s t) (ever ++ flaggedBetween s t) t where
  frame := by
    rw [List.map_append, List.maximum_append, ← h.frame]
    exact ha.frames.eq_max hw.frameCap fun i => mem_flaggedBetween_ids
  unit := by
    rw [List.filter_append, List.map_append, List.maximum_append, ← h.unit]
    exact ha.units.eq_max hw.unitCap fun i => mem_flaggedBetween_units hheld
  count := by
    have hcount := ha.count
    rw [unitCount_flaggedBetween hheld ha.units.grows] at hcount
    rw [List.countP_append, ← h.count]
    omega

theorem Recorded.clear (h : Recorded since ever s) : Recorded [] ever (s.clear U) :=
  ⟨rfl, rfl, h.count⟩

theorem Recorded.erases {b : ℤ} (h : Recorded since ever s) (he : Erases U s t b)
    (hcount : t.numContinuousTemporalUnits = s.numContinuousTemporalUnits) : Recorded since ever t :=
  ⟨he.frameLast.trans h.frame, he.unitLast.trans h.unit, hcount.trans h.count⟩

theorem newlyFlagged_insertFrame (s : FrameBuffer H) (frame : EncodedFrame) :
    newlyFlagged U s (.insertFrame frame) =
      (if s.clears U frame then s.clear U else s).flaggedBetween (s.insertFrame U frame).2 := rfl

theorem recorded_insert (hU : U.Sound) (hw : WellFormed U s) (h : Recorded since ever s)
    (frame : EncodedFrame) :
    Recorded ((if s.clears U frame then [] else since) ++ newlyFlagged U s (.insertFrame frame))
      (ever ++ newlyFlagged U s (.insertFrame frame)) (s.insertFrame U frame).2 := by
  rw [newlyFlagged_insertFrame]
  obtain ⟨hno, hres⟩ | ⟨_, s₀, hs₀, hfresh, _, hres⟩ := insertFrame_cases hU s frame
  · rw [hno, hres, if_neg Bool.false_ne_true, if_neg Bool.false_ne_true,
      flaggedBetween_eq_nil subset_rfl, List.append_nil, List.append_nil]
    exact h
  · have hadvances := inserted_advances (U := U) hfresh
    have hheld : ∀ f ∈ s₀.held, f ∈ (inserted U s₀ frame).held :=
      fun f hf => (inserted_held hfresh f).mpr (.inr hf)
    rw [hres]
    obtain ⟨rfl, hno⟩ | ⟨rfl | rfl, hyes⟩ := hs₀
    · rw [hno, if_neg Bool.false_ne_true, if_neg Bool.false_ne_true]
      exact h.advances hw hadvances hheld
    · rw [hyes, if_pos rfl, if_pos rfl]
      exact h.clear.advances (wellFormed_clear s) hadvances hheld
    · -- the second `Clear` finds no flags
      rw [hyes, if_pos rfl, if_pos rfl]
      change Recorded ([] ++ ((s.clear U).clear U).flaggedBetween _)
        (ever ++ ((s.clear U).clear U).flaggedBetween _) _
      exact h.clear.clear.advances (wellFormed_clear _) hadvances hheld

theorem erases_flaggedBetween {b : ℤ} (he : Erases U s t b) : flaggedBetween s t = [] :=
  flaggedBetween_eq_nil fun i hi => ((he.flaggedIds i).mp hi).1

theorem recorded_extract (hw : WellFormed U s) (h : Recorded since ever s) :
    Recorded since ever (s.extractNextDecodableTemporalUnit U).2 ∧
      newlyFlagged U s .extractNextDecodableTemporalUnit = [] := by
  have hnum := (extract_keeps (U := U) s).2
  simp only [newlyFlagged, clearsBy, apply, Bool.false_eq_true, if_false]
  obtain ⟨_, hres⟩ | ⟨_, _, _, _, _, t, hres, he, _⟩ := extract_cases hw.settled
  · rw [hres]
    exact ⟨h, flaggedBetween_eq_nil subset_rfl⟩
  · rw [hres] at hnum ⊢
    exact ⟨h.erases he hnum, erases_flaggedBetween he⟩

theorem recorded_drop (hw : WellFormed U s) (h : Recorded since ever s) :
    Recorded since ever (s.dropNextDecodableTemporalUnit U) ∧
      newlyFlagged U s .dropNextDecodableTemporalUnit = [] := by
  simp only [newlyFlagged, clearsBy, apply, Bool.false_eq_true, if_false]
  obtain ⟨_, hres⟩ | ⟨_, _, _, _, _, he, _⟩ := drop_cases hw.settled
  · rw [hres]
    exact ⟨h, flaggedBetween_eq_nil subset_rfl⟩
  · exact ⟨h.erases he ((eraseNextUnit_keeps s _).2), erases_flaggedBetween he⟩

theorem recorded_run (hU : U.Sound) {legacy : Bool} {maxSize : ℕ}
    {tr : List (FrameBuffer H × Op)} (h : BufferRun U legacy maxSize tr s) :
    WellFormed U s ∧ Recorded (flaggedSinceClear U tr) (flaggedEver U tr) s := by
  refine h.history
    (I := fun tr s => WellFormed U s ∧ Recorded (flaggedSinceClear U tr) (flaggedEver U tr) s)
    ⟨wellFormed_create legacy maxSize, rfl, rfl, rfl⟩ ?_
  rintro tr s op t ⟨hw, hrecorded⟩ rfl
  rw [flaggedSinceClear, List.foldl_append, flaggedEver, List.flatMap_append]
  simp only [List.foldl_cons, List.foldl_nil, List.flatMap_singleton, noteFlagged]
  cases op with
  | insertFrame frame =>
    exact ⟨insertFrame_wellFormed hU hw frame, recorded_insert hU hw hrecorded frame⟩
  | extractNextDecodableTemporalUnit =>
    obtain ⟨hnext, hnone⟩ := recorded_extract hw hrecorded
    refine ⟨extract_wellFormed hU hw, ?_⟩
    rw [hnone, List.append_nil, List.append_nil]
    exact hnext
  | dropNextDecodableTemporalUnit =>
    obtain ⟨hnext, hnone⟩ := recorded_drop hw hrecorded
    refine ⟨drop_wellFormed hw, ?_⟩
    rw [hnone, List.append_nil, List.append_nil]
    exact hnext

/-- **`WasDecoded` becomes true only for an extracted id.** -/
theorem wasDecoded_step (hU : U.Sound) (hw : WellFormed U s) (op : Op)
    (h : U.wasDecoded (apply U s op).decodedFrameHistory i = true) :
    U.wasDecoded s.decodedFrameHistory i = true ∨ op = .extractNextDecodableTemporalUnit ∧
      ∃ f ∈ (s.extractNextDecodableTemporalUnit U).1, f.id = i := by
  cases op with
  | insertFrame frame =>
    refine .inl ?_
    simp only [apply] at h
    obtain ⟨_, hres⟩ | ⟨_, s₀, hs₀, hfresh, _, hres⟩ := insertFrame_cases hU s frame
    · rwa [hres] at h
    · rw [hres, (inserted_advances (U := U) hfresh).history] at h
      obtain ⟨rfl, _⟩ | ⟨rfl | rfl, _⟩ := hs₀
      · exact h
      · rw [clear, hU.clear_wasDecoded] at h
        cases h
      · rw [clear, hU.clear_wasDecoded] at h
        cases h
  | extractNextDecodableTemporalUnit =>
    simp only [apply] at h
    obtain ⟨_, hres⟩ | ⟨u, _, hu, _, _, t, hres, _, hh⟩ := extract_cases hw.settled
    · rw [hres] at h
      exact .inl h
    · rw [hres, hh] at h
      obtain hi | hi := wasDecoded_noteDecoded hU (nextUnit_inOrder hw hu) h
      · rw [hres]
        exact .inr ⟨rfl, List.mem_map.mp hi⟩
      · exact .inl hi
  | dropNextDecodableTemporalUnit =>
    refine .inl ?_
    simp only [apply] at h
    obtain ⟨_, hres⟩ | ⟨_, _, _, _, _, _, hh⟩ := drop_cases hw.settled
    · rwa [hres] at h
    · rwa [hh] at h

theorem waiting_reference (hw : WellFormed U s) {e : FrameInfo} (he : e ∈ s.frames) :
    e.continuous = true ∨ ∃ r ∈ e.encodedFrame.references,
      U.wasDecoded s.decodedFrameHistory r = false ∧ s.flagged r = false := by
  by_cases hready : Ready s.deps (s.decodedIds U) s.flaggedIds e.id
  · exact .inl ((flagged_entry he).mp (hw.closed e.id (mem_ids.mpr ⟨e, he, rfl⟩) hready))
  · refine .inr ?_
    rw [Ready, not_forall₂] at hready
    obtain ⟨r, hr, hnot⟩ := hready
    rw [deps_entry he] at hr
    rw [not_or] at hnot
    exact ⟨r, hr, Bool.eq_false_iff.mpr hnot.1, Bool.eq_false_iff.mpr hnot.2⟩

theorem extract_flagged (hw : WellFormed U s) :
    ∀ f ∈ (s.extractNextDecodableTemporalUnit U).1, s.flagged f.id = true := by
  obtain ⟨_, hres⟩ | ⟨u, _, hu, _, _, t, hres, _, _⟩ := extract_cases hw.settled <;> rw [hres]
  · exact fun f hf => absurd hf List.not_mem_nil
  · exact nextUnit_flagged hw hu

end FrameBuffer
open FrameBuffer

variable {U}

/-- **Continuity is a saturated closure, with a faithful record.** In every reachable state a frame
without the flag has a reference that is neither decoded nor flagged, and what an extraction returns is
flagged; the last continuous ids are the largest of the frames, and of the last-layer frames, flagged
since the last `Clear`, and the unit counter counts the last-layer frames ever flagged; and an id comes
to be decoded only by its extraction. -/
theorem continuity_saturated (hU : U.Sound) {legacy : Bool} {maxSize : ℕ}
    {tr : List (FrameBuffer H × Op)} {s : FrameBuffer H} (h : BufferRun U legacy maxSize tr s) :
    (∀ e ∈ s.frames, e.continuous = true ∨ ∃ r ∈ e.encodedFrame.references,
      U.wasDecoded s.decodedFrameHistory r = false ∧ s.flagged r = false) ∧
    (∀ f ∈ (s.extractNextDecodableTemporalUnit U).1, s.flagged f.id = true) ∧
    s.lastContinuousFrameId = ((flaggedSinceClear U tr).map EncodedFrame.id).maximum ∧
    s.lastContinuousTemporalUnitFrameId =
      (((flaggedSinceClear U tr).filter EncodedFrame.isLastSpatialLayer).map EncodedFrame.id).maximum ∧
    s.numContinuousTemporalUnits = (flaggedEver U tr).countP EncodedFrame.isLastSpatialLayer ∧
    ∀ op i, U.wasDecoded (apply U s op).decodedFrameHistory i = true →
      U.wasDecoded s.decodedFrameHistory i = true ∨ op = .extractNextDecodableTemporalUnit ∧
        ∃ f ∈ (s.extractNextDecodableTemporalUnit U).1, f.id = i := by
  obtain ⟨hw, hrecorded⟩ := recorded_run hU h
  exact ⟨fun e he => waiting_reference hw he, extract_flagged hw, hrecorded.frame, hrecorded.unit,
    hrecorded.count, fun op i => wasDecoded_step hU hw op⟩

/-- A frame waits for the keyframe before it; a keyframe ahead of both is dropped. -/
def gapFilledOps : List Op :=
  [.insertFrame ⟨2, 20, [1], true, false⟩, .insertFrame ⟨5, 50, [4], true, false⟩,
    .insertFrame ⟨1, 10, [], true, true⟩, .extractNextDecodableTemporalUnit,
    .dropNextDecodableTemporalUnit, .insertFrame ⟨4, 40, [], false, true⟩]

theorem continuity_saturated_gap_filled :
    (gapFilledOps.foldl (apply .unbounded)
      (.create .unbounded true 10)).lastContinuousFrameId = (5 : ℤ) ∧
    (gapFilledOps.foldl (apply .unbounded)
      (.create .unbounded true 10)).numContinuousTemporalUnits = 3 := by
  obtain ⟨_, _, hframe, _, hcount, _⟩ := continuity_saturated Upstream.unbounded_exact.toSound
    (Run.of_next (apply .unbounded) (.create .unbounded true 10) gapFilledOps)
  rw [hframe, hcount]
  decide

end WebrtcTrace.Video
