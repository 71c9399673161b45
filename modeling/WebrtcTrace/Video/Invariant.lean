import WebrtcTrace.Video.Decodability

/-! # The invariant of a buffer

`WellFormed` is what every reachable state has: references point down, everything buffered lies
above the last decoded id, no frame is ready without being flagged, the two "last continuous" ids
bound what is flagged, and the cached unit is the one a scan finds.

Each operation is described once, by what it does to frames, flags and history
(`insertFrame_cases`, `extract_cases`, `drop_cases`); every result about runs is read off these.
-/

namespace WebrtcTrace.Video
open Saturation Runs
set_option autoImplicit false

theorem validReferences_backward {frameId : ℤ} :
    ∀ {refs : List ℤ}, validReferences frameId refs = true → ∀ r ∈ refs, r < frameId
  | [], _, r, hr => by cases hr
  | r' :: rs, h, r, hr => by
    simp only [validReferences, Bool.and_eq_true, decide_eq_true_eq] at h
    obtain rfl | hr := List.mem_cons.mp hr
    · exact h.1.1
    · exact validReferences_backward h.2 r hr

variable {H : Type*} (U : Upstream H)

namespace FrameBuffer

structure WellFormed (s : FrameBuffer H) : Prop where
  backward : ∀ f ∈ s.held, ∀ r ∈ f.references, r < f.id
  above : ∀ f ∈ s.held, U.getLastDecodedFrameId s.decodedFrameHistory < f.id
  closed : ∀ i ∈ s.ids, Ready s.deps (s.decodedIds U) s.flaggedIds i → i ∈ s.flaggedIds
  frameCap : ∀ i ∈ s.flaggedIds, (i : WithBot ℤ) ≤ s.lastContinuousFrameId
  unitCap : ∀ i ∈ s.flaggedUnits, (i : WithBot ℤ) ≤ s.lastContinuousTemporalUnitFrameId
  settled : Settled U s

/-- The state of an `InsertFrame` that has found a place for its frame. -/
def inserted (s : FrameBuffer H) (frame : EncodedFrame) : FrameBuffer H :=
  findNextAndLastDecodableTemporalUnit U
    (propagateContinuity U { s with frames := s.frames.place { encodedFrame := frame } } frame.id)

variable {U} {s t : FrameBuffer H} {frame : EncodedFrame}

theorem WellFormed.dep_lt (h : WellFormed U s) : ∀ i ∈ s.ids, ∀ r ∈ s.deps i, r < i := by
  rintro i _ r ⟨f, hf, rfl, hr⟩
  exact h.backward f hf r hr

/-- An empty buffer that never decoded anything. -/
theorem wellFormed_empty (hframes : s.frames = .empty)
    (hunit : s.lastContinuousTemporalUnitFrameId = ⊥) (hnext : s.nextDecodableTemporalUnit = none)
    (hinfo : s.decodableTemporalUnitsInfo = none) : WellFormed U s := by
  have hheld : ∀ f, f ∉ s.held := by
    intro f hf
    obtain ⟨e, he, _⟩ := mem_held.mp hf
    rw [hframes] at he
    exact KeyedMap.not_mem_empty e he
  have hflag : ∀ i, i ∉ s.flaggedIds := by
    intro i hi
    obtain ⟨f, hf, _⟩ := s.flaggedIds_sub hi
    exact hheld f hf
  refine ⟨fun f hf => absurd hf (hheld f), fun f hf => absurd hf (hheld f), ?_,
    fun i hi => absurd hi (hflag i), fun i hi => absurd (s.flaggedUnits_sub hi) (hflag i), ?_⟩
  · rintro i ⟨f, hf, _⟩
    exact absurd hf (hheld f)
  · rw [Settled, findNextAndLastDecodableTemporalUnit, if_pos hunit, ← hnext, ← hinfo]

theorem wellFormed_create (legacy : Bool) (maxSize : ℕ) :
    WellFormed U (create U legacy maxSize) :=
  wellFormed_empty rfl rfl rfl rfl

theorem wellFormed_clear (s : FrameBuffer H) : WellFormed U (s.clear U) :=
  wellFormed_empty rfl rfl rfl rfl

/-! ## Inserting a frame -/

/-- No buffered frame has the id of this one. -/
def Fresh (s : FrameBuffer H) (frame : EncodedFrame) : Prop := ∀ e ∈ s.frames, e.id ≠ frame.id

theorem mem_place (hfresh : Fresh s frame) (e : FrameInfo) :
    e ∈ s.frames.place { encodedFrame := frame } ↔
      e = { encodedFrame := frame } ∨ e ∈ s.frames :=
  KeyedMap.mem_place_of_fresh hfresh

theorem placed_held {m : FrameMap} (hm : m = s.frames.place { encodedFrame := frame })
    (hfresh : Fresh s frame) (f : EncodedFrame) :
    f ∈ m.entries.map FrameInfo.encodedFrame ↔ f = frame ∨ f ∈ s.held := by
  simp only [List.mem_map, ← KeyedMap.mem_iff, hm, mem_place hfresh, mem_held]
  constructor
  · rintro ⟨e, rfl | he, rfl⟩
    · exact .inl rfl
    · exact .inr ⟨e, he, rfl⟩
  · rintro (rfl | ⟨e, he, rfl⟩)
    · exact ⟨_, .inl rfl, rfl⟩
    · exact ⟨e, .inr he, rfl⟩

/-- Placing an entry whose flag is not set changes no flag. -/
theorem place_flaggedIds (hfresh : Fresh s frame)
    (ht : t.frames = s.frames.place { encodedFrame := frame }) : t.flaggedIds = s.flaggedIds := by
  ext i
  simp only [flaggedIds, Set.mem_ofPred_eq, flagged_iff, ht, mem_place hfresh]
  constructor
  · rintro ⟨e, rfl | he, hi, hc⟩
    · cases hc
    · exact ⟨e, he, hi, hc⟩
  · rintro ⟨e, he, hi, hc⟩
    exact ⟨e, .inr he, hi, hc⟩

theorem place_advances (hfresh : Fresh s frame) :
    Advances s { s with frames := s.frames.place { encodedFrame := frame } } := by
  set t : FrameBuffer H := { s with frames := s.frames.place { encodedFrame := frame } } with ht
  have hmem : ∀ e, e ∈ t.frames ↔ e = { encodedFrame := frame } ∨ e ∈ s.frames := mem_place hfresh
  have hunits : t.flaggedUnits = s.flaggedUnits := by
    ext i
    simp only [flaggedUnits, Set.mem_ofPred_eq, hmem]
    constructor
    · rintro ⟨e, rfl | he, hi, hc, hl⟩
      · cases hc
      · exact ⟨e, he, hi, hc, hl⟩
    · rintro ⟨e, he, hi, hc, hl⟩
      exact ⟨e, .inr he, hi, hc, hl⟩
  have hcount : t.unitCount = s.unitCount := by
    have hperm : t.frames.entries.Perm ({ encodedFrame := frame } :: s.frames.entries) := by
      apply (List.perm_ext_iff_of_nodup t.frames.nodup ?_).mpr
      · intro e
        rw [List.mem_cons]
        exact hmem e
      · exact List.nodup_cons.mpr ⟨fun he => hfresh _ he rfl, s.frames.nodup⟩
    rw [unitCount, hperm.countP_eq, List.countP_cons]
    simp [unitCount]
  refine ⟨rfl, rfl, rfl, rfl, ?_, ?_, ?_⟩
  · rw [place_flaggedIds (t := t) hfresh rfl]
    exact .refl _ _
  · rw [hunits]
    exact .refl _ _
  · rw [hcount]

theorem inserted_advances (hfresh : Fresh s frame) : Advances s (inserted U s frame) :=
  ((place_advances hfresh).trans (propagate_advances _ _)).trans (findNext_advances _)

theorem inserted_held (hfresh : Fresh s frame) (f : EncodedFrame) :
    f ∈ (inserted U s frame).held ↔ f = frame ∨ f ∈ s.held := by
  rw [inserted, findNext_held, propagateContinuity, propagate_held]
  exact placed_held rfl hfresh f

/-- **Propagation from the new frame on leaves no ready frame without its flag**, because before the
insertion there was none and what lies below the new frame does not see it. -/
theorem inserted_saturated (hw : WellFormed U s) (hfresh : Fresh s frame)
    (hvalid : ∀ r ∈ frame.references, r < frame.id) :
    Saturated (inserted U s frame).deps (s.decodedIds U) (inserted U s frame).ids s.flaggedIds
      (inserted U s frame).flaggedIds := by
  set p : FrameBuffer H := { s with frames := s.frames.place { encodedFrame := frame } } with hp
  have hheld : ∀ f, f ∈ p.held ↔ f = frame ∨ f ∈ s.held := placed_held rfl hfresh
  have hflag : p.flaggedIds = s.flaggedIds := place_flaggedIds hfresh rfl
  have hsame : (inserted U s frame).held = p.held := by
    rw [inserted, findNext_held, propagateContinuity, propagate_held]
  have hresult : (inserted U s frame).flaggedIds = pass p.deps (p.decodedIds U) p.flaggedIds
      ((p.frames.entries.map FrameInfo.id).filter (frame.id ≤ ·)) := by
    rw [← flaggedIds_propagate]
    · simp only [inserted, flaggedIds, flagged, findNext_frames, propagateContinuity]
      rfl
    · intro i hi
      obtain ⟨e, he, hid⟩ := List.mem_map.mp (List.mem_filter.mp hi).1
      exact mem_ids.mpr ⟨e, he, hid⟩
  rw [deps_congr hsame, ids_congr hsame, hresult, hflag]
  apply pass_saturated
  · rintro i _ r ⟨f, hf, rfl, hr⟩
    obtain rfl | hf := (hheld f).mp hf
    · exact hvalid r hr
    · exact hw.backward f hf r hr
  · apply List.Pairwise.filter
    rw [List.pairwise_map]
    exact p.frames.ordered
  · intro i hi
    obtain ⟨e, he, hid⟩ := List.mem_map.mp (List.mem_filter.mp hi).1
    exact mem_ids.mpr ⟨e, he, hid⟩
  · rw [← hflag]
    exact p.flaggedIds_sub
  · intro y hy hyxs x hx
    obtain ⟨e, he, rfl⟩ := mem_ids.mp hy
    have hxf : frame.id ≤ x := by simpa using (List.mem_filter.mp hx).2
    have hey : ¬ frame.id ≤ e.id := fun hle =>
      hyxs (List.mem_filter.mpr ⟨List.mem_map.mpr ⟨e, he, rfl⟩, by simpa using hle⟩)
    omega
  · intro x hx hxxs hr
    obtain ⟨f, hf, rfl⟩ := hx
    have hne : f.id ≠ frame.id := by
      intro heq
      obtain ⟨e, he, hef⟩ := mem_held.mp hf
      refine hxxs (List.mem_filter.mpr ⟨List.mem_map.mpr ⟨e, he, by rw [FrameInfo.id, hef]⟩, ?_⟩)
      simp [heq]
    have hold : f ∈ s.held := ((hheld f).mp hf).resolve_left fun h => hne (by rw [h])
    refine hw.closed f.id ⟨f, hold, rfl⟩ ?_
    rintro r ⟨g, hg, hgid, hrg⟩
    exact hr r ⟨g, (hheld g).mpr (.inr hg), hgid, hrg⟩

theorem inserted_wellFormed (hw : WellFormed U s) (hfresh : Fresh s frame)
    (hvalid : ∀ r ∈ frame.references, r < frame.id)
    (habove : U.getLastDecodedFrameId s.decodedFrameHistory < frame.id) :
    WellFormed U (inserted U s frame) where
  backward f hf := by
    obtain rfl | hf := (inserted_held hfresh f).mp hf
    · exact hvalid
    · exact hw.backward f hf
  above f hf := by
    rw [(inserted_advances hfresh).history]
    obtain rfl | hf := (inserted_held hfresh f).mp hf
    · exact habove
    · exact hw.above f hf
  closed := by
    rw [decodedIds_congr (inserted_advances hfresh).history]
    exact (inserted_saturated hw hfresh hvalid).closed
  frameCap := (inserted_advances hfresh).frames.capped hw.frameCap
  unitCap := (inserted_advances hfresh).units.capped hw.unitCap
  settled := findNext_settled _

/-! ## What `InsertFrame` does -/

variable (U) in
/-- Whether `InsertFrame` calls `Clear`. -/
def clears (s : FrameBuffer H) (frame : EncodedFrame) : Bool :=
  validReferences frame.id frame.references &&
    if (frame.id : WithBot ℤ) ≤ U.getLastDecodedFrameId s.decodedFrameHistory then
      s.isFrameIdJump U frame
    else decide (s.frames.size = s.maxSize) && frame.isKeyframe

variable (U) in
/-- Whether an operation calls `Clear`. -/
def clearsBy (s : FrameBuffer H) : Op → Bool
  | .insertFrame frame => s.clears U frame
  | .extractNextDecodableTemporalUnit => false
  | .dropNextDecodableTemporalUnit => false

variable (U) in
/-- The buffer takes the frame in as it is, without a `Clear`. -/
structure Joins (s : FrameBuffer H) (frame : EncodedFrame) : Prop where
  valid : validReferences frame.id frame.references = true
  above : U.getLastDecodedFrameId s.decodedFrameHistory < frame.id
  room : s.frames.size ≠ s.maxSize
  fresh : Fresh s frame

variable (U) in
/-- The state a frame is put into: the given one, or a cleared one. A jump into a buffer of size
zero clears twice. -/
def Receives (s s₀ : FrameBuffer H) (frame : EncodedFrame) : Prop :=
  (s₀ = s ∧ s.clears U frame = false) ∨
    ((s₀ = s.clear U ∨ s₀ = (s.clear U).clear U) ∧ s.clears U frame = true)

theorem insertInto_fresh (hfresh : Fresh s frame) :
    s.insertInto U frame = (true, inserted U s frame) := by
  have hem : s.frames.emplace { encodedFrame := frame } =
      some (s.frames.place { encodedFrame := frame }) :=
    KeyedMap.emplace_eq_some.mpr ⟨hfresh, rfl⟩
  rw [insertInto, hem]
  rfl

theorem insertInto_cases (s : FrameBuffer H) (frame : EncodedFrame) :
    (Fresh s frame ∧ s.insertInto U frame = (true, inserted U s frame)) ∨
      s.insertInto U frame = (false, s) := by
  cases hem : s.frames.emplace { encodedFrame := frame } with
  | none => exact .inr (by rw [insertInto, hem])
  | some m =>
    have hfresh : Fresh s frame := (KeyedMap.emplace_eq_some.mp hem).1
    exact .inl ⟨hfresh, insertInto_fresh hfresh⟩

theorem fresh_clear (s : FrameBuffer H) (frame : EncodedFrame) : Fresh (s.clear U) frame :=
  fun e he => absurd he (KeyedMap.not_mem_empty e)

theorem clear_insertUnlessFull (s : FrameBuffer H) (frame : EncodedFrame)
    (hkey : frame.isKeyframe = true) :
    ∃ s₀, (s₀ = s.clear U ∨ s₀ = (s.clear U).clear U) ∧
      (s.clear U).insertUnlessFull U frame = (true, inserted U s₀ frame) := by
  by_cases hfull : (s.clear U).frames.size = (s.clear U).maxSize
  · refine ⟨_, .inr rfl, ?_⟩
    rw [insertUnlessFull, if_pos hfull, if_pos hkey]
    exact insertInto_fresh (fresh_clear _ frame)
  · refine ⟨_, .inl rfl, ?_⟩
    rw [insertUnlessFull, if_neg hfull]
    exact insertInto_fresh (fresh_clear s frame)

/-- **What `InsertFrame` does.** It leaves the buffer as it is, or puts a valid frame with a new id
above the last decoded one into the buffer or a cleared one. -/
theorem insertFrame_cases (hU : U.Sound) (s : FrameBuffer H) (frame : EncodedFrame) :
    (s.clears U frame = false ∧ s.insertFrame U frame = (false, s)) ∨
      validReferences frame.id frame.references = true ∧
      ∃ s₀, Receives U s s₀ frame ∧ Fresh s₀ frame ∧
        U.getLastDecodedFrameId s₀.decodedFrameHistory < frame.id ∧
        s.insertFrame U frame = (true, inserted U s₀ frame) := by
  have hcleared : ∀ s₀ : FrameBuffer H, (s₀ = s.clear U ∨ s₀ = (s.clear U).clear U) →
      Fresh s₀ frame ∧ U.getLastDecodedFrameId s₀.decodedFrameHistory < frame.id := by
    rintro s₀ (rfl | rfl)
    · refine ⟨fresh_clear s frame, ?_⟩
      rw [clear, hU.clear_last]
      exact WithBot.bot_lt_coe _
    · refine ⟨fresh_clear _ frame, ?_⟩
      rw [clear, hU.clear_last]
      exact WithBot.bot_lt_coe _
  unfold insertFrame
  cases hvalid : validReferences frame.id frame.references with
  | false => exact .inl ⟨by simp [clears, hvalid], rfl⟩
  | true =>
    simp only [Bool.not_true, Bool.false_eq_true, if_false, true_and]
    split_ifs with hpassed hjump
    · -- a jump of the ids
      refine .inr ?_
      have hkey : frame.isKeyframe = true := by
        simp only [isFrameIdJump, Bool.and_eq_true] at hjump
        exact hjump.1.2
      obtain ⟨s₀, hs₀, hres⟩ := clear_insertUnlessFull (U := U) s frame hkey
      exact ⟨s₀, .inr ⟨hs₀, by simp [clears, hvalid, hpassed, hjump]⟩, (hcleared s₀ hs₀).1,
        (hcleared s₀ hs₀).2, hres⟩
    · exact .inl ⟨by simp [clears, hvalid, hpassed, hjump], rfl⟩
    · unfold insertUnlessFull
      split_ifs with hfull hkey
      · refine .inr ⟨s.clear U, .inr ⟨.inl rfl, by simp [clears, hvalid, hpassed, hfull, hkey]⟩,
          (hcleared _ (.inl rfl)).1, (hcleared _ (.inl rfl)).2, insertInto_fresh (fresh_clear s frame)⟩
      · exact .inl ⟨by simp [clears, hvalid, hpassed, hkey], rfl⟩
      · have hno : s.clears U frame = false := by simp [clears, hvalid, hpassed, hfull]
        obtain ⟨hfresh, hres⟩ | hres := insertInto_cases (U := U) s frame
        · exact .inr ⟨s, .inl ⟨rfl, hno⟩, hfresh, not_le.mp hpassed, hres⟩
        · exact .inl ⟨hno, hres⟩

/-- A frame that was let in without a `Clear` joined. -/
theorem joins_of_inserted (hvalid : validReferences frame.id frame.references = true)
    (habove : U.getLastDecodedFrameId s.decodedFrameHistory < frame.id) (hfresh : Fresh s frame)
    (hno : s.clears U frame = false) (hin : (s.insertFrame U frame).1 = true) :
    Joins U s frame := by
  refine ⟨hvalid, habove, fun hfull => ?_, hfresh⟩
  have hkey : frame.isKeyframe = false := by
    simpa [clears, hvalid, not_le.mpr habove, hfull] using hno
  rw [insertFrame, hvalid, if_neg (not_le.mpr habove), insertUnlessFull, if_pos hfull] at hin
  simp [hkey] at hin

theorem insertFrame_wellFormed (hU : U.Sound) (hw : WellFormed U s) (frame : EncodedFrame) :
    WellFormed U (s.insertFrame U frame).2 := by
  obtain ⟨_, h⟩ | ⟨hvalid, s₀, hs₀, hfresh, habove, h⟩ := insertFrame_cases hU s frame
  · rwa [h]
  · rw [h]
    have hw₀ : WellFormed U s₀ := by
      obtain ⟨rfl, _⟩ | ⟨rfl | rfl, _⟩ := hs₀
      · exact hw
      · exact wellFormed_clear s
      · exact wellFormed_clear _
    exact inserted_wellFormed hw₀ hfresh (validReferences_backward hvalid) habove

/-! ## What extraction and dropping do -/

variable (U) in
/-- `InsertDecoded` for each frame of a unit. -/
def noteDecoded (h : H) (unit : List EncodedFrame) : H :=
  unit.foldl (fun h f => U.insertDecoded h f.id f.rtpTimestamp) h

variable (U) in
/-- The ids of a unit lie above the last decoded one and increase, so each call is in order. -/
def InOrder (h : H) (unit : List EncodedFrame) : Prop :=
  (unit.Pairwise fun f g => f.id < g.id) ∧ ∀ f ∈ unit, U.getLastDecodedFrameId h < f.id

theorem InOrder.tail (hU : U.Sound) {h : H} {f : EncodedFrame} {fs : List EncodedFrame}
    (ho : InOrder U h (f :: fs)) : InOrder U (U.insertDecoded h f.id f.rtpTimestamp) fs := by
  obtain ⟨hlt, hfs⟩ := List.pairwise_cons.mp ho.1
  refine ⟨hfs, fun g hg => ?_⟩
  rw [hU.insert_last]
  exact WithBot.coe_lt_coe.mpr (hlt g hg)

theorem wasDecoded_noteDecoded (hU : U.Sound) {i : ℤ} :
    ∀ {unit : List EncodedFrame} {h : H}, InOrder U h unit →
      U.wasDecoded (noteDecoded U h unit) i = true →
      i ∈ unit.map EncodedFrame.id ∨ U.wasDecoded h i = true
  | [], _, _, hi => .inr hi
  | f :: fs, h, ho, hi => by
    rw [List.map_cons, List.mem_cons]
    obtain hfs | hf := wasDecoded_noteDecoded hU (ho.tail hU) hi
    · exact .inl (.inr hfs)
    · obtain rfl | hh := hU.insert_wasDecoded _ _ _ _ (ho.2 f List.mem_cons_self) hf
      · exact .inl (.inl rfl)
      · exact .inr hh

theorem noteDecoded_wasDecoded (hU : U.Exact) {i : ℤ} :
    ∀ {unit : List EncodedFrame} {h : H}, InOrder U h unit →
      i ∈ unit.map EncodedFrame.id ∨ U.wasDecoded h i = true →
      U.wasDecoded (noteDecoded U h unit) i = true
  | [], _, _, hi => hi.resolve_left List.not_mem_nil
  | f :: fs, h, ho, hi => by
    change U.wasDecoded (noteDecoded U (U.insertDecoded h f.id f.rtpTimestamp) fs) i = true
    refine noteDecoded_wasDecoded hU (ho.tail hU.toSound) ?_
    rw [List.map_cons, List.mem_cons, or_assoc] at hi
    obtain rfl | hfs | hh := hi
    · exact .inr (hU.insert_remembers _ _ _ _ (ho.2 f List.mem_cons_self) (.inl rfl))
    · exact .inl hfs
    · exact .inr (hU.insert_remembers _ _ _ _ (ho.2 f List.mem_cons_self) (.inr hh))

theorem lastDecoded_noteDecoded (hU : U.Sound) (h : H) {unit : List EncodedFrame}
    {b : EncodedFrame} (hb : b ∈ unit.getLast?) :
    U.getLastDecodedFrameId (noteDecoded U h unit) = b.id := by
  rw [← List.dropLast_append_getLast? b hb, noteDecoded, List.foldl_append]
  exact hU.insert_last _ _ _

theorem held_injOn {f g : EncodedFrame} (hf : f ∈ s.held) (hg : g ∈ s.held) (h : f.id = g.id) :
    f = g := by
  obtain ⟨e, he, rfl⟩ := mem_held.mp hf
  obtain ⟨e', he', rfl⟩ := mem_held.mp hg
  rw [s.frames.key_injOn he he' h]

variable (U) in
/-- `t` is `s` without everything through the id `b`, with its next unit found again. -/
structure Erases (s t : FrameBuffer H) (b : ℤ) : Prop where
  frames : t.frames = s.frames.eraseThrough b
  frameLast : t.lastContinuousFrameId = s.lastContinuousFrameId
  unitLast : t.lastContinuousTemporalUnitFrameId = s.lastContinuousTemporalUnitFrameId
  settled : Settled U t

theorem eraseNextUnit_erases (hs : Settled U s) {u rest : List EncodedFrame}
    (h : s.nextUnit U = some (u, rest)) (history : H) (moved : FrameInfo → Bool) :
    ∃ b ∈ u.getLast?, ∃ t, eraseNextUnit U { s with decodedFrameHistory := history } moved = t ∧
      Erases U s t b.id ∧ t.decodedFrameHistory = history := by
  obtain ⟨hfound, _⟩ := nextUnit_split h
  obtain ⟨a, b, _, hb, _, hends⟩ := nextUnit_ends hfound
  have hnext := settled_next hs
  rw [h, Option.map_some, hends] at hnext
  refine ⟨b, hb, _, rfl, ?_, ?_⟩
  · simp only [eraseNextUnit, hnext]
    exact ⟨findNext_frames _, findNext_lastContinuousFrameId _,
      findNext_lastContinuousTemporalUnitFrameId _, findNext_settled _⟩
  · simp only [eraseNextUnit, hnext, findNext_history]

theorem extract_none (hs : Settled U s) (hu : s.nextUnit U = none) :
    s.extractNextDecodableTemporalUnit U = ([], s) := by
  have hnext := settled_next hs
  rw [hu] at hnext
  simp [extractNextDecodableTemporalUnit, hnext]

theorem drop_none (hs : Settled U s) (hu : s.nextUnit U = none) :
    s.dropNextDecodableTemporalUnit U = s := by
  have hnext := settled_next hs
  rw [hu] at hnext
  simp [dropNextDecodableTemporalUnit, eraseNextUnit, hnext]

/-- **What `ExtractNextDecodableTemporalUnit` does.** -/
theorem extract_cases (hs : Settled U s) :
    (s.nextUnit U = none ∧ s.extractNextDecodableTemporalUnit U = ([], s)) ∨
      ∃ u rest, s.nextUnit U = some (u, rest) ∧ ∃ b ∈ u.getLast?, ∃ t,
        s.extractNextDecodableTemporalUnit U = (u, t) ∧ Erases U s t b.id ∧
        t.decodedFrameHistory = noteDecoded U s.decodedFrameHistory u := by
  cases hu : s.nextUnit U with
  | none => exact .inl ⟨rfl, extract_none hs hu⟩
  | some p =>
    obtain ⟨u, rest⟩ := p
    have hnext := settled_next hs
    rw [hu, Option.map_some] at hnext
    have hframes := framesOf_nextUnit hu
    obtain ⟨b, hb, t, ht, herase, hhist⟩ := eraseNextUnit_erases hs hu
      (noteDecoded U s.decodedFrameHistory u)
      fun e => (framesOf s.frames (unitEnds u)).contains e
    refine .inr ⟨u, rest, rfl, b, hb, t, ?_, herase, hhist⟩
    have hnote : (framesOf s.frames (unitEnds u)).foldl
        (fun h e => U.insertDecoded h e.id e.encodedFrame.rtpTimestamp) s.decodedFrameHistory =
        noteDecoded U s.decodedFrameHistory u := by
      conv_rhs => rw [← hframes]
      rw [noteDecoded, List.foldl_map]
    rw [hnext] at ht
    simp only [extractNextDecodableTemporalUnit, hnext, hframes, hnote, ht]

/-- **What `DropNextDecodableTemporalUnit` does.** -/
theorem drop_cases (hs : Settled U s) :
    (s.nextUnit U = none ∧ s.dropNextDecodableTemporalUnit U = s) ∨
      ∃ u rest, s.nextUnit U = some (u, rest) ∧ ∃ b ∈ u.getLast?,
        Erases U s (s.dropNextDecodableTemporalUnit U) b.id ∧
        (s.dropNextDecodableTemporalUnit U).decodedFrameHistory = s.decodedFrameHistory := by
  cases hu : s.nextUnit U with
  | none => exact .inl ⟨rfl, drop_none hs hu⟩
  | some p =>
    obtain ⟨b, hb, t, ht, herase, hhist⟩ :=
      eraseNextUnit_erases hs hu s.decodedFrameHistory fun _ => false
    refine .inr ⟨p.1, p.2, rfl, b, hb, ?_⟩
    rw [dropNextDecodableTemporalUnit, ht]
    exact ⟨herase, hhist⟩

/-- What no removal writes. -/
theorem eraseNextUnit_keeps (s : FrameBuffer H) (movedOut : FrameInfo → Bool) :
    (s.eraseNextUnit U movedOut).maxSize = s.maxSize ∧
      (s.eraseNextUnit U movedOut).numContinuousTemporalUnits = s.numContinuousTemporalUnits := by
  unfold eraseNextUnit
  cases s.nextDecodableTemporalUnit with
  | none => exact ⟨rfl, rfl⟩
  | some tu =>
    simp only [findNextAndLastDecodableTemporalUnit]
    split_ifs <;> exact ⟨rfl, rfl⟩

theorem extract_keeps (s : FrameBuffer H) :
    (s.extractNextDecodableTemporalUnit U).2.maxSize = s.maxSize ∧
      (s.extractNextDecodableTemporalUnit U).2.numContinuousTemporalUnits =
        s.numContinuousTemporalUnits := by
  unfold extractNextDecodableTemporalUnit
  cases s.nextDecodableTemporalUnit with
  | none => exact ⟨rfl, rfl⟩
  | some tu => exact eraseNextUnit_keeps _ _

variable {b : ℤ}

theorem Erases.mem (he : Erases U s t b) (e : FrameInfo) :
    e ∈ t.frames ↔ e ∈ s.frames ∧ b < e.id := by
  rw [he.frames, KeyedMap.mem_eraseThrough]

theorem Erases.held (he : Erases U s t b) (f : EncodedFrame) :
    f ∈ t.held ↔ f ∈ s.held ∧ b < f.id := by
  simp only [mem_held, he.mem]
  constructor
  · rintro ⟨e, ⟨hm, hb⟩, rfl⟩
    exact ⟨⟨e, hm, rfl⟩, hb⟩
  · rintro ⟨⟨e, hm, rfl⟩, hb⟩
    exact ⟨e, ⟨hm, hb⟩, rfl⟩

theorem Erases.held_eq {pre u post : List EncodedFrame} {f : EncodedFrame} (he : Erases U s t f.id)
    (hsplit : s.held = pre ++ u ++ post) (hf : f ∈ u.getLast?) : t.held = post := by
  have hord := s.held_ordered
  rw [hsplit] at hord
  have hcut := KeyedMap.filter_above hord hf
  rw [← hsplit, FrameBuffer.held, List.filter_map] at hcut
  rw [FrameBuffer.held, he.frames]
  exact hcut

theorem Erases.flaggedIds (he : Erases U s t b) (i : ℤ) :
    i ∈ t.flaggedIds ↔ i ∈ s.flaggedIds ∧ b < i := by
  simp only [FrameBuffer.flaggedIds, Set.mem_ofPred_eq, flagged_iff, he.mem]
  constructor
  · rintro ⟨e, ⟨hm, hb⟩, rfl, hc⟩
    exact ⟨⟨e, hm, rfl, hc⟩, hb⟩
  · rintro ⟨⟨e, hm, rfl, hc⟩, hb⟩
    exact ⟨e, ⟨hm, hb⟩, rfl, hc⟩

theorem Erases.flaggedUnits (he : Erases U s t b) : t.flaggedUnits ⊆ s.flaggedUnits := by
  rintro i ⟨e, hm, hi, hc, hl⟩
  exact ⟨e, ((he.mem e).mp hm).1, hi, hc, hl⟩

theorem nextUnit_sub {u rest : List EncodedFrame} (h : s.nextUnit U = some (u, rest)) :
    ∀ f ∈ u, f ∈ s.held := by
  obtain ⟨_, pre, beyond, hheld, _⟩ := nextUnit_split h
  intro f hf
  rw [hheld]
  exact List.mem_append_left _ (List.mem_append_right _ hf)

theorem nextUnit_inOrder (hw : WellFormed U s) {u rest : List EncodedFrame}
    (h : s.nextUnit U = some (u, rest)) : InOrder U s.decodedFrameHistory u := by
  obtain ⟨_, pre, beyond, hheld, _⟩ := nextUnit_split h
  have hord := s.held_ordered
  rw [hheld, List.pairwise_append, List.pairwise_append] at hord
  exact ⟨hord.1.2.1, fun f hf => hw.above f (nextUnit_sub h f hf)⟩

/-- Every frame of the next unit is flagged. -/
theorem nextUnit_flagged (hw : WellFormed U s) {u rest : List EncodedFrame}
    (h : s.nextUnit U = some (u, rest)) : ∀ f ∈ u, f.id ∈ s.flaggedIds := by
  obtain ⟨hfound, _⟩ := nextUnit_split h
  have hsub := nextUnit_sub h
  refine decodable_subset hfound.decodable (fun f hf => hw.backward f (hsub f hf)) ?_
  intro f hf hrefs
  refine hw.closed f.id ⟨f, hsub f hf, rfl⟩ ?_
  rintro r ⟨g, hg, hgid, hr⟩
  obtain rfl := held_injOn hg (hsub f hf) hgid
  exact hrefs r hr

/-- Removing frames keeps the invariant, whether or not the frames removed are noted as decoded. -/
theorem erases_wellFormed (hw : WellFormed U s) (he : Erases U s t b)
    (hlast : U.getLastDecodedFrameId t.decodedFrameHistory =
        U.getLastDecodedFrameId s.decodedFrameHistory ∨
      U.getLastDecodedFrameId t.decodedFrameHistory = b)
    (hdec : ∀ i ∈ t.decodedIds U, i ∈ s.decodedIds U ∨ i ∈ s.flaggedIds) : WellFormed U t where
  backward f hf := hw.backward f ((he.held f).mp hf).1
  above f hf := by
    obtain ⟨hf, hb⟩ := (he.held f).mp hf
    obtain h | h := hlast <;> rw [h]
    · exact hw.above f hf
    · exact WithBot.coe_lt_coe.mpr hb
  closed := by
    rintro i ⟨f, hf, rfl⟩ hr
    obtain ⟨hfs, hb⟩ := (he.held f).mp hf
    refine (he.flaggedIds _).mpr ⟨hw.closed f.id ⟨f, hfs, rfl⟩ ?_, hb⟩
    rintro r ⟨g, hg, hgid, hrg⟩
    obtain h | h := hr r ⟨g, (he.held g).mpr ⟨hg, hgid ▸ hb⟩, hgid, hrg⟩
    · exact hdec r h
    · exact .inr ((he.flaggedIds r).mp h).1
  frameCap i hi := by
    rw [he.frameLast]
    exact hw.frameCap i ((he.flaggedIds i).mp hi).1
  unitCap i hi := by
    rw [he.unitLast]
    exact hw.unitCap i (he.flaggedUnits hi)
  settled := he.settled

theorem extract_wellFormed (hU : U.Sound) (hw : WellFormed U s) :
    WellFormed U (s.extractNextDecodableTemporalUnit U).2 := by
  obtain ⟨_, h⟩ | ⟨u, rest, hu, b, hb, t, h, he, hh⟩ := extract_cases hw.settled <;> rw [h]
  · exact hw
  · refine erases_wellFormed hw he (.inr ?_) fun i hi => ?_
    · rw [hh]
      exact lastDecoded_noteDecoded hU _ hb
    · rw [decodedIds, Set.mem_ofPred_eq, hh] at hi
      obtain hi | hi := wasDecoded_noteDecoded hU (nextUnit_inOrder hw hu) hi
      · obtain ⟨f, hf, rfl⟩ := List.mem_map.mp hi
        exact .inr (nextUnit_flagged hw hu f hf)
      · exact .inl hi

theorem drop_wellFormed (hw : WellFormed U s) :
    WellFormed U (s.dropNextDecodableTemporalUnit U) := by
  obtain ⟨_, h⟩ | ⟨u, rest, hu, b, hb, he, hh⟩ := drop_cases hw.settled
  · rwa [h]
  · refine erases_wellFormed hw he (.inl (by rw [hh])) fun i hi => .inl ?_
    rwa [decodedIds_congr hh] at hi

theorem apply_wellFormed (hU : U.Sound) (hw : WellFormed U s) (op : Op) :
    WellFormed U (apply U s op) := by
  cases op with
  | insertFrame frame => exact insertFrame_wellFormed hU hw frame
  | extractNextDecodableTemporalUnit => exact extract_wellFormed hU hw
  | dropNextDecodableTemporalUnit => exact drop_wellFormed hw

/-- **Every reachable state is well formed.** -/
theorem wellFormed_run (hU : U.Sound) {legacy : Bool} {maxSize : ℕ}
    {tr : List (FrameBuffer H × Op)} {s : FrameBuffer H} (h : BufferRun U legacy maxSize tr s) :
    WellFormed U s := by
  refine h.invariant (wellFormed_create legacy maxSize) ?_
  rintro s op t hw rfl
  exact apply_wellFormed hU hw op

end FrameBuffer
end WebrtcTrace.Video
