import WebrtcTrace.Video.Arrival

/-! # What leaves a buffer, and which counter knows of it

Extraction hands over the next unit and drops what is buffered before it; a late unit is dropped
with what is before it. In both cases the frames after the unit stay, and `num_dropped_frames_` counts
every frame that is not handed over (`extract_removes`, `drop_removes`).

`nextTimestamp` is the timestamp `DecodableTemporalUnitsInfo` shows, read off the search.
-/

namespace WebrtcTrace.Video
set_option autoImplicit false

variable {H : Type*} {U : Upstream H}

/-! ## What the buffer tells of its next unit -/

theorem scanFrame_last (decoded : ℤ → Bool) :
    ∀ (fs : List EncodedFrame) (sc : Scan),
      sc.next.isSome = sc.lastDecodableTimestamp.isSome →
      (fs.foldl (scanFrame decoded) sc).next.isSome =
        (fs.foldl (scanFrame decoded) sc).lastDecodableTimestamp.isSome
  | [], _, h => h
  | f :: fs, sc, h => by
    refine scanFrame_last decoded fs (scanFrame decoded sc f) ?_
    simp only [scanFrame]
    split_ifs
    · cases sc.next <;> rfl
    · exact h

namespace FrameBuffer
variable {s t : FrameBuffer H} {u rest : List EncodedFrame}

variable (U) in
/-- The timestamp of the first unit the search finds. -/
def nextTimestamp (s : FrameBuffer H) : Option UInt32 :=
  (s.nextUnit U).bind fun p => p.1.head?.map EncodedFrame.rtpTimestamp

theorem find?_held {f : EncodedFrame} (hf : f ∈ s.held) :
    (s.frames.find? f.id).map FrameInfo.encodedFrame = some f := by
  obtain ⟨e, he, rfl⟩ := mem_held.mp hf
  rw [KeyedMap.find?_eq_some.mpr ⟨he, rfl⟩]
  rfl

theorem nextTimestamp_eq_none : s.nextTimestamp U = none ↔ s.nextUnit U = none := by
  unfold nextTimestamp
  cases hu : s.nextUnit U with
  | none => exact ⟨fun _ => rfl, fun _ => rfl⟩
  | some p =>
    obtain ⟨u, rest⟩ := p
    obtain ⟨hfound, _⟩ := nextUnit_split hu
    obtain ⟨a, _, ha, _⟩ := nextUnit_ends hfound
    simp [Option.mem_def.mp ha]

/-- What `DecodableTemporalUnitsInfo` returns in a state whose unit is the scan's. -/
theorem settled_info (h : Settled U s) :
    s.decodableTemporalUnitsInfo.map DecodabilityInfo.nextRtpTimestamp = s.nextTimestamp U := by
  by_cases hb : s.lastContinuousTemporalUnitFrameId = ⊥
  · have hnone : s.decodableTemporalUnitsInfo = none := by
      rw [← h]
      simp [findNextAndLastDecodableTemporalUnit, hb]
    rw [hnone, nextTimestamp, nextUnit, visible_nil hb]
    rfl
  · have hinfo : s.decodableTemporalUnitsInfo = (s.scan U).next.bind fun tu =>
        (s.frames.find? tu.firstFrame).bind fun e =>
          (s.scan U).lastDecodableTimestamp.map fun last => ⟨e.encodedFrame.rtpTimestamp, last⟩ := by
      conv_lhs => rw [← h]
      simp [findNextAndLastDecodableTemporalUnit, hb]
    have hlast := scanFrame_last (U.wasDecoded s.decodedFrameHistory)
      (s.upToLastUnit.map FrameInfo.encodedFrame) ⟨[], none, none⟩ rfl
    change (s.scan U).next.isSome = (s.scan U).lastDecodableTimestamp.isSome at hlast
    rw [hinfo, nextTimestamp]
    rw [scan_next] at hlast ⊢
    cases hu : s.nextUnit U with
    | none => rfl
    | some p =>
      obtain ⟨u, rest⟩ := p
      rw [hu, Option.map_some, Option.isSome_some] at hlast
      obtain ⟨last, hlast⟩ := Option.isSome_iff_exists.mp hlast.symm
      obtain ⟨hfound, _⟩ := nextUnit_split hu
      obtain ⟨a, b, ha, _, _, hends⟩ := nextUnit_ends hfound
      have hfind := find?_held (nextUnit_sub hu a (List.mem_of_mem_head? ha))
      obtain ⟨e, he, hea⟩ := Option.map_eq_some_iff.mp hfind
      simp only [Option.map_some, Option.bind_some, hends, he, hlast, hea, Option.mem_def.mp ha]

theorem info_eq_none (h : Settled U s) :
    s.decodableTemporalUnitsInfo = none ↔ s.nextUnit U = none := by
  rw [← nextTimestamp_eq_none, ← settled_info h, Option.map_eq_none_iff]

/-! ## What leaves -/

/-- How many buffered frames an erasure through the end of a unit takes, and how many of them lie
before the unit. -/
theorem count_through {pre post : List EncodedFrame} {a b : EncodedFrame}
    (hheld : s.held = pre ++ u ++ post) (ha : a ∈ u.head?) (hb : b ∈ u.getLast?) :
    (s.held.countP fun f => decide (f.id ≤ b.id)) = pre.length + u.length ∧
      (s.held.countP fun f => decide (f.id ≤ b.id) && !decide (a.id ≤ f.id)) = pre.length := by
  have hord := s.held_ordered
  rw [hheld] at hord ⊢
  obtain ⟨hpre, hu, hpost⟩ := KeyedMap.infix_bounds hord ha hb
  have hab : a.id ≤ b.id := (hu a (List.mem_of_mem_head? ha)).2
  constructor
  · rw [List.countP_append, List.countP_eq_length.mpr, List.countP_eq_zero.mpr, List.length_append,
      add_zero]
    · intro f hf
      simpa using hpost f hf
    · intro f hf
      obtain hf | hf := List.mem_append.mp hf
      · simpa using ((hpre f hf).trans_le hab).le
      · simpa using (hu f hf).2
  · rw [List.countP_append, List.countP_append, List.countP_eq_length.mpr,
      List.countP_eq_zero.mpr, List.countP_eq_zero.mpr, add_zero, add_zero]
    · intro f hf
      have := hpost f hf
      simp [this]
    · intro f hf
      have := (hu f hf).1
      simp [this]
    · intro f hf
      have := hpre f hf
      simp only [Bool.and_eq_true, decide_eq_true_eq, Bool.not_eq_true', decide_eq_false_iff_not]
      exact ⟨(this.trans_le hab).le, this.not_ge⟩

/-- Where the next unit lies and what stays behind it. -/
structure Removes (s t : FrameBuffer H) (pre u : List EncodedFrame) : Prop where
  held : s.held = pre ++ u ++ t.held
  size : s.currentSize = pre.length + u.length + t.currentSize
  unit : u ≠ []

theorem Erases.removes {b : EncodedFrame} (he : Erases U s t b.id)
    (hu : s.nextUnit U = some (u, rest)) (hb : b ∈ u.getLast?) :
    ∃ pre, Removes s t pre u ∧ ∃ a ∈ u.head?, unitEnds u = ⟨a.id, b.id⟩ := by
  obtain ⟨hfound, pre, beyond, hheld, _⟩ := nextUnit_split hu
  obtain ⟨a, b', ha, hb', _, hends⟩ := nextUnit_ends hfound
  obtain rfl := Option.mem_unique hb hb'
  have hsplit : s.held = pre ++ u ++ t.held := by rw [hheld, he.held_eq hheld hb]
  refine ⟨pre, ⟨hsplit, ?_, hfound.ne_nil⟩, a, ha, hends⟩
  rw [← held_length, ← held_length, hsplit, List.length_append, List.length_append]

/-- **Extraction** hands over the next unit; what is buffered before it is counted as dropped. -/
theorem extract_removes (hs : Settled U s) (hu : s.nextUnit U = some (u, rest)) :
    ∃ pre, Removes s (s.extractNextDecodableTemporalUnit U).2 pre u ∧
      (s.extractNextDecodableTemporalUnit U).1 = u ∧
      (s.extractNextDecodableTemporalUnit U).2.numDroppedFrames =
        s.numDroppedFrames + pre.length := by
  obtain ⟨hno, _⟩ | ⟨u', rest', hu', b, hb, t, hres, he, _⟩ := extract_cases hs
  · rw [hno] at hu
    cases hu
  · obtain ⟨rfl, rfl⟩ : u' = u ∧ rest' = rest := by simpa [hu] using hu'.symm
    obtain ⟨pre, hpre, a, ha, hends⟩ := he.removes hu hb
    have hnext := settled_next hs
    rw [hu, Option.map_some, hends] at hnext
    refine ⟨pre, by rw [hres]; exact hpre, by rw [hres], ?_⟩
    have hcount := (count_through hpre.held ha hb).2
    simp only [extractNextDecodableTemporalUnit, hnext, eraseNextUnit]
    rw [(findNext_advances _).dropped, ← hcount, FrameBuffer.held, List.countP_map]
    refine congrArg _ (List.countP_congr fun e hm => ?_)
    simp only [framesOf, Function.comp_apply, Bool.and_eq_true, Bool.not_eq_true',
      ← Bool.not_eq_true, List.contains_iff_mem, List.mem_filter, hm, true_and, decide_eq_true_eq]
    exact and_congr_right fun hle => not_congr (and_iff_left hle)

/-- **A drop** counts everything through the end of the unit. -/
theorem drop_removes (hs : Settled U s) (hu : s.nextUnit U = some (u, rest)) :
    ∃ pre, Removes s (s.dropNextDecodableTemporalUnit U) pre u ∧
      (s.dropNextDecodableTemporalUnit U).numDroppedFrames =
        s.numDroppedFrames + (pre.length + u.length) := by
  obtain ⟨hno, _⟩ | ⟨u', rest', hu', b, hb, he, _⟩ := drop_cases hs
  · rw [hno] at hu
    cases hu
  · obtain ⟨rfl, rfl⟩ : u' = u ∧ rest' = rest := by simpa [hu] using hu'.symm
    obtain ⟨pre, hpre, a, ha, hends⟩ := he.removes hu hb
    have hnext := settled_next hs
    rw [hu, Option.map_some, hends] at hnext
    refine ⟨pre, hpre, ?_⟩
    simp only [dropNextDecodableTemporalUnit, hnext, eraseNextUnit]
    rw [(findNext_advances _).dropped, ← (count_through hpre.held ha hb).1, FrameBuffer.held,
      List.countP_map]
    simp [Function.comp_def]

end FrameBuffer
end WebrtcTrace.Video
