import WebrtcTrace.Video.Continuity

/-! # What `FindNextAndLastDecodableTemporalUnit` finds and extraction removes

The scan keeps the first unit that passes its test; `firstDecodable` is that search alone, with the
frames that follow the unit. In a state whose cached unit is the scan's (`Settled`), extraction
returns exactly that unit.
-/

namespace WebrtcTrace.Video
set_option autoImplicit false

/-! ## The search -/

/-- The first unit that is closed by a last layer and decodable, with the frames after it; `unit` is
what the scan has collected already. -/
def firstDecodable (decoded : ℤ → Bool) (unit : List EncodedFrame) :
    List EncodedFrame → Option (List EncodedFrame × List EncodedFrame)
  | [] => none
  | f :: fs =>
    if f.isLastSpatialLayer && decodable decoded (extendUnit unit f) then
      some (extendUnit unit f, fs)
    else firstDecodable decoded (extendUnit unit f) fs

/-- The ids a unit goes from and to. -/
def unitEnds (unit : List EncodedFrame) : TemporalUnit :=
  ⟨(unit.head?.map EncodedFrame.id).getD 0, (unit.getLast?.map EncodedFrame.id).getD 0⟩

/-- All frames of a unit have one timestamp. -/
def OneTimestamp (unit : List EncodedFrame) : Prop :=
  ∀ f ∈ unit, ∀ g ∈ unit, f.rtpTimestamp = g.rtpTimestamp

theorem oneTimestamp_nil : OneTimestamp [] := fun _ hf => absurd hf List.not_mem_nil

theorem extendUnit_cases (unit : List EncodedFrame) (f : EncodedFrame) :
    (extendUnit unit f = [f] ∧ ∃ g ∈ unit.head?, g.rtpTimestamp ≠ f.rtpTimestamp) ∨
    (extendUnit unit f = unit ++ [f] ∧ ∀ g ∈ unit.head?, g.rtpTimestamp = f.rtpTimestamp) := by
  cases unit with
  | nil => exact .inr ⟨rfl, by simp⟩
  | cons g unit =>
    by_cases h : g.rtpTimestamp = f.rtpTimestamp
    · exact .inr ⟨by simp [extendUnit, h], by simpa using h⟩
    · exact .inl ⟨by simp [extendUnit, h], g, by simp, h⟩

theorem extendUnit_getLast? (unit : List EncodedFrame) (f : EncodedFrame) :
    (extendUnit unit f).getLast? = some f := by
  simp [extendUnit]

theorem extendUnit_oneTimestamp {unit : List EncodedFrame} (h : OneTimestamp unit)
    (f : EncodedFrame) : OneTimestamp (extendUnit unit f) := by
  obtain ⟨he, _⟩ | ⟨he, hts⟩ := extendUnit_cases unit f <;> rw [he]
  · intro a ha b hb
    rw [List.mem_singleton.mp ha, List.mem_singleton.mp hb]
  · have hall : ∀ a ∈ unit ++ [f], a.rtpTimestamp = f.rtpTimestamp := by
      intro a ha
      obtain ha | ha := List.mem_append.mp ha
      · cases unit with
        | nil => cases ha
        | cons g unit => rw [h a ha g List.mem_cons_self, hts g rfl]
      · rw [List.mem_singleton.mp ha]
    exact fun a ha b hb => (hall a ha).trans (hall b hb).symm

/-- A unit is an interval of what the scan went through. -/
theorem extendUnit_suffix (unit : List EncodedFrame) (f : EncodedFrame) :
    ∃ pre, unit ++ [f] = pre ++ extendUnit unit f := by
  obtain ⟨he, _⟩ | ⟨he, _⟩ := extendUnit_cases unit f <;> rw [he]
  · exact ⟨unit, rfl⟩
  · exact ⟨[], rfl⟩

/-- What the search returns: an interval of the frames, ended by a last layer, of one timestamp,
that passes the test. -/
structure FoundUnit (decoded : ℤ → Bool) (unit rest : List EncodedFrame) : Prop where
  last : ∃ f ∈ unit.getLast?, f.isLastSpatialLayer = true
  oneTimestamp : OneTimestamp unit
  decodable : decodable decoded unit = true

theorem firstDecodable_some {decoded : ℤ → Bool} :
    ∀ {fs unit u rest : List EncodedFrame}, OneTimestamp unit →
      firstDecodable decoded unit fs = some (u, rest) →
      FoundUnit decoded u rest ∧ ∃ pre, unit ++ fs = pre ++ u ++ rest
  | [], _, _, _, _, h => by cases h
  | f :: fs, unit, u, rest, hts, h => by
    have hts' := extendUnit_oneTimestamp hts f
    obtain ⟨pre, hpre⟩ := extendUnit_suffix unit f
    have hsplit : unit ++ f :: fs = pre ++ (extendUnit unit f ++ fs) := by
      rw [← List.append_assoc, ← hpre, List.append_assoc, List.singleton_append]
    simp only [firstDecodable] at h
    split_ifs at h with hc
    · simp only [Option.some.injEq, Prod.mk.injEq] at h
      obtain ⟨rfl, rfl⟩ := h
      simp only [Bool.and_eq_true] at hc
      exact ⟨⟨⟨f, extendUnit_getLast? unit f, hc.1⟩, hts', hc.2⟩, pre, by
        rw [hsplit, List.append_assoc]⟩
    · obtain ⟨hfound, pre', hpre'⟩ := firstDecodable_some hts' h
      refine ⟨hfound, pre ++ pre', ?_⟩
      rw [hsplit, hpre']
      simp only [List.append_assoc]

/-- What the test asks of every frame. -/
theorem decodable_ref {decoded : ℤ → Bool} {unit : List EncodedFrame}
    (h : decodable decoded unit = true) :
    ∀ f ∈ unit, ∀ r ∈ f.references, decoded r = true ∨ ∃ g ∈ unit, g.id = r := by
  simpa only [decodable, List.all_eq_true, Bool.or_eq_true, List.contains_iff_mem,
    List.mem_map] using h

/-- A unit that passes the test lies in every set of ids that takes in each of its frames whose
references are decoded or in the set: its own references are settled lowest ids first. -/
theorem decodable_subset {decoded : ℤ → Bool} {unit : List EncodedFrame} {C : Set ℤ}
    (h : decodable decoded unit = true) (hback : ∀ f ∈ unit, ∀ r ∈ f.references, r < f.id)
    (hready : ∀ f ∈ unit, (∀ r ∈ f.references, decoded r = true ∨ r ∈ C) → f.id ∈ C) :
    ∀ f ∈ unit, f.id ∈ C := by
  have hfin : {i | i ∈ unit.map EncodedFrame.id}.Finite := (unit.map EncodedFrame.id).finite_toSet
  have hall : ∀ i ∈ {i | i ∈ unit.map EncodedFrame.id}, i ∈ C := by
    intro i hi
    refine Set.WellFoundedOn.induction (P := (· ∈ C)) (hfin.wellFoundedOn (r := (· < ·))) hi ?_
    intro i hi ih
    obtain ⟨f, hf, rfl⟩ := List.mem_map.mp hi
    refine hready f hf fun r hr => ?_
    obtain hd | ⟨g, hg, rfl⟩ := decodable_ref h f hf r hr
    · exact .inl hd
    · exact .inr (ih g.id (List.mem_map_of_mem hg) (hback f hf _ hr))
  exact fun f hf => hall f.id (List.mem_map_of_mem hf)

theorem FoundUnit.ne_nil {decoded : ℤ → Bool} {u rest : List EncodedFrame}
    (h : FoundUnit decoded u rest) : u ≠ [] := by
  obtain ⟨f, hf, _⟩ := h.last
  rintro rfl
  cases hf

theorem scanFrame_next (decoded : ℤ → Bool) :
    ∀ (fs : List EncodedFrame) (sc : Scan),
      (fs.foldl (scanFrame decoded) sc).next =
        (sc.next <|> (firstDecodable decoded sc.unit fs).map fun p => unitEnds p.1)
  | [], sc => by simp [firstDecodable]
  | f :: fs, sc => by
    have hends : unitEnds (extendUnit sc.unit f) =
        ⟨((extendUnit sc.unit f).headD f).id, f.id⟩ := by
      rw [unitEnds, extendUnit_getLast?]
      obtain ⟨he, _⟩ | ⟨he, _⟩ := extendUnit_cases sc.unit f <;> rw [he]
      · rfl
      · cases sc.unit <;> rfl
    rw [List.foldl_cons, scanFrame_next decoded fs]
    simp only [scanFrame, firstDecodable]
    split_ifs with hc
    · simp only [Option.map_some, hends]
      cases sc.next <;> simp
    · rfl

/-! ## The cached unit of a state -/

variable {H : Type*} {U : Upstream H}

namespace FrameBuffer
variable {s t : FrameBuffer H}

/-- The frames up to the last continuous unit. -/
def visible (s : FrameBuffer H) : List EncodedFrame :=
  s.held.takeWhile fun f => (f.id : WithBot ℤ) ≤ s.lastContinuousTemporalUnitFrameId

theorem visible_eq (s : FrameBuffer H) : s.upToLastUnit.map FrameInfo.encodedFrame = s.visible := by
  rw [visible, held, List.takeWhile_map]
  rfl

theorem visible_nil (h : s.lastContinuousTemporalUnitFrameId = ⊥) : s.visible = [] := by
  rw [visible, h]
  cases s.held with
  | nil => rfl
  | cons f fs => simp [List.takeWhile]

/-- The frames of the scan are the first of the buffered ones. -/
theorem visible_split (s : FrameBuffer H) : ∃ beyond, s.held = s.visible ++ beyond :=
  ⟨_, (List.takeWhile_append_dropWhile ..).symm⟩

theorem visible_sub {f : EncodedFrame} (hf : f ∈ s.visible) : f ∈ s.held :=
  List.takeWhile_subset _ hf

variable (U) in
/-- The search in the current state. -/
def nextUnit (s : FrameBuffer H) : Option (List EncodedFrame × List EncodedFrame) :=
  firstDecodable (U.wasDecoded s.decodedFrameHistory) [] s.visible

variable (U) in
/-- The cached unit and information are those the scan finds now. -/
def Settled (s : FrameBuffer H) : Prop := findNextAndLastDecodableTemporalUnit U s = s

@[simp] theorem findNext_frames (s : FrameBuffer H) :
    (findNextAndLastDecodableTemporalUnit U s).frames = s.frames := by
  unfold findNextAndLastDecodableTemporalUnit
  split_ifs <;> rfl

@[simp] theorem findNext_held (s : FrameBuffer H) :
    (findNextAndLastDecodableTemporalUnit U s).held = s.held := by
  simp [held]

@[simp] theorem findNext_history (s : FrameBuffer H) :
    (findNextAndLastDecodableTemporalUnit U s).decodedFrameHistory = s.decodedFrameHistory := by
  unfold findNextAndLastDecodableTemporalUnit
  split_ifs <;> rfl

@[simp] theorem findNext_lastContinuousFrameId (s : FrameBuffer H) :
    (findNextAndLastDecodableTemporalUnit U s).lastContinuousFrameId = s.lastContinuousFrameId := by
  unfold findNextAndLastDecodableTemporalUnit
  split_ifs <;> rfl

@[simp] theorem findNext_lastContinuousTemporalUnitFrameId (s : FrameBuffer H) :
    (findNextAndLastDecodableTemporalUnit U s).lastContinuousTemporalUnitFrameId =
      s.lastContinuousTemporalUnitFrameId := by
  unfold findNextAndLastDecodableTemporalUnit
  split_ifs <;> rfl

theorem findNext_advances (s : FrameBuffer H) :
    Advances s (findNextAndLastDecodableTemporalUnit U s) := by
  unfold findNextAndLastDecodableTemporalUnit
  split_ifs <;> exact ⟨rfl, rfl, rfl, rfl, Tracks.refl _ _, Tracks.refl _ _, rfl⟩

/-- The scan reads none of what it writes. -/
theorem findNext_settled (s : FrameBuffer H) : Settled U (findNextAndLastDecodableTemporalUnit U s) := by
  unfold Settled
  by_cases h : s.lastContinuousTemporalUnitFrameId = ⊥
  · simp [findNextAndLastDecodableTemporalUnit, h]
  · simp only [findNextAndLastDecodableTemporalUnit, h, if_false]
    rfl

theorem scan_next (s : FrameBuffer H) :
    (s.scan U).next = (s.nextUnit U).map fun p => unitEnds p.1 := by
  rw [scan, scanFrame_next, visible_eq]
  simp [nextUnit]

theorem settled_next (h : Settled U s) :
    s.nextDecodableTemporalUnit = (s.nextUnit U).map fun p => unitEnds p.1 := by
  rw [← scan_next]
  by_cases hb : s.lastContinuousTemporalUnitFrameId = ⊥
  · have hnone : s.nextDecodableTemporalUnit = none := by
      rw [← h]
      simp [findNextAndLastDecodableTemporalUnit, hb]
    rw [hnone, scan_next, nextUnit, visible_nil hb]
    rfl
  · conv_lhs => rw [← h]
    simp [findNextAndLastDecodableTemporalUnit, hb]

/-! ## Removing the next unit -/

/-- Where the next unit lies in the buffer. -/
theorem nextUnit_split {u rest : List EncodedFrame} (h : s.nextUnit U = some (u, rest)) :
    FoundUnit (U.wasDecoded s.decodedFrameHistory) u rest ∧
      ∃ pre beyond, s.held = pre ++ u ++ (rest ++ beyond) ∧ s.visible = pre ++ u ++ rest := by
  obtain ⟨hfound, pre, hpre⟩ := firstDecodable_some oneTimestamp_nil h
  obtain ⟨beyond, hb⟩ := s.visible_split
  rw [List.nil_append] at hpre
  exact ⟨hfound, pre, beyond, by rw [hb, hpre]; simp only [List.append_assoc], hpre⟩

theorem nextUnit_ends {u rest : List EncodedFrame}
    (h : FoundUnit (U.wasDecoded s.decodedFrameHistory) u rest) :
    ∃ a b, a ∈ u.head? ∧ b ∈ u.getLast? ∧ b.isLastSpatialLayer = true ∧
      unitEnds u = ⟨a.id, b.id⟩ := by
  obtain ⟨b, hb, hl⟩ := h.last
  cases u with
  | nil => exact absurd rfl h.ne_nil
  | cons a u =>
    refine ⟨a, b, rfl, hb, hl, ?_⟩
    rw [unitEnds, Option.mem_def.mp hb]
    rfl

theorem framesOf_nextUnit {u rest : List EncodedFrame} (h : s.nextUnit U = some (u, rest)) :
    (framesOf s.frames (unitEnds u)).map FrameInfo.encodedFrame = u := by
  obtain ⟨hfound, pre, beyond, hheld, _⟩ := nextUnit_split h
  obtain ⟨a, b, ha, hb, _, hends⟩ := nextUnit_ends hfound
  have hord := s.held_ordered
  rw [hheld] at hord
  have hcut := KeyedMap.filter_between hord ha hb
  rw [← hheld, held, List.filter_map] at hcut
  rw [framesOf, hends]
  exact hcut

end FrameBuffer
end WebrtcTrace.Video
