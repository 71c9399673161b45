import WebrtcTrace.Video.Invariant
import Mathlib.Data.List.TakeWhile

/-! # `GetNumberOfBufferedContinuousTemporalUnits` and what can be extracted

The count is of flagged last-layer frames; extraction asks the decode history. `countedUnits` cuts
the frames up to the last continuous unit at the frames that are counted, `drainUnits` at the frames
that repeated extraction stops at. Extraction stops at counted frames only, so it never returns more
units than are counted, and it returns as many exactly when every counted unit refers to nothing but
decoded frames, itself and the counted units before it (`drainUnits_length_iff`).
-/

namespace WebrtcTrace.Video
open Runs
set_option autoImplicit false

/-- The units that end at a flagged last-layer frame. -/
def countedUnits (flag : ℤ → Bool) (unit : List EncodedFrame) :
    List EncodedFrame → List (List EncodedFrame)
  | [] => []
  | f :: fs =>
    if f.isLastSpatialLayer && flag f.id then extendUnit unit f :: countedUnits flag [] fs
    else countedUnits flag (extendUnit unit f) fs

/-- Decoded, or in this unit. -/
def withUnit (decoded : ℤ → Bool) (unit : List EncodedFrame) : ℤ → Bool :=
  fun i => decoded i || (unit.map EncodedFrame.id).contains i

/-- Every unit passes the decodability test once the units before it are decoded. -/
def selfContained (decoded : ℤ → Bool) : List (List EncodedFrame) → Bool
  | [] => true
  | u :: us => decodable decoded u && selfContained (withUnit decoded u) us

/-- The units extracted one after the other. -/
def drainUnits (decoded : ℤ → Bool) (unit : List EncodedFrame) :
    List EncodedFrame → List (List EncodedFrame)
  | [] => []
  | f :: fs =>
    if f.isLastSpatialLayer && decodable decoded (extendUnit unit f) then
      extendUnit unit f :: drainUnits (withUnit decoded (extendUnit unit f)) [] fs
    else drainUnits decoded (extendUnit unit f) fs

/-! ## Counted and extracted units of a list of frames -/

section Walks
variable {flag decoded : ℤ → Bool} {unit fs : List EncodedFrame} {f : EncodedFrame}

theorem drainUnits_firstDecodable (decoded : ℤ → Bool) :
    ∀ (fs unit : List EncodedFrame), drainUnits decoded unit fs =
      match firstDecodable decoded unit fs with
      | none => []
      | some (u, rest) => u :: drainUnits (withUnit decoded u) [] rest
  | [], _ => rfl
  | f :: fs, unit => by
    rw [drainUnits, firstDecodable]
    split_ifs
    · rfl
    · exact drainUnits_firstDecodable decoded fs (extendUnit unit f)

/-- References point down and no frame is ready without its flag. -/
structure FlagsClosed (flag decoded : ℤ → Bool) (fs : List EncodedFrame) : Prop where
  backward : ∀ f ∈ fs, ∀ r ∈ f.references, r < f.id
  ready : ∀ f ∈ fs, (∀ r ∈ f.references, decoded r = true ∨ flag r = true) → flag f.id = true

theorem mem_extendUnit {g : EncodedFrame} (h : g ∈ extendUnit unit f) : g ∈ unit ∨ g = f := by
  obtain ⟨he, _⟩ | ⟨he, _⟩ := extendUnit_cases unit f <;> rw [he] at h
  · exact .inr (List.mem_singleton.mp h)
  · exact (List.mem_append.mp h).imp_right List.mem_singleton.mp

theorem self_mem_extendUnit : f ∈ extendUnit unit f := List.mem_of_getLast? (extendUnit_getLast? unit f)

theorem FlagsClosed.extend (h : FlagsClosed flag decoded (unit ++ f :: fs)) :
    FlagsClosed flag decoded (extendUnit unit f ++ fs) := by
  have hsub : ∀ g ∈ extendUnit unit f ++ fs, g ∈ unit ++ f :: fs := by
    intro g hg
    obtain hg | hg := List.mem_append.mp hg
    · obtain hg | rfl := mem_extendUnit hg
      · exact List.mem_append_left _ hg
      · exact List.mem_append_right _ List.mem_cons_self
    · exact List.mem_append_right _ (List.mem_cons_of_mem f hg)
  exact ⟨fun g hg => h.backward g (hsub g hg), fun g hg => h.ready g (hsub g hg)⟩

/-- A unit that can be extracted is flagged throughout. -/
theorem FlagsClosed.flagged (h : FlagsClosed flag decoded (unit ++ fs))
    (hdec : decodable decoded unit = true) : ∀ g ∈ unit, flag g.id = true :=
  decodable_subset (C := {i | flag i = true}) hdec
    (fun g hg => h.backward g (List.mem_append_left _ hg))
    fun g hg => h.ready g (List.mem_append_left _ hg)

/-- After such a unit was decoded. -/
theorem FlagsClosed.decode (h : FlagsClosed flag decoded (unit ++ fs))
    (hflag : ∀ g ∈ unit, flag g.id = true) : FlagsClosed flag (withUnit decoded unit) fs where
  backward g hg := h.backward g (List.mem_append_right _ hg)
  ready g hg hrefs := by
    refine h.ready g (List.mem_append_right _ hg) fun r hr => ?_
    obtain hd | hf := hrefs r hr
    · simp only [withUnit, Bool.or_eq_true, List.contains_iff_mem, List.mem_map] at hd
      obtain hd | ⟨a, ha, rfl⟩ := hd
      · exact .inl hd
      · exact .inr (hflag a ha)
    · exact .inr hf

/-- Extraction stops at counted frames only. -/
theorem drainUnits_length_le :
    ∀ {fs unit : List EncodedFrame} {decoded : ℤ → Bool}, FlagsClosed flag decoded (unit ++ fs) →
      (drainUnits decoded unit fs).length ≤ fs.countP fun f => flag f.id && f.isLastSpatialLayer
  | [], _, _, _ => le_rfl
  | f :: fs, unit, decoded, h => by
    have hext := h.extend
    rw [drainUnits, List.countP_cons]
    split_ifs with hstop hcount
    · have hdec : decodable decoded (extendUnit unit f) = true := (Bool.and_eq_true_iff.mp hstop).2
      have hrest : FlagsClosed flag (withUnit decoded (extendUnit unit f)) ([] ++ fs) :=
        hext.decode (hext.flagged hdec)
      simpa using drainUnits_length_le hrest
    · simp only [Bool.and_eq_true] at hstop hcount
      exact absurd ⟨hext.flagged hstop.2 f self_mem_extendUnit, hstop.1⟩ hcount
    · exact (drainUnits_length_le hext).trans (Nat.le_add_right _ _)
    · exact drainUnits_length_le hext

/-- **As many units can be extracted as are counted exactly when the counted ones are
self-contained.** -/
theorem drainUnits_length_iff :
    ∀ {fs unit : List EncodedFrame} {decoded : ℤ → Bool}, FlagsClosed flag decoded (unit ++ fs) →
      ((fs.countP fun f => flag f.id && f.isLastSpatialLayer) =
          (drainUnits decoded unit fs).length ↔
        selfContained decoded (countedUnits flag unit fs) = true)
  | [], _, _, _ => by simp [drainUnits, countedUnits, selfContained]
  | f :: fs, unit, decoded, h => by
    have hext := h.extend
    rw [drainUnits, countedUnits, List.countP_cons]
    by_cases hcount : (f.isLastSpatialLayer && flag f.id) = true
    · have hcount' : (flag f.id && f.isLastSpatialLayer) = true := by rwa [Bool.and_comm]
      have hlast : f.isLastSpatialLayer = true := (Bool.and_eq_true_iff.mp hcount).1
      rw [if_pos hcount, if_pos hcount', hlast, Bool.true_and, selfContained]
      by_cases hdec : decodable decoded (extendUnit unit f) = true
      · -- extracted where it is counted: both go on from an empty unit
        have hrest : FlagsClosed flag (withUnit decoded (extendUnit unit f)) ([] ++ fs) :=
          hext.decode (hext.flagged hdec)
        rw [if_pos hdec, hdec, Bool.true_and, List.length_cons, ← drainUnits_length_iff hrest]
        omega
      · -- counted and passed over: extraction stays behind
        have hle := drainUnits_length_le hext
        rw [if_neg hdec]
        refine ⟨fun heq => by omega, fun hself => ?_⟩
        exact absurd (Bool.and_eq_true_iff.mp hself).1 hdec
    · have hcount' : ¬ (flag f.id && f.isLastSpatialLayer) = true := by rwa [Bool.and_comm]
      have hstop : ¬ (f.isLastSpatialLayer && decodable decoded (extendUnit unit f)) = true := by
        rw [Bool.and_eq_true]
        rintro ⟨hl, hdec⟩
        exact hcount (Bool.and_eq_true_iff.mpr ⟨hl, hext.flagged hdec f self_mem_extendUnit⟩)
      rw [if_neg hcount, if_neg hcount', if_neg hstop, add_zero]
      exact drainUnits_length_iff hext

end Walks

/-! ## Counting and draining a buffer -/

variable {H : Type*} (U : Upstream H)

namespace FrameBuffer

/-- Repeated calls of `ExtractNextDecodableTemporalUnit` return these units and then nothing. -/
inductive Drains : FrameBuffer H → List (List EncodedFrame) → Prop
  | done {s : FrameBuffer H} : (s.extractNextDecodableTemporalUnit U).1 = [] → Drains s []
  | extract {s : FrameBuffer H} {units : List (List EncodedFrame)} :
      (s.extractNextDecodableTemporalUnit U).1 ≠ [] →
      Drains (s.extractNextDecodableTemporalUnit U).2 units →
      Drains s ((s.extractNextDecodableTemporalUnit U).1 :: units)

/-- The units that are counted: the frames up to the last continuous unit, cut at its end and at the
ends of the continuous units before it. -/
def continuousUnits (s : FrameBuffer H) : List (List EncodedFrame) :=
  countedUnits s.flagged [] s.visible

/-- Every counted unit refers to decoded frames, itself and counted units before it only. -/
def unitsSelfContained (s : FrameBuffer H) : Bool :=
  selfContained (U.wasDecoded s.decodedFrameHistory) s.continuousUnits

/-- Taking up to a bound from what is left of a list leaves off where it did on the whole list. -/
theorem takeWhile_rest {α : Type*} {p : α → Bool} {l xs ys zs : List α}
    (hl : l = xs ++ ys ++ zs) (h : l.takeWhile p = xs ++ ys) : (ys ++ zs).takeWhile p = ys := by
  have hall : ∀ a ∈ xs ++ ys, p a = true := by
    rw [← h]
    exact fun a ha => List.mem_takeWhile_imp ha
  have hzs : zs.takeWhile p = [] := by
    rw [hl, List.takeWhile_append_of_pos hall] at h
    exact List.append_right_eq_self.mp h
  rw [List.takeWhile_append_of_pos fun a ha => hall a (List.mem_append_right _ ha), hzs,
    List.append_nil]

variable {U} {s t : FrameBuffer H}

theorem count_eq (s : FrameBuffer H) : s.getNumberOfBufferedContinuousTemporalUnits =
    s.visible.countP fun f => s.flagged f.id && f.isLastSpatialLayer := by
  unfold getNumberOfBufferedContinuousTemporalUnits
  split_ifs with h
  · rw [visible_nil h, List.countP_nil]
  · rw [← visible_eq, List.countP_map]
    refine List.countP_congr fun e he => ?_
    have hmem : e ∈ s.frames := List.takeWhile_subset _ he
    simp only [Function.comp_apply, Bool.and_eq_true]
    exact and_congr_left fun _ => (flagged_entry hmem).symm

theorem flagsClosed_visible (hw : WellFormed U s) :
    FlagsClosed s.flagged (U.wasDecoded s.decodedFrameHistory) ([] ++ s.visible) where
  backward f hf := hw.backward f (visible_sub hf)
  ready f hf hrefs := by
    refine hw.closed f.id ⟨f, visible_sub hf, rfl⟩ ?_
    rintro r ⟨g, hg, hgid, hr⟩
    obtain rfl := held_injOn hg (visible_sub hf) hgid
    exact hrefs r hr

/-- One extraction takes the first of the drained units. -/
theorem extract_drainUnits (hU : U.Exact) (hw : WellFormed U s) :
    (s.extractNextDecodableTemporalUnit U = ([], s) ∧
      drainUnits (U.wasDecoded s.decodedFrameHistory) [] s.visible = []) ∨
    ∃ u t, s.extractNextDecodableTemporalUnit U = (u, t) ∧ u ≠ [] ∧
      t.visible.length < s.visible.length ∧
      drainUnits (U.wasDecoded s.decodedFrameHistory) [] s.visible =
        u :: drainUnits (U.wasDecoded t.decodedFrameHistory) [] t.visible := by
  rw [drainUnits_firstDecodable]
  obtain ⟨hu, h⟩ | ⟨u, rest, hu, b, hb, t, h, he, hh⟩ := extract_cases hw.settled
  · refine .inl ⟨h, ?_⟩
    rw [nextUnit] at hu
    rw [hu]
  · obtain ⟨hfound, pre, beyond, hheld, hvis⟩ := nextUnit_split hu
    have hin := nextUnit_inOrder hw hu
    have hvisible : t.visible = rest := by
      rw [visible, he.unitLast, he.held_eq hheld hb]
      rw [← List.append_assoc] at hheld
      exact takeWhile_rest hheld hvis
    have hdecoded : U.wasDecoded t.decodedFrameHistory =
        withUnit (U.wasDecoded s.decodedFrameHistory) u := by
      funext i
      rw [hh, Bool.eq_iff_iff]
      simp only [withUnit, Bool.or_eq_true, List.contains_iff_mem]
      exact ⟨fun hi => (wasDecoded_noteDecoded hU.toSound hin hi).symm,
        fun hi => noteDecoded_wasDecoded hU hin hi.symm⟩
    refine .inr ⟨u, t, h, hfound.ne_nil, ?_, ?_⟩
    · have hpos : 0 < u.length := List.length_pos_iff.mpr hfound.ne_nil
      rw [hvisible, hvis, List.length_append, List.length_append]
      omega
    · rw [nextUnit] at hu
      rw [hu, hvisible, hdecoded]

theorem drains_eq (hU : U.Exact) {units : List (List EncodedFrame)} (hd : Drains U s units)
    (hw : WellFormed U s) :
    units = drainUnits (U.wasDecoded s.decodedFrameHistory) [] s.visible := by
  induction hd with
  | done hnil =>
    obtain ⟨_, h⟩ | ⟨u, t, h, hne, _⟩ := extract_drainUnits hU hw
    · exact h.symm
    · exact absurd (by rw [h] at hnil; exact hnil) hne
  | extract hne _ ih =>
    have hstep := ih (extract_wellFormed hU.toSound hw)
    obtain ⟨h, _⟩ | ⟨u, t, h, _, _, hdrain⟩ := extract_drainUnits hU hw
    · exact absurd (by rw [h]) hne
    · rw [hdrain, hstep, h]

theorem exists_drains (hU : U.Exact) (hw : WellFormed U s) : ∃ units, Drains U s units := by
  generalize hn : s.visible.length = n
  induction n using Nat.strong_induction_on generalizing s with
  | _ n ih =>
    obtain ⟨h, _⟩ | ⟨u, t, h, hne, hlt, _⟩ := extract_drainUnits hU hw
    · exact ⟨[], .done (by rw [h])⟩
    · have hwt := extract_wellFormed hU.toSound hw
      rw [h] at hwt
      obtain ⟨units, hd⟩ := ih t.visible.length (hn ▸ hlt) hwt rfl
      refine ⟨_, .extract (by rwa [h]) (by rwa [h])⟩

end FrameBuffer

open FrameBuffer

/-- **When the count is what can be extracted.** In every reachable state repeated extraction ends,
and it has returned as many units as `GetNumberOfBufferedContinuousTemporalUnits` counted exactly
when the counted units are self-contained. -/
theorem playable_units_iff_self_contained (hU : U.Exact) (legacy : Bool) (maxSize : ℕ)
    (tr : List (FrameBuffer H × Op)) (s : FrameBuffer H) (h : BufferRun U legacy maxSize tr s) :
    (∃ units, Drains U s units) ∧ ∀ units, Drains U s units →
      (s.getNumberOfBufferedContinuousTemporalUnits = units.length ↔
        s.unitsSelfContained U = true) := by
  have hw := wellFormed_run hU.toSound h
  refine ⟨exists_drains hU hw, fun units hd => ?_⟩
  rw [drains_eq hU hd hw, count_eq, unitsSelfContained, continuousUnits]
  exact drainUnits_length_iff (flagsClosed_visible hw)

/-- A keyframe and a frame that refers to it, each a unit of its own. -/
def keyframeAndDelta : List Op :=
  [.insertFrame ⟨1, 10, [], true, true⟩, .insertFrame ⟨2, 20, [1], true, false⟩]

/-- The buffer after these operations. -/
def bufferAfter (ops : List Op) : FrameBuffer (List (ℤ × UInt32)) :=
  ops.foldl (apply .unbounded) (.create .unbounded true 10)

theorem playable_units_iff_self_contained_delta :
    (bufferAfter keyframeAndDelta).getNumberOfBufferedContinuousTemporalUnits = 2 ∧
    ∀ units, Drains .unbounded (bufferAfter keyframeAndDelta) units → units.length = 2 := by
  refine ⟨by decide, fun units hd => ?_⟩
  have hiff := (playable_units_iff_self_contained .unbounded Upstream.unbounded_exact true 10 _
    (bufferAfter keyframeAndDelta) (Run.of_next _ _ _)).2 units hd
  exact (hiff.mpr (by decide)).symm

/-- Dropping the keyframe leaves a frame that is counted and can never be extracted. -/
theorem playable_units_after_drop :
    ¬ ∀ (tr : List (FrameBuffer (List (ℤ × UInt32)) × Op)) (s : FrameBuffer (List (ℤ × UInt32))),
      BufferRun .unbounded true 10 tr s → ∀ units, Drains .unbounded s units →
        s.getNumberOfBufferedContinuousTemporalUnits = units.length := by
  intro h
  have hcount := h _ (bufferAfter (keyframeAndDelta ++ [.dropNextDecodableTemporalUnit]))
    (Run.of_next _ _ _) [] (.done (by decide))
  exact absurd hcount (by decide)

end WebrtcTrace.Video
