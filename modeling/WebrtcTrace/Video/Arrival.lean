import WebrtcTrace.Video.Invariant

/-! # Arrival order does not matter

`Grown s fs t`: `t` holds the frames of `s` and `fs`, its flags are the saturation of the flags of
`s`, and everything else moved as `Advances` says. Inserting `fs` in any order gives such a state
(`grown_insertAll`), and there is only one (`Grown.unique`).
-/

namespace WebrtcTrace.Video
open Saturation Runs
set_option autoImplicit false

variable {H : Type*} (U : Upstream H)

namespace FrameBuffer

/-- `InsertFrame` for each frame of the list. -/
def insertAll (s : FrameBuffer H) (fs : List EncodedFrame) : FrameBuffer H :=
  fs.foldl (fun s f => (s.insertFrame U f).2) s

/-- The units that this many calls of `ExtractNextDecodableTemporalUnit` return. -/
def extractTimes : ℕ → FrameBuffer H → List (List EncodedFrame)
  | 0, _ => []
  | n + 1, s => (s.extractNextDecodableTemporalUnit U).1 ::
      extractTimes n (s.extractNextDecodableTemporalUnit U).2

/-- Frames that can all be taken in without `Clear`. -/
structure Insertable (s : FrameBuffer H) (fs : List EncodedFrame) : Prop where
  valid : ∀ f ∈ fs, validReferences f.id f.references = true
  distinct : (fs.map EncodedFrame.id).Nodup
  fresh : ∀ f ∈ fs, ∀ g ∈ s.held, g.id ≠ f.id
  above : ∀ f ∈ fs, U.getLastDecodedFrameId s.decodedFrameHistory < f.id
  fits : s.currentSize + fs.length ≤ s.maxSize

structure Grown (s : FrameBuffer H) (fs : List EncodedFrame) (t : FrameBuffer H) : Prop where
  wellFormed : WellFormed U t
  held : ∀ f, f ∈ t.held ↔ f ∈ fs ∨ f ∈ s.held
  advances : Advances s t
  saturated : Saturated t.deps (s.decodedIds U) t.ids s.flaggedIds t.flaggedIds

variable {U} {s t u : FrameBuffer H} {fs fs' : List EncodedFrame} {frame : EncodedFrame}

theorem held_length (s : FrameBuffer H) : s.held.length = s.currentSize := by
  rw [held, List.length_map, currentSize, KeyedMap.size]

theorem fresh_iff : Fresh s frame ↔ ∀ g ∈ s.held, g.id ≠ frame.id := by
  constructor
  · rintro h g hg
    obtain ⟨e, he, rfl⟩ := mem_held.mp hg
    exact h e he
  · exact fun h e he => h _ (mem_held.mpr ⟨e, he, rfl⟩)

theorem inserted_size (hfresh : Fresh s frame) :
    (inserted U s frame).currentSize = s.currentSize + 1 := by
  rw [← held_length, inserted, findNext_held, propagateContinuity, propagate_held, held_length]
  exact KeyedMap.size_place_of_fresh hfresh

theorem insertFrame_fits (hvalid : validReferences frame.id frame.references = true)
    (hfresh : Fresh s frame)
    (habove : U.getLastDecodedFrameId s.decodedFrameHistory < frame.id)
    (hfits : s.currentSize < s.maxSize) :
    s.insertFrame U frame = (true, inserted U s frame) := by
  have hroom : s.frames.size ≠ s.maxSize := hfits.ne
  rw [insertFrame, hvalid, if_neg (not_le.mpr habove), insertUnlessFull, if_neg hroom]
  exact insertInto_fresh hfresh

theorem deps_eq_of_mem {i : ℤ} (hi : i ∈ s.ids) (hsub : ∀ f ∈ s.held, f ∈ t.held) :
    s.deps i = t.deps i := by
  obtain ⟨f, hf, rfl⟩ := hi
  ext r
  constructor
  · rintro ⟨g, hg, hid, hr⟩
    exact ⟨g, hsub g hg, hid, hr⟩
  · rintro ⟨g, hg, hid, hr⟩
    obtain rfl := held_injOn hg (hsub f hf) hid
    exact ⟨g, hf, rfl, hr⟩

theorem ids_finite (s : FrameBuffer H) : s.ids.Finite := by
  have h : s.ids = {i | i ∈ s.held.map EncodedFrame.id} := by
    ext i
    simp [ids]
  rw [h]
  exact (s.held.map EncodedFrame.id).finite_toSet

/-! ## Growing -/

theorem grown_refl (hw : WellFormed U s) : Grown U s [] s where
  wellFormed := hw
  held f := by simp
  advances := .refl s
  saturated := .of_closed s.flaggedIds_sub hw.closed

theorem Grown.insert (h : Grown U s fs t)
    (hvalid : ∀ r ∈ frame.references, r < frame.id) (hfresh : Fresh t frame)
    (habove : U.getLastDecodedFrameId t.decodedFrameHistory < frame.id) :
    Grown U s (fs ++ [frame]) (inserted U t frame) where
  wellFormed := inserted_wellFormed h.wellFormed hfresh hvalid habove
  held f := by
    rw [inserted_held hfresh, h.held, List.mem_append, List.mem_singleton]
    tauto
  advances := h.advances.trans (inserted_advances hfresh)
  saturated := by
    have hsub : ∀ f ∈ t.held, f ∈ (inserted U t frame).held :=
      fun f hf => (inserted_held hfresh f).mpr (.inr hf)
    have hids : t.ids ⊆ (inserted U t frame).ids := by
      rintro i ⟨f, hf, rfl⟩
      exact ⟨f, hsub f hf, rfl⟩
    have hseed : s.flaggedIds ⊆ t.ids := h.advances.frames.grows.trans t.flaggedIds_sub
    have hlater := inserted_saturated h.wellFormed hfresh hvalid
    rw [decodedIds_congr h.advances.history] at hlater
    exact (h.saturated.congr fun i hi => deps_eq_of_mem hi hsub).trans hseed hids hlater

/-- Inserting the frames of a list that all fit. -/
theorem grown_insertAll (hw : WellFormed U s) (hfs : Insertable U s fs) :
    Grown U s fs (s.insertAll U fs) ∧
      (s.insertAll U fs).currentSize = s.currentSize + fs.length := by
  induction fs using List.reverseRecOn with
  | nil => exact ⟨grown_refl hw, rfl⟩
  | append_singleton fs frame ih =>
    have hfits := hfs.fits
    rw [List.length_append, List.length_singleton] at hfits
    have hdistinct := hfs.distinct
    rw [List.map_append, List.nodup_append] at hdistinct
    obtain ⟨hg, hsize⟩ := ih
      { valid := fun f hf => hfs.valid f (List.mem_append_left _ hf)
        distinct := hdistinct.1
        fresh := fun f hf => hfs.fresh f (List.mem_append_left _ hf)
        above := fun f hf => hfs.above f (List.mem_append_left _ hf)
        fits := by omega }
    have hlast : frame ∈ fs ++ [frame] := List.mem_append_right _ (List.mem_singleton_self frame)
    have hfresh : Fresh (s.insertAll U fs) frame := by
      refine fresh_iff.mpr fun g hgt => ?_
      obtain hgf | hgs := (hg.held g).mp hgt
      · exact hdistinct.2.2 g.id (List.mem_map_of_mem hgf) frame.id (List.mem_singleton_self _)
      · exact hfs.fresh frame hlast g hgs
    have habove : U.getLastDecodedFrameId (s.insertAll U fs).decodedFrameHistory < frame.id := by
      rw [hg.advances.history]
      exact hfs.above frame hlast
    have hroom : (s.insertAll U fs).currentSize < (s.insertAll U fs).maxSize := by
      rw [hg.advances.maxSize, hsize]
      omega
    have hstep : s.insertAll U (fs ++ [frame]) = inserted U (s.insertAll U fs) frame := by
      rw [insertAll, List.foldl_append]
      exact congrArg Prod.snd (insertFrame_fits (hfs.valid frame hlast) hfresh habove hroom)
    rw [hstep]
    refine ⟨hg.insert (validReferences_backward (hfs.valid frame hlast)) hfresh habove, ?_⟩
    rw [inserted_size hfresh, hsize, List.length_append, List.length_singleton]
    omega

/-! ## Only one state can be reached -/

/-- Two settled states that a scan cannot tell apart cache the same. -/
theorem settled_congr (hs : Settled U s) (ht : Settled U t) (hframes : s.frames = t.frames)
    (hhist : s.decodedFrameHistory = t.decodedFrameHistory)
    (hunit : s.lastContinuousTemporalUnitFrameId = t.lastContinuousTemporalUnitFrameId) :
    s.nextDecodableTemporalUnit = t.nextDecodableTemporalUnit ∧
      s.decodableTemporalUnitsInfo = t.decodableTemporalUnitsInfo := by
  have hscan : s.scan U = t.scan U := by
    rw [scan, scan, upToLastUnit, upToLastUnit, hframes, hhist, hunit]
  rw [← hs, ← ht]
  unfold findNextAndLastDecodableTemporalUnit
  rw [hunit]
  split_ifs
  · exact ⟨rfl, rfl⟩
  · simp only [hscan, hframes, and_self]

theorem Grown.unique (hw : WellFormed U s) (hmem : ∀ f, f ∈ fs ↔ f ∈ fs') (h : Grown U s fs t)
    (h' : Grown U s fs' u) : t = u := by
  have hheld : ∀ f, f ∈ t.held ↔ f ∈ u.held := by
    intro f
    rw [h.held, h'.held, hmem]
  have hids : t.ids = u.ids := by
    ext i
    exact exists_congr fun f => and_congr_left fun _ => hheld f
  have hdeps : t.deps = u.deps := by
    funext i
    ext r
    exact exists_congr fun f => and_congr_left fun _ => hheld f
  have hflags : t.flaggedIds = u.flaggedIds := by
    have hsat := h'.saturated
    rw [← hids, ← hdeps] at hsat
    exact h.saturated.unique t.ids_finite h.wellFormed.dep_lt hsat
  have hframes : t.frames = u.frames := frames_eq hheld hflags
  have hunits : t.flaggedUnits = u.flaggedUnits := by
    rw [flaggedUnits, flaggedUnits, hframes]
  have hlast : t.lastContinuousFrameId = u.lastContinuousFrameId :=
    h.advances.frames.unique hw.frameCap (hflags ▸ h'.advances.frames)
  have hlastUnit : t.lastContinuousTemporalUnitFrameId = u.lastContinuousTemporalUnitFrameId :=
    h.advances.units.unique hw.unitCap (hunits ▸ h'.advances.units)
  have hnum : t.numContinuousTemporalUnits = u.numContinuousTemporalUnits := by
    have hcount : t.unitCount = u.unitCount := by rw [unitCount, unitCount, hframes]
    have := h.advances.count
    have := h'.advances.count
    omega
  have hhist := h.advances.history.trans h'.advances.history.symm
  obtain ⟨hnext, hinfo⟩ :=
    settled_congr h.wellFormed.settled h'.wellFormed.settled hframes hhist hlastUnit
  have hlegacy := h.advances.legacy.trans h'.advances.legacy.symm
  have hmax := h.advances.maxSize.trans h'.advances.maxSize.symm
  have hdropped := h.advances.dropped.trans h'.advances.dropped.symm
  cases t
  cases u
  simp only [mk.injEq]
  exact ⟨hlegacy, hmax, hframes, hnext, hinfo, hlast, hlastUnit, hhist, hnum, hdropped⟩

theorem Insertable.perm (hp : fs.Perm fs') (h : Insertable U s fs) : Insertable U s fs' where
  valid f hf := h.valid f (hp.mem_iff.mpr hf)
  distinct := (hp.map EncodedFrame.id).nodup_iff.mp h.distinct
  fresh f hf := h.fresh f (hp.mem_iff.mpr hf)
  above f hf := h.above f (hp.mem_iff.mpr hf)
  fits := by
    rw [← hp.length_eq]
    exact h.fits

end FrameBuffer

open FrameBuffer

/-- **Arrival order does not matter.** From every reachable state, two orders of inserting the same
new frames, all of which fit, end with the same buffered frames and flags, the same ids, information
and counts, and the same units from then on. -/
theorem arrival_order_irrelevant (hU : U.Sound) (legacy : Bool) (maxSize : ℕ)
    (tr : List (FrameBuffer H × Op)) (s : FrameBuffer H) (h : BufferRun U legacy maxSize tr s)
    (fs fs' : List EncodedFrame) (hfs : Insertable U s fs) (hperm : fs.Perm fs') :
    let t := s.insertAll U fs
    let t' := s.insertAll U fs'
    t.frames = t'.frames ∧
    t.lastContinuousFrameId = t'.lastContinuousFrameId ∧
    t.lastContinuousTemporalUnitFrameId = t'.lastContinuousTemporalUnitFrameId ∧
    t.decodableTemporalUnitsInfo = t'.decodableTemporalUnitsInfo ∧
    t.numContinuousTemporalUnits = t'.numContinuousTemporalUnits ∧
    t.getNumberOfBufferedContinuousTemporalUnits =
      t'.getNumberOfBufferedContinuousTemporalUnits ∧
    ∀ n, extractTimes U n t = extractTimes U n t' := by
  have hw := wellFormed_run hU h
  have heq : s.insertAll U fs = s.insertAll U fs' :=
    (grown_insertAll hw hfs).1.unique hw (fun f => hperm.mem_iff)
      (grown_insertAll hw (hfs.perm hperm)).1
  intro t t'
  have ht : t = t' := heq
  rw [ht]
  exact ⟨rfl, rfl, rfl, rfl, rfl, rfl, fun _ => rfl⟩

/-- A chain of three frames and a frame of its own. -/
def chainedFrames : List EncodedFrame :=
  [⟨2, 20, [1], true, false⟩, ⟨5, 50, [3, 2], true, false⟩, ⟨3, 30, [2], true, false⟩,
    ⟨4, 40, [], true, true⟩]

/-- The buffer after a keyframe was inserted and extracted. -/
def keyframeDecoded : FrameBuffer (List (ℤ × UInt32)) :=
  [Op.insertFrame ⟨1, 10, [], true, true⟩, .extractNextDecodableTemporalUnit].foldl
    (apply .unbounded) (.create .unbounded true 10)

theorem arrival_order_irrelevant_chained :
    (keyframeDecoded.insertAll .unbounded chainedFrames).lastContinuousFrameId = (5 : ℤ) ∧
    (keyframeDecoded.insertAll .unbounded chainedFrames).frames =
      (keyframeDecoded.insertAll .unbounded chainedFrames.reverse).frames := by
  refine ⟨by decide, ?_⟩
  exact (arrival_order_irrelevant .unbounded Upstream.unbounded_exact.toSound true 10 _
    keyframeDecoded (Run.of_next _ _ _) chainedFrames chainedFrames.reverse
    ⟨by decide, by decide, by decide, by decide, by decide⟩
    chainedFrames.reverse_perm.symm).1

end WebrtcTrace.Video
