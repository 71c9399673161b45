import WebrtcTrace.Foundations.RunningMax
import WebrtcTrace.Foundations.Saturation
import WebrtcTrace.Video.FrameBuffer
import Mathlib.Data.List.Pairwise

/-! # What `PropagateContinuity` does

The entries of `frames_` are a list of frames in id order (`held`) and a set of flagged ids
(`flaggedIds`). Propagation keeps the first and, one visit at a time, is the forward pass of
`Foundations.Saturation` on the second, with the decoded ids as its base
(`flaggedIds_propagateAt`).

`Advances s t` is what any number of insertions does besides: flags are only added, the two
"last continuous" ids move to the largest id that was newly flagged, and the unit counter moves with
the flagged last-layer frames.
-/

namespace WebrtcTrace.Video
open Saturation
set_option autoImplicit false

variable {H : Type*} (U : Upstream H)

namespace FrameBuffer

/-! ## Frames, ids and flags of a state -/

/-- The buffered frames in id order. -/
def held (s : FrameBuffer H) : List EncodedFrame := s.frames.entries.map FrameInfo.encodedFrame

def ids (s : FrameBuffer H) : Set ℤ := {i | ∃ f ∈ s.held, f.id = i}

def flaggedIds (s : FrameBuffer H) : Set ℤ := {i | s.flagged i = true}

/-- The ids of the flagged frames that are a last spatial layer. -/
def flaggedUnits (s : FrameBuffer H) : Set ℤ :=
  {i | ∃ e ∈ s.frames, e.id = i ∧ e.continuous = true ∧ e.encodedFrame.isLastSpatialLayer = true}

def decodedIds (s : FrameBuffer H) : Set ℤ := {i | U.wasDecoded s.decodedFrameHistory i = true}

/-- The references of the buffered frame with this id. -/
def deps (s : FrameBuffer H) (i : ℤ) : Set ℤ := {r | ∃ f ∈ s.held, f.id = i ∧ r ∈ f.references}

/-- How many flagged frames are a last spatial layer. -/
def unitCount (s : FrameBuffer H) : ℕ :=
  s.frames.entries.countP fun e => e.continuous && e.encodedFrame.isLastSpatialLayer

/-- The ids of the flagged last-layer frames, in order. -/
def flaggedUnitIds (s : FrameBuffer H) : List ℤ :=
  (s.frames.entries.filter fun e => e.continuous && e.encodedFrame.isLastSpatialLayer).map FrameInfo.id

variable {U} {s t u : FrameBuffer H} {i : ℤ}

theorem held_ordered (s : FrameBuffer H) : s.held.Pairwise fun f g => f.id < g.id := by
  rw [held, List.pairwise_map]
  exact s.frames.ordered

theorem held_nodup (s : FrameBuffer H) : s.held.Nodup :=
  s.held_ordered.imp fun hlt heq => absurd (heq ▸ hlt) (lt_irrefl _)

theorem mem_held {f : EncodedFrame} : f ∈ s.held ↔ ∃ e ∈ s.frames, e.encodedFrame = f := by
  simp [held, KeyedMap.mem_iff]

theorem mem_ids : i ∈ s.ids ↔ ∃ e ∈ s.frames, e.id = i := by
  constructor
  · rintro ⟨f, hf, hi⟩
    obtain ⟨e, he, rfl⟩ := mem_held.mp hf
    exact ⟨e, he, hi⟩
  · rintro ⟨e, he, hi⟩
    exact ⟨e.encodedFrame, mem_held.mpr ⟨e, he, rfl⟩, hi⟩

theorem flagged_iff : s.flagged i = true ↔ ∃ e ∈ s.frames, e.id = i ∧ e.continuous = true := by
  unfold flagged
  cases hf : s.frames.find? i with
  | none =>
    simp only [Option.any_none, Bool.false_eq_true, false_iff]
    rintro ⟨e, he, hi, _⟩
    exact KeyedMap.find?_eq_none.mp hf e he hi
  | some e =>
    obtain ⟨he, hi⟩ := KeyedMap.find?_eq_some.mp hf
    simp only [Option.any_some]
    refine ⟨fun hc => ⟨e, he, hi, hc⟩, ?_⟩
    rintro ⟨e', he', hi', hc⟩
    rwa [s.frames.key_injOn he he' (hi.trans hi'.symm)]

theorem flagged_entry {e : FrameInfo} (he : e ∈ s.frames) :
    s.flagged e.id = true ↔ e.continuous = true := by
  rw [flagged_iff]
  refine ⟨?_, fun hc => ⟨e, he, rfl, hc⟩⟩
  rintro ⟨e', he', hi, hc⟩
  rwa [← s.frames.key_injOn he' he hi]

theorem flaggedIds_sub (s : FrameBuffer H) : s.flaggedIds ⊆ s.ids := by
  intro i hi
  obtain ⟨e, he, hid, _⟩ := flagged_iff.mp hi
  exact mem_ids.mpr ⟨e, he, hid⟩

theorem flaggedUnits_sub (s : FrameBuffer H) : s.flaggedUnits ⊆ s.flaggedIds := by
  rintro i ⟨e, he, hi, hc, _⟩
  exact flagged_iff.mpr ⟨e, he, hi, hc⟩

theorem length_flaggedUnitIds (s : FrameBuffer H) : s.flaggedUnitIds.length = s.unitCount := by
  rw [flaggedUnitIds, List.length_map, unitCount, List.countP_eq_length_filter]

theorem nodup_ids_filter (s : FrameBuffer H) (p : FrameInfo → Bool) :
    ((s.frames.entries.filter p).map FrameInfo.id).Nodup :=
  s.frames.nodup_keys.sublist (List.filter_sublist.map _)

theorem nodup_flaggedUnitIds (s : FrameBuffer H) : s.flaggedUnitIds.Nodup := s.nodup_ids_filter _

theorem mem_flaggedUnitIds : i ∈ s.flaggedUnitIds ↔ i ∈ s.flaggedUnits := by
  simp only [flaggedUnitIds, flaggedUnits, List.mem_map, List.mem_filter, Bool.and_eq_true,
    ← KeyedMap.mem_iff, Set.mem_ofPred_eq]
  constructor
  · rintro ⟨e, ⟨he, hc, hl⟩, hi⟩
    exact ⟨e, he, hi, hc, hl⟩
  · rintro ⟨e, he, hi, hc, hl⟩
    exact ⟨e, ⟨he, hc, hl⟩, hi⟩

theorem deps_entry {e : FrameInfo} (he : e ∈ s.frames) :
    s.deps e.id = {r | r ∈ e.encodedFrame.references} := by
  ext r
  constructor
  · rintro ⟨f, hf, hid, hr⟩
    obtain ⟨e', he', rfl⟩ := mem_held.mp hf
    rwa [s.frames.key_injOn he' he hid] at hr
  · exact fun hr => ⟨_, mem_held.mpr ⟨e, he, rfl⟩, rfl, hr⟩

theorem isContinuous_entry {e : FrameInfo} (he : e ∈ s.frames) :
    s.isContinuous U e.encodedFrame = true ↔ Ready s.deps (s.decodedIds U) s.flaggedIds e.id := by
  simp only [isContinuous, List.all_eq_true, Bool.or_eq_true, Ready, deps_entry he,
    Set.mem_ofPred_eq, decodedIds, flaggedIds]

/-- The frames and the flags are all there is to an entry. -/
theorem frames_eq (hheld : ∀ f, f ∈ s.held ↔ f ∈ t.held) (hflag : s.flaggedIds = t.flaggedIds) :
    s.frames = t.frames := by
  have key : ∀ {s t : FrameBuffer H}, (∀ f, f ∈ s.held ↔ f ∈ t.held) →
      s.flaggedIds = t.flaggedIds → ∀ e ∈ s.frames, e ∈ t.frames := by
    intro s t hheld hflag e he
    obtain ⟨e', he', hf⟩ := mem_held.mp ((hheld _).mp (mem_held.mpr ⟨e, he, rfl⟩))
    have hc : e.continuous = true ↔ e'.continuous = true := by
      rw [← flagged_entry he, ← flagged_entry he', FrameInfo.id, FrameInfo.id, hf]
      exact Set.ext_iff.mp hflag _
    have hee : e = e' := by
      cases e
      cases e'
      simp only [FrameInfo.mk.injEq]
      exact ⟨hf.symm, Bool.eq_iff_iff.mpr hc⟩
    exact hee ▸ he'
  exact KeyedMap.ext_mem fun e =>
    ⟨key hheld hflag e, key (fun f => (hheld f).symm) hflag.symm e⟩

/-! ## One visit -/

theorem setContinuous_held (m : FrameMap) (i : ℤ) :
    (setContinuous m i).entries.map FrameInfo.encodedFrame = m.entries.map FrameInfo.encodedFrame := by
  simp only [setContinuous, KeyedMap.mapEntries, List.map_map]
  apply List.map_congr_left
  intro e _
  simp only [Function.comp_apply]
  split <;> rfl

theorem mem_setContinuous {m : FrameMap} {e : FrameInfo} :
    e ∈ setContinuous m i ↔
      ∃ e' ∈ m, (if e'.id = i then { e' with continuous := true } else e') = e :=
  KeyedMap.mem_mapEntries

variable (U) in
/-- What a visit of an entry can do. -/
theorem propagateAt_cases (s : FrameBuffer H) (i : ℤ) :
    (propagateAt U s i = s ∧ ∀ e ∈ s.frames, e.id = i →
      e.continuous = true ∨ ¬ s.isContinuous U e.encodedFrame = true) ∨
    (∃ e ∈ s.frames, e.id = i ∧ e.continuous = false ∧ s.isContinuous U e.encodedFrame = true ∧
      ∃ (num : ℕ) (lastUnit : WithBot ℤ),
        propagateAt U s i = { s with
          frames := setContinuous s.frames i
          lastContinuousFrameId := raiseTo s.lastContinuousFrameId i
          numContinuousTemporalUnits := num
          lastContinuousTemporalUnitFrameId := lastUnit } ∧
        (e.encodedFrame.isLastSpatialLayer = true →
          num = s.numContinuousTemporalUnits + 1 ∧
          lastUnit = raiseTo s.lastContinuousTemporalUnitFrameId i) ∧
        (e.encodedFrame.isLastSpatialLayer = false →
          num = s.numContinuousTemporalUnits ∧
          lastUnit = s.lastContinuousTemporalUnitFrameId)) := by
  cases hf : s.frames.find? i with
  | none =>
    refine .inl ⟨by simp [propagateAt, hf], fun e he hi => ?_⟩
    exact absurd hi (KeyedMap.find?_eq_none.mp hf e he)
  | some e =>
    obtain ⟨he, hi⟩ := KeyedMap.find?_eq_some.mp hf
    by_cases hgo : (!e.continuous && s.isContinuous U e.encodedFrame) = true
    · have hgo' := hgo
      simp only [Bool.and_eq_true, Bool.not_eq_true'] at hgo'
      refine .inr ⟨e, he, hi, hgo'.1, hgo'.2, ?_⟩
      by_cases hl : e.encodedFrame.isLastSpatialLayer = true
      · refine ⟨_, _, ?_, fun _ => ⟨rfl, rfl⟩, fun h => by simp [hl] at h⟩
        simp only [propagateAt, hf, hgo, hl, if_true]
      · refine ⟨_, _, ?_, fun h => absurd h hl, fun _ => ⟨rfl, rfl⟩⟩
        simp only [propagateAt, hf, hgo, hl, if_true, Bool.false_eq_true, if_false]
    · refine .inl ⟨by simp only [propagateAt, hf, hgo, Bool.false_eq_true, if_false], ?_⟩
      intro e' he' hi'
      rw [s.frames.key_injOn he' he (hi'.trans hi.symm)]
      simpa only [Bool.and_eq_true, Bool.not_eq_true', not_and_or, Bool.not_eq_false] using hgo

theorem raiseTo_eq_max (last : WithBot ℤ) (i : ℤ) : raiseTo last i = max last i := by
  unfold raiseTo
  split_ifs with h
  · exact (max_eq_right h.le).symm
  · exact (max_eq_left (not_lt.mp h)).symm

/-- Setting the flag of an entry: its id joins the flagged ids, and the flagged units if it is a
last layer. -/
theorem flags_setContinuous {e : FrameInfo} (he : e ∈ s.frames)
    (ht : t.frames = setContinuous s.frames e.id) :
    t.flaggedIds = insert e.id s.flaggedIds ∧
      t.flaggedUnits = {i | i ∈ s.flaggedUnits ∨
        i = e.id ∧ e.encodedFrame.isLastSpatialLayer = true} := by
  have hmem : ∀ e', e' ∈ t.frames ↔
      ∃ a ∈ s.frames, (if a.id = e.id then { a with continuous := true } else a) = e' := by
    intro e'
    rw [ht, mem_setContinuous]
  constructor
  · ext i
    simp only [flaggedIds, Set.mem_ofPred_eq, Set.mem_insert_iff, flagged_iff, hmem]
    constructor
    · rintro ⟨_, ⟨a, ha, rfl⟩, hi, hc⟩
      split_ifs at hi hc with hae
      · exact .inl (hi.symm.trans hae)
      · exact .inr ⟨a, ha, hi, hc⟩
    · rintro (rfl | ⟨a, ha, hi, hc⟩)
      · exact ⟨_, ⟨e, he, rfl⟩, by simp, by simp⟩
      · refine ⟨_, ⟨a, ha, rfl⟩, ?_, ?_⟩ <;> split_ifs <;> first | exact hi | exact hc | rfl
  · ext i
    simp only [flaggedUnits, Set.mem_ofPred_eq, hmem]
    constructor
    · rintro ⟨_, ⟨a, ha, rfl⟩, hi, hc, hl⟩
      split_ifs at hi hc hl with hae
      · obtain rfl := s.frames.key_injOn ha he hae
        exact .inr ⟨hi.symm, hl⟩
      · exact .inl ⟨a, ha, hi, hc, hl⟩
    · rintro (⟨a, ha, hi, hc, hl⟩ | ⟨rfl, hl⟩)
      · refine ⟨_, ⟨a, ha, rfl⟩, ?_, ?_, ?_⟩ <;> split_ifs <;>
          first | exact hi | exact hc | exact hl | rfl
      · exact ⟨_, ⟨e, he, rfl⟩, by simp, by simp, by simpa using hl⟩

theorem unitCount_setContinuous {e : FrameInfo} (he : e ∈ s.frames) (hc : e.continuous = false)
    (ht : t.frames = setContinuous s.frames e.id) :
    t.unitCount = s.unitCount + if e.encodedFrame.isLastSpatialLayer then 1 else 0 := by
  have h := KeyedMap.countP_mapEntries_at
    (fun a : FrameInfo => if a.id = e.id then { a with continuous := true } else a)
    (fun a => by split <;> rfl) he (fun a ha => if_neg ha)
    fun a => a.continuous && a.encodedFrame.isLastSpatialLayer
  simp only [hc, Bool.false_and, Bool.false_eq_true, if_false, add_zero, if_true,
    Bool.true_and] at h
  rw [unitCount, ht]
  exact h

/-! ## Any number of visits and insertions -/

/-- From `s` to `t` flags were added, each newly flagged frame raised the last continuous ids it
concerns, and each newly flagged last layer was counted. The decode side is untouched. -/
structure Advances (s t : FrameBuffer H) : Prop where
  legacy : t.legacyFrameIdJumpBehavior = s.legacyFrameIdJumpBehavior
  maxSize : t.maxSize = s.maxSize
  history : t.decodedFrameHistory = s.decodedFrameHistory
  dropped : t.numDroppedFrames = s.numDroppedFrames
  frames : Tracks s.flaggedIds t.flaggedIds s.lastContinuousFrameId t.lastContinuousFrameId
  units : Tracks s.flaggedUnits t.flaggedUnits s.lastContinuousTemporalUnitFrameId
    t.lastContinuousTemporalUnitFrameId
  count : t.numContinuousTemporalUnits + s.unitCount = s.numContinuousTemporalUnits + t.unitCount

theorem Advances.refl (s : FrameBuffer H) : Advances s s :=
  ⟨rfl, rfl, rfl, rfl, .refl _ _, .refl _ _, rfl⟩

theorem Advances.trans (h : Advances s t) (h' : Advances t u) : Advances s u where
  legacy := h'.legacy.trans h.legacy
  maxSize := h'.maxSize.trans h.maxSize
  history := h'.history.trans h.history
  dropped := h'.dropped.trans h.dropped
  frames := h.frames.trans h'.frames
  units := h.units.trans h'.units
  count := by
    have := h.count
    have := h'.count
    omega

theorem propagateAt_held (s : FrameBuffer H) (i : ℤ) : (propagateAt U s i).held = s.held := by
  obtain ⟨h, _⟩ | ⟨_, _, _, _, _, _, _, h, _, _⟩ := propagateAt_cases U s i
  · rw [h]
  · rw [h]
    exact setContinuous_held s.frames i

theorem propagateAt_advances (s : FrameBuffer H) (i : ℤ) : Advances s (propagateAt U s i) := by
  obtain ⟨h, _⟩ | ⟨e, he, rfl, hc, _, num, lastUnit, h, hlast, hnot⟩ := propagateAt_cases U s i
  · rw [h]
    exact .refl s
  · have hframes : (propagateAt U s e.id).frames = setContinuous s.frames e.id := by rw [h]
    obtain ⟨hids, hunits⟩ := flags_setContinuous he hframes
    have hcount := unitCount_setContinuous he hc hframes
    refine ⟨by rw [h], by rw [h], by rw [h], by rw [h], ?_, ?_, ?_⟩
    · rw [hids, h, raiseTo_eq_max]
      exact Tracks.raise s.flaggedIds s.lastContinuousFrameId e.id
    · rw [hunits, h]
      cases hl : e.encodedFrame.isLastSpatialLayer with
      | true =>
        have hset : {i | i ∈ s.flaggedUnits ∨ i = e.id ∧ true = true} =
            insert e.id s.flaggedUnits := by
          ext i
          simp [or_comm]
        have hunit : lastUnit = max s.lastContinuousTemporalUnitFrameId e.id := by
          rw [(hlast hl).2, raiseTo_eq_max]
        rw [hset, hunit]
        exact Tracks.raise s.flaggedUnits s.lastContinuousTemporalUnitFrameId e.id
      | false =>
        have hset : {i | i ∈ s.flaggedUnits ∨ i = e.id ∧ false = true} = s.flaggedUnits := by
          ext i
          simp
        rw [hset, (hnot hl).2]
        exact Tracks.refl s.flaggedUnits s.lastContinuousTemporalUnitFrameId
    · rw [hcount, h]
      cases hl : e.encodedFrame.isLastSpatialLayer with
      | true =>
        simp only [(hlast hl).1, if_true]
        omega
      | false =>
        simp only [(hnot hl).1, Bool.false_eq_true, if_false]
        omega

/-- **One visit of `PropagateContinuity` is one visit of the forward pass.** -/
theorem flaggedIds_propagateAt (s : FrameBuffer H) (hi : i ∈ s.ids) :
    (propagateAt U s i).flaggedIds = visit s.deps (s.decodedIds U) s.flaggedIds i := by
  obtain ⟨e, he, rfl⟩ := mem_ids.mp hi
  ext j
  simp only [visit, Set.mem_ofPred_eq]
  obtain ⟨h, hno⟩ | ⟨e', he', hid, _, hgo, _, _, h, _, _⟩ := propagateAt_cases U s e.id
  · rw [h]
    refine ⟨.inl, ?_⟩
    rintro (hj | ⟨rfl, hr⟩)
    · exact hj
    · obtain hc | hn := hno e he rfl
      · exact (flagged_entry he).mpr hc
      · exact absurd ((isContinuous_entry he).mpr hr) hn
  · obtain rfl := s.frames.key_injOn he' he hid
    have hframes : (propagateAt U s e'.id).frames = setContinuous s.frames e'.id := by rw [h]
    rw [(flags_setContinuous he hframes).1, Set.mem_insert_iff]
    have hready := (isContinuous_entry he).mp hgo
    constructor
    · rintro (rfl | hj)
      · exact .inr ⟨rfl, hready⟩
      · exact .inl hj
    · rintro (hj | ⟨rfl, _⟩)
      · exact .inr hj
      · exact .inl rfl

/-! ## The whole propagation -/

theorem propagate_held (xs : List ℤ) (s : FrameBuffer H) :
    (xs.foldl (propagateAt U) s).held = s.held := by
  induction xs generalizing s with
  | nil => rfl
  | cons x xs ih => rw [List.foldl_cons, ih, propagateAt_held]

theorem propagate_advances (xs : List ℤ) (s : FrameBuffer H) :
    Advances s (xs.foldl (propagateAt U) s) := by
  induction xs generalizing s with
  | nil => exact .refl s
  | cons x xs ih => exact (propagateAt_advances s x).trans (ih _)

theorem deps_congr (h : t.held = s.held) : t.deps = s.deps := by
  funext i
  rw [deps, deps, h]

theorem ids_congr (h : t.held = s.held) : t.ids = s.ids := by
  rw [ids, ids, h]

theorem decodedIds_congr (h : t.decodedFrameHistory = s.decodedFrameHistory) :
    t.decodedIds U = s.decodedIds U := by
  rw [decodedIds, decodedIds, h]

theorem flaggedIds_propagate (xs : List ℤ) (s : FrameBuffer H) (hxs : ∀ i ∈ xs, i ∈ s.ids) :
    (xs.foldl (propagateAt U) s).flaggedIds = pass s.deps (s.decodedIds U) s.flaggedIds xs := by
  induction xs generalizing s with
  | nil => rfl
  | cons x xs ih =>
    have hheld := propagateAt_held (U := U) s x
    rw [List.foldl_cons, ih]
    · rw [deps_congr hheld, decodedIds_congr (propagateAt_advances s x).history,
        flaggedIds_propagateAt s (hxs x List.mem_cons_self)]
      rfl
    · intro i hi
      rw [ids_congr hheld]
      exact hxs i (List.mem_cons_of_mem x hi)

end FrameBuffer
end WebrtcTrace.Video
