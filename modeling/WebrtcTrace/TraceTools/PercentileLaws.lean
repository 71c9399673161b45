import WebrtcTrace.TraceTools.ClockShift
import WebrtcTrace.TraceTools.FreezeAnalysis
import WebrtcTrace.TraceTools.Schedule
import WebrtcTrace.TraceTools.WindowTrace

/-! # The percentiles of all the tools

Every tool has its own copy of `percentile`. Two weigh the neighbours with `1 - weight` and `weight`
after an early return for a single value, one does so with `None` for the empty list, and the two
analysis tools weigh them with `hi - k` and `k - lo`. All of them give the point on the line through
the sorted values (`toolsGive_iff`), and `pick_stat` rounds three of its points.
-/

namespace WebrtcTrace.TraceTools
set_option autoImplicit false

/-! ## The copies -/

namespace Compare

/-- `percentile` of `trace_tools/compare_run_vs_replay.py`. -/
def percentile (values : List ℚ) (pct : ℚ) : Except PyError (Option ℚ) :=
  if values = [] then .ok none
  else match sorted values with
    | [value] => .ok (some value)
    | ordered =>
      let position := ((ordered.length - 1 : ℕ) : ℚ) * (pct / 100)
      if ⌊position⌋ = ⌈position⌉ then (item ordered ⌊position⌋).map some
      else
        let weight := position - ⌊position⌋
        (item ordered ⌊position⌋).bind fun lo => (item ordered ⌈position⌉).map fun hi =>
          some (lo * (1 - weight) + hi * weight)

/-- Apart from the empty list it is the percentile of the trace builders. -/
theorem percentile_eq_map (message : String) {values : List ℚ} (hne : values ≠ []) (pct : ℚ) :
    percentile values pct = (TraceTools.percentile message values pct).map some := by
  rw [percentile, if_neg hne, TraceTools.percentile]
  split
  · next heq =>
    rw [heq]
    rfl
  · next hsingle =>
    split
    · next heq =>
      refine absurd (List.length_eq_zero_iff.mp ?_) hne
      rw [← sorted_length, heq, List.length_nil]
    · next value heq => exact absurd heq (hsingle value)
    · dsimp only
      split_ifs
      · rfl
      · cases item (sorted values) ⌊((((sorted values).length - 1 : ℕ) : ℚ) * (pct / 100))⌋ with
        | error e => rfl
        | ok lo =>
          cases item (sorted values) ⌈((((sorted values).length - 1 : ℕ) : ℚ) * (pct / 100))⌉ <;> rfl

end Compare

/-! ## What the tools give -/

/-- Every copy gives `q` for the list. -/
structure ToolsGive (values : List ℚ) (pct q : ℚ) : Prop where
  window : Window.percentile values pct = .ok q
  packet : Packet.percentile values pct = .ok q
  compare : Compare.percentile values pct = .ok (some q)
  gaps : Gaps.percentile values pct = .ok (some q)
  freezes : Freezes.percentile values pct = .ok (some q)

theorem toolsGive_iff {values : List ℚ} (hne : values ≠ []) {pct q : ℚ} (h0 : 0 ≤ pct)
    (h100 : pct ≤ 100) : ToolsGive values pct q ↔ q = percentilePoint values pct := by
  constructor
  · intro h
    exact Except.ok.inj (h.window.symm.trans (percentile_eq _ hne h0 h100))
  · rintro rfl
    refine ⟨percentile_eq _ hne h0 h100, percentile_eq _ hne h0 h100, ?_,
      Gaps.percentile_eq hne h0 h100, Gaps.percentile_eq hne h0 h100⟩
    rw [Compare.percentile_eq_map "" hne, percentile_eq _ hne h0 h100]
    rfl

theorem percentilePoint_perm {values values' : List ℚ} (h : values'.Perm values) (pct : ℚ) :
    percentilePoint values' pct = percentilePoint values pct := by
  have hat : sortedAt values' = sortedAt values := by
    funext i
    rw [sortedAt, sortedAt, sorted_eq_of_perm h]
  rw [percentilePoint, percentilePoint, hat, position, position, h.length_eq]

theorem percentilePoint_shifted {values : List ℚ} (hne : values ≠ []) {pct : ℚ} (h0 : 0 ≤ pct)
    (h100 : pct ≤ 100) (c : ℚ) :
    percentilePoint (values.map (· + c)) pct = percentilePoint values pct + c := by
  have hshifted := percentile_shifted "" c values pct
  rw [percentile_eq _ (mt List.map_eq_nil_iff.mp hne) h0 h100, percentile_eq _ hne h0 h100] at hshifted
  exact Except.ok.inj hshifted

theorem percentilePoint_between {values : List ℚ} (hne : values ≠ []) {pct lo hi : ℚ} (h0 : 0 ≤ pct)
    (h100 : pct ≤ 100) (hlo : values.min? = some lo) (hhi : values.max? = some hi) :
    lo ≤ percentilePoint values pct ∧ percentilePoint values pct ≤ hi := by
  have hvalue := percentile_eq "" hne h0 h100
  exact ⟨percentile_mem (convex_Ici lo) (List.min?_eq_some_iff.mp hlo).2 hvalue,
    percentile_mem (convex_Iic hi) (List.max?_eq_some_iff.mp hhi).2 hvalue⟩

/-! ## `pick_stat` -/

namespace Packet

/-- The statistics of a group are in the order of their names. -/
theorem pickStat_ordered {samples : List ℤ} (hne : samples ≠ []) :
    ∃ lo median p75 p95 hi, samples.min? = some lo ∧ pickStat samples .median = .ok median ∧
      pickStat samples .p75 = .ok p75 ∧ pickStat samples .p95 = .ok p95 ∧
      pickStat samples .max = .ok hi ∧ samples.max? = some hi ∧
      lo ≤ median ∧ median ≤ p75 ∧ p75 ≤ p95 ∧ p95 ≤ hi := by
  obtain ⟨lo, hlo⟩ := Option.isSome_iff_exists.mp (List.isSome_min?_of_ne_nil hne)
  obtain ⟨hi, hhi⟩ := Option.isSome_iff_exists.mp (List.isSome_max?_of_ne_nil hne)
  have hmedian := @pickStat_eq samples hne .median 50 rfl
  have hp75 := @pickStat_eq samples hne .p75 75 rfl
  have hp95 := @pickStat_eq samples hne .p95 95 rfl
  refine ⟨lo, _, _, _, hi, hlo, hmedian, hp75, hp95, pickStat_max hhi, hhi,
    le_pickStat (List.min?_eq_some_iff.mp hlo).2 hmedian, ?_, ?_,
    pickStat_le (List.max?_eq_some_iff.mp hhi).2 hp95⟩
  · exact Py.round_mono (percentilePoint_mono (by norm_num) (by norm_num) (by norm_num))
  · exact Py.round_mono (percentilePoint_mono (by norm_num) (by norm_num) (by norm_num))

end Packet

/-! ## The laws -/

/-- **The tools agree on a sound percentile.** Their common value is between the extremes, whatever the
order of the list, does not fall as the percentage grows and moves along with the values; and the
statistics of a group are ordered. -/
theorem percentiles_sound :
    (∀ (values : List ℚ) (pct : ℚ), values ≠ [] → 0 ≤ pct → pct ≤ 100 →
      ∃ q lo hi, ToolsGive values pct q ∧
        values.min? = some lo ∧ values.max? = some hi ∧ lo ≤ q ∧ q ≤ hi ∧
        (∀ values' : List ℚ, values'.Perm values → ToolsGive values' pct q) ∧
        (∀ pct' : ℚ, pct ≤ pct' → pct' ≤ 100 → ∃ q', ToolsGive values pct' q' ∧ q ≤ q') ∧
        ∀ c : ℚ, ToolsGive (values.map (· + c)) pct (q + c)) ∧
      ∀ samples : List ℤ, samples ≠ [] →
        ∃ lo median p75 p95 hi, samples.min? = some lo ∧
          Packet.pickStat samples .median = .ok median ∧ Packet.pickStat samples .p75 = .ok p75 ∧
          Packet.pickStat samples .p95 = .ok p95 ∧ Packet.pickStat samples .max = .ok hi ∧
          samples.max? = some hi ∧ lo ≤ median ∧ median ≤ p75 ∧ p75 ≤ p95 ∧ p95 ≤ hi := by
  refine ⟨fun values pct hne h0 h100 => ?_, fun samples hne => Packet.pickStat_ordered hne⟩
  obtain ⟨lo, hlo⟩ := Option.isSome_iff_exists.mp (List.isSome_min?_of_ne_nil hne)
  obtain ⟨hi, hhi⟩ := Option.isSome_iff_exists.mp (List.isSome_max?_of_ne_nil hne)
  obtain ⟨hle, hge⟩ := percentilePoint_between hne h0 h100 hlo hhi
  refine ⟨percentilePoint values pct, lo, hi, (toolsGive_iff hne h0 h100).mpr rfl, hlo, hhi, hle, hge,
    fun values' hperm => ?_, fun pct' hpct h100' => ?_, fun c => ?_⟩
  · have hne' : values' ≠ [] := fun hnil => hne (hnil ▸ hperm).nil_eq.symm
    exact (toolsGive_iff hne' h0 h100).mpr (percentilePoint_perm hperm pct).symm
  · exact ⟨_, (toolsGive_iff hne (h0.trans hpct) h100').mpr rfl, percentilePoint_mono h0 hpct h100'⟩
  · exact (toolsGive_iff (mt List.map_eq_nil_iff.mp hne) h0 h100).mpr
      (percentilePoint_shifted hne h0 h100 c).symm

theorem percentiles_sound_small_lists :
    (∃ q, ToolsGive [3, 1, 2, 7] 40 q ∧ 1 ≤ q ∧ q ≤ 7) ∧
      ∃ median, Packet.pickStat [4, 1, 6] .median = .ok median ∧ 1 ≤ median := by
  obtain ⟨q, lo, hi, hq, hlo, hhi, hle, hge, _⟩ :=
    percentiles_sound.1 [3, 1, 2, 7] 40 (by decide) (by norm_num) (by norm_num)
  obtain ⟨lo', median, _, _, _, hlo', hmedian, _, _, _, _, hle', _⟩ :=
    percentiles_sound.2 [4, 1, 6] (by decide)
  obtain rfl : lo = 1 := Option.some.inj (hlo.symm.trans (by decide))
  obtain rfl : hi = 7 := Option.some.inj (hhi.symm.trans (by decide))
  obtain rfl : lo' = 1 := Option.some.inj (hlo'.symm.trans (by decide))
  exact ⟨⟨q, hq, hle, hge⟩, median, hmedian, hle'⟩

end WebrtcTrace.TraceTools
