import WebrtcTrace.TraceTools.Emission
import WebrtcTrace.TraceTools.Percentile
import WebrtcTrace.TraceTools.TraceFormat

/-! # Events of the packet-level tool in schedule order

The events are in time order with times and delays from 0 on, after the matching and after each
coalescing stage; the emission loop keeps a sublist of them.
-/

namespace WebrtcTrace.TraceTools
set_option autoImplicit false

/-! ## Values that stay at 0 or above -/

theorem quantize_nonneg {value : ℚ} (h : 0 ≤ value) (quantum : ℤ) : 0 ≤ quantize value quantum := by
  unfold quantize
  split_ifs with hq
  · exact Py.round_nonneg h
  · have hquantum : (0 : ℚ) ≤ quantum := by exact_mod_cast (show (0 : ℤ) ≤ quantum by omega)
    exact mul_nonneg (Py.round_nonneg (div_nonneg h hquantum)) (by omega)

namespace Packet

theorem sortedBy_pairwise {α κ : Type*} [LinearOrder κ] (key : α → κ) (values : List α) :
    (sortedBy key values).Pairwise fun a b => key a ≤ key b :=
  haveI : Std.Total fun a b : α => key a ≤ key b := ⟨fun a b => le_total (key a) (key b)⟩
  haveI : IsTrans α fun a b => key a ≤ key b := ⟨fun _ _ _ => le_trans⟩
  List.pairwise_insertionSort _ values

theorem mem_sortedBy {α κ : Type*} [LinearOrder κ] {key : α → κ} {values : List α} {a : α} :
    a ∈ sortedBy key values ↔ a ∈ values := List.mem_insertionSort _

/-- The statistic of a group is one of its values or a rounded percentile of them. -/
theorem pickStat_cases {values : List ℤ} {stat : CoalesceStat} {n : ℤ}
    (h : pickStat values stat = .ok n) :
    n ∈ values ∨
      ∃ pct q, percentile ((sortedBy id values).map Int.cast) pct = .ok q ∧ Py.round q = n := by
  have hpick : ∀ pct, (percentile ((sortedBy id values).map Int.cast) pct).map Py.round = .ok n →
      ∃ pct q, percentile ((sortedBy id values).map Int.cast) pct = .ok q ∧ Py.round q = n :=
    fun pct hpct => ⟨pct, Except.map_eq_ok.mp hpct⟩
  unfold pickStat at h
  split_ifs at h with hnil
  cases stat with
  | max =>
    cases h
    cases hlast : (sortedBy id values).getLast? with
    | none =>
      obtain ⟨v, hv⟩ := List.exists_mem_of_ne_nil values hnil
      exact absurd (mem_sortedBy.mpr hv) (List.getLast?_eq_none_iff.mp hlast ▸ List.not_mem_nil)
    | some v => exact .inl (mem_sortedBy.mp (List.mem_of_getLast? hlast))
  | median => exact .inr (hpick 50 h)
  | p75 => exact .inr (hpick 75 h)
  | p95 => exact .inr (hpick 95 h)

theorem percentile_cast_mem {values : List ℤ} {pct q : ℚ} {S : Set ℚ} (hS : Convex ℚ S)
    (hvalues : ∀ v ∈ values, (v : ℚ) ∈ S)
    (h : percentile ((sortedBy id values).map Int.cast) pct = .ok q) : q ∈ S := by
  refine percentile_mem hS (fun v hv => ?_) h
  obtain ⟨m, hm, rfl⟩ := List.mem_map.mp hv
  exact hvalues m (mem_sortedBy.mp hm)

theorem le_pickStat {values : List ℤ} {stat : CoalesceStat} {lo n : ℤ} (hvalues : ∀ v ∈ values, lo ≤ v)
    (h : pickStat values stat = .ok n) : lo ≤ n := by
  obtain hmem | ⟨pct, q, hq, rfl⟩ := pickStat_cases h
  · exact hvalues n hmem
  · have hlo : q ∈ Set.Ici (lo : ℚ) := percentile_cast_mem (convex_Ici _)
      (fun v hv => Set.mem_Ici.mpr (Int.cast_le.mpr (hvalues v hv))) hq
    simpa using Py.round_mono (Set.mem_Ici.mp hlo)

theorem pickStat_le {values : List ℤ} {stat : CoalesceStat} {hi n : ℤ} (hvalues : ∀ v ∈ values, v ≤ hi)
    (h : pickStat values stat = .ok n) : n ≤ hi := by
  obtain hmem | ⟨pct, q, hq, rfl⟩ := pickStat_cases h
  · exact hvalues n hmem
  · have hhi : q ∈ Set.Iic (hi : ℚ) := percentile_cast_mem (convex_Iic _)
      (fun v hv => Set.mem_Iic.mpr (Int.cast_le.mpr (hvalues v hv))) hq
    simpa using Py.round_mono (Set.mem_Iic.mp hhi)

/-- The percentage of a statistic other than the greatest value. -/
def statPct : CoalesceStat → Option ℚ
  | .median => some 50
  | .p75 => some 75
  | .p95 => some 95
  | .max => none

theorem pickStat_eq {values : List ℤ} (hne : values ≠ []) {stat : CoalesceStat} {pct : ℚ}
    (hpct : statPct stat = some pct) :
    pickStat values stat =
      .ok (Py.round (percentilePoint ((sortedBy id values).map Int.cast) pct)) := by
  have hordered : (sortedBy id values).map (Int.cast : ℤ → ℚ) ≠ [] := by
    obtain ⟨v, hv⟩ := List.exists_mem_of_ne_nil values hne
    exact List.ne_nil_of_mem (List.mem_map_of_mem (mem_sortedBy.mpr hv))
  have hpick : ∀ pct : ℚ, 0 ≤ pct → pct ≤ 100 →
      (percentile ((sortedBy id values).map Int.cast) pct).map Py.round =
        .ok (Py.round (percentilePoint ((sortedBy id values).map Int.cast) pct)) := by
    intro pct h0 h100
    rw [percentile, percentile_eq _ hordered h0 h100]
    rfl
  rw [pickStat, if_neg hne]
  cases stat with
  | median => cases hpct; exact hpick 50 (by norm_num) (by norm_num)
  | p75 => cases hpct; exact hpick 75 (by norm_num) (by norm_num)
  | p95 => cases hpct; exact hpick 95 (by norm_num) (by norm_num)
  | max => cases hpct

theorem pickStat_max {values : List ℤ} {hi : ℤ} (h : values.max? = some hi) :
    pickStat values .max = .ok hi := by
  obtain ⟨hmem, hle⟩ := List.max?_eq_some_iff.mp h
  have hsorted : sortedBy id values ≠ [] := List.ne_nil_of_mem (mem_sortedBy.mpr hmem)
  have hlast : (sortedBy id values).getLast hsorted = hi := by
    refine le_antisymm (hle _ (mem_sortedBy.mp (List.getLast_mem hsorted))) ?_
    exact (sortedBy_pairwise id values).rel_getLast (mem_sortedBy.mpr hmem)
  rw [pickStat, if_neg (List.ne_nil_of_mem hmem)]
  simp only [List.getLast?_eq_some_getLast hsorted, hlast, Option.getD_some]

theorem pickStat_ok {values : List ℤ} (hne : values ≠ []) (stat : CoalesceStat) :
    ∃ n, pickStat values stat = .ok n := by
  cases stat with
  | median => exact ⟨_, pickStat_eq hne rfl⟩
  | p75 => exact ⟨_, pickStat_eq hne rfl⟩
  | p95 => exact ⟨_, pickStat_eq hne rfl⟩
  | max =>
    obtain ⟨hi, hhi⟩ := Option.isSome_iff_exists.mp (List.isSome_max?_of_ne_nil hne)
    exact ⟨hi, pickStat_max hhi⟩

/-! ## Scheduled events -/

structure Scheduled (events : List Event) : Prop where
  ordered : events.Pairwise fun e e' => e.atMs ≤ e'.atMs
  atMs : ∀ e ∈ events, 0 ≤ e.atMs
  delayMs : ∀ e ∈ events, 0 ≤ e.delayMs

section Events
variable {args : Args}

theorem packetDelayMs_nonneg (hmin : 0 ≤ args.minDelayMs) (hmax : args.minDelayMs ≤ args.maxDelayMs)
    (base : ℚ) (rawDelay : ℤ) : 0 ≤ packetDelayMs args base rawDelay := by
  have hmin' : (0 : ℚ) ≤ args.minDelayMs := by exact_mod_cast hmin
  have hmax' : (0 : ℚ) ≤ args.maxDelayMs := by exact_mod_cast hmin.trans hmax
  exact quantize_nonneg (le_min hmax' (hmin'.trans (le_max_left _ _))) _

theorem packetEvents_scheduled (hmin : 0 ≤ args.minDelayMs)
    (hmax : args.minDelayMs ≤ args.maxDelayMs) {matched : List Matched} {events : List Event}
    (h : packetEvents args matched = .ok events) : Scheduled events := by
  obtain ⟨base, _, h⟩ := Except.bind_eq_ok.mp h
  obtain ⟨sendOrigin, _, h⟩ := Except.bind_eq_ok.mp h
  obtain ⟨recvOrigin, _, h⟩ := Except.bind_eq_ok.mp h
  cases h
  refine ⟨?_, ?_, ?_⟩
  · rw [List.pairwise_map]
    refine (sortedBy_pairwise (scheduleKey args) matched).imp fun {m m'} hkey => ?_
    have hfirst := (Prod.Lex.toLex_le_toLex.mp hkey)
    simp only [packetEvent]
    cases hsource : args.scheduleSource <;> simp only [hsource] at hfirst ⊢ <;> omega
  · intro e he
    obtain ⟨m, _, rfl⟩ := List.mem_map.mp he
    exact le_max_left _ _
  · intro e he
    obtain ⟨m, _, rfl⟩ := List.mem_map.mp he
    exact packetDelayMs_nonneg hmin hmax _ _

/-- A group of the tally is the items of its key. -/
theorem group_items {α κ : Type} [DecidableEq κ] {key : α → κ} {items : List α} {entry : κ × List α}
    (h : entry ∈ (DefaultDict.tally key [] (fun xs x => xs ++ [x]) .empty items).entries) :
    entry.2 ≠ [] ∧ ∀ x ∈ entry.2, x ∈ items ∧ key x = entry.1 := by
  have hget := DefaultDict.get?_eq_some.mpr h
  rw [DefaultDict.get?_collect] at hget
  split_ifs at hget with hnil
  rw [← Option.some.inj hget]
  exact ⟨hnil, fun e he => by simpa using he⟩

/-- The event of a group. -/
theorem groupEvent_some {κ : Type} [LinearOrder κ] {key : Event → κ} {atMs : Event → ℤ}
    {group : List Event} {e : Event} (h : groupEvent args key atMs group = .ok (some e)) :
    pickStat (group.map Event.delayMs) args.coalesceStat = .ok e.delayMs ∧
      ∃ first ∈ group, (∀ g ∈ group, key first ≤ key g) ∧ e.atMs = atMs first := by
  obtain ⟨delayMs, hdelay, h⟩ := Except.map_eq_ok.mp h
  obtain ⟨first, hfirst, rfl⟩ := Option.map_eq_some_iff.mp h
  exact ⟨hdelay, first, List.argmin_mem hfirst, fun g hg => List.le_of_mem_argmin hg hfirst, rfl⟩

theorem groupEvent_delay {κ : Type} [LinearOrder κ] {key : Event → κ} {atMs : Event → ℤ}
    {group : List Event} {e : Event} (h : groupEvent args key atMs group = .ok (some e))
    (hgroup : ∀ g ∈ group, 0 ≤ g.delayMs) : 0 ≤ e.delayMs := by
  refine le_pickStat (fun v hv => ?_) (groupEvent_some h).1
  obtain ⟨g, hg, rfl⟩ := List.mem_map.mp hv
  exact hgroup g hg

/-- The first event of a frame is its earliest. -/
theorem earliest_eq {group : List Event} {first : Event} (hmem : first ∈ group)
    (hfirst : ∀ g ∈ group, first.atMs ≤ g.atMs) : earliest group = first.atMs := by
  have hmin : (group.map Event.atMs).min? = some first.atMs := by
    rw [List.min?_eq_some_iff]
    refine ⟨List.mem_map_of_mem hmem, fun t ht => ?_⟩
    obtain ⟨g, hg, rfl⟩ := List.mem_map.mp ht
    exact hfirst g hg
  rw [earliest, hmin, Option.getD_some]

theorem coalesceByFrame_scheduled {events coalesced : List Event} (hs : Scheduled events)
    (h : coalesceByFrame args events = .ok coalesced) : Scheduled coalesced := by
  -- a frame's event is at the frame's earliest time, which the frames are sorted by
  have hearliest : ∀ {group : List Event} {e : Event},
      groupEvent args (fun e => toLex (e.atMs, e.seqNum)) Event.atMs group = .ok (some e) →
      earliest group = e.atMs ∧ ∃ first ∈ group, e.atMs = first.atMs := by
    intro group e he
    obtain ⟨_, first, hmem, hkey, hat⟩ := groupEvent_some he
    refine ⟨?_, first, hmem, hat⟩
    rw [hat]
    refine earliest_eq hmem fun g hg => ?_
    have hlex := Prod.Lex.toLex_le_toLex.mp (hkey g hg)
    dsimp only at hlex
    omega
  refine ⟨?_, fun e he => ?_, fun e he => ?_⟩
  · refine readAll_pairwise (fun frame frame' e e' hle he he' => ?_) (sortedBy_pairwise _ _) h
    rwa [(hearliest he).1, (hearliest he').1] at hle
  · obtain ⟨frame, hframe, hread⟩ := mem_of_readAll h he
    obtain ⟨_, first, hmem, hat⟩ := hearliest hread
    rw [hat]
    exact hs.atMs first ((group_items (mem_sortedBy.mp hframe)).2 first hmem).1
  · obtain ⟨frame, hframe, hread⟩ := mem_of_readAll h he
    exact groupEvent_delay hread fun g hg =>
      hs.delayMs g ((group_items (mem_sortedBy.mp hframe)).2 g hg).1

theorem bucketAtMs_nonneg (hms : 0 < args.coalesceMs) {e : Event} (he : 0 ≤ e.atMs) :
    0 ≤ bucketAtMs args e :=
  mul_nonneg (Int.fdiv_nonneg he hms.le) hms.le

theorem coalesceByTime_scheduled (hms : 0 < args.coalesceMs) {events coalesced : List Event}
    (hs : Scheduled events) (h : coalesceByTime args events = .ok coalesced) : Scheduled coalesced := by
  refine ⟨?_, fun e he => ?_, fun e he => ?_⟩
  · refine readAll_pairwise (fun bucket bucket' e e' hle he he' => ?_) (sortedBy_pairwise _ _) h
    obtain ⟨_, _, _, _, hat⟩ := groupEvent_some he
    obtain ⟨_, _, _, _, hat'⟩ := groupEvent_some he'
    rwa [hat, hat']
  · obtain ⟨bucket, hbucket, hread⟩ := mem_of_readAll h he
    obtain ⟨_, first, hmem, _, hat⟩ := groupEvent_some hread
    obtain ⟨hevent, hkey⟩ := (group_items (mem_sortedBy.mp hbucket)).2 first hmem
    rw [hat, ← hkey]
    exact bucketAtMs_nonneg hms (hs.atMs first hevent)
  · obtain ⟨bucket, hbucket, hread⟩ := mem_of_readAll h he
    exact groupEvent_delay hread fun g hg =>
      hs.delayMs g ((group_items (mem_sortedBy.mp hbucket)).2 g hg).1

theorem coalesced_scheduled {events final : List Event} (hs : Scheduled events)
    (h : coalesced args events = .ok final) : Scheduled final := by
  obtain ⟨frames, hframes, h⟩ := Except.bind_eq_ok.mp h
  have hframesScheduled : Scheduled frames := by
    split_ifs at hframes
    · exact coalesceByFrame_scheduled hs hframes
    · cases hframes
      exact hs
  split_ifs at h with hms
  · exact coalesceByTime_scheduled hms hframesScheduled h
  · cases h
    exact hframesScheduled

end Events

/-! ## Emission -/

theorem eventRow_sound {e : Event} (hat : 0 ≤ e.atMs) (hdelay : 0 ≤ e.delayMs) :
    (eventRow e).Sound ∧ (eventRow e).time = e.atMs := by
  have htime : Py.int (eventRow e).atMs = some e.atMs := Py.int_toString_of_nonneg hat
  have hvalue : (eventRow e).time = e.atMs := by rw [TraceRow.time, htime, Option.getD_some]
  refine ⟨⟨by rw [htime, hvalue], ?_, ?_, ?_, ?_⟩, hvalue⟩
  · have hjitter : Py.int "0" = some 0 := by decide +kernel
    exact ⟨e.delayMs, 0, Py.int_toString_of_nonneg hdelay, hjitter, hdelay, le_rfl,
      fun h => absurd h (lt_irrefl 0)⟩
  · have hloss : Py.float "0" = some (.finite 0) := by decide +kernel
    exact ⟨0, hloss, le_rfl⟩
  · simp [eventRow]
  · have hzero : OneLine "0" := by decide +kernel
    have hempty : OneLine "" := by decide +kernel
    have hnote : OneLine (eventRow e).note := by
      simp only [eventRow, oneLine_append, oneLine_int, oneLine_natCast, and_true]
      decide +kernel
    simp only [TraceRow.fields, List.forall_mem_cons]
    exact ⟨oneLine_int _, oneLine_int _, hzero, hzero, hempty, hempty, hnote, by simp⟩

theorem baselineRow_sound : baselineRow.Sound ∧ baselineRow.time = 0 := by
  refine ⟨⟨by decide +kernel, ?_, ?_, by decide +kernel, ?_⟩, by decide +kernel⟩
  · exact ⟨0, 0, by decide +kernel, by decide +kernel, le_rfl, le_rfl, fun h => absurd h (lt_irrefl 0)⟩
  · exact ⟨0, by decide +kernel, le_rfl⟩
  · decide +kernel

theorem eventRows_sound {args : Args} {events : List Event} {rows : List TraceRow}
    (hs : Scheduled events) (h : eventRows args events = .ok rows) : SoundTrace rows := by
  have hes := @rows_destutter args events
  have hsub : (events.destutter (Follows args)).Sublist events := List.destutter_sublist _ _
  set es := events.destutter (Follows args)
  have hsound : ∀ e ∈ es, (eventRow e).Sound ∧ (eventRow e).time = e.atMs := fun e he =>
    eventRow_sound (hs.atMs e (hsub.mem he)) (hs.delayMs e (hsub.mem he))
  have hrows : ∀ row ∈ es.map eventRow, row.Sound ∧ 0 ≤ row.time := by
    intro row hrow
    obtain ⟨e, he, rfl⟩ := List.mem_map.mp hrow
    exact ⟨(hsound e he).1, (hsound e he).2 ▸ hs.atMs e (hsub.mem he)⟩
  have hordered : (es.map eventRow).Pairwise fun row row' => row.time ≤ row'.time := by
    rw [List.pairwise_map]
    refine (hs.ordered.sublist hsub).imp_of_mem fun {e e'} he he' hle => ?_
    rwa [(hsound e he).2, (hsound e' he').2]
  rw [eventRows, hes] at h
  cases hcons : es.map eventRow with
  | nil =>
    rw [hcons] at h
    cases h
  | cons first rest =>
    rw [hcons] at h hrows hordered
    obtain rfl := Except.ok.inj h
    split_ifs with hlate
    · refine ⟨List.forall_mem_cons.mpr ⟨baselineRow_sound.1, fun row hrow => (hrows row hrow).1⟩, ?_,
        List.pairwise_cons.mpr ⟨fun row hrow => ?_, hordered⟩⟩
      · exact congrArg some baselineRow_sound.2
      · rw [baselineRow_sound.2]
        exact (hrows row hrow).2
    · refine ⟨fun row hrow => (hrows row hrow).1, ?_, hordered⟩
      rw [not_not] at hlate
      have hzero : first.time = 0 := by
        rw [TraceRow.time, hlate]
        decide +kernel
      exact congrArg some hzero

/-- **The packet-level tool writes sound traces.** -/
theorem buildPacketTrace_sound {args : Args} {logs : Logs} {rows : List TraceRow}
    (hmin : 0 ≤ args.minDelayMs) (hmax : args.minDelayMs ≤ args.maxDelayMs)
    (h : buildPacketTrace args logs = .ok rows) : SoundTrace rows := by
  unfold buildPacketTrace at h
  by_cases hsend : readRows logs.rtpSend = []
  · simp only [hsend, if_true] at h
    cases h
  by_cases hreceived : readRows logs.packetBufferInserts = []
  · simp only [hsend, hreceived, if_true, if_false] at h
    cases h
  simp only [hsend, hreceived, if_false] at h
  obtain ⟨receiverPacketRows, _, h⟩ := Except.bind_eq_ok.mp h
  obtain ⟨st, _, h⟩ := Except.bind_eq_ok.mp h
  by_cases hmatched : st.matched = []
  · simp only [hmatched, if_true] at h
    cases h
  simp only [hmatched, if_false] at h
  obtain ⟨events, hevents, h⟩ := Except.bind_eq_ok.mp h
  obtain ⟨final, hfinal, h⟩ := Except.bind_eq_ok.mp h
  exact eventRows_sound (coalesced_scheduled (packetEvents_scheduled hmin hmax hevents) hfinal) h

end Packet
end WebrtcTrace.TraceTools
