import WebrtcTrace.TraceTools.GapAnalysis
import Mathlib.Tactic.Linarith
import Mathlib.Tactic.Positivity

/-! # The gap analysis by its definition

The tool sorts the packets by offset times, drops old gaps from the front of a deque and finds the frame
state by binary search. What it computes is the quadratic definition: the gaps between the packets in
time order, the percentile over the earlier gaps that start in the window, and the last state logged
at or before the start (`gap_analysis_plain`).
-/

namespace WebrtcTrace.TraceTools.Gaps
set_option autoImplicit false

/-! ## The order of the packets -/

/-- What the ordering loop has done with the packets before. -/
structure Ordered (times : List ℚ) (st : OrderLoop) : Prop where
  rawTimes : st.ordered.map Prod.snd = times
  offsets : ∀ e ∈ st.ordered, ∃ k : ℕ, e.1 = e.2 + k / 10 ^ 6 ∧ List.replicate (k + 1) e.2 <:+: times
  last : ∀ t, st.lastT = some t →
    ∃ k : ℕ, st.orderOffset = k / 10 ^ 6 ∧ List.replicate (k + 1) t <:+ times

theorem foldl_orderStep (times : List ℚ) : Ordered times (times.foldl orderStep {}) := by
  induction times using List.reverseRecOn with
  | nil => exact ⟨rfl, by simp, by simp⟩
  | append_singleton times t ih =>
    rw [List.foldl_append, List.foldl_cons, List.foldl_nil]
    obtain ⟨k, hoffset, hsuffix⟩ : ∃ k : ℕ,
        (orderStep (times.foldl orderStep {}) t).orderOffset = k / 10 ^ 6 ∧
          List.replicate (k + 1) t <:+ times ++ [t] := by
      by_cases hlast : (times.foldl orderStep {}).lastT = some t
      · obtain ⟨k, hoffset, before, hbefore⟩ := ih.last t hlast
        refine ⟨k + 1, ?_, before, ?_⟩
        · simp only [orderStep, if_pos hlast, hoffset]
          push_cast
          ring
        · rw [List.replicate_succ', ← List.append_assoc, hbefore]
      · refine ⟨0, ?_, times, rfl⟩
        simp only [orderStep, if_neg hlast, Nat.cast_zero, zero_div]
    refine ⟨?_, ?_, ?_⟩
    · simp only [orderStep, List.map_append, ih.rawTimes, List.map_cons, List.map_nil]
    · intro e he
      obtain he | he := List.mem_append.mp he
      · obtain ⟨j, hj, hinfix⟩ := ih.offsets e he
        exact ⟨j, hj, hinfix.trans (List.prefix_append times [t]).isInfix⟩
      · obtain rfl := List.mem_singleton.mp he
        exact ⟨k, congrArg (t + ·) hoffset, hsuffix.isInfix⟩
    · intro t' ht'
      obtain rfl : t = t' := Option.some.inj ht'
      exact ⟨k, hoffset, hsuffix⟩

theorem replicate_infix_replicate {m n : ℕ} (h : m ≤ n) (t : ℚ) :
    List.replicate m t <:+: List.replicate n t := by
  refine ⟨[], List.replicate (n - m) t, ?_⟩
  rw [List.nil_append, List.replicate_append_replicate, Nat.add_sub_cancel' h]

section Order
variable {times : List ℚ} (hint : ∀ t ∈ times, ∃ n : ℤ, t = n)
  (hruns : ∀ t, ¬ List.replicate (10 ^ 6) t <:+: times)
include hint hruns

/-- Whole timestamps keep their order under offsets below 1. -/
theorem le_of_offset_le {e e' : ℚ × ℚ} (he : e ∈ (times.foldl orderStep {}).ordered)
    (he' : e' ∈ (times.foldl orderStep {}).ordered) (hle : e.1 ≤ e'.1) : e.2 ≤ e'.2 := by
  have hordered := foldl_orderStep times
  have hmem : ∀ x ∈ (times.foldl orderStep {}).ordered, x.2 ∈ times := by
    intro x hx
    rw [← hordered.rawTimes]
    exact List.mem_map_of_mem hx
  obtain ⟨n, hn⟩ := hint e.2 (hmem e he)
  obtain ⟨n', hn'⟩ := hint e'.2 (hmem e' he')
  obtain ⟨k, hk, _⟩ := hordered.offsets e he
  obtain ⟨k', hk', hrun⟩ := hordered.offsets e' he'
  have hshort : k' < 10 ^ 6 := by
    by_contra hlong
    rw [not_lt] at hlong
    exact hruns e'.2 ((replicate_infix_replicate (Nat.le_succ_of_le hlong) e'.2).trans hrun)
  have hbelow : (k' : ℚ) / 10 ^ 6 < 1 := by
    rw [div_lt_one (by positivity)]
    exact_mod_cast hshort
  have hnonneg : (0 : ℚ) ≤ (k : ℚ) / 10 ^ 6 := by positivity
  have hlt : (n : ℚ) < n' + 1 := by
    rw [hk, hk', hn, hn'] at hle
    linarith
  rw [hn, hn']
  exact_mod_cast Int.lt_add_one_iff.mp (by exact_mod_cast hlt)

theorem orderedTimes_eq (warmupStartMs : ℚ) :
    orderedTimes times warmupStartMs = (sorted times).filter (warmupStartMs ≤ ·) := by
  have hsort : ((times.foldl orderStep {}).ordered.insertionSort fun x y => x.1 ≤ y.1).map Prod.snd =
      sorted times := by
    have : Std.Total fun x y : ℚ × ℚ => x.1 ≤ y.1 := ⟨fun x y => le_total x.1 y.1⟩
    have : IsTrans (ℚ × ℚ) fun x y => x.1 ≤ y.1 := ⟨fun _ _ _ => le_trans⟩
    apply List.Perm.eq_of_pairwise' (r := (· ≤ ·))
    · rw [List.pairwise_map]
      apply (List.pairwise_insertionSort (fun x y : ℚ × ℚ => x.1 ≤ y.1) _).imp_of_mem
      intro e e' he he' hle
      exact le_of_offset_le hint hruns ((List.mem_insertionSort _).mp he)
        ((List.mem_insertionSort _).mp he') hle
    · exact sorted_pairwise times
    · refine ((List.perm_insertionSort _ _).map Prod.snd).trans ?_
      rw [(foldl_orderStep times).rawTimes]
      exact (sorted_perm times).symm
  rw [orderedTimes, hsort]

end Order

/-! ## Gaps in a row -/

/-- The gaps fill the time from the first of some packets to the last, one after another. -/
structure Tiles (times : List ℚ) (gaps : List RawGap) : Prop where
  count : gaps.length = times.length - 1
  first : ∀ g, gaps.head? = some g → times.min? = some g.startMs
  last : ∀ g, gaps.getLast? = some g → times.max? = some g.endMs
  adjacent : gaps.IsChain fun g g' => g.endMs = g'.startMs
  gapMs : ∀ g ∈ gaps, g.startMs ≤ g.endMs ∧ g.gapMs = g.endMs - g.startMs

theorem gapsBetween_cons (s t : ℚ) (times : List ℚ) :
    gapsBetween (s :: t :: times) = ⟨s, t, max 0 (t - s)⟩ :: gapsBetween (t :: times) := rfl

theorem gapsBetween_startMs (times : List ℚ) :
    (gapsBetween times).map RawGap.startMs = times.dropLast := by
  induction times with
  | nil => rfl
  | cons s times ih =>
    cases times with
    | nil => rfl
    | cons t times =>
      rw [gapsBetween_cons, List.map_cons, ih]
      rfl

theorem gapsBetween_endMs (times : List ℚ) : (gapsBetween times).map RawGap.endMs = times.tail := by
  induction times with
  | nil => rfl
  | cons s times ih =>
    cases times with
    | nil => rfl
    | cons t times =>
      rw [gapsBetween_cons, List.map_cons, ih]
      rfl

theorem gapsBetween_chain (times : List ℚ) :
    (gapsBetween times).IsChain fun g g' => g.endMs = g'.startMs := by
  induction times with
  | nil => exact .nil
  | cons s times ih =>
    cases times with
    | nil => exact .nil
    | cons t times =>
      rw [gapsBetween_cons]
      cases times with
      | nil => exact .singleton _
      | cons u times =>
        rw [gapsBetween_cons] at ih ⊢
        exact .cons_cons rfl ih

theorem gapsBetween_gapMs {times : List ℚ} (h : times.Pairwise (· ≤ ·)) :
    ∀ g ∈ gapsBetween times, g.startMs ≤ g.endMs ∧ g.gapMs = g.endMs - g.startMs := by
  induction times with
  | nil =>
    intro g hg
    cases hg
  | cons s times ih =>
    cases times with
    | nil =>
      intro g hg
      cases hg
    | cons t times =>
      obtain ⟨hs, htimes⟩ := List.pairwise_cons.mp h
      have hst : s ≤ t := hs t List.mem_cons_self
      rw [gapsBetween_cons]
      intro g hg
      obtain rfl | hg := List.mem_cons.mp hg
      · exact ⟨hst, max_eq_right (sub_nonneg.mpr hst)⟩
      · exact ih htimes g hg

theorem min?_of_perm_sorted {times ordered : List ℚ} (hperm : ordered.Perm times)
    (hsorted : ordered.Pairwise (· ≤ ·)) {t : ℚ} (ht : ordered.head? = some t) :
    times.min? = some t := by
  rw [List.min?_eq_some_iff]
  cases ordered with
  | nil => cases ht
  | cons s rest =>
    obtain rfl := Option.some.inj ht
    refine ⟨hperm.mem_iff.mp List.mem_cons_self, fun x hx => ?_⟩
    obtain rfl | hx := List.mem_cons.mp (hperm.mem_iff.mpr hx)
    · exact le_rfl
    · exact (List.pairwise_cons.mp hsorted).1 x hx

theorem max?_of_perm_sorted {times ordered : List ℚ} (hperm : ordered.Perm times)
    (hsorted : ordered.Pairwise (· ≤ ·)) {t : ℚ} (ht : ordered.getLast? = some t) :
    times.max? = some t := by
  rw [List.max?_eq_some_iff]
  obtain ⟨front, rfl⟩ := List.getLast?_eq_some_iff.mp ht
  refine ⟨hperm.mem_iff.mp (List.mem_append_right _ (List.mem_singleton_self t)), fun x hx => ?_⟩
  obtain hx | hx := List.mem_append.mp (hperm.mem_iff.mpr hx)
  · exact (List.pairwise_append.mp hsorted).2.2 x hx t (List.mem_singleton_self t)
  · exact (List.mem_singleton.mp hx).le

/-- **The gaps of packets in time order tile the time between them.** -/
theorem gapsBetween_tiles {times ordered : List ℚ} (hperm : ordered.Perm times)
    (hsorted : ordered.Pairwise (· ≤ ·)) : Tiles times (gapsBetween ordered) := by
  have hstarts := gapsBetween_startMs ordered
  have hends := gapsBetween_endMs ordered
  refine ⟨?_, ?_, ?_, gapsBetween_chain ordered, gapsBetween_gapMs hsorted⟩
  · have hlength := congrArg List.length hends
    rw [List.length_map, List.length_tail, hperm.length_eq] at hlength
    exact hlength
  · intro g hg
    apply min?_of_perm_sorted hperm hsorted
    have hhead : ordered.dropLast.head? = some g.startMs := by rw [← hstarts, List.head?_map, hg]; rfl
    cases ordered with
    | nil => cases hg
    | cons s rest =>
      cases rest with
      | nil => cases hg
      | cons t rest => exact hhead
  · intro g hg
    apply max?_of_perm_sorted hperm hsorted
    have hlast : ordered.tail.getLast? = some g.endMs := by
      rw [← hends, List.getLast?_map, hg]; rfl
    cases ordered with
    | nil => cases hg
    | cons s rest =>
      cases rest with
      | nil => cases hg
      | cons t rest =>
        rw [List.getLast?_cons_cons]
        exact hlast

theorem gapsBetween_starts {ordered : List ℚ} (hsorted : ordered.Pairwise (· ≤ ·)) :
    (gapsBetween ordered).Pairwise fun g g' => g.startMs ≤ g'.startMs := by
  rw [← List.pairwise_map, gapsBetween_startMs]
  exact hsorted.sublist (List.dropLast_sublist ordered)

/-! ## Baselines -/

/-- The gaps so far that start in the window of a time. -/
def inWindow (done : List RawGap) (cutoff : ℚ) : List ℚ :=
  (done.filter fun g => cutoff ≤ g.startMs).map RawGap.gapMs

theorem dropWhile_lt_eq_filter {window : List (ℚ × ℚ)}
    (h : window.Pairwise fun x y => x.1 ≤ y.1) (cutoff : ℚ) :
    (window.dropWhile fun x => x.1 < cutoff) = window.filter fun x => cutoff ≤ x.1 := by
  induction window with
  | nil => rfl
  | cons x window ih =>
    obtain ⟨hx, hwindow⟩ := List.pairwise_cons.mp h
    by_cases hlt : x.1 < cutoff
    · rw [List.dropWhile_cons_of_pos (by simpa using hlt), ih hwindow,
        List.filter_cons_of_neg (by simpa using hlt)]
    · have hle : cutoff ≤ x.1 := not_lt.mp hlt
      rw [List.dropWhile_cons_of_neg (by simpa using hle), eq_comm, List.filter_eq_self]
      intro y hy
      obtain rfl | hy := List.mem_cons.mp hy
      · simpa using hle
      · simpa using hle.trans (hx y hy)

/-- The deque agrees with all the gaps so far on every window still to come. -/
structure Recent (windowMs : ℚ) (done : List RawGap) (window : List (ℚ × ℚ)) (rest : List RawGap) :
    Prop where
  ordered : window.Pairwise fun x y => x.1 ≤ y.1
  before : ∀ x ∈ window, ∀ g ∈ rest, x.1 ≤ g.startMs
  agrees : ∀ g ∈ rest, (window.filter fun x => g.startMs - windowMs ≤ x.1).map Prod.snd =
    inWindow done (g.startMs - windowMs)

theorem Recent.next {windowMs : ℚ} {done : List RawGap} {window : List (ℚ × ℚ)} {g : RawGap}
    {rest : List RawGap} (h : Recent windowMs done window (g :: rest))
    (hrest : ∀ g' ∈ rest, g.startMs ≤ g'.startMs) :
    Recent windowMs (done ++ [g])
      ((window.filter fun x => g.startMs - windowMs ≤ x.1) ++ [(g.startMs, g.gapMs)]) rest := by
  refine ⟨?_, ?_, ?_⟩
  · refine List.pairwise_append.mpr ⟨h.ordered.sublist List.filter_sublist, List.pairwise_singleton _ _, ?_⟩
    intro x hx y hy
    obtain rfl := List.mem_singleton.mp hy
    exact h.before x (List.mem_of_mem_filter hx) g List.mem_cons_self
  · intro x hx g' hg'
    obtain hx | hx := List.mem_append.mp hx
    · exact (h.before x (List.mem_of_mem_filter hx) g List.mem_cons_self).trans (hrest g' hg')
    · obtain rfl := List.mem_singleton.mp hx
      exact hrest g' hg'
  · intro g' hg'
    have hcutoff : g.startMs - windowMs ≤ g'.startMs - windowMs := sub_le_sub_right (hrest g' hg') _
    have htwice : ((window.filter fun x => g.startMs - windowMs ≤ x.1).filter fun x =>
        g'.startMs - windowMs ≤ x.1) = window.filter fun x => g'.startMs - windowMs ≤ x.1 := by
      rw [List.filter_filter]
      apply List.filter_congr
      intro x _
      by_cases hx : g'.startMs - windowMs ≤ x.1
      · simp [hx, hcutoff.trans hx]
      · simp [hx]
    have hagrees := h.agrees g' (List.mem_cons_of_mem g hg')
    rw [List.filter_append, htwice, List.map_append, hagrees, inWindow, inWindow, List.filter_append,
      List.map_append]
    congr 1
    simp only [List.filter_singleton]
    cases decide (g'.startMs - windowMs ≤ g.startMs) <;> rfl

/-! ## The percentile of a window -/

/-- The percentile by its definition, where there are values. -/
def plainPercentile (values : List ℚ) (pct : ℚ) : Option ℚ :=
  if values = [] then none else some (percentilePoint values pct)

theorem percentile_eq_plain (values : List ℚ) {pct : ℚ} (hpct : 0 ≤ pct) (hpct' : pct ≤ 100) :
    percentile values pct = .ok (plainPercentile values pct) := by
  by_cases hnil : values = []
  · subst hnil
    rfl
  · rw [plainPercentile, if_neg hnil]
    exact percentile_eq hnil hpct hpct'

/-- **The deque computes the baselines by their definition.** -/
theorem baselinesFrom_eq (windowMs : ℚ) (done : List RawGap) (window : List (ℚ × ℚ))
    {rest : List RawGap} (hrest : rest.Pairwise fun g g' => g.startMs ≤ g'.startMs)
    (h : Recent windowMs done window rest) :
    ∃ baselines, baselinesFrom windowMs window rest = .ok baselines ∧
      baselines.length = rest.length ∧
      ∀ i g b, rest[i]? = some g → baselines[i]? = some b →
        b = plainPercentile (inWindow (done ++ rest.take i) (g.startMs - windowMs)) 75 := by
  induction rest generalizing done window with
  | nil => exact ⟨[], rfl, rfl, by simp⟩
  | cons g rest ih =>
    obtain ⟨hg, hrest⟩ := List.pairwise_cons.mp hrest
    have hbaseline := percentile_eq_plain (inWindow done (g.startMs - windowMs))
      (show (0 : ℚ) ≤ 75 by norm_num) (by norm_num)
    obtain ⟨baselines, hbaselines, hlength, hat⟩ := ih _ _ hrest (h.next hg)
    refine ⟨plainPercentile (inWindow done (g.startMs - windowMs)) 75 :: baselines, ?_,
      by rw [List.length_cons, List.length_cons, hlength], ?_⟩
    · rw [baselinesFrom, dropWhile_lt_eq_filter h.ordered, h.agrees g List.mem_cons_self]
      simp only [hbaseline, hbaselines, Except.bind, Except.map]
    · intro i g' b hg' hb
      cases i with
      | zero =>
        obtain rfl : g = g' := by simpa using hg'
        obtain rfl : plainPercentile (inWindow done (g.startMs - windowMs)) 75 = b := by simpa using hb
        rw [List.take_zero, List.append_nil]
      | succ i =>
        rw [List.getElem?_cons_succ] at hg' hb
        have hlater := hat i g' b hg' hb
        rwa [List.append_assoc, List.singleton_append] at hlater

/-! ## Frame states -/

/-- The last state logged at or before a time. -/
def stateBefore (frames : List (ℚ × FrameState)) (t : ℚ) : Option FrameState :=
  (frames.filter (·.1 ≤ t)).getLast?.map Prod.snd

theorem latestState_eq {frames : List (ℚ × FrameState)}
    (h : (frames.map Prod.fst).Pairwise (· ≤ ·)) (t : ℚ) :
    latestState (frames.map Prod.fst) (frames.map Prod.snd) t = stateBefore frames t := by
  have hordered := partitioned_le h t
  have hcount : bisectRight (frames.map Prod.fst) t = bisect (fun x => decide (x.1 ≤ t)) frames :=
    bisect_map Prod.fst hordered
  have htake : frames.take (bisectRight (frames.map Prod.fst) t) = frames.filter (·.1 ≤ t) := by
    rw [hcount]
    exact take_bisect (List.pairwise_map.mp hordered)
  have hbound : bisectRight (frames.map Prod.fst) t ≤ frames.length := by
    rw [← List.length_map Prod.fst]
    exact bisect_le_length hordered
  rw [stateBefore, ← htake, List.getLast?_take, latestState]
  generalize bisectRight (frames.map Prod.fst) t = n at hbound ⊢
  cases n with
  | zero => rfl
  | succ n =>
    have hn : n < frames.length := by omega
    simp [hn]

/-! ## The analysis -/

/-- **The gap analysis is its definition.** The gaps tile the time from the first packet after the
warmup to the last, and each gets the percentile over the earlier gaps that start in the window before
its own start, none if there are none, and the state last logged at or before it. -/
theorem gap_analysis_plain (packetRows frameRows : List Row)
    (warmupStartMs frameIntervalMs windowMs : ℚ)
    (hint : ∀ t ∈ packetTimes packetRows, ∃ n : ℤ, t = n)
    (hruns : ∀ t, ¬ List.replicate (10 ^ 6) t <:+: packetTimes packetRows)
    (hframes : ((loadFrameStates frameRows).map Prod.fst).Pairwise (· ≤ ·)) :
    Tiles ((packetTimes packetRows).filter (warmupStartMs ≤ ·)) (loadVideoGaps packetRows warmupStartMs) ∧
      ∃ gaps, buildGaps (loadVideoGaps packetRows warmupStartMs)
          ((loadFrameStates frameRows).map Prod.fst) ((loadFrameStates frameRows).map Prod.snd)
          frameIntervalMs windowMs = .ok gaps ∧
        gaps.length = (loadVideoGaps packetRows warmupStartMs).length ∧
        ∀ i raw, (loadVideoGaps packetRows warmupStartMs)[i]? = some raw → ∃ g,
          gaps[i]? = some g ∧
          g.idx = i ∧ g.startMs = raw.startMs ∧ g.endMs = raw.endMs ∧ g.gapMs = raw.gapMs ∧
          g.baselineP75Ms = plainPercentile (inWindow ((loadVideoGaps packetRows warmupStartMs).take i)
            (raw.startMs - windowMs)) 75 ∧
          g.playableUnits =
            (stateBefore (loadFrameStates frameRows) raw.startMs).map FrameState.playableUnits ∧
          g.continuousUnits =
            (stateBefore (loadFrameStates frameRows) raw.startMs).map FrameState.continuousUnits ∧
          g.bufferSize =
            (stateBefore (loadFrameStates frameRows) raw.startMs).map FrameState.bufferSize := by
  have hgaps : loadVideoGaps packetRows warmupStartMs =
      gapsBetween ((sorted (packetTimes packetRows)).filter (warmupStartMs ≤ ·)) := by
    rw [loadVideoGaps, orderedTimes_eq hint hruns]
  have hsorted : ((sorted (packetTimes packetRows)).filter (warmupStartMs ≤ ·)).Pairwise (· ≤ ·) :=
    (sorted_pairwise _).sublist List.filter_sublist
  have hperm : ((sorted (packetTimes packetRows)).filter (warmupStartMs ≤ ·)).Perm
      ((packetTimes packetRows).filter (warmupStartMs ≤ ·)) := (sorted_perm _).filter _
  rw [hgaps]
  refine ⟨gapsBetween_tiles hperm hsorted, ?_⟩
  obtain ⟨baselines, hbaselines, hlength, hat⟩ :=
    baselinesFrom_eq windowMs [] [] (gapsBetween_starts hsorted) ⟨.nil, by simp, fun _ _ => rfl⟩
  refine ⟨_, by rw [buildGaps, computeBaselines, hbaselines]; rfl, ?_, fun i raw hraw => ?_⟩
  · rw [List.length_mapIdx, List.length_zip, hlength, Nat.min_self]
  · obtain ⟨hi, _⟩ := List.getElem?_eq_some_iff.mp hraw
    have hi' : i < baselines.length := hlength ▸ hi
    obtain ⟨b, hb⟩ : ∃ b, baselines[i]? = some b := ⟨_, List.getElem?_eq_getElem hi'⟩
    have hzip : ((gapsBetween ((sorted (packetTimes packetRows)).filter (warmupStartMs ≤ ·))).zip
        baselines)[i]? = some (raw, b) := List.getElem?_zip_eq_some.mpr ⟨hraw, hb⟩
    refine ⟨gapOf frameIntervalMs i raw b (stateBefore (loadFrameStates frameRows) raw.startMs), ?_,
      rfl, rfl, rfl, rfl, hat i raw b hraw hb, rfl, rfl, rfl⟩
    rw [List.getElem?_mapIdx, hzip, ← latestState_eq hframes]
    rfl

/-- Two packets at once and one 40 ms later. -/
def threePackets : List Row := ["1000", "1000", "1040"].map fun t => .full [("timestamp_ms", t)]

def oneFrame : List Row := [.full [("timestamp_ms", "990"), ("playable_units", "2")]]

theorem gap_analysis_plain_three_packets :
    ∃ gaps g, buildGaps (loadVideoGaps threePackets 0) ((loadFrameStates oneFrame).map Prod.fst)
        ((loadFrameStates oneFrame).map Prod.snd) 40 200 = .ok gaps ∧ gaps[1]? = some g ∧
      g.idx = 1 ∧ g.startMs = 1000 ∧ g.endMs = 1040 ∧ g.gapMs = 40 ∧ g.baselineP75Ms = some 0 ∧
      g.playableUnits = some 2 ∧ g.continuousUnits = some 0 ∧ g.bufferSize = some 0 := by
  have htimes : packetTimes threePackets = [1000, 1000, 1040] := by decide +kernel
  obtain ⟨_, gaps, hgaps, _, hat⟩ := gap_analysis_plain threePackets oneFrame 0 40 200
    (by
      rw [htimes]
      intro t ht
      simp only [List.mem_cons, List.not_mem_nil, or_false] at ht
      obtain rfl | rfl | rfl := ht
      · exact ⟨1000, by norm_num⟩
      · exact ⟨1000, by norm_num⟩
      · exact ⟨1040, by norm_num⟩)
    (by
      intro t h
      have hlength := h.length_le
      rw [htimes, List.length_replicate] at hlength
      exact absurd hlength (by decide))
    (by decide +kernel)
  obtain ⟨g, hg, hfields⟩ := hat 1 ⟨1000, 1040, 40⟩ (by decide +kernel)
  have hzero : plainPercentile (inWindow ((loadVideoGaps threePackets 0).take 1) (1000 - 200)) 75 =
      some 0 := by decide +kernel
  have hstate : stateBefore (loadFrameStates oneFrame) 1000 = some ⟨2, 0, 0⟩ := by decide +kernel
  rw [hstate, hzero] at hfields
  exact ⟨gaps, g, hgaps, hg, hfields⟩

end WebrtcTrace.TraceTools.Gaps
