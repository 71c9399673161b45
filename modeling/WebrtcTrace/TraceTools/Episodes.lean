import WebrtcTrace.TraceTools.GapAnalysis
import Mathlib.Data.List.DropRight
import Mathlib.Data.List.Infix

/-! # The segments that the episodes are made of

`build_episodes` keeps the gaps of the open episode and the time since which they are not elevated. The
episodes it returns cut the gaps into segments (`Segmentation`): each begins with the next gap that is
both elevated and exhausting, and ends with the first gap that closes it, or with the input.
-/

namespace WebrtcTrace.TraceTools.Gaps
set_option autoImplicit false

/-- The last gap of a segment ends its hold time: the gaps since the last elevated one began at least
`hold_ms` before its end. -/
def Closed (holdMs : ℚ) (segment : List Gap) : Prop :=
  ∃ first last, (segment.rtakeWhile fun g => !g.elevated).head? = some first ∧
    segment.getLast? = some last ∧ holdMs ≤ last.endMs - first.startMs

/-- A segment ends where it is first closed, or at the end of the input. -/
structure EpisodeEnds (holdMs : ℚ) (segment rest : List Gap) : Prop where
  closed : Closed holdMs segment ∨ rest = []
  first : ∀ before, before <+: segment → before ≠ segment → ¬ Closed holdMs before

inductive Segmentation (holdMs : ℚ) : List Gap → List (List Gap) → Prop where
  | skipped {gaps : List Gap} (hskipped : ∀ g ∈ gaps, startsEpisode g = false) :
      Segmentation holdMs gaps []
  | episode {skipped segment rest : List Gap} {segments : List (List Gap)}
      (hskipped : ∀ g ∈ skipped, startsEpisode g = false)
      (hfirst : ∃ first, segment.head? = some first ∧ startsEpisode first = true)
      (hends : EpisodeEnds holdMs segment rest) (hrest : Segmentation holdMs rest segments) :
      Segmentation holdMs (skipped ++ segment ++ rest) (segment :: segments)

/-- The values of an episode, from its gaps. -/
structure Framed (e : Episode) : Prop where
  start : e.gaps.head?.map Gap.startMs = some e.startMs
  finish : e.gaps.getLast?.map Gap.endMs = some e.endMs
  peak : e.peakGap ∈ e.gaps ∧ e.peakGap.bufferExhausting = true
  largest : ∀ g ∈ e.gaps, g.bufferExhausting = true → g.gapMs ≤ e.peakGap.gapMs

theorem Segmentation.skip {holdMs : ℚ} {g : Gap} (hg : startsEpisode g = false) {gaps : List Gap}
    {segments : List (List Gap)} (h : Segmentation holdMs gaps segments) :
    Segmentation holdMs (g :: gaps) segments := by
  cases h with
  | skipped hskipped => exact .skipped (List.forall_mem_cons.mpr ⟨hg, hskipped⟩)
  | episode hskipped hfirst hends hrest =>
    exact .episode (List.forall_mem_cons.mpr ⟨hg, hskipped⟩) hfirst hends hrest

/-- The segments are cut out of the gaps in order, and no start of an episode is left out. -/
theorem Segmentation.covers {holdMs : ℚ} {gaps : List Gap} {segments : List (List Gap)}
    (h : Segmentation holdMs gaps segments) :
    segments.flatten.Sublist gaps ∧
      segments.flatten.filter startsEpisode = gaps.filter startsEpisode := by
  induction h with
  | skipped hskipped =>
    refine ⟨List.nil_sublist _, ?_⟩
    rw [List.flatten_nil, List.filter_nil, eq_comm, List.filter_eq_nil_iff]
    intro g hg
    rw [hskipped g hg]
    exact Bool.false_ne_true
  | @episode skipped segment rest segments hskipped hfirst hends hrest ih =>
    rw [List.flatten_cons, List.append_assoc]
    refine ⟨((ih.1.append_left segment).trans (List.sublist_append_right skipped _)), ?_⟩
    have hnone : skipped.filter startsEpisode = [] := by
      rw [List.filter_eq_nil_iff]
      intro g hg
      rw [hskipped g hg]
      exact Bool.false_ne_true
    rw [List.filter_append, List.filter_append, List.filter_append, hnone, ih.2, List.nil_append]

theorem largestGap_spec (first : Gap) (rest : List Gap) :
    largestGap first rest ∈ first :: rest ∧
      ∀ g ∈ first :: rest, g.gapMs ≤ (largestGap first rest).gapMs := by
  induction rest generalizing first with
  | nil => simp [largestGap]
  | cons g rest ih =>
    obtain ⟨hmem, hmax⟩ := ih (if first.gapMs < g.gapMs then g else first)
    rw [largestGap, List.foldl_cons, ← largestGap]
    have hbest := hmax _ List.mem_cons_self
    split_ifs at hmem hmax hbest ⊢ with hlt
    · refine ⟨List.mem_cons_of_mem first hmem, ?_⟩
      intro x hx
      obtain rfl | hx := List.mem_cons.mp hx
      · exact hlt.le.trans hbest
      · exact hmax x hx
    · refine ⟨?_, ?_⟩
      · obtain hfirst | hrest := List.mem_cons.mp hmem
        · rw [hfirst]
          exact List.mem_cons_self
        · exact List.mem_cons_of_mem first (List.mem_cons_of_mem g hrest)
      · intro x hx
        obtain rfl | hx := List.mem_cons.mp hx
        · exact hbest
        · obtain rfl | hx := List.mem_cons.mp hx
          · exact (not_lt.mp hlt).trans hbest
          · exact hmax x (List.mem_cons_of_mem first hx)

/-! ## The loop -/

/-- What holds between two gaps while an episode is open. -/
structure Open (holdMs : ℚ) (st : EpisodeLoop) : Prop where
  first : ∃ first, st.active.head? = some first ∧ startsEpisode first = true
  below : st.belowSince = (st.active.rtakeWhile fun g => !g.elevated).head?.map Gap.startMs
  notClosed : ∀ before, before <+: st.active → ¬ Closed holdMs before

/-- What the rest of the loop makes of the gaps to come. -/
def Continues (holdMs : ℚ) (active gaps : List Gap) (segments : List (List Gap)) : Prop :=
  if active = [] then Segmentation holdMs gaps segments
  else ∃ segment rest segments', gaps = segment ++ rest ∧
    segments = (active ++ segment) :: segments' ∧ EpisodeEnds holdMs (active ++ segment) rest ∧
    Segmentation holdMs rest segments'

theorem flush_open {st : EpisodeLoop}
    (hfirst : ∃ first, st.active.head? = some first ∧ startsEpisode first = true) :
    ∃ e : Episode, flush st = ⟨[], none, st.episodeId + 1, st.episodes ++ [e]⟩ ∧
      e.gaps = st.active ∧ e.episodeId = st.episodeId ∧ Framed e := by
  obtain ⟨first, hhead, hstarts⟩ := hfirst
  obtain ⟨rest, hactive⟩ : ∃ rest, st.active = first :: rest := by
    cases hcases : st.active with
    | nil =>
      rw [hcases] at hhead
      cases hhead
    | cons g rest =>
      rw [hcases] at hhead
      cases hhead
      exact ⟨rest, rfl⟩
  have hexhausting : first.bufferExhausting = true := (Bool.and_eq_true_iff.mp hstarts).2
  have hfilter : (first :: rest).filter Gap.bufferExhausting =
      first :: rest.filter Gap.bufferExhausting := List.filter_cons_of_pos hexhausting
  obtain ⟨hmem, hmax⟩ := largestGap_spec first (rest.filter Gap.bufferExhausting)
  rw [← hfilter] at hmem hmax
  refine ⟨⟨st.episodeId, first.startMs, ((first :: rest).getLast (List.cons_ne_nil _ _)).endMs,
    largestGap first (rest.filter Gap.bufferExhausting), first :: rest⟩, ?_, hactive.symm, rfl, ?_⟩
  · simp only [flush, hactive, hfilter]
  · refine ⟨rfl, ?_, List.mem_filter.mp hmem, ?_⟩
    · rw [List.getLast?_eq_getLast_of_ne_nil (List.cons_ne_nil first rest)]
      rfl
    · intro g hg hexh
      exact hmax g (List.mem_filter.mpr ⟨hg, hexh⟩)

theorem closed_concat_iff (holdMs : ℚ) (active : List Gap) {g : Gap} (hg : g.elevated = false) :
    Closed holdMs (active ++ [g]) ↔
      holdMs ≤ g.endMs - (((active.rtakeWhile fun g => !g.elevated).head?.map Gap.startMs).getD
        g.startMs) := by
  have hrun : ((active ++ [g]).rtakeWhile fun g => !g.elevated) =
      (active.rtakeWhile fun g => !g.elevated) ++ [g] := List.rtakeWhile_concat_pos _ _ _ (by simp [hg])
  simp only [Closed, hrun, List.getLast?_concat, Option.some.injEq, List.head?_append]
  cases (active.rtakeWhile fun g => !g.elevated).head? <;> simp

theorem not_closed_concat {holdMs : ℚ} {active : List Gap} {g : Gap} (hg : g.elevated = true) :
    ¬ Closed holdMs (active ++ [g]) := by
  have hrun : ((active ++ [g]).rtakeWhile fun g => !g.elevated) = [] :=
    List.rtakeWhile_concat_neg _ _ _ (by simp [hg])
  rintro ⟨first, last, hhead, _⟩
  rw [hrun] at hhead
  cases hhead

theorem not_closed_prefix {holdMs : ℚ} (active : List Gap) {g : Gap}
    (hactive : ∀ before, before <+: active → ¬ Closed holdMs before)
    (hlast : ¬ Closed holdMs (active ++ [g])) :
    ∀ before, before <+: active ++ [g] → ¬ Closed holdMs before := by
  intro before hbefore
  obtain rfl | hbefore := List.prefix_concat_iff.mp hbefore
  · exact hlast
  · exact hactive before hbefore

/-- One gap while an episode is open: it closes the episode, or the episode stays open. -/
theorem episodeStep_open {holdMs : ℚ} {st : EpisodeLoop} (h : Open holdMs st) (g : Gap) :
    (Closed holdMs (st.active ++ [g]) ∧ ∃ e : Episode,
      episodeStep holdMs st g = ⟨[], none, st.episodeId + 1, st.episodes ++ [e]⟩ ∧
      e.gaps = st.active ++ [g] ∧ e.episodeId = st.episodeId ∧ Framed e) ∨
    (Open holdMs (episodeStep holdMs st g) ∧
      (episodeStep holdMs st g).active = st.active ++ [g] ∧
      (episodeStep holdMs st g).episodeId = st.episodeId ∧
      (episodeStep holdMs st g).episodes = st.episodes) := by
  obtain ⟨first, hhead, hstarts⟩ := h.first
  have hne : st.active ≠ [] := by
    intro hnil
    rw [hnil] at hhead
    cases hhead
  have hfirst : ∃ first, (st.active ++ [g]).head? = some first ∧ startsEpisode first = true :=
    ⟨first, by rw [List.head?_append, hhead]; rfl, hstarts⟩
  cases helevated : g.elevated with
  | true =>
    right
    have hstep : episodeStep holdMs st g =
        { st with active := st.active ++ [g], belowSince := none } := by
      rw [episodeStep, if_neg hne, helevated]
      rfl
    rw [hstep]
    refine ⟨⟨hfirst, ?_, not_closed_prefix st.active h.notClosed (not_closed_concat helevated)⟩,
      rfl, rfl, rfl⟩
    rw [List.rtakeWhile_concat_neg _ _ _ (by simp [helevated])]
    rfl
  | false =>
    have hclosed := closed_concat_iff holdMs st.active helevated
    rw [← h.below] at hclosed
    have hstep : episodeStep holdMs st g =
        if holdMs ≤ g.endMs - st.belowSince.getD g.startMs then
          flush { st with active := st.active ++ [g], belowSince := some (st.belowSince.getD g.startMs) }
        else { st with active := st.active ++ [g], belowSince := some (st.belowSince.getD g.startMs) } := by
      rw [episodeStep, if_neg hne, helevated]
      rfl
    rw [hstep]
    by_cases hhold : holdMs ≤ g.endMs - st.belowSince.getD g.startMs
    · left
      rw [if_pos hhold]
      exact ⟨hclosed.mpr hhold, flush_open hfirst⟩
    · right
      rw [if_neg hhold]
      refine ⟨⟨hfirst, ?_, not_closed_prefix st.active h.notClosed (mt hclosed.mp hhold)⟩,
        rfl, rfl, rfl⟩
      rw [List.rtakeWhile_concat_pos _ _ _ (by simp [helevated]), List.head?_append, h.below]
      cases (st.active.rtakeWhile fun g => !g.elevated).head? <;> rfl

/-- One gap while no episode is open: it opens one, or it is skipped. -/
theorem episodeStep_idle {holdMs : ℚ} {st : EpisodeLoop} (hactive : st.active = []) (g : Gap) :
    (startsEpisode g = false ∧ episodeStep holdMs st g = st) ∨
    (startsEpisode g = true ∧ episodeStep holdMs st g = { st with active := [g], belowSince := none } ∧
      Open holdMs { st with active := [g], belowSince := none }) := by
  cases hstarts : startsEpisode g with
  | false =>
    refine .inl ⟨rfl, ?_⟩
    rw [episodeStep, if_pos hactive, hstarts]
    rfl
  | true =>
    have helevated : g.elevated = true := (Bool.and_eq_true_iff.mp hstarts).1
    refine .inr ⟨rfl, ?_, ⟨⟨g, rfl, hstarts⟩, ?_, ?_⟩⟩
    · rw [episodeStep, if_pos hactive, hstarts]
      rfl
    · simp [List.rtakeWhile, helevated]
    · apply not_closed_prefix [] _ (not_closed_concat helevated)
      rintro before hbefore ⟨first, last, _, hlast, _⟩
      rw [List.prefix_nil.mp hbefore] at hlast
      cases hlast

/-! ## What a gap adds to the segments -/

section
variable {holdMs : ℚ} {active gaps : List Gap} {g : Gap} {segments : List (List Gap)}

/-- The input ends while an episode is open. -/
theorem Continues.finish (hactive : active ≠ [])
    (hopen : ∀ before, before <+: active → ¬ Closed holdMs before) :
    Continues holdMs active [] [active] := by
  rw [Continues, if_neg hactive]
  refine ⟨[], [], [], rfl, by rw [List.append_nil], ⟨.inr rfl, ?_⟩, .skipped (by simp)⟩
  intro before hbefore _
  rw [List.append_nil] at hbefore
  exact hopen before hbefore

theorem Continues.start (hstarts : startsEpisode g = true)
    (h : Continues holdMs [g] gaps segments) : Continues holdMs [] (g :: gaps) segments := by
  rw [Continues, if_neg (List.cons_ne_nil g [])] at h
  obtain ⟨segment, rest, segments', rfl, rfl, hends, hrest⟩ := h
  rw [Continues, if_pos rfl]
  exact @Segmentation.episode holdMs [] _ _ _ (by simp) ⟨g, rfl, hstarts⟩ hends hrest

/-- The gap closes the episode. -/
theorem Continues.close (hactive : active ≠ []) (hclosed : Closed holdMs (active ++ [g]))
    (hopen : ∀ before, before <+: active → ¬ Closed holdMs before)
    (h : Continues holdMs [] gaps segments) :
    Continues holdMs active (g :: gaps) ((active ++ [g]) :: segments) := by
  rw [Continues, if_pos rfl] at h
  rw [Continues, if_neg hactive]
  refine ⟨[g], gaps, segments, rfl, rfl, ⟨.inl hclosed, ?_⟩, h⟩
  intro before hbefore hproper
  obtain hsame | hbefore := List.prefix_concat_iff.mp hbefore
  · exact absurd hsame hproper
  · exact hopen before hbefore

/-- The gap joins the open episode. -/
theorem Continues.join (hactive : active ≠ []) (h : Continues holdMs (active ++ [g]) gaps segments) :
    Continues holdMs active (g :: gaps) segments := by
  rw [Continues, if_neg (List.append_ne_nil_of_right_ne_nil _ (List.cons_ne_nil g []))] at h
  obtain ⟨segment, rest, segments', rfl, hsegments, hends, hrest⟩ := h
  rw [List.append_assoc] at hsegments hends
  rw [Continues, if_neg hactive]
  exact ⟨g :: segment, rest, segments', rfl, hsegments, hends, hrest⟩

end

/-- The episodes that the rest of a run adds. -/
theorem flush_foldl (holdMs : ℚ) (gaps : List Gap) (st : EpisodeLoop)
    (h : st.active ≠ [] → Open holdMs st) :
    ∃ added : List Episode,
      (flush (gaps.foldl (episodeStep holdMs) st)).episodes = st.episodes ++ added ∧
      added.map Episode.episodeId = List.range' st.episodeId added.length ∧
      (∀ e ∈ added, Framed e) ∧ Continues holdMs st.active gaps (added.map Episode.gaps) := by
  induction gaps generalizing st with
  | nil =>
    rw [List.foldl_nil]
    by_cases hactive : st.active = []
    · refine ⟨[], ?_, rfl, by simp, ?_⟩
      · rw [flush, hactive, List.append_nil]
      · rw [Continues, if_pos hactive]
        exact .skipped (by simp)
    · obtain ⟨e, hflush, hgaps, hid, hframed⟩ := flush_open (h hactive).first
      refine ⟨[e], by rw [hflush], by simp [hid], by simpa using hframed, ?_⟩
      rw [List.map_singleton, hgaps]
      exact .finish hactive (h hactive).notClosed
  | cons g gaps ih =>
    rw [List.foldl_cons]
    by_cases hactive : st.active = []
    · obtain ⟨hstarts, hstep⟩ | ⟨hstarts, hstep, hopen⟩ := episodeStep_idle hactive g <;> rw [hstep]
      · obtain ⟨added, hepisodes, hids, hframed, hrest⟩ := ih st h
        refine ⟨added, hepisodes, hids, hframed, ?_⟩
        rw [Continues, if_pos hactive] at hrest ⊢
        exact hrest.skip hstarts
      · obtain ⟨added, hepisodes, hids, hframed, hrest⟩ := ih _ fun _ => hopen
        refine ⟨added, hepisodes, hids, hframed, ?_⟩
        rw [hactive]
        exact hrest.start hstarts
    · have hnot := (h hactive).notClosed
      obtain ⟨hclosed, e, hstep, hgaps, hid, hframed⟩ | ⟨hopen, hactive', hid, hepisodes'⟩ :=
        episodeStep_open (h hactive) g
      · rw [hstep]
        obtain ⟨added, hepisodes, hids, hframedAdded, hrest⟩ :=
          ih ⟨[], none, st.episodeId + 1, st.episodes ++ [e]⟩ fun hne => absurd rfl hne
        refine ⟨e :: added, ?_, ?_, List.forall_mem_cons.mpr ⟨hframed, hframedAdded⟩, ?_⟩
        · rw [hepisodes, List.append_assoc]
          rfl
        · rw [List.map_cons, hid, hids, List.length_cons, List.range'_succ]
        · rw [List.map_cons, hgaps]
          exact hrest.close hactive hclosed hnot
      · obtain ⟨added, hepisodes, hids, hframed, hrest⟩ := ih _ fun _ => hopen
        rw [hactive'] at hrest
        exact ⟨added, by rw [hepisodes, hepisodes'], by rw [hids, hid], hframed, hrest.join hactive⟩

/-! ## The episodes -/

/-- **The episodes of a list of gaps.** Their gap lists are segments of the input in order, each from
the next start of an episode to the first gap that closes it, with every start of an episode in exactly
one of them; they are numbered from 1, and their values are those of their gaps. -/
structure EpisodesExact (holdMs : ℚ) (gaps : List Gap) (episodes : List Episode) : Prop where
  segments : Segmentation holdMs gaps (episodes.map Episode.gaps)
  inOrder : (episodes.flatMap Episode.gaps).Sublist gaps
  everyStart : (episodes.flatMap Episode.gaps).filter startsEpisode = gaps.filter startsEpisode
  ids : episodes.map Episode.episodeId = List.range' 1 episodes.length
  framed : ∀ e ∈ episodes, Framed e

theorem buildEpisodes_exact (gaps : List Gap) (holdMs : ℚ) :
    EpisodesExact holdMs gaps (buildEpisodes gaps holdMs) := by
  obtain ⟨added, hepisodes, hids, hframed, hrest⟩ :=
    flush_foldl holdMs gaps {} fun hne => absurd rfl hne
  rw [Continues, if_pos rfl] at hrest
  have hbuild : buildEpisodes gaps holdMs = added := hepisodes
  have hcovers := hrest.covers
  rw [← List.flatMap_def] at hcovers
  rw [hbuild]
  exact ⟨hrest, hcovers.1, hcovers.2, hids, hframed⟩

end WebrtcTrace.TraceTools.Gaps
