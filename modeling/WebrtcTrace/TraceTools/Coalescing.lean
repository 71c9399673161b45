import WebrtcTrace.TraceTools.Schedule

/-! # What the coalescing stages do with the packets

Both stages group their events by a key and make one event of each group. `Stage.track` runs a stage
on events that carry the packets they stand for, with the delay of each; forgetting these gives the
stage itself (`run_untracked`). A stage keeps the packets and stays between their delays, whatever came
before it. Its `packet_count` is the number of events in the group, which are packets only in the
first stage that runs.
-/

namespace WebrtcTrace.TraceTools.Packet
set_option autoImplicit false

/-- An event with the packets it stands for, each with its own delay. -/
abbrev Tracked := Event × List (Matched × ℤ)

/-- The delay of an event lies between those of its packets, of which there are some. -/
structure Stands (x : Tracked) : Prop where
  nonempty : x.2 ≠ []
  lower : ∀ lo, (∀ p ∈ x.2, lo ≤ p.2) → lo ≤ x.1.delayMs
  upper : ∀ hi, (∀ p ∈ x.2, p.2 ≤ hi) → x.1.delayMs ≤ hi

theorem Stands.between {x : Tracked} (h : Stands x) :
    ∃ lo ∈ x.2, ∃ hi ∈ x.2, lo.2 ≤ x.1.delayMs ∧ x.1.delayMs ≤ hi.2 := by
  obtain ⟨lo, hlo⟩ : ∃ lo, x.2.argmin Prod.snd = some lo :=
    Option.ne_none_iff_exists'.mp (mt List.argmin_eq_none.mp h.nonempty)
  obtain ⟨hi, hhi⟩ : ∃ hi, x.2.argmax Prod.snd = some hi :=
    Option.ne_none_iff_exists'.mp (mt List.argmax_eq_none.mp h.nonempty)
  exact ⟨lo, List.argmin_mem hlo, hi, List.argmax_mem hhi,
    h.lower lo.2 fun p hp => List.le_of_mem_argmin hp hlo,
    h.upper hi.2 fun p hp => List.le_of_mem_argmax hp hhi⟩

/-! ## Stages -/

/-- A coalescing stage: the key of the groups, the order of their events, the key of the event a group
takes its identity from, and the time of its event. -/
structure Stage (κ ω ω' : Type) where
  key : Event → κ
  order : κ × List Event → ω
  first : Event → ω'
  atMs : κ → Event → ℤ

def byFrame : Stage (ℤ × ℤ) ℤ (ℤ ×ₗ ℤ) where
  key e := (e.ssrc, e.rtpTimestamp)
  order frame := earliest frame.2
  first e := toLex (e.atMs, e.seqNum)
  atMs _ := Event.atMs

def byTime (args : Args) : Stage ℤ ℤ ℤ where
  key := bucketAtMs args
  order := Prod.fst
  first := Event.seqNum
  atMs bucket _ := bucket

section Stages
variable (args : Args) {κ ω ω' : Type} [LinearOrder ω']

/-! ### One group -/

/-- A group without the packets of its events. -/
def untrack (group : κ × List Tracked) : κ × List Event := (group.1, group.2.map Prod.fst)

def Stage.trackGroup (stage : Stage κ ω ω') (group : κ × List Tracked) :
    Except PyError (Option Tracked) :=
  (groupEvent args stage.first (stage.atMs group.1) (group.2.map Prod.fst)).map
    (Option.map fun e => (e, group.2.flatMap Prod.snd))

theorem groupEvent_ok (first : Event → ω') (atMs : Event → ℤ) {group : List Event} (hne : group ≠ []) :
    ∃ e, groupEvent args first atMs group = .ok (some e) ∧
      pickStat (group.map Event.delayMs) args.coalesceStat = .ok e.delayMs ∧
      e.packetCount = some group.length := by
  obtain ⟨delayMs, hdelay⟩ := pickStat_ok (mt List.map_eq_nil_iff.mp hne) args.coalesceStat
  obtain ⟨e, he⟩ : ∃ e, group.argmin first = some e :=
    Option.ne_none_iff_exists'.mp (mt List.argmin_eq_none.mp hne)
  refine ⟨{ e with atMs := atMs e, delayMs := delayMs, packetCount := some group.length }, ?_, hdelay,
    rfl⟩
  rw [groupEvent, hdelay, he]
  rfl

theorem trackGroup_ok (stage : Stage κ ω ω') {group : κ × List Tracked} (hne : group.2 ≠ [])
    (h : ∀ x ∈ group.2, Stands x) :
    ∃ y, stage.trackGroup args group = .ok (some y) ∧ Stands y ∧ y.2 = group.2.flatMap Prod.snd ∧
      y.1.packetCount = some group.2.length := by
  have hevents : group.2.map Prod.fst ≠ [] := mt List.map_eq_nil_iff.mp hne
  obtain ⟨e, he, hdelay, hcount⟩ :=
    groupEvent_ok args stage.first (stage.atMs group.1) hevents
  have hdelays : ∀ v ∈ (group.2.map Prod.fst).map Event.delayMs, ∃ x ∈ group.2, x.1.delayMs = v := by
    intro v hv
    rw [List.map_map] at hv
    exact List.mem_map.mp hv
  refine ⟨(e, group.2.flatMap Prod.snd), ?_, ⟨?_, fun lo hlo => ?_, fun hi hhi => ?_⟩, rfl, ?_⟩
  · rw [Stage.trackGroup, he]
    rfl
  · obtain ⟨x, hx⟩ := List.exists_mem_of_ne_nil _ hne
    obtain ⟨p, hp⟩ := List.exists_mem_of_ne_nil _ (h x hx).nonempty
    exact List.ne_nil_of_mem (List.mem_flatMap.mpr ⟨x, hx, hp⟩)
  · refine le_pickStat (fun v hv => ?_) hdelay
    obtain ⟨x, hx, rfl⟩ := hdelays v hv
    exact (h x hx).lower lo fun p hp => hlo p (List.mem_flatMap.mpr ⟨x, hx, hp⟩)
  · refine pickStat_le (fun v hv => ?_) hdelay
    obtain ⟨x, hx, rfl⟩ := hdelays v hv
    exact (h x hx).upper hi fun p hp => hhi p (List.mem_flatMap.mpr ⟨x, hx, hp⟩)
  · rw [hcount, List.length_map]

/-! ### A whole stage -/

variable [DecidableEq κ] [LinearOrder ω]

def collect {α : Type} (key : α → κ) (xs : List α) : DefaultDict κ (List α) :=
  .tally key [] (fun ys x => ys ++ [x]) .empty xs

def Stage.run (stage : Stage κ ω ω') (events : List Event) : Except PyError (List Event) :=
  readAll (fun group => groupEvent args stage.first (stage.atMs group.1) group.2)
    (sortedBy stage.order (collect stage.key events).entries)

/-- The groups of a stage, in the order of their events. -/
def Stage.groups (stage : Stage κ ω ω') (xs : List Tracked) : List (κ × List Tracked) :=
  sortedBy (fun group => stage.order (untrack group)) (collect (fun x => stage.key x.1) xs).entries

def Stage.track (stage : Stage κ ω ω') (xs : List Tracked) : Except PyError (List Tracked) :=
  readAll (stage.trackGroup args) (stage.groups xs)

theorem coalesceByFrame_eq (events : List Event) :
    coalesceByFrame args events = byFrame.run args events := rfl

theorem coalesceByTime_eq (events : List Event) :
    coalesceByTime args events = (byTime args).run args events := rfl

omit [LinearOrder ω'] [DecidableEq κ] in
theorem sortedBy_map {α β : Type} (key : β → ω) (f : α → β) (xs : List α) :
    sortedBy key (xs.map f) = (sortedBy (fun x => key (f x)) xs).map f :=
  (List.map_insertionSort _ _ f xs fun _ _ _ _ => Iff.rfl).symm

omit [LinearOrder ω'] [DecidableEq κ] in
theorem sortedBy_perm {α : Type} (key : α → ω) (xs : List α) : (sortedBy key xs).Perm xs :=
  List.perm_insertionSort _ xs

/-- **A stage does not see the packets.** -/
theorem run_untracked (stage : Stage κ ω ω') (xs : List Tracked) :
    stage.run args (xs.map Prod.fst) = (stage.track args xs).map (List.map Prod.fst) := by
  have hcollect : (collect stage.key (xs.map Prod.fst)).entries =
      (collect (fun x => stage.key x.1) xs).entries.map untrack :=
    congrArg DefaultDict.entries (DefaultDict.collect_map stage.key Prod.fst xs .empty)
  rw [Stage.run, hcollect, sortedBy_map, Stage.track, Stage.groups]
  refine readAll_map (fun group => ?_) _
  rw [Stage.trackGroup, untrack]
  generalize groupEvent args stage.first (stage.atMs group.1) (group.2.map Prod.fst) = result
  cases result with
  | error e => rfl
  | ok e => cases e <;> rfl

def packetCounts (events : List Event) : ℕ := (events.map fun e => e.packetCount.getD 1).sum

theorem map_eq_map_of_forall₂ {α β γ : Type} {R : α → β → Prop} {f : α → γ} {g : β → γ}
    (hR : ∀ a b, R a b → f a = g b) {xs : List α} {ys : List β} (h : List.Forall₂ R xs ys) :
    xs.map f = ys.map g := by
  induction h with
  | nil => rfl
  | cons hab _ ih => rw [List.map_cons, List.map_cons, hR _ _ hab, ih]

omit [LinearOrder ω'] in
theorem groups_flatMap (stage : Stage κ ω ω') (xs : List Tracked) :
    ((stage.groups xs).flatMap Prod.snd).Perm xs :=
  ((sortedBy_perm _ _).flatMap_right Prod.snd).trans
    (DefaultDict.flatMap_collect (fun x : Tracked => stage.key x.1) xs .empty)

/-- **What a stage keeps.** It comes to an end, with one event for each key; the packets are the same,
the events still stand for them, and the `packet_count` values count the events before the stage. -/
theorem track_ok (stage : Stage κ ω ω') {xs : List Tracked} (h : ∀ x ∈ xs, Stands x) :
    ∃ ys, stage.track args xs = .ok ys ∧ (ys.flatMap Prod.snd).Perm (xs.flatMap Prod.snd) ∧
      (∀ y ∈ ys, Stands y) ∧ ys.length = (collect (fun x => stage.key x.1) xs).entries.length ∧
      packetCounts (ys.map Prod.fst) = xs.length := by
  have hgroup : ∀ group ∈ stage.groups xs, group.2 ≠ [] ∧ ∀ x ∈ group.2, Stands x := by
    intro group hgroup
    obtain ⟨hne, hmem⟩ := group_items (mem_sortedBy.mp hgroup)
    exact ⟨hne, fun x hx => h x (hmem x hx).1⟩
  have hevent : ∀ group ∈ stage.groups xs, _ := fun group hg =>
    trackGroup_ok args stage (hgroup group hg).1 (hgroup group hg).2
  obtain ⟨ys, hys, hall⟩ := readAll_ok hevent
  have hpackets : (stage.groups xs).map (fun group => group.2.flatMap Prod.snd) = ys.map Prod.snd :=
    map_eq_map_of_forall₂ (fun _ _ hy => hy.2.1.symm) hall
  have hcounts : (stage.groups xs).map (fun group => group.2.length) =
      ys.map fun y => y.1.packetCount.getD 1 :=
    map_eq_map_of_forall₂ (fun _ _ hy => by rw [hy.2.2, Option.getD_some]) hall
  refine ⟨ys, hys, ?_, fun y hy => ?_, ?_, ?_⟩
  · rw [List.flatMap_def, ← hpackets, ← List.flatMap_def, ← List.flatMap_assoc]
    exact (groups_flatMap stage xs).flatMap_right Prod.snd
  · obtain ⟨group, hg, hread⟩ := mem_of_readAll hys hy
    obtain ⟨y', hread', hstands, _⟩ := hevent group hg
    rw [hread] at hread'
    rwa [Option.some.inj (Except.ok.inj hread')]
  · rw [← hall.length_eq]
    exact (sortedBy_perm _ _).length_eq
  · have hsum := congrArg List.sum hcounts
    rw [packetCounts, List.map_map]
    rw [← (groups_flatMap stage xs).length_eq, List.length_flatMap]
    exact hsum.symm

end Stages

/-! ## Both stages -/

section Run
variable (args : Args)

/-- `packetEvents`, where each event stands for its own packet. -/
def trackPackets (matched : List Matched) : Except PyError (List Tracked) := do
  let baseDelayMs ← percentile (matched.map fun m => ((m.recvTimeMs - m.sendTimeMs : ℤ) : ℚ))
    args.baseDelayPercentile
  let sendOriginMs ← minimum (matched.map Matched.sendTimeMs)
  let recvOriginMs ← minimum (matched.map Matched.recvTimeMs)
  return (sortedBy (scheduleKey args) matched).map fun m =>
    let e := packetEvent args baseDelayMs sendOriginMs recvOriginMs m
    (e, [(m, e.delayMs)])

def trackCoalesced (xs : List Tracked) : Except PyError (List Tracked) :=
  (if args.coalesceByFrame then byFrame.track args xs else .ok xs).bind fun xs =>
    if 0 < args.coalesceMs then (byTime args).track args xs else .ok xs

theorem coalesced_untracked (xs : List Tracked) :
    coalesced args (xs.map Prod.fst) = (trackCoalesced args xs).map (List.map Prod.fst) := by
  have htime : ∀ xs : List Tracked,
      (if 0 < args.coalesceMs then coalesceByTime args (xs.map Prod.fst) else .ok (xs.map Prod.fst)) =
        (if 0 < args.coalesceMs then (byTime args).track args xs else .ok xs).map
          (List.map Prod.fst) := by
    intro xs
    split_ifs
    · rw [coalesceByTime_eq, run_untracked]
    · rfl
  have hframe : (if args.coalesceByFrame then coalesceByFrame args (xs.map Prod.fst)
      else .ok (xs.map Prod.fst)) =
        (if args.coalesceByFrame then byFrame.track args xs else .ok xs).map (List.map Prod.fst) := by
    split_ifs
    · rw [coalesceByFrame_eq, run_untracked]
    · rfl
  rw [coalesced, hframe, trackCoalesced]
  cases (if args.coalesceByFrame then byFrame.track args xs else .ok xs) with
  | error e => rfl
  | ok ys => exact htime ys

theorem packetEvents_untracked (matched : List Matched) :
    packetEvents args matched = (trackPackets args matched).map (List.map Prod.fst) := by
  unfold packetEvents trackPackets
  cases percentile (matched.map fun m => ((m.recvTimeMs - m.sendTimeMs : ℤ) : ℚ))
    args.baseDelayPercentile with
  | error e => rfl
  | ok base =>
    cases minimum (matched.map Matched.sendTimeMs) with
    | error e => rfl
    | ok sendOrigin =>
      cases minimum (matched.map Matched.recvTimeMs) with
      | error e => rfl
      | ok recvOrigin => simp [bind, Except.bind, pure, Except.pure, Except.map, Function.comp_def]

variable {args} in
/-- Before the stages there is one event for each packet. -/
theorem trackPackets_spec {matched : List Matched} {xs : List Tracked}
    (h : trackPackets args matched = .ok xs) :
    (∀ x ∈ xs, Stands x) ∧ ((xs.flatMap Prod.snd).map Prod.fst).Perm matched ∧
      (xs.map fun x => (x.1.ssrc, x.1.rtpTimestamp)).Perm
        (matched.map fun m => (m.ssrc, m.rtpTimestamp)) ∧
      ∀ x ∈ xs, x.1.packetCount = none := by
  obtain ⟨base, _, h⟩ := Except.bind_eq_ok.mp h
  obtain ⟨sendOrigin, _, h⟩ := Except.bind_eq_ok.mp h
  obtain ⟨recvOrigin, _, h⟩ := Except.bind_eq_ok.mp h
  cases h
  refine ⟨fun x hx => ?_, ?_, ?_, fun x hx => ?_⟩
  · obtain ⟨m, _, rfl⟩ := List.mem_map.mp hx
    exact ⟨List.cons_ne_nil _ _, fun lo hlo => hlo _ (List.mem_singleton_self _),
      fun hi hhi => hhi _ (List.mem_singleton_self _)⟩
  · rw [List.flatMap_map, List.map_flatMap]
    simp only [List.map_singleton, List.flatMap_singleton']
    exact sortedBy_perm _ _
  · rw [List.map_map]
    exact (sortedBy_perm _ _).map _
  · obtain ⟨m, _, rfl⟩ := List.mem_map.mp hx
    rfl

/-- **What the stages keep, together.** With both stages the `packet_count` values count frames. -/
theorem trackCoalesced_ok {xs : List Tracked} (hstands : ∀ x ∈ xs, Stands x)
    (hnone : ∀ x ∈ xs, x.1.packetCount = none) :
    ∃ ys, trackCoalesced args xs = .ok ys ∧ (ys.flatMap Prod.snd).Perm (xs.flatMap Prod.snd) ∧
      (∀ y ∈ ys, Stands y) ∧ packetCounts (ys.map Prod.fst) =
        if args.coalesceByFrame = true ∧ 0 < args.coalesceMs
        then (collect (fun x : Tracked => (x.1.ssrc, x.1.rtpTimestamp)) xs).entries.length
        else xs.length := by
  by_cases hframe : args.coalesceByFrame = true
  · obtain ⟨ys, hys, hperm, hys', hlength, hcounts⟩ := track_ok args byFrame hstands
    by_cases hms : 0 < args.coalesceMs
    · obtain ⟨zs, hzs, hperm', hzs', _, hcounts'⟩ := track_ok args (byTime args) hys'
      refine ⟨zs, ?_, hperm'.trans hperm, hzs', ?_⟩
      · rw [trackCoalesced, if_pos hframe, hys]
        exact (if_pos hms).trans hzs
      · rw [if_pos ⟨hframe, hms⟩, hcounts', hlength]
        rfl
    · refine ⟨ys, ?_, hperm, hys', by rw [if_neg fun h => hms h.2, hcounts]⟩
      rw [trackCoalesced, if_pos hframe, hys]
      exact if_neg hms
  · by_cases hms : 0 < args.coalesceMs
    · obtain ⟨ys, hys, hperm, hys', _, hcounts⟩ := track_ok args (byTime args) hstands
      refine ⟨ys, ?_, hperm, hys', by rw [if_neg fun h => hframe h.1, hcounts]⟩
      rw [trackCoalesced, if_neg hframe]
      exact (if_pos hms).trans hys
    · refine ⟨xs, ?_, .refl _, hstands, ?_⟩
      · rw [trackCoalesced, if_neg hframe]
        exact if_neg hms
      · -- without a stage the counts are absent, which is 1 each
        have hones : xs.map (fun x => x.1.packetCount.getD 1) = xs.map fun _ => 1 :=
          List.map_congr_left fun x hx => by rw [hnone x hx, Option.getD_none]
        rw [if_neg fun h => hframe h.1, packetCounts, List.map_map]
        exact (congrArg List.sum hones).trans (by simp)

/-- The events that reach the emission loop have the number of packets as the sum of their counts,
every packet in exactly one of them, and delays between those of their packets. -/
def LosesNoPacket (args : Args) (matched : List Matched) : Prop :=
  ∃ tracked, (trackPackets args matched).bind (trackCoalesced args) = .ok tracked ∧
    (packetEvents args matched).bind (coalesced args) = .ok (tracked.map Prod.fst) ∧
    ((tracked.flatMap Prod.snd).map Prod.fst).Perm matched ∧
    (∀ x ∈ tracked, ∃ lo ∈ x.2, ∃ hi ∈ x.2, lo.2 ≤ x.1.delayMs ∧ x.1.delayMs ≤ hi.2) ∧
    packetCounts (tracked.map Prod.fst) = matched.length

/-- **When coalescing loses no packet.** It never does, except in the counts when both stages run and
two packets are of one frame. -/
theorem loses_no_packet_iff {matched : List Matched} {events : List Event}
    (h : packetEvents args matched = .ok events) :
    LosesNoPacket args matched ↔
      ¬ (args.coalesceByFrame = true ∧ 0 < args.coalesceMs) ∨
        (matched.map fun m => (m.ssrc, m.rtpTimestamp)).Nodup := by
  rw [packetEvents_untracked] at h
  obtain ⟨xs, hxs, rfl⟩ := Except.map_eq_ok.mp h
  obtain ⟨hstands, hpackets, hkeys, hnone⟩ := trackPackets_spec hxs
  obtain ⟨ys, hys, hperm, hstands', hcounts⟩ := trackCoalesced_ok args hstands hnone
  have hlength : xs.length = matched.length := by
    simpa only [List.length_map] using hkeys.length_eq
  have hcountsIff : packetCounts (ys.map Prod.fst) = matched.length ↔
      ¬ (args.coalesceByFrame = true ∧ 0 < args.coalesceMs) ∨
        (matched.map fun m => (m.ssrc, m.rtpTimestamp)).Nodup := by
    rw [hcounts]
    split_ifs with hboth
    · rw [← hlength, ← hkeys.nodup_iff, ← DefaultDict.length_collect_iff]
      exact (or_iff_right (not_not_intro hboth)).symm
    · exact iff_of_true hlength (.inl hboth)
  rw [← hcountsIff]
  constructor
  · rintro ⟨tracked, htracked, _, _, _, hsum⟩
    rw [hxs] at htracked
    obtain rfl := Except.ok.inj (hys.symm.trans htracked)
    exact hsum
  · intro hsum
    refine ⟨ys, by rw [hxs]; exact hys, ?_, (hperm.map Prod.fst).trans hpackets,
      fun y hy => (hstands' y hy).between, hsum⟩
    rw [packetEvents_untracked, hxs]
    exact (coalesced_untracked args xs).trans (by rw [hys]; rfl)

end Run

/-! ## On two packets of one frame -/

def twoPackets (rtpTimestamp : ℤ) : List Matched :=
  [⟨0, 10, 7, 1, 0⟩, ⟨5, 20, 7, 2, rtpTimestamp⟩]

def bothStages : Args := { coalesceByFrame := true, coalesceMs := 50 }

theorem frame_counted_as_packet : ¬ LosesNoPacket bothStages (twoPackets 0) := by
  rintro ⟨tracked, _, hevents, _, _, hsum⟩
  have hcoalesced : ((packetEvents bothStages (twoPackets 0)).bind (coalesced bothStages)).toOption =
      some [⟨0, 2, 7, 1, 0, some 1⟩] := by decide +kernel
  rw [hevents] at hcoalesced
  rw [Option.some.inj hcoalesced] at hsum
  exact absurd hsum (by decide)

theorem loses_no_packet_iff_two_frames : LosesNoPacket bothStages (twoPackets 3000) := by
  have hevents : ((packetEvents bothStages (twoPackets 3000)).toOption.map List.length) = some 2 := by
    decide +kernel
  obtain ⟨events, h, _⟩ := Option.map_eq_some_iff.mp hevents
  exact (loses_no_packet_iff bothStages (Except.eq_ok_of_toOption h)).mpr (.inr (by decide))

end WebrtcTrace.TraceTools.Packet
