import WebrtcTrace.Congestion.DelayBasedBwe
import WebrtcTrace.Foundations.ChangeLog
import Mathlib.Data.List.Chain

/-! # Delay detection over whole runs

The events of the estimator are the changes of its CSV log (`delay_events_are_changes`). What the detectors
know is what came since the last pause of the stream, and which of them is active depends on the packets
since the last video packet (`detection_restarts`).
-/

namespace WebrtcTrace.Congestion
open Runs
set_option autoImplicit false

section Detection
variable {I T A : Type} (units : Units) (o : Estimators I T A)
  (separateAudio : BweSeparateAudioPacketsSettings)

/-! ## What a run leaves behind -/

/-- A packet with the time of its feedback. -/
abbrev Seen := PacketResult × ℤ

def BweOp.seen : BweOp → List Seen
  | .incomingPacketFeedbackVector packets feedbackTime _ _ _ _ => packets.map fun p => (p, feedbackTime)
  | .triggerOveruse .. | .onRttUpdate _ | .setStartBitrate _ | .setMinBitrate _ => []

def seenPackets (tr : List (DelayBasedBwe I T A × BweOp)) : List Seen := tr.flatMap fun e => e.2.seen

/-- The rows of `delay_bwe_state.csv`. -/
def delayRows (tr : List (DelayBasedBwe I T A × BweOp)) : List DelayBweRow :=
  tr.flatMap fun e => (e.1.perform units o separateAudio e.2).stateRows

/-- The rows of `packet_feedback.csv`. -/
def packetRows (tr : List (DelayBasedBwe I T A × BweOp)) : List PacketFeedbackRow :=
  tr.flatMap fun e => (e.1.perform units o separateAudio e.2).packetRows

def delayEvents (tr : List (DelayBasedBwe I T A × BweOp)) : List (DataRate × BandwidthUsage) :=
  tr.flatMap fun e => (e.1.perform units o separateAudio e.2).events

def DelayBweRow.estimate (row : DelayBweRow) : DataRate × BandwidthUsage :=
  (row.targetBps, row.detectorState)

def DelayBasedBwe.estimate (s : DelayBasedBwe I T A) : DataRate × BandwidthUsage :=
  (s.prevBitrate, s.prevState)

variable {units o separateAudio}

/-! ## The log and the events -/

/-- What an outcome says of the estimate, which was `last` before. -/
structure Notes (last : DataRate × BandwidthUsage) (out : DelayOutcome I T A) : Prop where
  events : out.events = changesFrom last (out.stateRows.map DelayBweRow.estimate)
  estimate : out.bwe.estimate = (out.stateRows.map DelayBweRow.estimate).getLast?.getD last
  result : ∀ row ∈ out.stateRows, out.result.delayDetectorState = row.detectorState ∧
    (out.result.updated = true → out.result.targetBitrate = row.targetBps)
  updated : out.stateRows = [] → out.result = {}

/-- An operation that makes no estimate. -/
theorem Notes.silent {s : DelayBasedBwe I T A} {last : DataRate × BandwidthUsage}
    (h : s.estimate = last) : Notes last { bwe := s } :=
  ⟨rfl, h, fun _ hrow => absurd hrow List.not_mem_nil, fun _ => rfl⟩

variable (units o separateAudio) in
theorem incomingPacketFeedback_estimate (s : DelayBasedBwe I T A) (p : PacketResult) (atTime : ℤ) :
    (s.incomingPacketFeedback units o separateAudio p atTime).1.estimate = s.estimate := by
  unfold DelayBasedBwe.incomingPacketFeedback DelayBasedBwe.updateDetector DelayBasedBwe.selectDetector
    DelayBasedBwe.resetOnTimeOut
  split_ifs <;> rfl

/-- What no packet changes is not changed by a vector of packets. -/
theorem incomingPackets_same {β : Type} (f : DelayBasedBwe I T A → β) {atTime : ℤ}
    (hf : ∀ s p, f (s.incomingPacketFeedback units o separateAudio p atTime).1 = f s)
    (s : DelayBasedBwe I T A) (packets : List PacketResult) :
    f (s.incomingPackets units o separateAudio packets atTime).bwe = f s := by
  unfold DelayBasedBwe.incomingPackets
  generalize hl : ({ bwe := s, prevDetectorState := s.activeState o } :
    DelayBasedBwe.FeedbackLoop I T A) = l
  have hs : f l.bwe = f s := by rw [← hl]
  clear hl
  induction packets generalizing l with
  | nil => exact hs
  | cons p packets ih => exact ih _ ((hf l.bwe p).trans hs)

variable (units o separateAudio) in
theorem incomingPackets_estimate (s : DelayBasedBwe I T A) (packets : List PacketResult) (atTime : ℤ) :
    (s.incomingPackets units o separateAudio packets atTime).bwe.estimate = s.estimate :=
  incomingPackets_same _ (fun s p => incomingPacketFeedback_estimate units o separateAudio s p atTime) s
    packets

variable (units o) in
theorem maybeUpdateEstimate_notes (s : DelayBasedBwe I T A) (acked probe : Option DataRate)
    (recovered : Bool) (atTime : ℤ) :
    Notes s.estimate (s.maybeUpdateEstimate units o acked probe recovered atTime) := by
  unfold DelayBasedBwe.maybeUpdateEstimate
  extract_lets estimate result detectorState changed bitrate noted
  have hestimate : (bitrate, detectorState) = s.estimate ↔ ¬ changed := by
    simp only [changed, bitrate, DelayBasedBwe.estimate, Prod.mk.injEq, not_or, not_and_or, not_not]
    cases result.updated <;> simp [eq_comm]
  have hnoted : noted.estimate = (bitrate, detectorState) := by
    by_cases hchanged : changed
    · rw [show noted = _ from if_pos hchanged]
      rfl
    · rw [show noted = s from if_neg hchanged]
      exact (hestimate.mpr hchanged).symm
  have htarget : (if result.updated then result.targetBitrate else noted.prevBitrate) = bitrate := by
    cases hupdated : result.updated with
    | true => simp [bitrate, hupdated]
    | false => exact (congrArg Prod.fst hnoted).trans (by simp [bitrate, hupdated])
  have hrow : ((if result.updated then result.targetBitrate else noted.prevBitrate), detectorState) =
      (bitrate, detectorState) := by rw [htarget]
  refine ⟨?_, hnoted.trans hrow.symm, ?_, fun h => absurd h (List.cons_ne_nil _ _)⟩
  · refine Eq.trans ?_ (congrArg (changesFrom s.estimate [·]) hrow).symm
    show (if changed then _ else _) = if (bitrate, detectorState) = s.estimate then _ else _
    by_cases hchanged : changed
    · rw [if_pos hchanged, if_neg fun h => hestimate.mp h hchanged]
      rfl
    · rw [if_neg hchanged, if_pos (hestimate.mpr hchanged)]
      rfl
  · intro row hrow
    obtain rfl := List.mem_singleton.mp hrow
    exact ⟨rfl, fun hupdated => (if_pos hupdated).symm⟩

variable (units o separateAudio) in
theorem perform_notes (s : DelayBasedBwe I T A) (op : BweOp) :
    Notes s.estimate (s.perform units o separateAudio op) := by
  cases op with
  | incomingPacketFeedbackVector packets feedbackTime acked probe estimate inAlr =>
    unfold DelayBasedBwe.perform DelayBasedBwe.incomingPacketFeedbackVector
    dsimp only
    split_ifs with hempty
    · exact .silent rfl
    · rw [← incomingPackets_estimate units o separateAudio s packets feedbackTime]
      obtain ⟨hevents, hestimate, hresult, hupdated⟩ := maybeUpdateEstimate_notes units o
        { (s.incomingPackets units o separateAudio packets feedbackTime).bwe with
          rateControl := o.setNetworkStateEstimate estimate (o.setInApplicationLimitedRegion inAlr
            (s.incomingPackets units o separateAudio packets feedbackTime).bwe.rateControl) }
        acked probe (s.incomingPackets units o separateAudio packets feedbackTime).recoveredFromOveruse
        feedbackTime
      exact ⟨hevents, hestimate, hresult, hupdated⟩
  | triggerOveruse | onRttUpdate | setStartBitrate | setMinBitrate => exact .silent rfl

/-- What a row of `packet_feedback.csv` says of its packet. -/
def PacketFeedbackRow.columns (row : PacketFeedbackRow) : ℤ × ℤ × ℤ × Bool × ℕ :=
  (row.atTimeMs, row.sendTimeMs, row.recvTimeMs, row.isAudio, row.sizeBytes)

variable (units) in
def seenColumns (e : Seen) : ℤ × ℤ × ℤ × Bool × ℕ :=
  (units.ms e.2, units.ms e.1.sendTime, units.ms e.1.receiveTime, e.1.audio, e.1.size)

variable (units o separateAudio) in
theorem incomingPackets_rows (s : DelayBasedBwe I T A) (packets : List PacketResult) (atTime : ℤ) :
    (s.incomingPackets units o separateAudio packets atTime).rows.map PacketFeedbackRow.columns =
      packets.map fun p => seenColumns units (p, atTime) := by
  have hloop : ∀ (l : DelayBasedBwe.FeedbackLoop I T A),
      (packets.foldl (DelayBasedBwe.incomingPacket units o separateAudio atTime) l).rows.map
        PacketFeedbackRow.columns =
          l.rows.map PacketFeedbackRow.columns ++ packets.map fun p => seenColumns units (p, atTime) := by
    induction packets with
    | nil => exact fun l => (List.append_nil _).symm
    | cons p packets ih =>
      intro l
      rw [List.foldl_cons, ih, DelayBasedBwe.incomingPacket, List.map_append, List.append_assoc]
      rfl
  exact hloop _

variable (units o separateAudio) in
theorem perform_packetRows (s : DelayBasedBwe I T A) (op : BweOp) :
    (s.perform units o separateAudio op).packetRows.map PacketFeedbackRow.columns =
      op.seen.map (seenColumns units) := by
  cases op with
  | incomingPacketFeedbackVector packets feedbackTime acked probe estimate inAlr =>
    unfold DelayBasedBwe.perform DelayBasedBwe.incomingPacketFeedbackVector BweOp.seen
    dsimp only
    split_ifs with hempty
    · rw [hempty]
      rfl
    · rw [incomingPackets_rows, List.map_map]
      rfl
  | triggerOveruse | onRttUpdate | setStartBitrate | setMinBitrate => rfl

theorem flatMap_snoc {α β : Type*} (f : α → List β) (l : List α) (a : α) :
    (l ++ [a]).flatMap f = l.flatMap f ++ f a := by
  rw [List.flatMap_append, List.flatMap_singleton]

/-- **The events are the changes of the log.** In every run: an event is logged exactly when a row of
`delay_bwe_state.csv` differs from the one before in its rate or its state; the estimate in force is that of
the last row; a call returns the rate and the state of its row, and nothing if it writes none; and
`packet_feedback.csv` has a row for each packet, in order. -/
theorem delay_events_are_changes (tr : List (DelayBasedBwe I T A × BweOp)) (s : DelayBasedBwe I T A)
    (h : BweRun units o separateAudio tr s) :
    delayEvents units o separateAudio tr =
        changesFrom (0, .normal) ((delayRows units o separateAudio tr).map DelayBweRow.estimate) ∧
      s.estimate = ((delayRows units o separateAudio tr).map DelayBweRow.estimate).getLast?.getD
        (0, .normal) ∧
      (∀ e ∈ tr, Notes e.1.estimate (e.1.perform units o separateAudio e.2)) ∧
      (packetRows units o separateAudio tr).map PacketFeedbackRow.columns =
        (seenPackets tr).map (seenColumns units) := by
  have hledger := h.history
    (I := fun tr s => delayEvents units o separateAudio tr =
        changesFrom (0, .normal) ((delayRows units o separateAudio tr).map DelayBweRow.estimate) ∧
      s.estimate = ((delayRows units o separateAudio tr).map DelayBweRow.estimate).getLast?.getD
        (0, .normal) ∧
      (packetRows units o separateAudio tr).map PacketFeedbackRow.columns =
        (seenPackets tr).map (seenColumns units))
    ⟨rfl, rfl, rfl⟩ ?_
  · exact ⟨hledger.1, hledger.2.1, fun e _ => perform_notes units o separateAudio e.1 e.2, hledger.2.2⟩
  · rintro tr s op t ⟨hevents, hestimate, hrows⟩ rfl
    have hnotes := perform_notes units o separateAudio s op
    rw [hestimate] at hnotes
    unfold delayEvents delayRows packetRows seenPackets at *
    refine ⟨?_, ?_, ?_⟩
    · rw [flatMap_snoc, flatMap_snoc, hevents, List.map_append, changesFrom_append]
      exact congrArg _ hnotes.events
    · rw [flatMap_snoc, List.map_append, getLast?_getD_append]
      exact hnotes.estimate
    · rw [flatMap_snoc, flatMap_snoc, List.map_append, List.map_append, hrows]
      exact congrArg _ (perform_packetRows units o separateAudio s op)

end Detection

/-- The delay of a packet is what its detector knows; the rate control is its rate, which it halves on
overuse, and its minimum. -/
def Estimators.delays : Estimators Unit ℤ (DataRate × DataRate) where
  newInterArrivalDelta := ()
  computeDeltas sendTime arrivalTime _ _ _ := (⟨true, 0, arrivalTime - sendTime⟩, ())
  newDetector := 0
  detect deltas _ _ _ _ := deltas.recvDelta
  state delay := if 100000 < delay then .overusing else .normal
  newRateControl := (300000, 0)
  update usage acked _ a :=
    let rate := acked.getD a.1
    let next := max a.2 (if usage = .overusing then rate / 2 else rate)
    (next, next, a.2)
  validEstimate _ := true
  latestEstimate a := a.1
  timeToReduceFurther _ _ _ := true
  initialTimeToReduceFurther _ _ := true
  setEstimate rate _ a := (max a.2 rate, a.2)
  setInApplicationLimitedRegion _ a := a
  setNetworkStateEstimate _ a := a
  setRtt _ a := a
  setStartBitrate startBitrate a := (startBitrate, a.2)
  setMinBitrate rate a := (max rate a.1, rate)
  getExpectedBandwidthPeriod _ := 1000000
  halve rate := rate / 2

def separated : BweSeparateAudioPacketsSettings := ⟨true, 1, 100000⟩

/-- Video that is delayed more and more, a pause, and then audio only. -/
def delayedOps : List BweOp :=
  [.incomingPacketFeedbackVector [⟨0, 20000, 1200, false, false⟩] 30000 none none none false,
    .incomingPacketFeedbackVector [⟨40000, 200000, 1200, false, false⟩] 210000 (some 250000) none none
      false,
    .onRttUpdate 50000,
    .incomingPacketFeedbackVector [⟨5000000, 5010000, 80, true, false⟩, ⟨5020000, 5030000, 80, true, false⟩]
      5040000 none none none false]

theorem delay_events_are_changes_delayed :
    ∃ tr s, BweRun .nearest .delays separated tr s ∧
      delayEvents .nearest .delays separated tr =
        [(300000, .normal), (125000, .overusing), (125000, .normal)] ∧
      s.estimate = (125000, .normal) ∧
      delayEvents .nearest .delays separated tr = changesFrom (0, .normal)
        ((delayRows .nearest .delays separated tr).map DelayBweRow.estimate) := by
  have hrun := Run.of_next (DelayBasedBwe.next .nearest .delays separated) (.create .delays) delayedOps
  exact ⟨_, _, hrun, by decide +kernel, by decide +kernel, (delay_events_are_changes _ _ hrun).1⟩

section Detection
variable {I T A : Type} {units : Units} {o : Estimators I T A}
  {separateAudio : BweSeparateAudioPacketsSettings}

/-! ## What the detectors know -/

/-- The detectors with the deltas they are given. -/
structure Detection (I T : Type) where
  videoInterArrivalDelta : I
  videoDelayDetector : T
  audioInterArrivalDelta : I
  audioDelayDetector : T

def DelayBasedBwe.detection (s : DelayBasedBwe I T A) : Detection I T :=
  ⟨s.videoInterArrivalDelta, s.videoDelayDetector, s.audioInterArrivalDelta, s.audioDelayDetector⟩

variable (o) in
def Detection.fresh : Detection I T :=
  ⟨o.newInterArrivalDelta, o.newDetector, o.newInterArrivalDelta, o.newDetector⟩

variable (o separateAudio) in
/-- A packet goes to the detector of its kind. -/
def Detection.feed (d : Detection I T) (e : Seen) : Detection I T :=
  let compute := o.computeDeltas e.1.sendTime e.1.receiveTime e.2 e.1.size
  let detect := fun deltas => o.detect deltas e.1.sendTime e.1.receiveTime e.1.size
  if separateAudio.enabled && e.1.audio then
    { d with
      audioInterArrivalDelta := (compute d.audioInterArrivalDelta).2
      audioDelayDetector := detect (compute d.audioInterArrivalDelta).1 d.audioDelayDetector }
  else
    { d with
      videoInterArrivalDelta := (compute d.videoInterArrivalDelta).2
      videoDelayDetector := detect (compute d.videoInterArrivalDelta).1 d.videoDelayDetector }

/-- The audio packets since the last video packet. -/
def audioSince (seen : List Seen) : ℤ := (seen.reverse.takeWhile fun e => e.1.audio).length

/-- The latest arrival of a video packet. -/
def latestVideo (seen : List Seen) : Option ℤ :=
  ((seen.filter fun e => !e.1.audio).map fun e => e.1.receiveTime).max?

theorem audioSince_snoc (seen : List Seen) (e : Seen) :
    audioSince (seen ++ [e]) = if e.1.audio then audioSince seen + 1 else 0 := by
  unfold audioSince
  rw [List.reverse_append, List.reverse_singleton, List.singleton_append, List.takeWhile_cons]
  split_ifs <;> simp

theorem max?_concat (values : List ℤ) (value : ℤ) :
    (values ++ [value]).max? = some (values.max?.elim value (max · value)) := by
  cases values with
  | nil => rfl
  | cons first values =>
    rw [List.cons_append, List.max?_cons', List.max?_cons', List.foldl_append]
    rfl

theorem latestVideo_snoc (seen : List Seen) (e : Seen) :
    latestVideo (seen ++ [e]) =
      if e.1.audio then latestVideo seen
      else some ((latestVideo seen).elim e.1.receiveTime (max · e.1.receiveTime)) := by
  unfold latestVideo
  rw [List.filter_append, List.map_append]
  by_cases haudio : e.1.audio = true
  · simp [haudio]
  · simp only [haudio, Bool.not_false, List.filter_cons_of_pos, List.filter_nil, List.map_cons,
      List.map_nil, if_false, Bool.false_eq_true]
    exact max?_concat _ _

variable (separateAudio) in
/-- With this packet, after the ones before, audio is far enough ahead. -/
def TakesOver (before : List Seen) (e : Seen) : Prop :=
  separateAudio.packetThreshold < audioSince (before ++ [e]) ∧
    ∀ last ∈ latestVideo before, separateAudio.timeThreshold < e.1.receiveTime - last

variable (separateAudio) in
/-- Audio took over at one of the last `n` packets, and no video packet came since. -/
def AudioLeads (seen : List Seen) (n : ℕ) : Prop :=
  ∃ before e after, seen = before ++ e :: after ∧ after.length < n ∧ TakesOver separateAudio before e ∧
    ∀ e' ∈ e :: after, e'.1.audio = true

theorem audioLeads_snoc {seen : List Seen} {n : ℕ} {e : Seen} :
    AudioLeads separateAudio (seen ++ [e]) (n + 1) ↔
      e.1.audio = true ∧ (AudioLeads separateAudio seen n ∨ TakesOver separateAudio seen e) := by
  constructor
  · rintro ⟨before, e', after, hseen, hlength, htakes, haudio⟩
    obtain rfl | ⟨after, last, rfl⟩ := List.eq_nil_or_concat after
    · obtain ⟨rfl, he⟩ := List.append_inj' hseen rfl
      obtain rfl := List.singleton_inj.mp he
      exact ⟨haudio e List.mem_cons_self, .inr htakes⟩
    · rw [List.concat_eq_append, ← List.cons_append, ← List.append_assoc] at hseen
      obtain ⟨rfl, he⟩ := List.append_inj' hseen rfl
      obtain rfl := List.singleton_inj.mp he
      refine ⟨haudio e (by simp), .inl ⟨before, e', after, rfl, ?_, htakes, fun x hx => ?_⟩⟩
      · simpa using hlength
      · exact haudio x (by simpa using Or.imp_right Or.inl (List.mem_cons.mp hx))
  · rintro ⟨haudio, ⟨before, e', after, rfl, hlength, htakes, hafter⟩ | htakes⟩
    · refine ⟨before, e', after ++ [e], by simp, by simpa using hlength, htakes, fun x hx => ?_⟩
      rw [← List.cons_append] at hx
      obtain hx | hx := List.mem_append.mp hx
      · exact hafter x hx
      · rw [List.mem_singleton.mp hx]
        exact haudio
    · exact ⟨seen, e, [], rfl, Nat.succ_pos n, htakes, by simpa using haudio⟩

variable (o separateAudio) in
/-- What the estimator knows after the packets `seen`, of which `kept` came since the last pause. -/
structure Knows (seen kept : List Seen) (s : DelayBasedBwe I T A) : Prop where
  lastSeen : s.lastSeenPacket = seen.getLast?.map Prod.snd
  paused : ∃ before, seen = before ++ kept ∧
    ∀ a ∈ before.getLast?, ∀ b ∈ kept.head?, kStreamTimeOut < b.2 - a.2
  steady : kept.IsChain fun a b => b.2 - a.2 ≤ kStreamTimeOut
  nothing : kept = [] → seen = []
  detection : s.detection = kept.foldl (Detection.feed o separateAudio) (.fresh o)
  active : s.activeAudio = true ↔
    separateAudio.enabled = true ∧ AudioLeads separateAudio seen kept.length
  packets : separateAudio.enabled = true → s.audioPacketsSinceLastVideo = audioSince seen
  video : separateAudio.enabled = true → s.lastVideoPacketRecvTime = latestVideo seen

theorem knows_create : Knows o separateAudio [] [] (.create o : DelayBasedBwe I T A) where
  lastSeen := rfl
  paused := ⟨[], rfl, nofun⟩
  steady := .nil
  nothing _ := rfl
  detection := rfl
  active := ⟨nofun, fun ⟨_, _, _, _, _, hlength, _⟩ => absurd hlength (Nat.not_lt_zero _)⟩
  packets _ := rfl
  video _ := rfl

/-- A pause before a packet resets the detectors; the packet then starts a new stretch. -/
theorem Knows.reset {seen kept : List Seen} {s : DelayBasedBwe I T A}
    (h : Knows o separateAudio seen kept s) (e : Seen) :
    ∃ kept' before, seen = before ++ kept' ∧
      (∀ a ∈ before.getLast?, ∀ b ∈ (kept' ++ [e]).head?, kStreamTimeOut < b.2 - a.2) ∧
      (kept' ++ [e]).IsChain (fun a b => b.2 - a.2 ≤ kStreamTimeOut) ∧
      (s.resetOnTimeOut o e.2).detection = kept'.foldl (Detection.feed o separateAudio) (.fresh o) ∧
      ((s.resetOnTimeOut o e.2).activeAudio = true ↔
        separateAudio.enabled = true ∧ AudioLeads separateAudio seen kept'.length) := by
  unfold DelayBasedBwe.resetOnTimeOut
  by_cases htimeout : DelayBasedBwe.TimedOut s.lastSeenPacket e.2
  · rw [if_pos htimeout]
    refine ⟨[], seen, (List.append_nil seen).symm, fun a ha b hb => ?_, List.isChain_singleton e, rfl,
      nofun, fun ⟨_, _, _, _, _, hlength, _⟩ => absurd hlength (Nat.not_lt_zero _)⟩
    rw [h.lastSeen, ha] at htimeout
    obtain rfl : e = b := Option.some.inj hb
    exact htimeout a.2 rfl
  · rw [if_neg htimeout]
    have hlast : ∀ a ∈ seen.getLast?, e.2 - a.2 ≤ kStreamTimeOut := by
      intro a ha
      rw [h.lastSeen, ha] at htimeout
      by_contra hlate
      refine htimeout fun last hlast => ?_
      obtain rfl := Option.some.inj hlast
      exact not_le.mp hlate
    obtain ⟨before, hseen, hpause⟩ := h.paused
    have hkept : kept ≠ [] := by
      intro hnil
      rw [h.lastSeen, h.nothing hnil] at htimeout
      exact htimeout nofun
    refine ⟨kept, before, hseen, ?_, ?_, h.detection, h.active⟩
    · rw [List.head?_append_of_ne_nil _ hkept]
      exact hpause
    · refine List.isChain_append.mpr ⟨h.steady, List.isChain_singleton e, fun a ha b hb => ?_⟩
      obtain rfl : e = b := Option.some.inj hb
      refine hlast a ?_
      rw [hseen, List.getLast?_append_of_ne_nil _ hkept]
      exact ha

section Packet
variable (units o separateAudio) (s : DelayBasedBwe I T A) (e : Seen)

theorem incoming_lastSeen :
    (s.incomingPacketFeedback units o separateAudio e.1 e.2).1.lastSeenPacket = some e.2 := by
  unfold DelayBasedBwe.incomingPacketFeedback DelayBasedBwe.updateDetector DelayBasedBwe.selectDetector
  split_ifs <;> rfl

theorem incoming_detection :
    (s.incomingPacketFeedback units o separateAudio e.1 e.2).1.detection =
      (s.resetOnTimeOut o e.2).detection.feed o separateAudio e := by
  unfold DelayBasedBwe.incomingPacketFeedback DelayBasedBwe.updateDetector DelayBasedBwe.selectDetector
    Detection.feed
  split_ifs <;> rfl

theorem reset_packets : (s.resetOnTimeOut o e.2).audioPacketsSinceLastVideo =
    s.audioPacketsSinceLastVideo := by
  unfold DelayBasedBwe.resetOnTimeOut
  split_ifs <;> rfl

theorem reset_video : (s.resetOnTimeOut o e.2).lastVideoPacketRecvTime = s.lastVideoPacketRecvTime := by
  unfold DelayBasedBwe.resetOnTimeOut
  split_ifs <;> rfl

theorem incoming_packets (henabled : separateAudio.enabled = true) :
    (s.incomingPacketFeedback units o separateAudio e.1 e.2).1.audioPacketsSinceLastVideo =
      if e.1.audio then s.audioPacketsSinceLastVideo + 1 else 0 := by
  rw [← reset_packets o s e]
  unfold DelayBasedBwe.incomingPacketFeedback DelayBasedBwe.updateDetector DelayBasedBwe.selectDetector
  rw [henabled]
  cases e.1.audio <;> rfl

theorem incoming_video (henabled : separateAudio.enabled = true) :
    (s.incomingPacketFeedback units o separateAudio e.1 e.2).1.lastVideoPacketRecvTime =
      if e.1.audio then s.lastVideoPacketRecvTime
      else some (s.lastVideoPacketRecvTime.elim e.1.receiveTime (max · e.1.receiveTime)) := by
  rw [← reset_video o s e]
  unfold DelayBasedBwe.incomingPacketFeedback DelayBasedBwe.updateDetector DelayBasedBwe.selectDetector
  rw [henabled]
  cases e.1.audio <;> rfl

theorem incoming_active :
    (s.incomingPacketFeedback units o separateAudio e.1 e.2).1.activeAudio =
      if separateAudio.enabled then
        e.1.audio && ((s.resetOnTimeOut o e.2).activeAudio ||
          DelayBasedBwe.audioTakesOver separateAudio (s.audioPacketsSinceLastVideo + 1)
            s.lastVideoPacketRecvTime e.1.receiveTime)
      else (s.resetOnTimeOut o e.2).activeAudio := by
  rw [← reset_packets o s e, ← reset_video o s e]
  unfold DelayBasedBwe.incomingPacketFeedback DelayBasedBwe.updateDetector DelayBasedBwe.selectDetector
  cases separateAudio.enabled <;> cases e.1.audio <;> rfl

end Packet

theorem takesOver_iff {seen : List Seen} {e : Seen} (haudio : e.1.audio = true) :
    DelayBasedBwe.audioTakesOver separateAudio (audioSince seen + 1) (latestVideo seen) e.1.receiveTime =
      true ↔ TakesOver separateAudio seen e := by
  rw [DelayBasedBwe.audioTakesOver, TakesOver, audioSince_snoc, if_pos haudio]
  cases latestVideo seen <;> simp

variable (units) in
/-- A packet is learned. -/
theorem Knows.packet {seen kept : List Seen} {s : DelayBasedBwe I T A}
    (h : Knows o separateAudio seen kept s) (e : Seen) :
    ∃ kept', Knows o separateAudio (seen ++ [e]) kept'
      (s.incomingPacketFeedback units o separateAudio e.1 e.2).1 := by
  obtain ⟨kept', before, hseen, hpause, hsteady, hdetection, hactive⟩ := h.reset e
  refine ⟨kept' ++ [e],
    { lastSeen := by rw [incoming_lastSeen, List.getLast?_concat, Option.map_some]
      paused := ⟨before, by rw [hseen, List.append_assoc], hpause⟩
      steady := hsteady
      nothing := fun hnil =>
        absurd hnil (List.append_ne_nil_of_right_ne_nil _ (List.cons_ne_nil _ _))
      detection := by rw [incoming_detection, hdetection, List.foldl_concat]
      active := ?_
      packets := fun henabled => by rw [incoming_packets _ _ _ _ _ henabled, h.packets henabled, audioSince_snoc]
      video := fun henabled => by rw [incoming_video _ _ _ _ _ henabled, h.video henabled, latestVideo_snoc] }⟩
  rw [incoming_active, List.length_append, List.length_singleton, audioLeads_snoc]
  by_cases henabled : separateAudio.enabled = true
  · rw [if_pos henabled, h.packets henabled, h.video henabled, Bool.and_eq_true, Bool.or_eq_true, hactive]
    constructor
    · rintro ⟨haudio, ⟨-, hleads⟩ | htakes⟩
      · exact ⟨henabled, haudio, .inl hleads⟩
      · exact ⟨henabled, haudio, .inr ((takesOver_iff haudio).mp htakes)⟩
    · rintro ⟨-, haudio, hleads | htakes⟩
      · exact ⟨haudio, .inl ⟨henabled, hleads⟩⟩
      · exact ⟨haudio, .inr ((takesOver_iff haudio).mpr htakes)⟩
  · rw [if_neg henabled, hactive]
    exact ⟨fun h => absurd h.1 henabled, fun h => absurd h.1 henabled⟩

variable (units) in
theorem Knows.incomingPackets {seen : List Seen} {s : DelayBasedBwe I T A}
    (h : ∃ kept, Knows o separateAudio seen kept s) (packets : List PacketResult) (atTime : ℤ) :
    ∃ kept, Knows o separateAudio (seen ++ packets.map fun p => (p, atTime)) kept
      (s.incomingPackets units o separateAudio packets atTime).bwe := by
  unfold DelayBasedBwe.incomingPackets
  generalize hl : ({ bwe := s, prevDetectorState := s.activeState o } :
    DelayBasedBwe.FeedbackLoop I T A) = l
  have hbwe : ∃ kept, Knows o separateAudio seen kept l.bwe := by rwa [← hl]
  clear hl h
  induction packets generalizing seen l with
  | nil =>
    rw [List.map_nil, List.append_nil]
    exact hbwe
  | cons p packets ih =>
    obtain ⟨kept, hkept⟩ := hbwe
    have hnext := ih (DelayBasedBwe.incomingPacket units o separateAudio atTime l p)
      (hkept.packet units (p, atTime))
    rw [List.append_assoc] at hnext
    exact hnext

/-- The estimate and the rate control are not part of what is known of the packets. -/
theorem Knows.rate {seen kept : List Seen} {s : DelayBasedBwe I T A}
    (h : Knows o separateAudio seen kept s) (rateControl : A) (prevBitrate : DataRate)
    (prevState : BandwidthUsage) : Knows o separateAudio seen kept
      { s with rateControl := rateControl, prevBitrate := prevBitrate, prevState := prevState } :=
  ⟨h.lastSeen, h.paused, h.steady, h.nothing, h.detection, h.active, h.packets, h.video⟩

variable (units) in
theorem Knows.maybeUpdate {seen kept : List Seen} {s : DelayBasedBwe I T A}
    (h : Knows o separateAudio seen kept s) (acked probe : Option DataRate) (recovered : Bool)
    (atTime : ℤ) :
    Knows o separateAudio seen kept (s.maybeUpdateEstimate units o acked probe recovered atTime).bwe := by
  unfold DelayBasedBwe.maybeUpdateEstimate
  extract_lets estimate result detectorState changed bitrate noted
  by_cases hchanged : changed
  · rw [show noted = _ from if_pos hchanged]
    exact h.rate _ _ _
  · rw [show noted = s from if_neg hchanged]
    exact h.rate _ _ _

variable (units) in
theorem Knows.perform {seen : List Seen} {s : DelayBasedBwe I T A}
    (h : ∃ kept, Knows o separateAudio seen kept s) (op : BweOp) :
    ∃ kept, Knows o separateAudio (seen ++ op.seen) kept (s.perform units o separateAudio op).bwe := by
  cases op with
  | incomingPacketFeedbackVector packets feedbackTime acked probe estimate inAlr =>
    unfold DelayBasedBwe.perform DelayBasedBwe.incomingPacketFeedbackVector BweOp.seen
    dsimp only
    split_ifs with hempty
    · rw [hempty, List.map_nil, List.append_nil]
      exact h
    · obtain ⟨kept, hkept⟩ := Knows.incomingPackets units h packets feedbackTime
      exact ⟨kept, (hkept.rate _ _ _).maybeUpdate units acked probe _ feedbackTime⟩
  | triggerOveruse | onRttUpdate | setStartBitrate | setMinBitrate =>
    rw [BweOp.seen, List.append_nil]
    exact h.imp fun kept hkept => hkept.rate _ _ _

/-- **Detection starts over after a pause.** In every run the packets are those before and those since the
last pause of more than two seconds, and the detectors know the latter only. The detector for audio is
active exactly if audio is separated and took over at one of these packets, with no video packet since:
more audio packets than the threshold had come since the last video packet, and this one arrived later
than any video packet so far by more than the threshold. -/
theorem detection_restarts (tr : List (DelayBasedBwe I T A × BweOp)) (s : DelayBasedBwe I T A)
    (h : BweRun units o separateAudio tr s) :
    ∃ before kept, seenPackets tr = before ++ kept ∧
      (∀ a ∈ before.getLast?, ∀ b ∈ kept.head?, kStreamTimeOut < b.2 - a.2) ∧
      kept.IsChain (fun a b => b.2 - a.2 ≤ kStreamTimeOut) ∧
      s.detection = kept.foldl (Detection.feed o separateAudio) (.fresh o) ∧
      (s.activeAudio = true ↔
        separateAudio.enabled = true ∧ AudioLeads separateAudio (seenPackets tr) kept.length) := by
  have hknows : ∃ kept, Knows o separateAudio (seenPackets tr) kept s := by
    refine h.history (I := fun tr s => ∃ kept, Knows o separateAudio (seenPackets tr) kept s)
      ⟨[], knows_create⟩ ?_
    rintro tr s op t hs rfl
    have hnext := Knows.perform units hs op
    unfold seenPackets at *
    rw [flatMap_snoc]
    exact hnext
  obtain ⟨kept, hkept⟩ := hknows
  obtain ⟨before, hseen, hpause⟩ := hkept.paused
  exact ⟨before, kept, hseen, hpause, hkept.steady, hkept.detection, hkept.active⟩

end Detection

/-- The video detector knows nothing of the video before the pause. -/
theorem detection_restarts_delayed :
    ∃ tr s, BweRun .nearest .delays separated tr s ∧ s.activeAudio = true ∧
      s.videoDelayDetector = 0 ∧ s.audioDelayDetector = 10000 ∧
      ∃ before kept, seenPackets tr = before ++ kept ∧
        s.detection = kept.foldl (Detection.feed .delays separated) (.fresh .delays) ∧
        AudioLeads separated (seenPackets tr) kept.length := by
  have hrun := Run.of_next (DelayBasedBwe.next .nearest .delays separated) (.create .delays) delayedOps
  obtain ⟨before, kept, hseen, -, -, hdetection, hactive⟩ := detection_restarts _ _ hrun
  exact ⟨_, _, hrun, by decide +kernel, by decide +kernel, by decide +kernel, before, kept, hseen, hdetection,
    (hactive.mp (by decide +kernel)).2⟩

end WebrtcTrace.Congestion
