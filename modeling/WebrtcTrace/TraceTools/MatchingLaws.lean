import WebrtcTrace.TraceTools.Assignment
import WebrtcTrace.TraceTools.PacketTrace
import WebrtcTrace.TraceTools.WindowTrace

/-! # What the matching loops guarantee

Both tools pick the same candidates (`matchRows`); what each of them keeps of a match is a function of
it (`Window.matchingLoop_outs`, `Packet.matchingLoop_outs`). The laws are read off the assignment:
it is injective, agrees on the key of its attempt and takes the first unused packet of it, and an
identifiable packet gets its own sender packet unless a fallback took that one before.
-/

namespace WebrtcTrace.TraceTools
set_option autoImplicit false

abbrev Outcome := ReceiverPacket × Option (MatchKind × Candidate)

/-- The ids of the matched sender packets, in order. -/
def matchedIds (outs : List Outcome) : List ℕ := outs.filterMap fun o => o.2.map fun m => m.2.id

def MatchCounts.total (n : MatchCounts) : ℕ := n.exactMatches + n.ssrcSeqMatches + n.seqOnlyMatches

theorem MatchCounts.total_add (n : MatchCounts) (r : ReceiverPacket) (kind : MatchKind)
    (c : Candidate) : (n.add r kind c).total = n.total + 1 := by
  cases kind <;> simp [MatchCounts.total, MatchCounts.add] <;> omega

theorem matchPacket_eta (st : MatchState) (r : ReceiverPacket) :
    matchPacket st r = ((matchPacket st r).1, (matchPacket st r).2) := rfl

/-! ## What the tools keep of the matches -/

/-- The delay sample of the window tool. -/
def Window.sampleOf (o : Outcome) : Option ℚ :=
  o.2.map fun m => ((o.1.recvTimeMs - m.2.sendTimeMs : ℤ) : ℚ)

/-- The record of the packet-level tool. -/
def Packet.matchedOf (o : Outcome) : Option Packet.Matched :=
  o.2.map fun m => ⟨m.2.sendTimeMs, o.1.recvTimeMs, orMinusOne o.1.ssrc, o.1.seqNum,
    orMinusOne o.1.rtpTimestamp⟩

theorem Window.foldlM_matchRow {args : Window.Args} {inputs : Window.Inputs}
    (rs : List ReceiverPacket) {st st' : Window.MatchingLoop}
    (h : rs.foldlM (Window.matchRow args inputs) st = .ok st') :
    st'.bins.allDelaySamples =
        st.bins.allDelaySamples ++ (matchAll st.matching rs).filterMap Window.sampleOf ∧
      st'.matchedPackets = st.matchedPackets + (matchedIds (matchAll st.matching rs)).length ∧
      st'.counts.total = st.counts.total + (matchedIds (matchAll st.matching rs)).length := by
  induction rs generalizing st with
  | nil =>
    cases h
    simp [matchAll, matchedIds]
  | cons r rs ih =>
    rw [List.foldlM_cons] at h
    obtain ⟨mid, hmid, h⟩ := Except.bind_eq_ok.mp h
    obtain ⟨hsamples, hmatched, htotal⟩ := ih h
    rw [Window.matchRow, matchPacket_eta] at hmid
    rw [matchAll]
    cases hpick : (matchPacket st.matching r).1 with
    | none =>
      simp only [hpick, Except.ok.injEq] at hmid
      subst hmid
      simpa [matchedIds, Window.sampleOf] using ⟨hsamples, hmatched, htotal⟩
    | some m =>
      obtain ⟨kind, c⟩ := m
      simp only [hpick] at hmid
      obtain ⟨idx, _, rfl⟩ := Except.map_eq_ok.mp hmid
      simp only [Window.Bins.addSample, MatchCounts.total_add] at hsamples hmatched htotal
      refine ⟨?_, ?_, ?_⟩
      · rw [hsamples]
        simp [Window.sampleOf]
      · rw [hmatched]
        simp only [matchedIds, List.filterMap_cons, Option.map_some, List.length_cons]
        omega
      · rw [htotal]
        simp only [matchedIds, List.filterMap_cons, Option.map_some, List.length_cons]
        omega

theorem Window.matchingLoop_outs {args : Window.Args} {inputs : Window.Inputs} {b : Window.Bins}
    {st : Window.MatchingLoop} (h : Window.matchingLoop args inputs b = .ok st) :
    ∃ outs, matchRows false inputs.sendRows inputs.receiverPacketRows = .ok outs ∧
      st.bins.allDelaySamples = b.allDelaySamples ++ outs.filterMap Window.sampleOf ∧
      st.matchedPackets = (matchedIds outs).length ∧
      st.counts.total = (matchedIds outs).length := by
  obtain ⟨ix, hix, h⟩ := Except.bind_eq_ok.mp h
  obtain ⟨rs, hrs, h⟩ := scanRows_eq_ok.mp h
  obtain ⟨hsamples, hmatched, htotal⟩ := Window.foldlM_matchRow rs h
  refine ⟨matchAll ⟨ix, ∅⟩ rs, ?_, hsamples, by simpa using hmatched, ?_⟩
  · rw [matchRows, hix, hrs]
    rfl
  · simpa [MatchCounts.total] using htotal

theorem Packet.foldl_matchRow (rs : List ReceiverPacket) (st : Packet.MatchingLoop) :
    (rs.foldl Packet.matchRow st).matched =
        st.matched ++ (matchAll st.matching rs).filterMap Packet.matchedOf ∧
      (rs.foldl Packet.matchRow st).counts.total =
        st.counts.total + (matchedIds (matchAll st.matching rs)).length := by
  induction rs generalizing st with
  | nil => simp [matchAll, matchedIds]
  | cons r rs ih =>
    obtain ⟨hmatched, htotal⟩ := ih (Packet.matchRow st r)
    rw [List.foldl_cons, hmatched, htotal, matchAll, Packet.matchRow, matchPacket_eta]
    cases hpick : (matchPacket st.matching r).1 with
    | none => simp [List.filterMap_cons, matchedIds, Packet.matchedOf]
    | some m =>
      simp only [MatchCounts.total_add, matchedIds, List.filterMap_cons, Option.map_some,
        Packet.matchedOf, List.append_assoc, List.singleton_append, List.length_cons]
      exact ⟨trivial, by omega⟩

theorem Packet.matchingLoop_outs {sendRows receiverPacketRows : List Row} {st : Packet.MatchingLoop}
    (h : Packet.matchingLoop sendRows receiverPacketRows = .ok st) :
    ∃ outs, matchRows true sendRows receiverPacketRows = .ok outs ∧
      st.matched = outs.filterMap Packet.matchedOf ∧
      st.counts.total = (matchedIds outs).length := by
  obtain ⟨ix, hix, h⟩ := Except.bind_eq_ok.mp h
  obtain ⟨rs, hrs, rfl⟩ := scanRows_pure_eq_ok.mp h
  obtain ⟨hmatched, htotal⟩ := Packet.foldl_matchRow rs { matching := ⟨ix, ∅⟩ }
  refine ⟨matchAll ⟨ix, ∅⟩ rs, ?_, by simpa using hmatched, ?_⟩
  · rw [matchRows, hix, hrs]
    rfl
  · simpa [MatchCounts.total] using htotal

/-- What the loops of the two tools keep of the matches, and how many they count. -/
structure LoopsKeep (ssrcFirst : Bool) (sendRows receiverPacketRows : List Row) (outs : List Outcome) :
    Prop where
  window : ∀ args inputs b st, ssrcFirst = false → inputs.sendRows = sendRows →
    inputs.receiverPacketRows = receiverPacketRows → Window.matchingLoop args inputs b = .ok st →
    st.bins.allDelaySamples = b.allDelaySamples ++ outs.filterMap Window.sampleOf ∧
      st.matchedPackets = (matchedIds outs).length ∧ st.counts.total = st.matchedPackets
  packet : ∀ st, ssrcFirst = true → Packet.matchingLoop sendRows receiverPacketRows = .ok st →
    st.matched = outs.filterMap Packet.matchedOf ∧
      st.matched.length = (matchedIds outs).length ∧ st.counts.total = st.matched.length

theorem length_matchedOf (outs : List Outcome) :
    (outs.filterMap Packet.matchedOf).length = (matchedIds outs).length := by
  rw [matchedIds]
  induction outs with
  | nil => rfl
  | cons o outs ih =>
    obtain ⟨r, _ | m⟩ := o <;> simpa [List.filterMap_cons, Packet.matchedOf] using ih

theorem loopsKeep_matchRows {ssrcFirst : Bool} {sendRows receiverPacketRows : List Row}
    {outs : List Outcome} (h : matchRows ssrcFirst sendRows receiverPacketRows = .ok outs) :
    LoopsKeep ssrcFirst sendRows receiverPacketRows outs where
  window := by
    rintro args inputs b st rfl rfl rfl hloop
    obtain ⟨outs', houts, hsamples, hmatched, htotal⟩ := Window.matchingLoop_outs hloop
    obtain rfl := Except.ok.inj (h.symm.trans houts)
    exact ⟨hsamples, hmatched, htotal.trans hmatched.symm⟩
  packet := by
    rintro st rfl hloop
    obtain ⟨outs', houts, hmatched, htotal⟩ := Packet.matchingLoop_outs hloop
    obtain rfl := Except.ok.inj (h.symm.trans houts)
    have hlength := hmatched ▸ length_matchedOf outs
    exact ⟨hmatched, hlength, htotal.trans hlength.symm⟩

/-! ## The loops as assignments -/

/-- What a loop makes of an assigned packet. -/
def toOutcome (o : ReceiverPacket × Option (MatchKind × ℕ × SenderPacket)) : Outcome :=
  (o.1, o.2.map fun m => (m.1, m.2.2.candidate m.2.1))

theorem matchedIds_toOutcome
    (os : List (ReceiverPacket × Option (MatchKind × ℕ × SenderPacket))) :
    matchedIds (os.map toOutcome) = takenIds os := by
  rw [matchedIds, takenIds, List.filterMap_map]
  congr 1
  funext o
  obtain ⟨r, _ | m⟩ := o <;> rfl

theorem matchRows_outcomes {ssrcFirst : Bool} {sendRows receiverPacketRows : List Row}
    {outs : List Outcome} (h : matchRows ssrcFirst sendRows receiverPacketRows = .ok outs) :
    ∃ packets rs, readAll (readSender ssrcFirst) sendRows = .ok packets ∧
      readAll readReceiver receiverPacketRows = .ok rs ∧
      outs = (outcomes packets ∅ rs).map toOutcome := by
  obtain ⟨ix, hix, h⟩ := Except.bind_eq_ok.mp h
  obtain ⟨rs, hrs, rfl⟩ := Except.map_eq_ok.mp h
  obtain ⟨packets, hpackets, hfiled⟩ := filed_build hix
  exact ⟨packets, rs, hpackets, hrs, matchAll_outcomes rs (tracked_start hfiled)⟩

theorem outcomes_receivers (packets : List SenderPacket) (rs : List ReceiverPacket)
    (used : Finset ℕ) : (outcomes packets used rs).map Prod.fst = rs := by
  induction rs generalizing used with
  | nil => rfl
  | cons r rs ih => rw [outcomes, List.map_cons, ih]

theorem takenIds_fresh {packets : List SenderPacket} (rs : List ReceiverPacket) (used : Finset ℕ) :
    (takenIds (outcomes packets used rs)).Nodup ∧
      ∀ i ∈ takenIds (outcomes packets used rs), i ∉ used := by
  induction rs generalizing used with
  | nil => simp [outcomes, takenIds]
  | cons r rs ih =>
    rw [outcomes]
    cases hm : assign packets used r with
    | none => simpa [takenIds, hm] using ih used
    | some m =>
      obtain ⟨hnodup, hfresh⟩ := ih (insert m.2.1 used)
      obtain ⟨_, hunused, _⟩ := attempt_some (assign_some hm).1
      simp only [takenIds, List.filterMap_cons, Option.map_some, List.nodup_cons, List.mem_cons]
      refine ⟨⟨fun hi => hfresh _ hi (Finset.mem_insert_self _ _), hnodup⟩, ?_⟩
      rintro i (rfl | hi)
      · exact hunused
      · exact fun hu => hfresh i hi (Finset.mem_insert_of_mem hu)

/-- A row of a run, cut out of the outcomes. -/
theorem outcome_split {packets : List SenderPacket} {rs : List ReceiverPacket}
    {before after : List Outcome} {r : ReceiverPacket} {m : Option (MatchKind × Candidate)}
    (h : (outcomes packets ∅ rs).map toOutcome = before ++ (r, m) :: after) :
    ∃ used a, assign packets used r = a ∧ m = a.map (fun a => (a.1, a.2.2.candidate a.2.1)) ∧
      ∀ i, i ∈ used ↔ i ∈ matchedIds before := by
  obtain ⟨os, os', hos, rfl, hrest⟩ := List.map_eq_append_iff.mp h
  obtain ⟨o, os'', rfl, ho, _⟩ := List.map_eq_cons_iff.mp hrest
  obtain ⟨used, hm, hused⟩ := outcomes_split hos
  cases ho
  refine ⟨used, o.2, hm.symm, rfl, fun i => ?_⟩
  rw [hused, matchedIds_toOutcome]
  simp

/-! ## First come, first served -/

/-- **Matching is an injective first-come assignment.** The indexed sender packets are those of the
video rows that have `seq_num` and `send_time_ms`. No packet is matched twice; a match agrees on the
key of its attempt and is the earliest packet with that key that no earlier row took; a row stays
unmatched only if all packets with its `seq_num` are taken; and what the loops of both tools keep are
these matches, in order, to the number of which their counters add up. -/
theorem matching_first_come {ssrcFirst : Bool} {sendRows receiverPacketRows : List Row}
    {outs : List Outcome} (h : matchRows ssrcFirst sendRows receiverPacketRows = .ok outs) :
    readAll readReceiver receiverPacketRows = .ok (outs.map Prod.fst) ∧
    (matchedIds outs).Nodup ∧
    (∃ packets, readAll (readSender ssrcFirst) sendRows = .ok packets ∧
      (∀ before r kind c after, outs = before ++ (r, some (kind, c)) :: after →
        (∃ p, packets[c.id]? = some p ∧ c = p.candidate c.id ∧ p.seqNum = r.seqNum ∧
          Agrees kind r p) ∧
        ∀ j q, j < c.id → packets[j]? = some q → Agrees kind r q → j ∈ matchedIds before) ∧
      ∀ before r after, outs = before ++ (r, none) :: after →
        ∀ j q, packets[j]? = some q → q.seqNum = r.seqNum → j ∈ matchedIds before) ∧
    LoopsKeep ssrcFirst sendRows receiverPacketRows outs := by
  have hkeep := loopsKeep_matchRows h
  obtain ⟨packets, rs, hpackets, hrs, rfl⟩ := matchRows_outcomes h
  refine ⟨?_, ?_, ⟨packets, hpackets, ?_, ?_⟩, hkeep⟩
  · rw [hrs, List.map_map]
    exact congrArg _ (outcomes_receivers packets rs ∅).symm
  · rw [matchedIds_toOutcome]
    exact (takenIds_fresh rs ∅).1
  · intro before r kind c after hsplit
    obtain ⟨used, a, ha, hm, hused⟩ := outcome_split hsplit
    obtain ⟨⟨kind', i, p⟩, rfl, heq⟩ := Option.map_eq_some_iff.mp hm.symm
    cases heq
    obtain ⟨hp, _, hagrees, hfirst⟩ := attempt_some (assign_some ha).1
    refine ⟨⟨p, hp, rfl, agrees_seqNum hagrees, hagrees⟩, fun j q hj hq hq' => ?_⟩
    exact (hused j).mp (hfirst j q hj hq hq')
  · intro before r after hsplit j q hq hseq
    obtain ⟨used, a, ha, hm, hused⟩ := outcome_split hsplit
    obtain rfl : a = none := Option.map_eq_none_iff.mp hm.symm
    refine (hused j).mp (attempt_none (assign_none ha) j q hq ⟨r.seqNum, rfl, ?_⟩)
    exact congrArg some hseq

/-! ### On two logs -/

def videoRow (ssrc seqNum rtpTimestamp sendTime : String) : Row :=
  .full [("ssrc", ssrc), ("seq_num", seqNum), ("rtp_timestamp", rtpTimestamp),
    ("send_time_ms", sendTime), ("is_audio", "0"), ("packet_type", "1")]

def insertRow (ssrc seqNum rtpTimestamp timestamp : String) : Row :=
  .full [("ssrc", ssrc), ("seq_num", seqNum), ("rtp_timestamp", rtpTimestamp),
    ("timestamp_ms", timestamp)]

/-- A sequence number that has wrapped, and one receiver row too many for it. -/
def wrappedOuts : List Outcome :=
  [(⟨5, 1010, some 1, some 90⟩, some (.exact, ⟨0, 1000, 90⟩)),
    (⟨5, 2010, some 1, some 91⟩, some (.ssrcSeq, ⟨1, 2000, 99⟩)),
    (⟨5, 2020, some 2, none⟩, none)]

theorem matching_first_come_wrapped :
    (matchedIds wrappedOuts).Nodup ∧
    ∀ st, Packet.matchingLoop [videoRow "1" "5" "90" "1000", videoRow "1" "5" "99" "2000"]
        [insertRow "1" "5" "90" "1010", insertRow "1" "5" "91" "2010", insertRow "2" "5" "" "2020"] =
          .ok st → st.matched = wrappedOuts.filterMap Packet.matchedOf ∧ st.matched.length = 2 := by
  have hrows : matchRows true [videoRow "1" "5" "90" "1000", videoRow "1" "5" "99" "2000"]
      [insertRow "1" "5" "90" "1010", insertRow "1" "5" "91" "2010", insertRow "2" "5" "" "2020"] =
        .ok wrappedOuts := by decide +kernel
  obtain ⟨_, hnodup, _, hkeep⟩ := matching_first_come hrows
  refine ⟨hnodup, fun st hst => ?_⟩
  obtain ⟨hmatched, hlength, _⟩ := hkeep.packet st rfl hst
  exact ⟨hmatched, hlength⟩

/-- A video row without `send_time_ms` is not indexed, so a receiver row stays unmatched although
the row with its `seq_num` is not used. -/
theorem unmatched_although_unused :
    ¬ ∀ (sendRows receiverPacketRows : List Row) (outs : List Outcome),
      matchRows false sendRows receiverPacketRows = .ok outs →
      ∀ before r after, outs = before ++ (r, none) :: after →
        ∀ row ∈ sendRows, isVideoSendRow row = .ok true →
          asInt row "seq_num" = .ok (some r.seqNum) →
          ∃ packets, readAll (readSender false) sendRows = .ok packets ∧
            ∃ i ∈ matchedIds before, ∃ p, packets[i]? = some p ∧
              readSender false row = .ok (some p) := by
  intro h
  have hrows : matchRows false [videoRow "1" "5" "90" ""] [insertRow "1" "5" "90" "1010"] =
      .ok [(⟨5, 1010, some 1, some 90⟩, none)] := by decide +kernel
  obtain ⟨_, _, i, hi, _⟩ := h _ _ _ hrows [] _ [] rfl (videoRow "1" "5" "90" "")
    (List.mem_singleton_self _) (by decide +kernel) (by decide +kernel)
  cases hi

end WebrtcTrace.TraceTools
