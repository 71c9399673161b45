import WebrtcTrace.TraceTools.ClockShift
import WebrtcTrace.TraceTools.PacketTrace
import WebrtcTrace.TraceTools.WindowTrace

/-! # The traces do not depend on the clock offsets

Sender and receiver clocks are not synchronised. Both tools are followed on two sets of logs whose
clocks differ by constants: origins move with the receiver clock, samples and their base with the
difference of the clocks, and from the windows on nothing differs.
-/

namespace WebrtcTrace.TraceTools
set_option autoImplicit false

namespace Window

structure ReceiverShifted (c : ℤ) (logs logs' : ReceiverLogs) : Prop where
  packetBufferInserts : FileShifted "timestamp_ms" c logs.packetBufferInserts logs'.packetBufferInserts
  videoFreeze : FileShifted "timestamp_ms" c logs.videoFreeze logs'.videoFreeze

/-- The same logs but for `c` on every receiver timestamp and `d` on every `send_time_ms`. -/
structure LogsShifted (c d : ℤ) (logs logs' : Logs) : Prop where
  packetFeedback : FileShifted "send_time_ms" d logs.packetFeedback logs'.packetFeedback
  bweTarget : logs'.bweTarget = logs.bweTarget
  rtpSend : FileShifted "send_time_ms" d logs.rtpSend logs'.rtpSend
  receiver : Option.Rel (ReceiverShifted c) logs.receiver logs'.receiver

/-! ## The window tool: origin and warmup -/

section Prepare
variable {c d : ℤ} {rows rows' : List Row}

theorem dropWarmupRows_shifted (warmupMs : ℤ)
    (h : List.Forall₂ (RowShifted "timestamp_ms" c) rows rows') :
    Related (List.Forall₂ (RowShifted "timestamp_ms" c)) (dropWarmupRows rows "timestamp_ms" warmupMs)
      (dropWarmupRows rows' "timestamp_ms" warmupMs) := by
  unfold dropWarmupRows
  by_cases hwarmup : warmupMs ≤ 0
  · simp only [hwarmup, if_true]
    exact .ok h
  · simp only [hwarmup, if_false]
    refine (Related.of_map (columnInts_shifted h)).bind ?_
    rintro timestamps _ rfl
    by_cases hnil : timestamps = []
    · subst hnil
      exact .ok h
    · simp only [List.map_eq_nil_iff, hnil, if_false, minimum_shifted]
      refine (Related.of_map rfl).bind ?_
      rintro first _ rfl
      rw [show first + c + warmupMs = first + warmupMs + c by ring]
      exact rowsFrom_shifted (first + warmupMs) h

theorem receiverArrivalOriginMs_shifted (h : List.Forall₂ (RowShifted "timestamp_ms" c) rows rows') :
    receiverArrivalOriginMs rows' = (receiverArrivalOriginMs rows).map (· + c) := by
  unfold receiverArrivalOriginMs
  rw [columnInts_shifted h]
  cases columnInts "timestamp_ms" rows with
  | error e => rfl
  | ok candidates =>
    by_cases hnil : candidates = []
    · subst hnil
      rfl
    · show (if candidates.map (· + c) = [] then _ else minimum (candidates.map (· + c))) =
        (if candidates = [] then _ else minimum candidates).map (· + c)
      rw [if_neg hnil, if_neg (by simpa using hnil), minimum_shifted]

/-- What the later stages see of the shift. -/
structure InputsShifted (c d : ℤ) (inputs inputs' : Inputs) : Prop where
  rateSource : inputs.rateSource = .none ∧ inputs'.rateSource = .none
  disableLoss : inputs.disableLoss = true ∧ inputs'.disableLoss = true
  sendRows : List.Forall₂ (RowShifted "send_time_ms" d) inputs.sendRows inputs'.sendRows
  receiverPacketRows : List.Forall₂ (RowShifted "timestamp_ms" c) inputs.receiverPacketRows
    inputs'.receiverPacketRows
  originMs : inputs'.originMs = inputs.originMs + c

theorem prepare_shifted {args : Args} {logs logs' : Logs} (hmode : args.delaySource = .receiverArrival)
    (h : LogsShifted c d logs logs') :
    Related (InputsShifted c d) (prepare args logs) (prepare args logs') := by
  unfold prepare
  rw [hmode]
  have hrate : pickRateSource args logs' = pickRateSource args logs := by
    rw [pickRateSource, pickRateSource, isSome_shifted h.packetFeedback, h.bweTarget,
      isSome_shifted h.rtpSend]
  rw [hrate]
  obtain ⟨_, _, hsend, hreceiver⟩ := h
  cases pickRateSource args logs with
  | error e => exact .error e
  | ok rateSource =>
  obtain ⟨feedback, bwe, send, receiver⟩ := logs
  obtain ⟨feedback', bwe', send', receiver'⟩ := logs'
  dsimp only at hsend hreceiver
  cases hreceiver with
  | none => exact .error _
  | @some receiver receiver' hr =>
    refine Related.ite (p := args.rateSource ≠ .auto ∧ rateSource ≠ .none) (fun _ => .error _)
      fun _ => ?_
    refine (dropWarmupRows_shifted _ (readRows_shifted hr.packetBufferInserts)).bind ?_
    intro rows rows' hrows
    refine (Related.of_map (receiverArrivalOriginMs_shifted hrows)).bind ?_
    rintro originMs _ rfl
    exact .ok ⟨⟨rfl, rfl⟩, ⟨rfl, rfl⟩, readRows_shifted hsend, hrows, rfl⟩

end Prepare

/-! ## The window tool: samples -/

/-- The bins with every delay sample shifted. -/
def Bins.shift (δ : ℚ) (b : Bins) : Bins := { b with
  delay := b.delay.mapValues (List.map (· + δ))
  allDelaySamples := b.allDelaySamples.map (· + δ) }

theorem addSample_shift (δ : ℚ) (b : Bins) (idx : ℤ) (sample : ℚ) :
    (b.shift δ).addSample idx (sample + δ) = (b.addSample idx sample).shift δ := by
  have hdelay : (b.delay.mapValues (List.map (· + δ))).update idx [] (· ++ [sample + δ]) =
      (b.delay.update idx [] (· ++ [sample])).mapValues (List.map (· + δ)) :=
    b.delay.mapValues_update idx [] _ (List.map (· + δ)) _ fun samples => by simp
  simp only [Bins.addSample, Bins.shift, List.map_append, List.map_cons, List.map_nil, hdelay]

section Matching
variable {args : Args} {inputs inputs' : Inputs} {c d : ℤ}

/-- The variables of the matching loop on the shifted logs, and what the loop keeps true of them. -/
def MatchingShifted (c d : ℤ) (st st' : MatchingLoop) : Prop :=
  st' = ⟨st.matching.shift d, st.counts, st.matchedPackets, st.bins.shift (c - d)⟩ ∧
    st.bins.allDelaySamples.length = st.matchedPackets

theorem matchRow_shifted (h : InputsShifted c d inputs inputs') (st st' : MatchingLoop)
    (r r' : ReceiverPacket) (hst : MatchingShifted c d st st') (hr : r' = r.shift c) :
    Related (MatchingShifted c d) (matchRow args inputs st r) (matchRow args inputs' st' r') := by
  obtain ⟨rfl, hlength⟩ := hst
  subst hr
  unfold matchRow
  rw [matchPacket_shift]
  obtain ⟨picked, matching⟩ := matchPacket st.matching r
  cases picked with
  | none => exact .ok ⟨rfl, hlength⟩
  | some m =>
    obtain ⟨kind, candidate⟩ := m
    have hwindow : (r.shift c).recvTimeMs - inputs'.originMs - args.arrivalShiftMs =
        r.recvTimeMs - inputs.originMs - args.arrivalShiftMs := by
      rw [h.originMs]
      show r.recvTimeMs + c - (inputs.originMs + c) - _ = _
      omega
    have hsample : (((r.shift c).recvTimeMs - (candidate.shift d).sendTimeMs : ℤ) : ℚ) =
        ((r.recvTimeMs - candidate.sendTimeMs : ℤ) : ℚ) + (c - d) := by
      show ((r.recvTimeMs + c - (candidate.sendTimeMs + d) : ℤ) : ℚ) = _
      push_cast
      ring
    simp only [Option.map_some, hwindow, hsample, MatchCounts.add_shift, addSample_shift]
    refine (Related.refl _).map ?_
    rintro idx _ rfl
    refine ⟨rfl, ?_⟩
    simp [Bins.addSample, hlength]

theorem matchingLoop_shifted (h : InputsShifted c d inputs inputs') :
    Related (MatchingShifted c d) (matchingLoop args inputs {}) (matchingLoop args inputs' {}) := by
  refine (buildSenderPacketIndexes_shifted h.sendRows).bind ?_
  rintro ix _ rfl
  exact scanRows_related (reads_of_map (h.receiverPacketRows.imp fun _ _ => readReceiver_shifted))
    (matchRow_shifted h) ⟨rfl, rfl⟩

/-- The bins after the matching: shifted, and with at least one sample. -/
theorem receiverArrivalDelays_shifted (h : InputsShifted c d inputs inputs') :
    Related (fun b b' => b' = b.shift (c - d) ∧ b.allDelaySamples ≠ [])
      (receiverArrivalDelays args inputs {}) (receiverArrivalDelays args inputs' {}) := by
  refine (matchingLoop_shifted h).bind ?_
  rintro st _ ⟨rfl, hlength⟩
  refine Related.ite (fun _ => .error _) fun hmatched => .ok ⟨rfl, fun hnil => hmatched ?_⟩
  rw [← hlength, hnil]
  rfl

/-! ## The window tool: from the base delay on -/

/-- The same bins but for the list of all samples, which is not read any more. -/
def SameWindows (b b' : Bins) : Prop := b' = { b with allDelaySamples := b'.allDelaySamples }

theorem adjustDelays_shifted (δ : ℚ) {b : Bins} (hne : b.allDelaySamples ≠ []) :
    Related SameWindows (adjustDelays args b) (adjustDelays args (b.shift δ)) := by
  have hne' : (b.shift δ).allDelaySamples ≠ [] := by simpa [Bins.shift] using hne
  have hbase : baseDelayMs args (b.shift δ) = (baseDelayMs args b).map (· + δ) := by
    rw [baseDelayMs, baseDelayMs, if_neg hne, if_neg hne']
    exact percentile_shifted _ δ b.allDelaySamples _
  refine (Related.of_map hbase).map ?_
  rintro base _ rfl
  have hadjusted : ((b.shift δ).delay.mapValues fun samples =>
      samples.map fun sample => max 0 (sample - (base + δ))) =
        b.delay.mapValues fun samples => samples.map fun sample => max 0 (sample - base) := by
    refine DefaultDict.ext ?_
    simp only [Bins.shift, DefaultDict.mapValues, List.map_map]
    refine List.map_congr_left fun e _ => ?_
    simp only [Function.comp_apply, List.map_map, Prod.mk.injEq, true_and]
    refine List.map_congr_left fun sample _ => ?_
    rw [Function.comp_apply, add_sub_add_right_eq_sub]
  rw [if_neg hne, if_neg hne', hadjusted]
  rfl

theorem readTimed_shifted {valueKey : String} {row row' : Row}
    (h : RowShifted "timestamp_ms" c row row') (hkey : valueKey ≠ "timestamp_ms") :
    readTimed "timestamp_ms" valueKey row' =
      (readTimed "timestamp_ms" valueKey row).map (Option.map fun e => (e.1 + c, e.2)) := by
  rw [readTimed, readTimed, h.shifted, h.asInt_eq hkey]
  cases asInt row "timestamp_ms" with
  | error e => rfl
  | ok ts =>
    cases asInt row valueKey with
    | error e => rfl
    | ok value => cases ts <;> cases value <;> rfl

theorem freezeLoop_shifted {receiver receiver' : Option ReceiverLogs} {b b' : Bins}
    (h : Option.Rel (ReceiverShifted c) receiver receiver') (hb : SameWindows b b') :
    Related SameWindows (freezeLoop args receiver b) (freezeLoop args receiver' b') := by
  cases h with
  | none => exact .ok hb
  | @some receiver receiver' hr =>
    have hrows := readRows_shifted hr.videoFreeze
    refine (Related.of_map (columnInts_shifted hrows)).bind ?_
    rintro timestamps _ rfl
    rw [min?_map_add]
    cases timestamps.min? with
    | none => exact .ok hb
    | some freezeOrigin =>
      refine scanRows_related (reads_of_map (hrows.imp fun _ _ hrow =>
        readTimed_shifted hrow (by decide))) ?_ hb
      rintro b b' e _ hb rfl
      have hrelative : e.1 + c - (freezeOrigin + c) + args.receiverTimeOffsetMs =
          e.1 - freezeOrigin + args.receiverTimeOffsetMs := by omega
      simp only [hrelative]
      refine (Related.refl _).map ?_
      rintro idx _ rfl
      rw [hb]
      rfl

/-- The bins the window loop starts from. -/
theorem collectBins_shifted {receiver receiver' : Option ReceiverLogs}
    (hmode : args.delaySource = .receiverArrival) (h : InputsShifted c d inputs inputs')
    (hreceiver : Option.Rel (ReceiverShifted c) receiver receiver') :
    Related SameWindows (collectBins args inputs receiver) (collectBins args inputs' receiver') := by
  obtain ⟨hrate, hrate'⟩ := h.rateSource
  obtain ⟨hloss, hloss'⟩ := h.disableLoss
  unfold collectBins
  rw [hmode]
  refine (receiverArrivalDelays_shifted h).bind ?_
  rintro b _ ⟨rfl, hne⟩
  simp only [ackedLoop, bweLoop, sendLoop, lossBins, hrate, hrate', hloss, hloss']
  refine (adjustDelays_shifted _ hne).bind fun b b' hb => ?_
  exact freezeLoop_shifted hreceiver hb

end Matching

/-- **The window trace does not depend on the clock offsets.** -/
theorem buildTrace_shifted (pstdev : List ℚ → ℚ) {args : Args} {c d : ℤ} {logs logs' : Logs}
    (hmode : args.delaySource = .receiverArrival) (h : LogsShifted c d logs logs') :
    buildTrace pstdev args logs' = buildTrace pstdev args logs := by
  refine Related.eq ?_
  refine (prepare_shifted hmode h).bind fun inputs inputs' hinputs => ?_
  refine (collectBins_shifted hmode hinputs h.receiver).bind fun b b' hb => ?_
  rw [hinputs.rateSource.1, hinputs.rateSource.2, hb]
  exact Related.refl _

end Window
namespace Packet

structure LogsShifted (c d : ℤ) (logs logs' : Logs) : Prop where
  rtpSend : FileShifted "send_time_ms" d logs.rtpSend logs'.rtpSend
  packetBufferInserts : FileShifted "timestamp_ms" c logs.packetBufferInserts logs'.packetBufferInserts

/-! ## The packet-level tool: matching -/

section Matching
variable {c d : ℤ} {rows rows' : List Row}

theorem dropWarmupRows_shifted (warmupMs : ℤ)
    (h : List.Forall₂ (RowShifted "timestamp_ms" c) rows rows') :
    Related (List.Forall₂ (RowShifted "timestamp_ms" c)) (dropWarmupRows rows warmupMs)
      (dropWarmupRows rows' warmupMs) := by
  unfold dropWarmupRows
  refine Related.ite (fun _ => .ok h) fun _ => (Related.of_map (columnInts_shifted h)).bind ?_
  rintro timestamps _ rfl
  refine (Related.of_map (minimum_shifted c timestamps)).bind ?_
  rintro first _ rfl
  rw [show first + c + warmupMs = first + warmupMs + c by ring]
  exact rowsFrom_shifted (first + warmupMs) h

def Matched.shift (c d : ℤ) (m : Matched) : Matched :=
  { m with sendTimeMs := m.sendTimeMs + d, recvTimeMs := m.recvTimeMs + c }

def MatchingLoop.shift (c d : ℤ) (st : MatchingLoop) : MatchingLoop :=
  ⟨st.matching.shift d, st.counts, st.matched.map (Matched.shift c d)⟩

theorem matchRow_shift (st : MatchingLoop) (r : ReceiverPacket) :
    matchRow (st.shift c d) (r.shift c) = (matchRow st r).shift c d := by
  unfold matchRow
  rw [MatchingLoop.shift, matchPacket_shift]
  obtain ⟨picked, matching⟩ := matchPacket st.matching r
  cases picked with
  | none => rfl
  | some m =>
    obtain ⟨kind, candidate⟩ := m
    simp only [Option.map_some, MatchCounts.add_shift, MatchingLoop.shift, List.map_append]
    rfl

theorem matchingLoop_shifted {sendRows sendRows' : List Row}
    (hsend : List.Forall₂ (RowShifted "send_time_ms" d) sendRows sendRows')
    (hrows : List.Forall₂ (RowShifted "timestamp_ms" c) rows rows') :
    Related (fun st st' => st' = st.shift c d) (matchingLoop sendRows rows)
      (matchingLoop sendRows' rows') := by
  refine (buildSenderPacketIndexes_shifted hsend).bind ?_
  rintro ix _ rfl
  refine scanRows_related (reads_of_map (hrows.imp fun _ _ => readReceiver_shifted)) ?_ rfl
  rintro st _ r _ rfl rfl
  exact .ok (matchRow_shift st r)

end Matching

/-! ## The packet-level tool: events -/

section Events
variable (args : Args) (c d : ℤ)

theorem scheduleKey_shift (m n : Matched) : scheduleKey args m ≤ scheduleKey args n ↔
    scheduleKey args (m.shift c d) ≤ scheduleKey args (n.shift c d) := by
  unfold scheduleKey
  cases args.scheduleSource <;> simp [Prod.Lex.toLex_le_toLex, Matched.shift]

theorem packetEvent_shift (base : ℚ) (sendOrigin recvOrigin : ℤ) (m : Matched) :
    packetEvent args (base + (c - d)) (sendOrigin + d) (recvOrigin + c) (m.shift c d) =
      packetEvent args base sendOrigin recvOrigin m := by
  have hsend : (m.shift c d).sendTimeMs - (sendOrigin + d) = m.sendTimeMs - sendOrigin := by
    show m.sendTimeMs + d - (sendOrigin + d) = _
    omega
  have hrecv : (m.shift c d).recvTimeMs - (recvOrigin + c) = m.recvTimeMs - recvOrigin := by
    show m.recvTimeMs + c - (recvOrigin + c) = _
    omega
  have hdelay : packetDelayMs args (base + (c - d))
      ((m.shift c d).recvTimeMs - (m.shift c d).sendTimeMs) =
        packetDelayMs args base (m.recvTimeMs - m.sendTimeMs) := by
    have hraw : (((m.shift c d).recvTimeMs - (m.shift c d).sendTimeMs : ℤ) : ℚ) - (base + (c - d)) =
        ((m.recvTimeMs - m.sendTimeMs : ℤ) : ℚ) - base := by
      show ((m.recvTimeMs + c - (m.sendTimeMs + d) : ℤ) : ℚ) - _ = _
      push_cast
      ring
    rw [packetDelayMs, packetDelayMs, hraw]
  rw [packetEvent, packetEvent, hsend, hrecv, hdelay]
  rfl

theorem packetEvents_shift (matched : List Matched) :
    packetEvents args (matched.map (Matched.shift c d)) = packetEvents args matched := by
  have hraw : (matched.map (Matched.shift c d)).map
      (fun m => ((m.recvTimeMs - m.sendTimeMs : ℤ) : ℚ)) =
        (matched.map fun m => ((m.recvTimeMs - m.sendTimeMs : ℤ) : ℚ)).map
          (· + ((c : ℚ) - (d : ℚ))) := by
    rw [List.map_map, List.map_map]
    refine List.map_congr_left fun m _ => ?_
    show ((m.recvTimeMs + c - (m.sendTimeMs + d) : ℤ) : ℚ) =
      ((m.recvTimeMs - m.sendTimeMs : ℤ) : ℚ) + (c - d)
    push_cast
    ring
  have hsend : (matched.map (Matched.shift c d)).map Matched.sendTimeMs =
      (matched.map Matched.sendTimeMs).map (· + d) := by
    rw [List.map_map, List.map_map]
    rfl
  have hrecv : (matched.map (Matched.shift c d)).map Matched.recvTimeMs =
      (matched.map Matched.recvTimeMs).map (· + c) := by
    rw [List.map_map, List.map_map]
    rfl
  have hsorted : sortedBy (scheduleKey args) (matched.map (Matched.shift c d)) =
      (sortedBy (scheduleKey args) matched).map (Matched.shift c d) :=
    (List.map_insertionSort _ (fun m n => scheduleKey args m ≤ scheduleKey args n) _ _
      fun m _ n _ => scheduleKey_shift args c d m n).symm
  unfold packetEvents
  rw [hraw, hsend, hrecv, hsorted, minimum_shifted, minimum_shifted, percentile, percentile_shifted]
  refine Related.eq ((Related.of_map rfl).bind ?_)
  rintro base _ rfl
  refine (Related.of_map rfl).bind ?_
  rintro sendOrigin _ rfl
  refine (Related.of_map rfl).bind ?_
  rintro recvOrigin _ rfl
  refine .ok ?_
  rw [List.map_map]
  exact List.map_congr_left fun m _ => packetEvent_shift args c d base sendOrigin recvOrigin m

end Events

/-- **The packet-level trace does not depend on the clock offsets.** -/
theorem buildPacketTrace_shifted {args : Args} {c d : ℤ} {logs logs' : Logs}
    (h : LogsShifted c d logs logs') : buildPacketTrace args logs' = buildPacketTrace args logs := by
  have hsend := readRows_shifted h.rtpSend
  have hrows := readRows_shifted h.packetBufferInserts
  refine Related.eq ?_
  unfold buildPacketTrace
  simp only [nil_iff_shifted hsend, nil_iff_shifted hrows]
  refine Related.ite (fun _ => .error _) fun _ => Related.ite (fun _ => .error _) fun _ => ?_
  refine (dropWarmupRows_shifted _ hrows).bind fun rows rows' hrows => ?_
  refine (matchingLoop_shifted hsend hrows).bind ?_
  rintro st _ rfl
  simp only [MatchingLoop.shift, List.map_eq_nil_iff, packetEvents_shift]
  exact Related.refl _

end Packet

/-! ## Both tools -/

/-- **Clock offsets do not matter.** Adding `c` to every receiver timestamp and `d` to every
`send_time_ms` leaves the traces of both tools unchanged, under all options. -/
theorem clock_offset_invariant (c d : ℤ) :
    (∀ (pstdev : List ℚ → ℚ) (args : Window.Args) (logs logs' : Window.Logs),
      args.delaySource = .receiverArrival → Window.LogsShifted c d logs logs' →
      Window.buildTrace pstdev args logs' = Window.buildTrace pstdev args logs) ∧
    ∀ (args : Packet.Args) (logs logs' : Packet.Logs), Packet.LogsShifted c d logs logs' →
      Packet.buildPacketTrace args logs' = Packet.buildPacketTrace args logs :=
  ⟨fun pstdev _ _ _ hmode h => Window.buildTrace_shifted pstdev hmode h,
    fun _ _ _ h => Packet.buildPacketTrace_shifted h⟩

def sentRow (seqNum sendTime : String) : Row :=
  .full [("seq_num", seqNum), ("send_time_ms", sendTime), ("is_audio", "0")]

def arrivedRow (seqNum timestamp : String) : Row :=
  .full [("seq_num", seqNum), ("timestamp_ms", timestamp)]

theorem sentRow_shifted {d : ℤ} {seqNum sendTime sendTime' : String}
    (h : asInt (sentRow seqNum sendTime') "send_time_ms" =
      (asInt (sentRow seqNum sendTime) "send_time_ms").map (Option.map (· + d))) :
    RowShifted "send_time_ms" d (sentRow seqNum sendTime) (sentRow seqNum sendTime') :=
  ⟨h, fun k hk => by simp [sentRow, Row.full, Row.get?, List.find?_cons, hk.symm]⟩

theorem arrivedRow_shifted {c : ℤ} {seqNum timestamp timestamp' : String}
    (h : asInt (arrivedRow seqNum timestamp') "timestamp_ms" =
      (asInt (arrivedRow seqNum timestamp) "timestamp_ms").map (Option.map (· + c))) :
    RowShifted "timestamp_ms" c (arrivedRow seqNum timestamp) (arrivedRow seqNum timestamp') :=
  ⟨h, fun k hk => by simp [arrivedRow, Row.full, Row.get?, List.find?_cons, hk.symm]⟩

def twoPacketRows : List TraceRow :=
  [⟨"0", "0", "0", "0", "", "", "pkt:ssrc=-1,seq=1,rtp=-1,n=1"⟩,
    ⟨"20", "38", "0", "0", "", "", "pkt:ssrc=-1,seq=2,rtp=-1,n=1"⟩]

theorem clock_offset_invariant_two_packets :
    Packet.buildPacketTrace {} ⟨some [sentRow "1" "107", sentRow "2" "127"],
        some [arrivedRow "1" "-970", arrivedRow "2" "-910"]⟩ = .ok twoPacketRows := by
  have hrows : Packet.buildPacketTrace {} ⟨some [sentRow "1" "100", sentRow "2" "120"],
      some [arrivedRow "1" "30", arrivedRow "2" "90"]⟩ = .ok twoPacketRows := by decide +kernel
  rw [← hrows]
  refine (clock_offset_invariant (-1000) 7).2 {} _ _ ⟨.some ?_, .some ?_⟩
  · exact .cons (sentRow_shifted (by decide +kernel))
      (.cons (sentRow_shifted (by decide +kernel)) .nil)
  · exact .cons (arrivedRow_shifted (by decide +kernel))
      (.cons (arrivedRow_shifted (by decide +kernel)) .nil)

end WebrtcTrace.TraceTools
