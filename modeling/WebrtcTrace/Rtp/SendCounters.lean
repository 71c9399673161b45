import WebrtcTrace.Rtp.EgressLedger

/-! # What the egress counts

`UpdateRtpStats` adds a packet to the counters of its stream once the transport has taken it. Over a run
the counters are sums over the packets sent (`counters_sum_sent`); which packets make up a stream depends
on whether the counters are kept here or by the callback, of which it is assumed that it remembers what it
was told (`Remembers`).
-/

namespace WebrtcTrace.Rtp
open Runs RtpSenderEgress
set_option autoImplicit false

variable {config : EgressConfig}

/-! ## Sums over packets -/

/-- The counter of some packets. -/
def counterOf (ps : List Packet) : RtpPacketCounter where
  headerBytes := (ps.map fun p => p.rtpPacket.headersSize).sum
  payloadBytes := (ps.map fun p => p.rtpPacket.payloadSize).sum
  paddingBytes := (ps.map fun p => p.rtpPacket.paddingSize).sum
  packets := ps.length

/-- The counters of a stream with these packets. -/
def countersOf (ps : List Packet) : StreamDataCounters where
  firstPacketTime := ps.head?.map Packet.now
  transmitted := counterOf ps
  retransmitted := counterOf (ps.filter fun p => p.rtpPacket.packetType = .retransmission)
  fec := counterOf (ps.filter fun p => p.rtpPacket.packetType = .forwardErrorCorrection)

theorem counterOf_snoc (ps : List Packet) (p : Packet) :
    counterOf (ps ++ [p]) = (counterOf ps).add (.ofPacket p.rtpPacket) := by
  simp [counterOf, RtpPacketCounter.add, RtpPacketCounter.ofPacket]

theorem counterOf_filter_snoc (ps : List Packet) (p : Packet) (q : Packet → Bool) :
    counterOf ((ps ++ [p]).filter q) = if q p then (counterOf (ps.filter q)).add (.ofPacket p.rtpPacket)
      else counterOf (ps.filter q) := by
  rw [List.filter_append, List.filter_cons]
  split_ifs
  · exact counterOf_snoc _ p
  · rw [List.filter_nil, List.append_nil]

theorem countersOf_snoc (ps : List Packet) (p : Packet) :
    countersOf (ps ++ [p]) = (countersOf ps).update p.rtpPacket p.now := by
  have hfirst : (ps ++ [p]).head?.map Packet.now = some ((ps.head?.map Packet.now).getD p.now) := by
    cases ps <;> rfl
  simp only [countersOf, StreamDataCounters.update, counterOf_snoc, counterOf_filter_snoc, hfirst,
    decide_eq_true_eq]

/-- The counters of two parts of a stream, the earlier one first. -/
def StreamDataCounters.plus (a b : StreamDataCounters) : StreamDataCounters where
  firstPacketTime := a.firstPacketTime <|> b.firstPacketTime
  transmitted := a.transmitted.add b.transmitted
  retransmitted := a.retransmitted.add b.retransmitted
  fec := a.fec.add b.fec

theorem StreamDataCounters.plus_none (a : StreamDataCounters) : a.plus (countersOf []) = a := by
  obtain ⟨first, transmitted, retransmitted, fec⟩ := a
  cases first <;> rfl

theorem StreamDataCounters.plus_update (a b : StreamDataCounters) (p : RtpPacketToSend) (now : ℤ) :
    (a.plus b).update p now = a.plus (b.update p now) := by
  have hfirst : some ((a.firstPacketTime <|> b.firstPacketTime).getD now) =
      (a.firstPacketTime <|> some (b.firstPacketTime.getD now)) := by
    cases a.firstPacketTime <;> rfl
  have hadd : ∀ x y z : RtpPacketCounter, (x.add y).add z = x.add (y.add z) := fun x y z => by
    simp only [RtpPacketCounter.add, Nat.add_assoc]
  simp only [StreamDataCounters.plus, StreamDataCounters.update, hfirst, hadd]
  split_ifs <;> rfl

/-! ## The counters of a run -/

/-- The packets the transport took. -/
def delivered (events : List EgressEvent) : List Packet :=
  ((sentPackets events).filter SentPacket.success).map SentPacket.packet

theorem delivered_append (events events' : List EgressEvent) :
    delivered (events ++ events') = delivered events ++ delivered events' := by
  rw [delivered, sentPackets_append, List.filter_append, List.map_append]
  rfl

/-- The packets of one SSRC. -/
def ofSsrc (ssrc : UInt32) (ps : List Packet) : List Packet :=
  ps.filter fun p => p.rtpPacket.ssrc = ssrc

/-- The packets of the RTX stream, or all others. -/
def ofRtx (config : EgressConfig) (rtx : Bool) (ps : List Packet) : List Packet :=
  ps.filter fun p => decide (some p.rtpPacket.ssrc = config.rtxSsrc) == rtx

/-- The callback gives back for an SSRC what it was last told about it. -/
def Remembers (getDataCounters : List CountersUpdate → UInt32 → StreamDataCounters) : Prop :=
  ∀ calls ssrc counters ssrc', getDataCounters (calls ++ [(ssrc, counters)]) ssrc' =
    if ssrc' = ssrc then counters else getDataCounters calls ssrc'

/-- The counters are those of the packets the transport took, on top of what the callback had. -/
structure Counted (config : EgressConfig) (ps : List Packet) (s : RtpSenderEgress) : Prop where
  reported : ∀ getDataCounters ∈ config.rtpStatsCallback, Remembers getDataCounters → ∀ ssrc,
    getDataCounters s.countersUpdated ssrc =
      (getDataCounters [] ssrc).plus (countersOf (ofSsrc ssrc ps))
  media : config.rtpStatsCallback = none → s.rtpStats = countersOf (ofRtx config false ps)
  rtx : config.rtpStatsCallback = none → s.rtxRtpStats = countersOf (ofRtx config true ps)

theorem Counted.congr {ps : List Packet} {s t : RtpSenderEgress} (h : Counted config ps s)
    (hreported : t.countersUpdated = s.countersUpdated) (hmedia : t.rtpStats = s.rtpStats)
    (hrtx : t.rtxRtpStats = s.rtxRtpStats) : Counted config ps t where
  reported := hreported ▸ h.reported
  media := hmedia ▸ h.media
  rtx := hrtx ▸ h.rtx

theorem Counted.update {ps : List Packet} {s : RtpSenderEgress} (h : Counted config ps s) (p : Packet) :
    Counted config (ps ++ [p]) (s.updateRtpStats config p) := by
  unfold updateRtpStats
  dsimp only
  cases hcallback : config.rtpStatsCallback with
  | some callback =>
    refine ⟨fun getDataCounters hget hremembers ssrc => ?_, fun hno => ?_, fun hno => ?_⟩
    · obtain rfl : callback = getDataCounters := Option.some.inj (hcallback.symm.trans hget)
      have hold := h.reported callback hcallback hremembers
      dsimp only
      rw [hremembers, ofSsrc, List.filter_append, List.filter_cons, List.filter_nil]
      by_cases hssrc : ssrc = p.rtpPacket.ssrc
      · subst hssrc
        rw [if_pos rfl, if_pos (decide_eq_true rfl), hold, countersOf_snoc,
          StreamDataCounters.plus_update]
        rfl
      · rw [if_neg hssrc, if_neg (by simpa using Ne.symm hssrc), List.append_nil]
        exact hold ssrc
    · exact absurd (hcallback.symm.trans hno) (Option.some_ne_none _)
    · exact absurd (hcallback.symm.trans hno) (Option.some_ne_none _)
  | none =>
    have hmedia := h.media hcallback
    have hrtx := h.rtx hcallback
    have hnone : ∀ callback ∈ config.rtpStatsCallback, False := fun callback hget =>
      Option.some_ne_none callback ((Option.mem_def.mp hget).symm.trans hcallback)
    dsimp only
    split_ifs with hssrc
    · refine ⟨fun callback hget => (hnone callback hget).elim, fun _ => ?_, fun _ => ?_⟩
      · rw [ofRtx, List.filter_append, List.filter_cons, if_neg (by simp [hssrc]), List.filter_nil,
          List.append_nil]
        exact hmedia
      · rw [ofRtx, List.filter_append, List.filter_cons, if_pos (by simp [hssrc]), List.filter_nil,
          countersOf_snoc]
        exact congrArg (StreamDataCounters.update · p.rtpPacket p.now) hrtx
    · refine ⟨fun callback hget => (hnone callback hget).elim, fun _ => ?_, fun _ => ?_⟩
      · rw [ofRtx, List.filter_append, List.filter_cons, if_pos (by simp [hssrc]), List.filter_nil,
          countersOf_snoc]
        exact congrArg (StreamDataCounters.update · p.rtpPacket p.now) hmedia
      · rw [ofRtx, List.filter_append, List.filter_cons, if_neg (by simp [hssrc]), List.filter_nil,
          List.append_nil]
        exact hrtx

theorem Counted.complete {ps : List Packet} {s : RtpSenderEgress} (h : Counted config ps s) (p : Packet)
    (lastInBatch success : Bool) :
    Counted config (ps ++ delivered (s.completeSendPacket config p lastInBatch success).events)
      (s.completeSendPacket config p lastInBatch success).state := by
  rw [delivered, sentPackets_complete]
  unfold completeSendPacket
  cases success with
  | true =>
    have hset : Counted config ps { s with mediaHasBeenSent := true } := h.congr rfl rfl rfl
    exact hset.update p
  | false => exact (List.append_nil ps).symm ▸ h

theorem Counted.completeAll (success : ℕ → Bool) (batch : List Packet) : ∀ (i : ℕ) {ps : List Packet}
    {s : RtpSenderEgress}, Counted config ps s →
    Counted config (ps ++ delivered (completeAll config success i batch s).events)
      (completeAll config success i batch s).state := by
  induction batch with
  | nil => exact fun i ps s h => (List.append_nil ps).symm ▸ h
  | cons p batch ih =>
    intro i ps s h
    have hnext := ih (i + 1) (h.complete p batch.isEmpty (success i))
    rw [List.append_assoc, ← delivered_append] at hnext
    exact hnext

theorem Counted.sendPacket {ps : List Packet} {s : RtpSenderEgress} (h : Counted config ps s)
    (p : RtpPacketToSend) (now : ℤ) (success : Bool) :
    Counted config (ps ++ delivered (s.sendPacket config p now success).events)
      (s.sendPacket config p now success).state := by
  unfold RtpSenderEgress.sendPacket
  split_ifs
  · exact (List.append_nil ps).symm ▸ h.congr rfl rfl rfl
  · exact h.complete ⟨stamp p, now⟩ false success

theorem Counted.perform {ps : List Packet} {s : RtpSenderEgress} (h : Counted config ps s)
    (op : EgressOp) :
    Counted config (ps ++ delivered (s.perform config op).events) (s.next config op) := by
  cases op with
  | sendPacket p now success => exact h.sendPacket p now success
  | enqueueNonPaced p now success =>
    have hprepared : Counted config ps (s.prepareForSend p).2 := by
      unfold prepareForSend
      split_ifs <;> exact h.congr rfl rfl rfl
    exact hprepared.sendPacket (s.prepareForSend p).1 now success
  | onBatchComplete success => exact (h.completeAll success s.packetsToSend 0).congr rfl rfl rfl
  | forceIncludeSendPacketsInAllocation | setMediaHasBeenSent =>
    exact (List.append_nil ps).symm ▸ h.congr rfl rfl rfl
  | onAbortedRetransmissions sequenceNumbers =>
    have hnone : delivered (sequenceNumbers.map .markPacketAsSent) = [] := by
      induction sequenceNumbers with
      | nil => rfl
      | cons n ns ih => exact ih
    show Counted config (ps ++ delivered (sequenceNumbers.map .markPacketAsSent)) s
    rw [hnone, List.append_nil]
    exact h

/-- **The counters are sums over the packets sent.** In every run, `GetDataCounters` gives for each stream
the time of its first packet that the transport took, and the bytes and the number of all of them, of the
retransmissions and of the FEC packets among them. With a callback, which gives back what it was last told,
a stream is the packets of one SSRC, and what the callback had for it at the start is added to; without,
the media counters have every packet that is not on the RTX stream. -/
theorem counters_sum_sent (tr : List (RtpSenderEgress × EgressOp)) (s : RtpSenderEgress)
    (h : EgressRun config tr s)
    (hcallback : ∀ getDataCounters ∈ config.rtpStatsCallback, Remembers getDataCounters) :
    s.getDataCounters config =
      match config.rtpStatsCallback with
      | some getDataCounters =>
        let counters := fun ssrc =>
          (getDataCounters [] ssrc).plus (countersOf (ofSsrc ssrc (delivered (egressEvents config tr))))
        (counters config.ssrc, config.rtxSsrc.map counters)
      | none =>
        (countersOf (ofRtx config false (delivered (egressEvents config tr))),
          some (countersOf (ofRtx config true (delivered (egressEvents config tr))))) := by
  have hs : Counted config (delivered (egressEvents config tr)) s := by
    refine h.history (I := fun tr s => Counted config (delivered (egressEvents config tr)) s) ?_ ?_
    · exact ⟨fun _ _ _ _ => (StreamDataCounters.plus_none _).symm, fun _ => rfl, fun _ => rfl⟩
    · rintro tr s op t hs rfl
      rw [egressEvents_snoc, delivered_append]
      exact hs.perform op
  unfold getDataCounters
  cases hconfig : config.rtpStatsCallback with
  | some callback =>
    have hreported := hs.reported callback hconfig (hcallback callback hconfig)
    exact congrArg₂ Prod.mk (hreported config.ssrc) (congrArg (config.rtxSsrc.map ·) (funext hreported))
  | none => exact congrArg₂ Prod.mk (hs.media hconfig) (congrArg some (hs.rtx hconfig))

/-- A callback that has counted a packet of each SSRC before. -/
def countedBefore (calls : List CountersUpdate) (ssrc : UInt32) : StreamDataCounters :=
  ((calls.filter fun call => call.1 = ssrc).getLast?.map Prod.snd).getD ⟨some 900, ⟨20, 500, 0, 1⟩, {}, {}⟩

theorem remembers_countedBefore : Remembers countedBefore := by
  intro calls ssrc counters ssrc'
  rw [countedBefore, List.filter_append, List.filter_cons, List.filter_nil]
  by_cases hssrc : ssrc' = ssrc
  · rw [if_pos hssrc, if_pos (decide_eq_true hssrc.symm), List.getLast?_concat]
    rfl
  · rw [if_neg hssrc, if_neg (by simpa using Ne.symm hssrc), List.append_nil]
    rfl

/-- The second packet of `batchOps` was refused and is not counted. -/
theorem counters_sum_sent_batch :
    (∃ tr s, EgressRun batching tr s ∧
      s.getDataCounters batching = (⟨some 1000, ⟨20, 1000, 0, 1⟩, {}, {}⟩, some {})) ∧
    ∃ tr s, EgressRun { batching with rtpStatsCallback := some countedBefore } tr s ∧
      s.getDataCounters { batching with rtpStatsCallback := some countedBefore } =
        (⟨some 900, ⟨40, 1500, 0, 2⟩, {}, {}⟩, some ⟨some 900, ⟨20, 500, 0, 1⟩, {}, {}⟩) := by
  have hrun := fun config => Run.of_next (RtpSenderEgress.next config) {} batchOps
  refine ⟨⟨_, _, hrun batching, ?_⟩, _, _, hrun { batching with rtpStatsCallback := some countedBefore }, ?_⟩
  · rw [counters_sum_sent _ _ (hrun batching) fun _ hget => absurd hget (Option.not_mem_none _)]
    decide +kernel
  · rw [counters_sum_sent _ _ (hrun { batching with rtpStatsCallback := some countedBefore }) fun _ hget =>
      Option.some.inj hget ▸ remembers_countedBefore]
    decide +kernel

end WebrtcTrace.Rtp
