import WebrtcTrace.Rtp.RtpSenderEgress

/-! # The ledger of the egress

Completing packets one by one or batch by batch hands the transport the packets the egress was given, once
and in order (`Ledger`). What is logged, kept and counted is said over the packets handed to the transport
(`packets_leave_in_order`, `counters_sum_sent`).
-/

namespace WebrtcTrace.Rtp
open Runs RtpSenderEgress
set_option autoImplicit false

variable {config : EgressConfig}

/-! ## Events -/

theorem sentPackets_append (events events' : List EgressEvent) :
    sentPackets (events ++ events') = sentPackets events ++ sentPackets events' :=
  List.filterMap_append

theorem rtpSendRows_append (events events' : List EgressEvent) :
    rtpSendRows (events ++ events') = rtpSendRows events ++ rtpSendRows events' :=
  List.filterMap_append

theorem keptPackets_append (events events' : List EgressEvent) :
    keptPackets (events ++ events') = keptPackets events ++ keptPackets events' :=
  List.filterMap_append

/-- The packets that were handed to the transport. -/
def handed (events : List EgressEvent) : List Packet := (sentPackets events).map SentPacket.packet

theorem handed_append (events events' : List EgressEvent) :
    handed (events ++ events') = handed events ++ handed events' := by
  rw [handed, sentPackets_append, List.map_append]
  rfl

/-- What is logged and kept of some packets. -/
structure Accounts (config : EgressConfig) (events : List EgressEvent) : Prop where
  rows : rtpSendRows events =
    ((handed events).filter fun p => p.rtpPacket.isMedia).map (sendRow config)
  kept : keptPackets events =
    (handed events).filter fun p => p.rtpPacket.isMedia && p.rtpPacket.allowRetransmission

theorem Accounts.append {events events' : List EgressEvent} (h : Accounts config events)
    (h' : Accounts config events') : Accounts config (events ++ events') where
  rows := by rw [rtpSendRows_append, handed_append, List.filter_append, List.map_append, h.rows, h'.rows]
  kept := by rw [keptPackets_append, handed_append, List.filter_append, h.kept, h'.kept]

theorem Accounts.nil : Accounts config [] := ⟨rfl, rfl⟩

/-! ## One packet -/

section Steps
variable (s : RtpSenderEgress) (p : Packet) (lastInBatch success : Bool)

theorem sentPackets_complete :
    sentPackets (s.completeSendPacket config p lastInBatch success).events =
      [⟨p, s.packetOptions config p.rtpPacket lastInBatch, success⟩] := by
  have hobserved : sentPackets (observed config p.rtpPacket) = [] := by
    unfold observed
    split_ifs
    · cases p.rtpPacket.captureTime <;> rfl
    · rfl
  have hkept : sentPackets (kept p) = [] := by
    unfold kept
    split_ifs
    · rfl
    · cases p.rtpPacket.retransmittedSequenceNumber <;> rfl
  simp only [completeSendPacket, sentPackets_append, hobserved, hkept, List.nil_append, List.append_nil]
  split_ifs <;> rfl

theorem accounts_complete :
    Accounts config (s.completeSendPacket config p lastInBatch success).events := by
  have hhanded : handed (s.completeSendPacket config p lastInBatch success).events = [p] := by
    rw [handed, sentPackets_complete]
    rfl
  have hobserved : rtpSendRows (observed config p.rtpPacket) = [] ∧
      keptPackets (observed config p.rtpPacket) = [] := by
    unfold observed
    split_ifs
    · cases p.rtpPacket.captureTime <;> exact ⟨rfl, rfl⟩
    · exact ⟨rfl, rfl⟩
  constructor
  · have hkept : rtpSendRows (kept p) = [] := by
      unfold kept
      split_ifs
      · rfl
      · cases p.rtpPacket.retransmittedSequenceNumber <;> rfl
    rw [hhanded]
    simp only [completeSendPacket, rtpSendRows_append, hobserved.1, hkept, List.nil_append,
      List.append_nil]
    by_cases hmedia : p.rtpPacket.isMedia = true
    · rw [if_pos hmedia, List.filter_cons, if_pos hmedia]
      rfl
    · rw [if_neg hmedia, List.filter_cons, if_neg hmedia]
      rfl
  · rw [hhanded]
    simp only [completeSendPacket, keptPackets_append, hobserved.2, List.nil_append]
    have hlog : keptPackets (if p.rtpPacket.isMedia = true then [.logRow (sendRow config p)] else []) =
        [] := by
      split_ifs <;> rfl
    rw [hlog]
    unfold kept
    by_cases hkept : (p.rtpPacket.isMedia && p.rtpPacket.allowRetransmission) = true
    · rw [if_pos hkept, List.filter_cons, if_pos hkept]
      rfl
    · rw [if_neg hkept, List.filter_cons, if_neg hkept]
      cases p.rtpPacket.retransmittedSequenceNumber <;> rfl

end Steps

/-! ## A batch -/

theorem completeAll_events (success : ℕ → Bool) : ∀ (ps : List Packet) (i : ℕ) (s : RtpSenderEgress),
    handed (completeAll config success i ps s).events = ps ∧
      Accounts config (completeAll config success i ps s).events ∧
      (sentPackets (completeAll config success i ps s).events).map
        (fun sent => sent.options.lastPacketInBatch) =
          (List.range ps.length).map fun k => decide (k + 1 = ps.length) := by
  intro ps
  induction ps with
  | nil => exact fun i s => ⟨rfl, .nil, rfl⟩
  | cons p ps ih =>
    intro i s
    obtain ⟨hhanded, haccounts, hflags⟩ :=
      ih (i + 1) (s.completeSendPacket config p ps.isEmpty (success i)).state
    have hsent := @sentPackets_complete config s p ps.isEmpty (success i)
    simp only [completeAll]
    refine ⟨?_, (accounts_complete s p ps.isEmpty (success i)).append haccounts, ?_⟩
    · rw [handed_append, hhanded, handed, hsent]
      rfl
    · rw [sentPackets_append, List.map_append, hflags, hsent, List.length_cons, List.range_succ_eq_map]
      simp only [List.map_cons, List.map_nil, List.singleton_append, List.map_map]
      refine congrArg₂ List.cons ?_ (List.map_congr_left fun k _ => ?_)
      · cases ps <;> simp [packetOptions]
      · simp

/-- Nothing that completes a packet or numbers it touches the batch. -/
theorem complete_batch (s : RtpSenderEgress) (p : Packet) (lastInBatch success : Bool) :
    (s.completeSendPacket config p lastInBatch success).state.packetsToSend = s.packetsToSend ∧
      (s.completeSendPacket config p lastInBatch success).state.transportSequenceNumber =
        s.transportSequenceNumber := by
  unfold completeSendPacket updateRtpStats
  cases config.rtpStatsCallback with
  | some getDataCounters => cases success <;> exact ⟨rfl, rfl⟩
  | none =>
    dsimp only
    split_ifs <;> exact ⟨rfl, rfl⟩

theorem completeAll_number (success : ℕ → Bool) : ∀ (ps : List Packet) (i : ℕ) (s : RtpSenderEgress),
    (completeAll config success i ps s).state.transportSequenceNumber = s.transportSequenceNumber := by
  intro ps
  induction ps with
  | nil => exact fun i s => rfl
  | cons p ps ih =>
    intro i s
    exact (ih _ _).trans (complete_batch s p ps.isEmpty (success i)).2

/-! ## Operations -/

/-- The number an operation of the sender that does not pace gives its packet. -/
def numbered (s : RtpSenderEgress) : EgressOp → Option UInt16
  | .enqueueNonPaced p _ _ =>
    if p.extensionRegistered then (s.prepareForSend p).1.transportSequenceExtension else none
  | _ => none

/-- The numbers of a run, in order. -/
def transportNumbers (tr : List (RtpSenderEgress × EgressOp)) : List UInt16 :=
  tr.filterMap fun e => numbered e.1 e.2

/-- What one operation does, if packets wait only where they are batched. -/
structure Moves (config : EgressConfig) (s : RtpSenderEgress) (op : EgressOp) : Prop where
  batched : (config.enableSendPacketBatching && !config.isAudio) = false →
    (s.next config op).packetsToSend = []
  ledger : handed (s.perform config op).events ++ (s.next config op).packetsToSend =
    s.packetsToSend ++ (s.taken op).toList
  accounts : Accounts config (s.perform config op).events
  number : (s.next config op).transportSequenceNumber =
    s.transportSequenceNumber + UInt16.ofNat (numbered s op).toList.length

/-- A packet that is taken. -/
theorem sendPacket_moves {s : RtpSenderEgress}
    (hbatched : (config.enableSendPacketBatching && !config.isAudio) = false → s.packetsToSend = [])
    (p : RtpPacketToSend) (now : ℤ) (success : Bool) :
    ((config.enableSendPacketBatching && !config.isAudio) = false →
        (s.sendPacket config p now success).state.packetsToSend = []) ∧
      handed (s.sendPacket config p now success).events ++
        (s.sendPacket config p now success).state.packetsToSend = s.packetsToSend ++ [⟨stamp p, now⟩] ∧
      Accounts config (s.sendPacket config p now success).events ∧
      (s.sendPacket config p now success).state.transportSequenceNumber = s.transportSequenceNumber := by
  unfold sendPacket
  split_ifs with hbatch
  · exact ⟨fun hno => absurd (hbatch.symm.trans hno) (by decide), rfl, .nil, rfl⟩
  · obtain ⟨hqueue, hnumber⟩ := @complete_batch config s ⟨stamp p, now⟩ false success
    have hempty := hbatched (Bool.eq_false_iff.mpr hbatch)
    refine ⟨fun _ => hqueue.trans hempty, ?_, accounts_complete s _ false success, hnumber⟩
    rw [hqueue, hempty, handed, sentPackets_complete]
    rfl

theorem prepareForSend_batch (s : RtpSenderEgress) (p : RtpPacketToSend) :
    (s.prepareForSend p).2.packetsToSend = s.packetsToSend ∧
      (s.prepareForSend p).2.transportSequenceNumber = s.transportSequenceNumber +
        UInt16.ofNat (if p.extensionRegistered then
          (s.prepareForSend p).1.transportSequenceExtension else none).toList.length := by
  unfold prepareForSend
  split_ifs
  · exact ⟨rfl, rfl⟩
  · exact ⟨rfl, (UInt16.add_zero _).symm⟩

theorem perform_moves {s : RtpSenderEgress}
    (hbatched : (config.enableSendPacketBatching && !config.isAudio) = false → s.packetsToSend = [])
    (op : EgressOp) : Moves config s op := by
  cases op with
  | sendPacket p now success =>
    obtain ⟨hnone, hledger, haccounts, hnumber⟩ := sendPacket_moves hbatched p now success
    exact ⟨hnone, hledger, haccounts, hnumber.trans (UInt16.add_zero _).symm⟩
  | enqueueNonPaced p now success =>
    obtain ⟨hqueue, hcount⟩ := prepareForSend_batch s p
    obtain ⟨hnone, hledger, haccounts, hnumber⟩ := sendPacket_moves (s := (s.prepareForSend p).2)
      (fun hno => hqueue.trans (hbatched hno)) (s.prepareForSend p).1 now success
    exact ⟨hnone, hqueue ▸ hledger, haccounts, hnumber.trans hcount⟩
  | onBatchComplete success =>
    obtain ⟨hhanded, haccounts, _⟩ := @completeAll_events config success s.packetsToSend 0 s
    refine ⟨fun _ => rfl, ?_, haccounts, ?_⟩
    · show handed (completeAll config success 0 s.packetsToSend s).events ++ [] = _
      rw [hhanded]
      rfl
    · exact (completeAll_number success s.packetsToSend 0 s).trans (UInt16.add_zero _).symm
  | forceIncludeSendPacketsInAllocation part =>
    exact ⟨hbatched, (List.append_nil _).symm, .nil, (UInt16.add_zero _).symm⟩
  | setMediaHasBeenSent sent =>
    exact ⟨hbatched, (List.append_nil _).symm, .nil, (UInt16.add_zero _).symm⟩
  | onAbortedRetransmissions sequenceNumbers =>
    have hnone : sentPackets (sequenceNumbers.map .markPacketAsSent) = [] ∧
        rtpSendRows (sequenceNumbers.map .markPacketAsSent) = [] ∧
        keptPackets (sequenceNumbers.map .markPacketAsSent) = [] := by
      refine ⟨?_, ?_, ?_⟩ <;> induction sequenceNumbers with
        | nil => rfl
        | cons n ns ih => exact ih
    have hhanded : handed (sequenceNumbers.map .markPacketAsSent) = [] := by
      rw [handed, hnone.1]
      rfl
    refine ⟨hbatched, ?_, ⟨?_, ?_⟩, (UInt16.add_zero _).symm⟩
    · show handed (sequenceNumbers.map .markPacketAsSent) ++ s.packetsToSend = _
      rw [hhanded]
      exact (List.append_nil _).symm
    · show rtpSendRows (sequenceNumbers.map .markPacketAsSent) = _
      rw [hnone.2.1]
      show [] = ((handed (sequenceNumbers.map .markPacketAsSent)).filter _).map _
      rw [hhanded]
      rfl
    · show keptPackets (sequenceNumbers.map .markPacketAsSent) = _
      rw [hnone.2.2]
      show [] = (handed (sequenceNumbers.map .markPacketAsSent)).filter _
      rw [hhanded]
      rfl

/-! ## Runs -/

theorem egressEvents_snoc (tr : List (RtpSenderEgress × EgressOp)) (s : RtpSenderEgress)
    (op : EgressOp) : egressEvents config (tr ++ [(s, op)]) =
      egressEvents config tr ++ (s.perform config op).events := by
  rw [egressEvents, List.flatMap_append, List.flatMap_singleton]
  rfl

theorem filterMap_snoc {α β : Type*} (f : α → Option β) (l : List α) (a : α) :
    (l ++ [a]).filterMap f = l.filterMap f ++ (f a).toList := by
  rw [List.filterMap_append]
  cases h : f a <;> simp [h]

/-- What a run has done up to now. -/
structure Ledger (config : EgressConfig) (tr : List (RtpSenderEgress × EgressOp))
    (s : RtpSenderEgress) : Prop where
  batched : (config.enableSendPacketBatching && !config.isAudio) = false → s.packetsToSend = []
  ledger : handed (egressEvents config tr) ++ s.packetsToSend = takenPackets tr
  accounts : Accounts config (egressEvents config tr)
  number : s.transportSequenceNumber = UInt16.ofNat (transportNumbers tr).length
  numbers : transportNumbers tr =
    (List.range (transportNumbers tr).length).map fun i => UInt16.ofNat (i + 1)

theorem ledger_run {tr : List (RtpSenderEgress × EgressOp)} {s : RtpSenderEgress}
    (h : EgressRun config tr s) : Ledger config tr s := by
  refine h.history (I := fun tr s => Ledger config tr s) ⟨fun _ => rfl, rfl, .nil, rfl, rfl⟩ ?_
  rintro tr s op t hs rfl
  have hmoves := perform_moves hs.batched op
  have hnumbers : transportNumbers (tr ++ [(s, op)]) = transportNumbers tr ++ (numbered s op).toList :=
    filterMap_snoc _ tr (s, op)
  have htaken : takenPackets (tr ++ [(s, op)]) = takenPackets tr ++ (s.taken op).toList :=
    filterMap_snoc _ tr (s, op)
  refine ⟨hmoves.batched, ?_, ?_, ?_, ?_⟩
  · rw [egressEvents_snoc, handed_append, List.append_assoc, hmoves.ledger, ← List.append_assoc,
      hs.ledger, htaken]
  · rw [egressEvents_snoc]
    exact hs.accounts.append hmoves.accounts
  · rw [hmoves.number, hs.number, hnumbers, List.length_append, UInt16.ofNat_add]
  · cases hnumber : numbered s op with
    | none =>
      rw [hnumbers, hnumber, Option.toList_none, List.append_nil]
      exact hs.numbers
    | some number =>
      have hvalue : number = s.transportSequenceNumber + 1 := by
        cases op with
        | enqueueNonPaced p now success =>
          simp only [numbered, prepareForSend] at hnumber
          split_ifs at hnumber
          exact (Option.some.inj hnumber).symm
        | sendPacket | onBatchComplete | forceIncludeSendPacketsInAllocation | setMediaHasBeenSent |
            onAbortedRetransmissions => cases hnumber
      rw [hnumbers, hnumber, Option.toList_some, List.length_append, List.length_singleton,
        List.range_succ, List.map_append, ← hs.numbers, hvalue, hs.number, List.map_singleton,
        UInt16.ofNat_add]
      rfl

/-- A stream that batches its packets, with an RTX stream and without a callback for statistics. -/
def batching : EgressConfig := ⟨true, false, 1, some 2, true, none⟩

def videoPacket (sequenceNumber : UInt16) (timestamp : UInt32) : RtpPacketToSend where
  ssrc := 1
  packetType := .video
  sequenceNumber := sequenceNumber
  timestamp := timestamp
  marker := true
  headersSize := 20
  payloadSize := 1000
  paddingSize := 0
  captureTime := some 0
  transportSequenceNumber := none
  extensionRegistered := true
  transportSequenceExtension := none
  allowRetransmission := true
  retransmittedSequenceNumber := none
  sendAsEct1 := false

/-- The transport refuses the second packet of a batch; a third packet waits. -/
def batchOps : List EgressOp :=
  [.enqueueNonPaced (videoPacket 7 90000) 1000 true, .enqueueNonPaced (videoPacket 8 90000) 1001 true,
    .onBatchComplete fun i => i == 0, .enqueueNonPaced (videoPacket 9 93000) 1033 true]

end WebrtcTrace.Rtp
