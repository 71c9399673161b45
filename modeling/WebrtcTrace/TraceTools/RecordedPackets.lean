import WebrtcTrace.Rtp.EgressLedger
import WebrtcTrace.TraceTools.Identifiable
import WebrtcTrace.TraceTools.PrintedLogs

/-! # From the wire to the tools

A sent packet passes the egress, the queue of the log and its writer thread, the file and the CSV reader
before a tool sees it. What the tools read at any moment is what the egress handed over, up to the rows
that were dropped or not written yet (`send_log_read_back`). With the rows of the receiver's packet buffer
the packet-level tool pairs each packet with itself, so its delays are those of the network
(`recorded_packets_matched`).
-/

namespace WebrtcTrace.TraceTools
open CsvLog Runs
set_option autoImplicit false

variable {ι : Type*}

/-! ## The sender's log -/

/-- The rows of the calls of `WriteLine`, dropped or not. -/
def offeredRows (tr : List (AsyncCsvLog × Action ι)) : List Line :=
  tr.filterMap fun e =>
    match e.2 with
    | .writeLine _ row len => if len = 0 then none else row
    | _ => none

theorem acceptedRow_offered (maxQueueRows : ℕ) (e : AsyncCsvLog × Action ι) :
    acceptedRow maxQueueRows e = none ∨ acceptedRow maxQueueRows e = (offeredRows [e]).head? := by
  obtain ⟨s, a⟩ := e
  cases a with
  | writeLine i row len =>
    rcases writeLine_cases maxQueueRows s row len with
      ⟨hr, he⟩ | ⟨r, rfl, hlen, _, he⟩ | ⟨r, rfl, hlen, _, he⟩
    · exact .inl (by simp [acceptedRow, he])
    · exact .inl (by simp [acceptedRow, he])
    · exact .inr (by simp [acceptedRow, he, offeredRows, hlen])
  | takeBatch | putRow | clearBatch | maybeWriteStats | setStop | join | finalStats => exact .inl rfl

/-- What a log accepts is a part of what it is offered, in order. -/
theorem accepted_sublist (maxQueueRows : ℕ) (tr : List (AsyncCsvLog × Action ι)) :
    (accepted maxQueueRows tr).Sublist (offeredRows tr) := by
  induction tr with
  | nil => exact .slnil
  | cons e tr ih =>
    have hoffered : offeredRows (e :: tr) = offeredRows [e] ++ offeredRows tr := by
      rw [offeredRows, ← List.singleton_append, List.filterMap_append]
      rfl
    have haccepted : accepted maxQueueRows (e :: tr) =
        (acceptedRow maxQueueRows e).toList ++ accepted maxQueueRows tr := by
      rw [accepted, ← List.singleton_append, List.filterMap_append]
      cases h : acceptedRow maxQueueRows e <;> simp [h, accepted]
    rw [hoffered, haccepted]
    refine List.Sublist.append ?_ ih
    obtain hnone | hsome := acceptedRow_offered maxQueueRows e
    · rw [hnone]
      exact List.nil_sublist _
    · rw [hsome]
      cases offeredRows [e] with
      | nil => exact .slnil
      | cons row rows => exact (List.singleton_sublist.mpr List.mem_cons_self)

theorem offeredRows_length (tr : List (AsyncCsvLog × Action ι)) :
    (offeredRows tr).length = completedCalls tr := by
  induction tr with
  | nil => rfl
  | cons e tr ih =>
    rw [completedCalls, List.countP_cons, ← completedCalls, ← ih, offeredRows, List.filterMap_cons,
      ← offeredRows]
    obtain ⟨s, a⟩ := e
    cases a with
    | writeLine i row len =>
      by_cases hlen : len = 0
      · simp [hlen, Action.nonEmptyWrite]
      · cases row <;> simp [hlen, Action.nonEmptyWrite]
    | takeBatch | putRow | clearBatch | maybeWriteStats | setStop | join | finalStats =>
      simp [Action.nonEmptyWrite]

theorem file_grows {maxQueueRows : ℕ} {s t : AsyncCsvLog} {a : Action ι}
    (h : next maxQueueRows s a = some t) : s.file <+: t.file := by
  cases a with
  | writeLine i row len =>
    obtain rfl := Option.some.inj h
    rcases writeLine_cases maxQueueRows s row len with
      ⟨_, he⟩ | ⟨_, _, _, _, he⟩ | ⟨_, _, _, _, he⟩ <;> exact he ▸ List.prefix_rfl
  | takeBatch =>
    obtain ⟨_, ⟨_, _, rfl⟩ | ⟨_, rfl⟩⟩ := takeBatch_cases h <;> exact List.prefix_rfl
  | putRow =>
    obtain ⟨_, row, _, _, rfl⟩ := putRow_cases h
    exact List.prefix_append s.file [row]
  | clearBatch =>
    obtain ⟨_, rfl⟩ := clearBatch_cases h
    exact List.prefix_rfl
  | maybeWriteStats =>
    obtain ⟨_, _, _, rfl⟩ := maybeWriteStats_cases h
    exact List.prefix_rfl
  | setStop =>
    obtain ⟨_, rfl⟩ := setStop_cases h
    exact List.prefix_rfl
  | join =>
    obtain ⟨_, _, rfl⟩ := join_cases h
    exact List.prefix_rfl
  | finalStats =>
    obtain ⟨_, _, rfl⟩ := finalStats_cases h
    exact List.prefix_rfl

/-- The file at any moment: the header and some of the rows offered, in order, and all of them if none
was dropped and none waits. -/
theorem file_rows {maxQueueRows : ℕ} {header : Line} {tr : List (AsyncCsvLog × Action ι)}
    {s : AsyncCsvLog} (h : LogRun maxQueueRows (some header) tr s) :
    ∃ written, s.file = header :: written ∧ written.Sublist (offeredRows tr) ∧
      (s.droppedRows = 0 → s.unwritten = [] → s.queue = [] → written = offeredRows tr) := by
  have hledger := ledger_run h
  have hconserved := hledger.conserved
  rw [Option.toList_some, List.singleton_append] at hconserved
  have hstarts : [header] <+: s.file :=
    h.invariant (I := fun s => [header] <+: s.file) List.prefix_rfl
      fun s a t hs ht => hs.trans (file_grows ht)
  obtain ⟨written, hfile⟩ := hstarts
  rw [List.singleton_append] at hfile
  rw [← hfile, List.cons_append, List.cons_append, List.cons.injEq] at hconserved
  have haccepted := accepted_sublist maxQueueRows tr
  have hprefix : written.Sublist (accepted maxQueueRows tr) := by
    rw [← hconserved.2, List.append_assoc]
    exact List.sublist_append_left written _
  refine ⟨written, hfile.symm, hprefix.trans haccepted, fun hdropped hunwritten hqueue => ?_⟩
  have hall : written = accepted maxQueueRows tr := by
    rw [← hconserved.2, hunwritten, hqueue, List.append_nil, List.append_nil]
  rw [hall]
  refine haccepted.eq_of_length ?_
  rw [offeredRows_length, ← hledger.completed, hledger.enqueued, hdropped, Nat.add_zero]

/-! ## Rows of bounded width -/

/-- The numbers are printed with at most so many characters. -/
def FitsWidths : List ℤ → List ℕ → Prop := List.Forall₂ fun n width => (toString n).length ≤ width

theorem FitsWidths.sum {fields : List ℤ} {widths : List ℕ} (h : FitsWidths fields widths) :
    (fields.map fun n => (toString n).length).sum ≤ widths.sum := by
  induction h with
  | nil => exact le_rfl
  | cons hle _ ih => exact Nat.add_le_add hle ih

theorem FitsWidths.field {fields : List ℤ} {widths : List ℕ} (h : FitsWidths fields widths) {n : ℤ}
    (hn : n ∈ fields) : (toString n).length ≤ widths.sum := by
  have hle : (toString n).length ≤ (fields.map fun n => (toString n).length).sum :=
    List.le_sum_of_mem (List.mem_map.mpr ⟨n, hn, rfl⟩)
  exact hle.trans h.sum

theorem length_joinPlain (fields : List Csv.Text) :
    (Csv.joinPlain fields).length ≤ (fields.map List.length).sum + fields.length := by
  induction fields with
  | nil => exact Nat.zero_le _
  | cons field fields ih =>
    cases fields with
    | nil => simp [Csv.joinPlain]
    | cons next fields =>
      simp only [Csv.joinPlain, List.length_append, List.length_cons, List.map_cons, List.sum_cons]
        at ih ⊢
      omega

theorem FitsWidths.length_numberLine {fields : List ℤ} {widths : List ℕ}
    (h : FitsWidths fields widths) : (numberLine fields).length ≤ widths.sum + fields.length + 1 := by
  have hjoin := length_joinPlain (fields.map fun n => (toString n).toList)
  rw [List.map_map, List.length_map] at hjoin
  have htext : (numberLine fields).length =
      (Csv.joinPlain (fields.map fun n => (toString n).toList)).length + 1 := by
    rw [← String.length_toList, toList_numberLine, Csv.line, List.length_append]
    rfl
  have hsum := h.sum
  have hcomp : (fields.map (List.length ∘ fun n : ℤ => (toString n).toList)).sum =
      (fields.map fun n => (toString n).length).sum := rfl
  omega

/-- A file of rows that have one layout. -/
theorem readDicts_file {ρ : Type*} {columns : List String} (hcolumns : PlainColumns columns)
    {fields : ρ → List ℤ} {widths : List ℕ} (hlength : widths.length = columns.length)
    (hlimit : widths.sum ≤ Replay.fieldSizeLimit) {rows : List ρ}
    (h : ∀ row ∈ rows, FitsWidths (fields row) widths) :
    Replay.readDicts (fileText (headerLine columns :: rows.map fun row => numberLine (fields row))) =
      .ok (rows.map fun row => numberRow columns (fields row)) := by
  have hlines : (rows.map fun row => numberLine (fields row)) = (rows.map fields).map numberLine := by
    rw [List.map_map]
    rfl
  rw [hlines, readDicts_numbers hcolumns, List.map_map]
  · rfl
  · exact List.forall_mem_map.mpr fun row hrow => (h row hrow).length_eq.trans hlength
  · exact List.forall_mem_map.mpr fun row hrow n hn => ((h row hrow).field hn).trans hlimit

/-! ## The rows of the two logs -/

/-- The numbers of a row have their machine types. -/
structure MachineRow (row : Rtp.RtpSendRow) : Prop where
  time : row.sendTimeMs.natAbs < 2 ^ 63
  size : row.payloadSize < 2 ^ 64

instance (row : Rtp.RtpSendRow) : Decidable (MachineRow row) :=
  decidable_of_iff (row.sendTimeMs.natAbs < 2 ^ 63 ∧ row.payloadSize < 2 ^ 64)
    ⟨fun h => ⟨h.1, h.2⟩, fun h => ⟨h.time, h.size⟩⟩

structure MachineInsert (row : InsertedPacket) : Prop where
  time : row.timestampMs.natAbs < 2 ^ 63
  size : row.payloadSize < 2 ^ 64
  missing : row.missingCount < 2 ^ 64
  smallest : row.smallestMissing.natAbs < 2 ^ 31

instance (row : InsertedPacket) : Decidable (MachineInsert row) :=
  decidable_of_iff (row.timestampMs.natAbs < 2 ^ 63 ∧ row.payloadSize < 2 ^ 64 ∧
      row.missingCount < 2 ^ 64 ∧ row.smallestMissing.natAbs < 2 ^ 31)
    ⟨fun h => ⟨h.1, h.2.1, h.2.2.1, h.2.2.2⟩, fun h => ⟨h.time, h.size, h.missing, h.smallest⟩⟩

section Widths

theorem width_bool (b : Bool) : (toString (b.toNat : ℤ)).length ≤ 1 := by
  revert b
  decide +kernel

theorem width_uint16 (n : UInt16) : (toString (n.toNat : ℤ)).length ≤ 5 :=
  length_toString_natCast (by norm_num) (n.toNat_lt.trans (by norm_num))

theorem width_uint32 (n : UInt32) : (toString (n.toNat : ℤ)).length ≤ 10 :=
  length_toString_natCast (by norm_num) (n.toNat_lt.trans (by norm_num))

theorem width_size {n : ℕ} (h : n < 2 ^ 64) : (toString (n : ℤ)).length ≤ 20 :=
  length_toString_natCast (by norm_num) (h.trans (by norm_num))

theorem width_time {n : ℤ} (h : n.natAbs < 2 ^ 63) : (toString n).length ≤ 20 :=
  length_toString_le (k := 19) (by norm_num) (h.trans (by norm_num))

theorem fits_sendFields {row : Rtp.RtpSendRow} (h : MachineRow row) :
    FitsWidths (sendFields row) [20, 10, 5, 10, 1, 20, 1, 1] := by
  have htype : (toString (row.packetType.code : ℤ)).length ≤ 1 := by
    cases row.packetType <;> decide +kernel
  exact .cons (width_time h.time) <| .cons (width_uint32 _) <| .cons (width_uint16 _) <|
    .cons (width_uint32 _) <| .cons (width_bool _) <| .cons (width_size h.size) <|
    .cons (width_bool _) <| .cons htype .nil

theorem fits_insertFields {row : InsertedPacket} (h : MachineInsert row) :
    FitsWidths (insertFields row) [20, 10, 5, 10, 1, 20, 20, 11] := by
  have hsmallest : (toString row.smallestMissing).length ≤ 11 :=
    length_toString_le (k := 10) (by norm_num) (h.smallest.trans (by norm_num))
  exact .cons (width_time h.time) <| .cons (width_uint32 _) <| .cons (width_uint16 _) <|
    .cons (width_uint32 _) <| .cons (width_bool _) <| .cons (width_size h.size) <|
    .cons (width_size h.missing) <| .cons hsmallest .nil

end Widths

/-- A row fits into the buffer of 160 characters that it is printed to. -/
theorem sendLine_fits {row : Rtp.RtpSendRow} (h : MachineRow row) : (sendLine row).length < 160 :=
  (fits_sendFields h).length_numberLine.trans_lt (by simp [sendFields])

theorem insertLine_fits {row : InsertedPacket} (h : MachineInsert row) :
    (insertLine row).length < 160 :=
  (fits_insertFields h).length_numberLine.trans_lt (by simp [insertFields])

theorem readDicts_sendFile {rows : List Rtp.RtpSendRow} (h : ∀ row ∈ rows, MachineRow row) :
    Replay.readDicts (fileText (rtpSendHeader :: rows.map sendLine)) = .ok (rows.map sendRow) := by
  have hheader : rtpSendHeader = headerLine sendColumns := by decide +kernel
  rw [hheader]
  exact readDicts_file (by decide +kernel) rfl (by decide) fun row hrow => fits_sendFields (h row hrow)

theorem readDicts_insertFile {rows : List InsertedPacket} (h : ∀ row ∈ rows, MachineInsert row) :
    Replay.readDicts (fileText (packetInsertHeader :: rows.map insertLine)) =
      .ok (rows.map insertedRow) := by
  have hheader : packetInsertHeader = headerLine insertColumns := by decide +kernel
  rw [hheader]
  exact readDicts_file (by decide +kernel) rfl (by decide) fun row hrow =>
    fits_insertFields (h row hrow)

theorem readAll_sendRows (ssrcFirst : Bool) (rows : List Rtp.RtpSendRow) :
    readAll (readSender ssrcFirst) (rows.map sendRow) =
      .ok ((rows.filter isVideo).map senderPacket) := by
  induction rows with
  | nil => rfl
  | cons row rows ih =>
    rw [List.map_cons, readAll_cons, readSender_row, ih]
    cases h : isVideo row <;> simp [h, Except.bind, Except.map]

theorem readAll_insertedRows (rows : List InsertedPacket) :
    readAll readReceiver (rows.map insertedRow) = .ok (rows.map receiverPacket) := by
  induction rows with
  | nil => rfl
  | cons row rows ih =>
    rw [List.map_cons, readAll_cons, readReceiver_row, ih]
    rfl

/-! ## The sender's log is read back -/

/-- The rows of two packets that left as a batch. -/
def batchRows : List Rtp.RtpSendRow :=
  [⟨1000, 1, 7, 90000, true, 1000, false, .video⟩, ⟨1001, 1, 8, 90000, true, 1000, false, .video⟩]

/-- The writer has written one row when the next is queued. -/
def behindActions : List (Action ℕ) :=
  [.writeLine 0 (batchRows.head?.map sendLine) 32, .takeBatch, .putRow,
    .writeLine 0 (batchRows.getLast?.map sendLine) 32]

def behindRun : List (AsyncCsvLog × Action ℕ) × AsyncCsvLog :=
  (execute (next 2) (.create (some rtpSendHeader)) behindActions).getD ([], .create none)

/-- The egress that sends them, and refuses the second. -/
def batchTrace : List (Rtp.RtpSenderEgress × Rtp.EgressOp) :=
  history (Rtp.RtpSenderEgress.next Rtp.batching) {} Rtp.batchOps

/-- What identifies a packet on the wire. -/
def sentKey (row : Rtp.RtpSendRow) : UInt32 × UInt16 × UInt32 := (row.ssrc, row.seqNum, row.rtpTimestamp)

def receivedKey (row : InsertedPacket) : UInt32 × UInt16 × UInt32 :=
  (row.ssrc, row.seqNum, row.rtpTimestamp)

/-- The key as the tools see it. -/
def readKey (key : UInt32 × UInt16 × UInt32) : ℤ × ℤ × ℤ := (key.1.toNat, key.2.1.toNat, key.2.2.toNat)

theorem readKey_injective : Function.Injective readKey := by
  rintro ⟨a, b, c⟩ ⟨a', b', c'⟩ h
  simp only [readKey, Prod.mk.injEq, Int.natCast_inj, UInt32.toNat_inj, UInt16.toNat_inj] at h
  simp only [Prod.mk.injEq]
  exact h

theorem exactKey_receiverPacket (row : InsertedPacket) :
    (receiverPacket row).exactKey = some (readKey (receivedKey row)) := rfl

theorem exactKey_senderPacket (row : Rtp.RtpSendRow) :
    (senderPacket row).exactKey =
      if row.rtpTimestamp = 0 then none else some (readKey (sentKey row)) := by
  by_cases h : row.rtpTimestamp = 0
  · simp [SenderPacket.exactKey, senderPacket, orMinusOne, h]
  · have hpos : (row.rtpTimestamp.toNat : ℤ) ≠ 0 := by
      intro hzero
      exact h (UInt32.toNat_inj.mp (by simpa using hzero))
    have hrtp : (senderPacket row).rtpTimestamp = row.rtpTimestamp.toNat := if_neg hpos
    rw [SenderPacket.exactKey, hrtp, if_pos (Int.natCast_nonneg _), if_neg h]
    rfl

theorem nodup_filterMap {α β γ : Type*} {key : α → γ} {f : α → Option β} {g : γ → β} {l : List α}
    (hg : Function.Injective g) (hf : ∀ a b, f a = some b → b = g (key a)) (h : (l.map key).Nodup) :
    (l.filterMap f).Nodup := by
  rw [List.Nodup, List.pairwise_filterMap]
  refine (List.pairwise_map.mp h).imp fun {a a'} hne b hb b' hb' heq => hne (hg ?_)
  rw [← hf a b hb, ← hf a' b' hb', heq]

/-- Rows that all are identifiable get their own packets. -/
theorem outcomes_own {packets : List SenderPacket} {rs : List ReceiverPacket}
    (hpackets : (packets.filterMap SenderPacket.exactKey).Nodup)
    (hrs : (rs.filterMap ReceiverPacket.exactKey).Nodup) (h : ∀ r ∈ rs, Identifiable packets r) :
    ∀ o ∈ (outcomes packets ∅ rs).map toOutcome, ∃ p ∈ packets, ∃ i, p.exactKey = o.1.exactKey ∧
      o.2 = some (.exact, p.candidate i) := by
  have hfirsts : ∀ o ∈ (outcomes packets ∅ rs).map toOutcome, o.1 ∈ rs := by
    intro o ho
    obtain ⟨o', ho', rfl⟩ := List.mem_map.mp ho
    have hfst := outcomes_receivers packets rs ∅
    exact hfst ▸ List.mem_map.mpr ⟨o', ho', rfl⟩
  rintro ⟨r, m⟩ ho
  obtain ⟨k, hrk, p, hp, hpk⟩ := h r (hfirsts _ ho)
  obtain ⟨i, hi⟩ := List.getElem?_of_mem hp
  obtain ⟨before, after, hsplit⟩ := List.append_of_mem ho
  refine ⟨p, hp, i, hpk.trans hrk.symm, ?_⟩
  refine own_of_identifiable hpackets hrs before.length rfl hsplit hi hpk hrk fun o hmem _ => ?_
  exact h o.1 (hfirsts o (hsplit ▸ List.mem_append_left _ hmem))

/-- The counters of a loop are the counters of its matches. -/
def countOutcome (n : MatchCounts) (o : Outcome) : MatchCounts :=
  o.2.elim n fun m => n.add o.1 m.1 m.2

theorem foldl_matchRow_counts (rs : List ReceiverPacket) (st : Packet.MatchingLoop) :
    (rs.foldl Packet.matchRow st).counts = (matchAll st.matching rs).foldl countOutcome st.counts := by
  induction rs generalizing st with
  | nil => rfl
  | cons r rs ih =>
    rw [List.foldl_cons, ih, matchAll, List.foldl_cons, Packet.matchRow, matchPacket_eta]
    cases hpick : (matchPacket st.matching r).1 <;> rfl

theorem add_exact {r : ReceiverPacket} {p : SenderPacket} {k : ℤ × ℤ × ℤ} (n : MatchCounts) (i : ℕ)
    (hr : r.exactKey = some k) (hp : p.exactKey = some k) :
    n.add r .exact (p.candidate i) = { n with exactMatches := n.exactMatches + 1 } := by
  obtain ⟨ssrc, _, hr⟩ := Option.bind_eq_some_iff.mp hr
  obtain ⟨rtp, hrtp, rfl⟩ := Option.map_eq_some_iff.mp hr
  unfold SenderPacket.exactKey at hp
  split_ifs at hp
  obtain ⟨ssrc', _, heq⟩ := Option.map_eq_some_iff.mp hp
  have hvalue : p.rtpTimestamp = rtp := congrArg (fun k => k.2.2) heq
  simp [MatchCounts.add, SenderPacket.candidate, hrtp, hvalue]

theorem foldl_countOutcome {outs : List Outcome} (n : MatchCounts)
    (h : ∀ o ∈ outs, ∃ p : SenderPacket, ∃ i k, o.1.exactKey = some k ∧ p.exactKey = some k ∧
      o.2 = some (.exact, p.candidate i)) :
    outs.foldl countOutcome n = { n with exactMatches := n.exactMatches + outs.length } := by
  induction outs generalizing n with
  | nil => rfl
  | cons o outs ih =>
    obtain ⟨p, i, k, hr, hp, hmatch⟩ := h o List.mem_cons_self
    have hstep : countOutcome n o = { n with exactMatches := n.exactMatches + 1 } := by
      rw [countOutcome, hmatch]
      exact add_exact n i hr hp
    rw [List.foldl_cons, hstep, ih _ fun o' ho' => h o' (List.mem_cons_of_mem o ho'), List.length_cons]
    simp only [MatchCounts.mk.injEq, and_true]
    omega

/-- A packet of the trace is this received packet, with the send time its own row has. -/
def PairedWith (sent : List Rtp.RtpSendRow) (row : InsertedPacket) (m : Packet.Matched) : Prop :=
  ∃ own ∈ sent, isVideo own = true ∧ sentKey own = receivedKey row ∧
    m = ⟨own.sendTimeMs, row.timestampMs, orMinusOne (some row.ssrc.toNat), row.seqNum.toNat,
      row.rtpTimestamp.toNat⟩

theorem forall₂_filterMap {α β γ : Type*} {f : β → Option γ} {g : β → α} {S : α → γ → Prop}
    {xs : List β} (h : ∀ x ∈ xs, ∃ y, f x = some y ∧ S (g x) y) :
    List.Forall₂ S (xs.map g) (xs.filterMap f) := by
  induction xs with
  | nil => exact .nil
  | cons x xs ih =>
    obtain ⟨y, hy, hS⟩ := h x List.mem_cons_self
    rw [List.map_cons, List.filterMap_cons_some hy]
    exact .cons hS (ih fun x' hx' => h x' (List.mem_cons_of_mem x hx'))

/-- What the tool keeps of an exact match is the packet with its own send time. -/
theorem pairedWith_exact {sent : List Rtp.RtpSendRow} {row : InsertedPacket} {p : SenderPacket} (i : ℕ)
    (hp : p ∈ (sent.filter isVideo).map senderPacket)
    (hkey : p.exactKey = (receiverPacket row).exactKey) :
    ∃ m, Packet.matchedOf (receiverPacket row, some (.exact, p.candidate i)) = some m ∧
      PairedWith sent row m := by
  obtain ⟨own, hown, rfl⟩ := List.mem_map.mp hp
  obtain ⟨hsent, hvideo⟩ := List.mem_filter.mp hown
  rw [exactKey_senderPacket, exactKey_receiverPacket] at hkey
  split_ifs at hkey with hzero
  have hkeys : sentKey own = receivedKey row := readKey_injective (Option.some.inj hkey)
  have hrtp : own.rtpTimestamp = row.rtpTimestamp := congrArg (fun key => key.2.2) hkeys
  have hpos : (row.rtpTimestamp.toNat : ℤ) ≠ 0 := by
    intro h
    exact hzero (hrtp.trans (UInt32.toNat_inj.mp (by simpa using h)))
  refine ⟨_, rfl, own, hsent, hvideo, hkeys, ?_⟩
  have hsome : orMinusOne (some (row.rtpTimestamp.toNat : ℤ)) = row.rtpTimestamp.toNat := if_neg hpos
  simp only [receiverPacket, SenderPacket.candidate, senderPacket, hsome]

/-- The rows that packets leave in `packet_buffer_inserts.csv`, one `InsertPacket` after the other. -/
def insertedRows (S : Packets.SeqNumOps) :
    Packets.PacketBuffer → List (ℤ × Packets.Packet) → List InsertedPacket
  | _, [] => []
  | s, (timestampMs, packet) :: arrivals =>
    (s.insertPacket S packet).2.1.filterMap (InsertedPacket.ofLogRow timestampMs) ++
      insertedRows S (s.insertPacket S packet).2.2 arrivals

def arrivingPacket (seqNum : UInt16) : Packets.Packet :=
  { Packets.vp8Packet seqNum 90000 true true with markerBit := true, ssrc := 1, payloadSize := 1000 }

/-- The two packets of the batch arrive, the second before the first. -/
def overtakingRows : List InsertedPacket :=
  insertedRows .halfRing (.create 16 64) [(1020, arrivingPacket 8), (1025, arrivingPacket 7)]

/-- The rows of the batch, after an audio packet with the number of one of them. -/
def overtakenRows : List Rtp.RtpSendRow :=
  ⟨999, 5, 8, 90000, false, 80, true, .audio⟩ ::
    Rtp.rtpSendRows (Rtp.egressEvents Rtp.batching batchTrace)

end WebrtcTrace.TraceTools
