import WebrtcTrace.Foundations.TwoRuns
import WebrtcTrace.TraceTools.Matching
import Mathlib.Tactic.Ring

/-! # Shifting a clock

What the pieces that both tools share make of logs whose timestamps come from a clock with another
offset: columns, minima and percentiles move along, and the matching picks the same packets.
-/

namespace WebrtcTrace.TraceTools
set_option autoImplicit false

/-- The same row but for the integer under `key`, which is `c` larger. -/
structure RowShifted (key : String) (c : ℤ) (row row' : Row) : Prop where
  shifted : asInt row' key = (asInt row key).map (Option.map (· + c))
  others : ∀ k, k ≠ key → row'.get? k = row.get? k

def FileShifted (key : String) (c : ℤ) : Option (List Row) → Option (List Row) → Prop :=
  Option.Rel (List.Forall₂ (RowShifted key c))

section Rows
variable {key : String} {c : ℤ} {row row' : Row} {rows rows' : List Row}

theorem RowShifted.text_eq (h : RowShifted key c row row') {k : String} (hk : k ≠ key) :
    row'.text k = row.text k := by
  rw [Row.text, Row.text, h.others k hk]

theorem RowShifted.asInt_eq (h : RowShifted key c row row') {k : String} (hk : k ≠ key) :
    asInt row' k = asInt row k := by
  rw [asInt, asInt, h.text_eq hk]

theorem readRows_shifted {file file' : Option (List Row)} (h : FileShifted key c file file') :
    List.Forall₂ (RowShifted key c) (readRows file) (readRows file') := by
  cases h with
  | none => exact .nil
  | some h => exact h

theorem isSome_shifted {file file' : Option (List Row)} (h : FileShifted key c file file') :
    file'.isSome = file.isSome := by
  cases h <;> rfl

theorem nil_iff_shifted (h : List.Forall₂ (RowShifted key c) rows rows') : rows' = [] ↔ rows = [] := by
  cases h <;> simp

theorem columnInts_shifted (h : List.Forall₂ (RowShifted key c) rows rows') :
    columnInts key rows' = (columnInts key rows).map (List.map (· + c)) :=
  readAll_of_map (h.imp fun _ _ hrow => hrow.shifted)

/-- The rows from a cutoff on, which moves along. -/
theorem rowsFrom_shifted (cutoff : ℤ) (h : List.Forall₂ (RowShifted key c) rows rows') :
    Related (List.Forall₂ (RowShifted key c)) (rowsFrom key cutoff rows)
      (rowsFrom key (cutoff + c) rows') := by
  refine readAll_related (h.imp fun row row' hrow => ?_)
  rw [hrow.shifted]
  cases asInt row key with
  | error e => exact .error e
  | ok ts =>
    cases ts with
    | none => exact .ok .none
    | some ts =>
      have hcut : cutoff + c ≤ ts + c ↔ cutoff ≤ ts := by omega
      by_cases hts : cutoff ≤ ts
      · simpa [Except.map, hcut, hts] using Related.ok (.some hrow)
      · simpa [Except.map, hcut, hts] using Related.ok .none

end Rows

/-! ## Arithmetic -/

theorem min?_map_add (c : ℤ) (xs : List ℤ) : (xs.map (· + c)).min? = xs.min?.map (· + c) := by
  induction xs with
  | nil => rfl
  | cons x xs ih =>
    rw [List.map_cons, List.min?_cons, List.min?_cons, ih]
    cases xs.min? with
    | none => rfl
    | some m => simp [min_add_add_right]

theorem minimum_shifted (c : ℤ) (xs : List ℤ) :
    minimum (xs.map (· + c)) = (minimum xs).map (· + c) := by
  rw [minimum, minimum, min?_map_add]
  cases xs.min? <;> rfl

theorem sorted_shifted (δ : ℚ) (values : List ℚ) :
    sorted (values.map (· + δ)) = (sorted values).map (· + δ) := by
  refine (List.map_insertionSort _ _ _ _ fun a _ b _ => ?_).symm
  exact (add_le_add_iff_right δ).symm

theorem item_shifted (δ : ℚ) (values : List ℚ) (i : ℤ) :
    item (values.map (· + δ)) i = (item values i).map (· + δ) := by
  unfold item
  simp only [List.length_map, List.getElem?_map]
  generalize (if i < 0 then i + (values.length : ℤ) else i) = j
  by_cases hj : 0 ≤ j
  · rw [if_pos hj, if_pos hj]
    cases values[j.toNat]? <;> rfl
  · rw [if_neg hj, if_neg hj]
    rfl

/-- The last branch of `percentile`. -/
def interpolated (ordered : List ℚ) (position : ℚ) : Except PyError ℚ :=
  if ⌊position⌋ = ⌈position⌉ then item ordered ⌊position⌋
  else
    (item ordered ⌊position⌋).bind fun lo => (item ordered ⌈position⌉).map fun hi =>
      lo * (1 - (position - ⌊position⌋)) + hi * (position - ⌊position⌋)

theorem interpolated_shifted (δ : ℚ) (ordered : List ℚ) (position : ℚ) :
    interpolated (ordered.map (· + δ)) position = (interpolated ordered position).map (· + δ) := by
  unfold interpolated
  split_ifs
  · exact item_shifted δ ordered _
  · rw [item_shifted, item_shifted]
    cases item ordered ⌊position⌋ with
    | error e => rfl
    | ok lo =>
      cases item ordered ⌈position⌉ with
      | error e => rfl
      | ok hi =>
        refine congrArg Except.ok ?_
        ring

theorem percentile_shifted (message : String) (δ : ℚ) (values : List ℚ) (pct : ℚ) :
    percentile message (values.map (· + δ)) pct = (percentile message values pct).map (· + δ) := by
  unfold percentile
  rw [sorted_shifted]
  match sorted values with
  | [] => rfl
  | [value] => rfl
  | a :: b :: rest =>
    have hlength : (((a :: b :: rest).map (· + δ)).length - 1 : ℕ) = (a :: b :: rest).length - 1 := by
      rw [List.length_map]
    have hshift := interpolated_shifted δ (a :: b :: rest)
      ((((a :: b :: rest).map (· + δ)).length - 1 : ℕ) * (pct / 100))
    refine hshift.trans ?_
    rw [hlength]
    rfl

/-! ## Sender packets -/

def Candidate.shift (d : ℤ) (c : Candidate) : Candidate := { c with sendTimeMs := c.sendTimeMs + d }

def SenderPacket.shift (d : ℤ) (p : SenderPacket) : SenderPacket :=
  { p with sendTimeMs := p.sendTimeMs + d }

def ReceiverPacket.shift (c : ℤ) (r : ReceiverPacket) : ReceiverPacket :=
  { r with recvTimeMs := r.recvTimeMs + c }

/-- A queue index with all its candidates shifted. -/
def shiftQueues {κ : Type} (d : ℤ) (index : DefaultDict κ (List Candidate)) :
    DefaultDict κ (List Candidate) := index.mapValues (List.map (Candidate.shift d))

def SenderIndexes.shift (d : ℤ) (ix : SenderIndexes) : SenderIndexes :=
  ⟨shiftQueues d ix.bySsrcSeqRtp, shiftQueues d ix.bySsrcSeq, shiftQueues d ix.bySeq⟩

def IndexLoop.shift (d : ℤ) (st : IndexLoop) : IndexLoop := ⟨st.packetId, st.indexes.shift d⟩

def MatchState.shift (d : ℤ) (st : MatchState) : MatchState := ⟨st.indexes.shift d, st.usedPacketIds⟩

theorem isVideoSendRow_shifted {d : ℤ} {row row' : Row} (h : RowShifted "send_time_ms" d row row') :
    isVideoSendRow row' = isVideoSendRow row := by
  rw [isVideoSendRow, isVideoSendRow, h.others "is_audio" (by decide),
    h.text_eq (show "packet_type" ≠ "send_time_ms" by decide)]

theorem readSender_shifted (ssrcFirst : Bool) {d : ℤ} {row row' : Row}
    (h : RowShifted "send_time_ms" d row row') :
    readSender ssrcFirst row' = (readSender ssrcFirst row).map (Option.map (.shift d)) := by
  rw [readSender, readSender, isVideoSendRow_shifted h, h.shifted,
    h.asInt_eq (show "seq_num" ≠ "send_time_ms" by decide),
    h.asInt_eq (show "ssrc" ≠ "send_time_ms" by decide),
    h.asInt_eq (show "rtp_timestamp" ≠ "send_time_ms" by decide)]
  cases isVideoSendRow row with
  | error e => rfl
  | ok video =>
  cases video with
  | false => rfl
  | true =>
  cases asInt row "seq_num" with
  | error e => rfl
  | ok seqNum =>
  cases asInt row "send_time_ms" with
  | error e => rfl
  | ok sendTime =>
  cases seqNum with
  | none => cases sendTime <;> rfl
  | some seqNum =>
  cases sendTime with
  | none => rfl
  | some sendTime =>
    cases asInt row "ssrc" <;> cases asInt row "rtp_timestamp" <;> cases ssrcFirst <;> rfl

theorem readReceiver_shifted {c : ℤ} {row row' : Row} (h : RowShifted "timestamp_ms" c row row') :
    readReceiver row' = (readReceiver row).map (Option.map (.shift c)) := by
  rw [readReceiver, readReceiver, h.shifted,
    h.asInt_eq (show "seq_num" ≠ "timestamp_ms" by decide),
    h.asInt_eq (show "ssrc" ≠ "timestamp_ms" by decide),
    h.asInt_eq (show "rtp_timestamp" ≠ "timestamp_ms" by decide)]
  cases asInt row "seq_num" with
  | error e => rfl
  | ok seqNum =>
  cases asInt row "timestamp_ms" with
  | error e => rfl
  | ok recvTime =>
  cases seqNum with
  | none => cases recvTime <;> rfl
  | some seqNum =>
  cases recvTime with
  | none => rfl
  | some recvTime =>
    cases asInt row "ssrc" <;> cases asInt row "rtp_timestamp" <;> rfl

section Queues
variable {κ : Type} [DecidableEq κ]

theorem appendAt_shift (d : ℤ) (index : DefaultDict κ (List Candidate)) (k : Option κ)
    (c : Candidate) : appendAt (shiftQueues d index) k (c.shift d) = shiftQueues d (appendAt index k c) := by
  cases k with
  | none => rfl
  | some k =>
    exact index.mapValues_update k [] (· ++ [c]) (List.map (Candidate.shift d)) (· ++ [c.shift d])
      fun queue => by simp

theorem popUnusedCandidate_shift (d : ℤ) (index : DefaultDict κ (List Candidate)) (used : Finset ℕ)
    (k : κ) : popUnusedCandidate (shiftQueues d index) used k =
      ((popUnusedCandidate index used k).1.map (.shift d),
        shiftQueues d (popUnusedCandidate index used k).2) := by
  unfold popUnusedCandidate
  rw [shiftQueues, DefaultDict.get?_mapValues]
  cases index.get? k with
  | none => rfl
  | some queue =>
    have hpop := LazyQueue.pop_map (fun c : Candidate => decide (c.id ∈ used))
      (fun c : Candidate => decide (c.id ∈ used)) (Candidate.shift d) (fun _ => rfl) queue
    simp only [Option.map_some, hpop]
    refine Prod.ext rfl ?_
    exact index.mapValues_update k [] (fun _ => _) (List.map (Candidate.shift d)) (fun _ => _)
      fun _ => rfl

theorem popAt_shift (d : ℤ) (index : DefaultDict κ (List Candidate)) (used : Finset ℕ)
    (k : Option κ) : popAt (shiftQueues d index) used k =
      ((popAt index used k).1.map (.shift d), shiftQueues d (popAt index used k).2) := by
  cases k with
  | none => rfl
  | some k => exact popUnusedCandidate_shift d index used k

end Queues

/-! ## Indexing and matching -/

theorem addPacket_shift (d : ℤ) (st : IndexLoop) (p : SenderPacket) :
    addPacket (st.shift d) (p.shift d) = (addPacket st p).shift d := by
  have hcandidate : (p.shift d).candidate st.packetId = (p.candidate st.packetId).shift d := rfl
  simp only [addPacket, IndexLoop.shift, SenderIndexes.shift, hcandidate, appendAt_shift]
  rfl

theorem buildSenderPacketIndexes_shifted {ssrcFirst : Bool} {d : ℤ} {rows rows' : List Row}
    (h : List.Forall₂ (RowShifted "send_time_ms" d) rows rows') :
    Related (fun ix ix' => ix' = ix.shift d) (buildSenderPacketIndexes ssrcFirst rows)
      (buildSenderPacketIndexes ssrcFirst rows') := by
  have hreads := reads_of_map (h.imp fun _ _ hrow => readSender_shifted ssrcFirst hrow)
  refine (scanRows_related (S := fun st st' => st' = st.shift d) hreads ?_ rfl).map ?_
  · rintro st _ p _ rfl rfl
    exact .ok (addPacket_shift d st p)
  · rintro st _ rfl
    rfl

/-- **Matching does not depend on the clocks.** -/
theorem matchPacket_shift (c d : ℤ) (st : MatchState) (r : ReceiverPacket) :
    matchPacket (st.shift d) (r.shift c) =
      ((matchPacket st r).1.map fun m => (m.1, m.2.shift d), (matchPacket st r).2.shift d) := by
  unfold matchPacket
  simp only [MatchState.shift, SenderIndexes.shift, popAt_shift]
  rw [show (r.shift c).exactKey = r.exactKey from rfl,
    show (r.shift c).ssrcSeqKey = r.ssrcSeqKey from rfl, show (r.shift c).seqKey = r.seqKey from rfl]
  obtain ⟨c1, d1⟩ := popAt st.indexes.bySsrcSeqRtp st.usedPacketIds r.exactKey
  cases c1 with
  | some c1 => rfl
  | none =>
    obtain ⟨c2, d2⟩ := popAt st.indexes.bySsrcSeq st.usedPacketIds r.ssrcSeqKey
    cases c2 with
    | some c2 => rfl
    | none =>
      obtain ⟨c3, d3⟩ := popAt st.indexes.bySeq st.usedPacketIds r.seqKey
      cases c3 <;> rfl

theorem MatchCounts.add_shift (c d : ℤ) (n : MatchCounts) (r : ReceiverPacket) (kind : MatchKind)
    (candidate : Candidate) : n.add (r.shift c) kind (candidate.shift d) = n.add r kind candidate := rfl

end WebrtcTrace.TraceTools
