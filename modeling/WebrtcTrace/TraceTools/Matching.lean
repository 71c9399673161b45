import WebrtcTrace.Foundations.DefaultDict
import WebrtcTrace.Foundations.LazyQueue
import WebrtcTrace.TraceTools.Rows
import Mathlib.Data.Finset.Insert

/-! # Matching receiver packets to sender packets

`build_sender_packet_indexes`, `pop_unused_candidate` and the part of both tools' matching loops that
picks a candidate. The two copies of the code differ in the order in which the index loop reads `ssrc`
and `rtp_timestamp`, which decides only which malformed field is reported: `ssrcFirst` below.

The candidate's `ssrc` and `seq_num` entries in the packet-level tool are never read and left out.
-/

namespace WebrtcTrace.TraceTools
set_option autoImplicit false

/-- What the index loop takes from a sender row. `rtpTimestamp` is after `or -1`. -/
structure SenderPacket where
  seqNum : ℤ
  sendTimeMs : ℤ
  rtpTimestamp : ℤ
  ssrc : Option ℤ
  deriving DecidableEq, Repr

structure Candidate where
  id : ℕ
  sendTimeMs : ℤ
  rtpTimestamp : ℤ
  deriving DecidableEq, Repr

def SenderPacket.candidate (p : SenderPacket) (id : ℕ) : Candidate :=
  ⟨id, p.sendTimeMs, p.rtpTimestamp⟩

structure ReceiverPacket where
  seqNum : ℤ
  recvTimeMs : ℤ
  ssrc : Option ℤ
  rtpTimestamp : Option ℤ
  deriving DecidableEq, Repr

/-- `value or -1`. -/
def orMinusOne : Option ℤ → ℤ
  | none => -1
  | some v => if v = 0 then -1 else v

/-! ## The sender indexes -/

def readSender (ssrcFirst : Bool) (row : Row) : Except PyError (Option SenderPacket) := do
  if !(← isVideoSendRow row) then return none
  let seqNum ← asInt row "seq_num"
  let sendTime ← asInt row "send_time_ms"
  match seqNum, sendTime with
  | some seqNum, some sendTimeMs =>
    if ssrcFirst then let _ ← asInt row "ssrc"
    let rtpTimestamp ← asInt row "rtp_timestamp"
    let ssrc ← asInt row "ssrc"
    return some ⟨seqNum, sendTimeMs, orMinusOne rtpTimestamp, ssrc⟩
  | _, _ => return none

structure SenderIndexes where
  bySsrcSeqRtp : DefaultDict (ℤ × ℤ × ℤ) (List Candidate)
  bySsrcSeq : DefaultDict (ℤ × ℤ) (List Candidate)
  bySeq : DefaultDict ℤ (List Candidate)

/-- The state of the index loop. -/
structure IndexLoop where
  packetId : ℕ
  indexes : SenderIndexes

def IndexLoop.start : IndexLoop := ⟨0, .empty, .empty, .empty⟩

/-- `d[k].append(c)`, for a key that may not apply. -/
def appendAt {κ : Type*} [DecidableEq κ] (d : DefaultDict κ (List Candidate)) (k : Option κ)
    (c : Candidate) : DefaultDict κ (List Candidate) :=
  k.elim d fun k => d.update k [] (· ++ [c])

def SenderPacket.exactKey (p : SenderPacket) : Option (ℤ × ℤ × ℤ) :=
  if 0 ≤ p.rtpTimestamp then p.ssrc.map fun ssrc => (ssrc, p.seqNum, p.rtpTimestamp) else none

def SenderPacket.ssrcSeqKey (p : SenderPacket) : Option (ℤ × ℤ) :=
  p.ssrc.map fun ssrc => (ssrc, p.seqNum)

def SenderPacket.seqKey (p : SenderPacket) : Option ℤ := some p.seqNum

def addPacket (st : IndexLoop) (p : SenderPacket) : IndexLoop where
  packetId := st.packetId + 1
  indexes :=
    { bySsrcSeqRtp := appendAt st.indexes.bySsrcSeqRtp p.exactKey (p.candidate st.packetId)
      bySsrcSeq := appendAt st.indexes.bySsrcSeq p.ssrcSeqKey (p.candidate st.packetId)
      bySeq := appendAt st.indexes.bySeq p.seqKey (p.candidate st.packetId) }

def buildSenderPacketIndexes (ssrcFirst : Bool) (sendRows : List Row) :
    Except PyError SenderIndexes :=
  (scanRows (readSender ssrcFirst) (fun st p => .ok (addPacket st p)) .start sendRows).map
    IndexLoop.indexes

/-! ## Picking a candidate -/

inductive MatchKind where
  | exact
  | ssrcSeq
  | seqOnly
  deriving DecidableEq, Repr

structure MatchState where
  indexes : SenderIndexes
  usedPacketIds : Finset ℕ

/-- `pop_unused_candidate(d.get(k), used)` with what it leaves in `d`; the caller adds the id it gets
to the used ones. -/
def popUnusedCandidate {κ : Type*} [DecidableEq κ] (d : DefaultDict κ (List Candidate))
    (used : Finset ℕ) (k : κ) : Option Candidate × DefaultDict κ (List Candidate) :=
  match d.get? k with
  | none => (none, d)
  | some candidates =>
    let popped := LazyQueue.pop (fun c => c.id ∈ used) candidates
    (popped.1, d.update k [] fun _ => popped.2)

/-- The same for a key that a row may not have. -/
def popAt {κ : Type*} [DecidableEq κ] (d : DefaultDict κ (List Candidate)) (used : Finset ℕ)
    (k : Option κ) : Option Candidate × DefaultDict κ (List Candidate) :=
  k.elim (none, d) (popUnusedCandidate d used)

def ReceiverPacket.exactKey (r : ReceiverPacket) : Option (ℤ × ℤ × ℤ) :=
  r.ssrc.bind fun ssrc => r.rtpTimestamp.map fun rtp => (ssrc, r.seqNum, rtp)

def ReceiverPacket.ssrcSeqKey (r : ReceiverPacket) : Option (ℤ × ℤ) :=
  r.ssrc.map fun ssrc => (ssrc, r.seqNum)

def ReceiverPacket.seqKey (r : ReceiverPacket) : Option ℤ := some r.seqNum

def MatchState.use (st : MatchState) (c : Candidate) : Finset ℕ := insert c.id st.usedPacketIds

/-- The three attempts, in turn. -/
def matchPacket (st : MatchState) (r : ReceiverPacket) :
    Option (MatchKind × Candidate) × MatchState :=
  let ix := st.indexes
  match popAt ix.bySsrcSeqRtp st.usedPacketIds r.exactKey with
  | (some c, d) => (some (.exact, c), ⟨{ ix with bySsrcSeqRtp := d }, st.use c⟩)
  | (none, d) =>
    let ix := { ix with bySsrcSeqRtp := d }
    match popAt ix.bySsrcSeq st.usedPacketIds r.ssrcSeqKey with
    | (some c, d) => (some (.ssrcSeq, c), ⟨{ ix with bySsrcSeq := d }, st.use c⟩)
    | (none, d) =>
      let ix := { ix with bySsrcSeq := d }
      match popAt ix.bySeq st.usedPacketIds r.seqKey with
      | (some c, d) => (some (.seqOnly, c), ⟨{ ix with bySeq := d }, st.use c⟩)
      | (none, d) => (none, ⟨{ ix with bySeq := d }, st.usedPacketIds⟩)

/-- What the loops read of a receiver row. -/
def readReceiver (row : Row) : Except PyError (Option ReceiverPacket) := do
  let seqNum ← asInt row "seq_num"
  let recvTime ← asInt row "timestamp_ms"
  match seqNum, recvTime with
  | some seqNum, some recvTimeMs =>
    let ssrc ← asInt row "ssrc"
    let rtpTimestamp ← asInt row "rtp_timestamp"
    return some ⟨seqNum, recvTimeMs, ssrc, rtpTimestamp⟩
  | _, _ => return none

/-- The candidates a matching loop picks, row by row. -/
def matchAll (st : MatchState) :
    List ReceiverPacket → List (ReceiverPacket × Option (MatchKind × Candidate))
  | [] => []
  | r :: rs => (r, (matchPacket st r).1) :: matchAll (matchPacket st r).2 rs

/-- The same from the rows of the two logs. -/
def matchRows (ssrcFirst : Bool) (sendRows receiverPacketRows : List Row) :
    Except PyError (List (ReceiverPacket × Option (MatchKind × Candidate))) :=
  (buildSenderPacketIndexes ssrcFirst sendRows).bind fun indexes =>
    (readAll readReceiver receiverPacketRows).map (matchAll ⟨indexes, ∅⟩)

/-- The counters both loops keep. -/
structure MatchCounts where
  exactMatches : ℕ := 0
  ssrcSeqMatches : ℕ := 0
  seqOnlyMatches : ℕ := 0
  rtpTimestampMismatches : ℕ := 0
  deriving DecidableEq, Repr

def MatchCounts.add (n : MatchCounts) (r : ReceiverPacket) (kind : MatchKind) (c : Candidate) :
    MatchCounts where
  exactMatches := n.exactMatches + if kind = .exact then 1 else 0
  ssrcSeqMatches := n.ssrcSeqMatches + if kind = .ssrcSeq then 1 else 0
  seqOnlyMatches := n.seqOnlyMatches + if kind = .seqOnly then 1 else 0
  rtpTimestampMismatches := n.rtpTimestampMismatches +
    if r.rtpTimestamp.any (fun rtp => decide (0 ≤ c.rtpTimestamp) && rtp != c.rtpTimestamp) then 1
    else 0

end WebrtcTrace.TraceTools
