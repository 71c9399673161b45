import WebrtcTrace.TraceTools.Matching
import Mathlib.Data.List.MinMax
import Mathlib.Data.Prod.Lex

/-! # `trace_tools/build_packet_level_trace.py`

`main` from the rows of the two logs to the rows of the trace: matching, one event per matched packet,
two optional coalescing stages, and the emission loop.
-/

namespace WebrtcTrace.TraceTools.Packet
set_option autoImplicit false

inductive ScheduleSource where
  | send
  | arrival
  deriving DecidableEq, Repr

inductive CoalesceStat where
  | median
  | p75
  | p95
  | max
  deriving DecidableEq, Repr

structure Args where
  dropWarmupSec : ℚ := 0
  baseDelayPercentile : ℚ := 5
  scheduleSource : ScheduleSource := .send
  delayQuantumMs : ℤ := 1
  minDelayMs : ℤ := 0
  maxDelayMs : ℤ := 5000
  delayScale : ℚ := 1
  delayOffsetMs : ℚ := 0
  emitDuplicates : Bool := false
  coalesceMs : ℤ := 0
  coalesceStat : CoalesceStat := .median
  coalesceByFrame : Bool := false
  delayDeadbandMs : ℤ := 0
  arrivalShiftMs : ℤ := 0

structure Logs where
  rtpSend : Option (List Row)
  packetBufferInserts : Option (List Row)

def percentile : List ℚ → ℚ → Except PyError ℚ := TraceTools.percentile "no values available"

/-- `sorted(values, key=key)`, which is stable. -/
def sortedBy {α κ : Type*} [LinearOrder κ] (key : α → κ) (values : List α) : List α :=
  values.insertionSort fun a b => key a ≤ key b

def pickStat (values : List ℤ) (stat : CoalesceStat) : Except PyError ℤ :=
  if values = [] then .error (.valueError "cannot pick statistic from empty values")
  else
    let ordered := sortedBy id values
    let pick := fun pct => (percentile (ordered.map Int.cast) pct).map Py.round
    match stat with
    | .max => .ok (ordered.getLast?.getD 0)
    | .median => pick 50
    | .p75 => pick 75
    | .p95 => pick 95

/-! ## Matching -/

structure Matched where
  sendTimeMs : ℤ
  recvTimeMs : ℤ
  ssrc : ℤ
  seqNum : ℤ
  rtpTimestamp : ℤ
  deriving DecidableEq, Repr

def dropWarmupRows (rows : List Row) (warmupMs : ℤ) : Except PyError (List Row) := do
  if warmupMs ≤ 0 then return rows
  let firstRecv ← minimum (← columnInts "timestamp_ms" rows)
  rowsFrom "timestamp_ms" (firstRecv + warmupMs) rows

/-- The variables of the matching loop. -/
structure MatchingLoop where
  matching : MatchState
  counts : MatchCounts := {}
  matched : List Matched := []

def matchRow (st : MatchingLoop) (r : ReceiverPacket) : MatchingLoop :=
  match matchPacket st.matching r with
  | (none, matching) => { st with matching := matching }
  | (some (kind, candidate), matching) =>
    { matching := matching
      counts := st.counts.add r kind candidate
      matched := st.matched ++ [{
        sendTimeMs := candidate.sendTimeMs
        recvTimeMs := r.recvTimeMs
        ssrc := orMinusOne r.ssrc
        seqNum := r.seqNum
        rtpTimestamp := orMinusOne r.rtpTimestamp }] }

def matchingLoop (sendRows receiverPacketRows : List Row) : Except PyError MatchingLoop :=
  (buildSenderPacketIndexes true sendRows).bind fun indexes =>
    scanRows readReceiver (fun st r => .ok (matchRow st r)) { matching := ⟨indexes, ∅⟩ }
      receiverPacketRows

/-! ## Packet events -/

/-- An event; `packet_count` is absent until a coalescing stage. -/
structure Event where
  atMs : ℤ
  delayMs : ℤ
  ssrc : ℤ
  seqNum : ℤ
  rtpTimestamp : ℤ
  packetCount : Option ℕ := none
  deriving DecidableEq, Repr

section Events
variable (args : Args)

/-- `delay_ms` of a packet, from its raw delay. -/
def packetDelayMs (baseDelayMs : ℚ) (rawDelay : ℤ) : ℤ :=
  let adjusted := (rawDelay - baseDelayMs) * args.delayScale + args.delayOffsetMs
  quantize (min (args.maxDelayMs : ℚ) (max (args.minDelayMs : ℚ) adjusted)) args.delayQuantumMs

def packetEvent (baseDelayMs : ℚ) (sendOriginMs recvOriginMs : ℤ) (m : Matched) : Event where
  atMs := max 0 <| match args.scheduleSource with
    | .send => m.sendTimeMs - sendOriginMs
    | .arrival => m.recvTimeMs - recvOriginMs - args.arrivalShiftMs
  delayMs := packetDelayMs args baseDelayMs (m.recvTimeMs - m.sendTimeMs)
  ssrc := m.ssrc
  seqNum := m.seqNum
  rtpTimestamp := m.rtpTimestamp

/-- The key the matched packets are sorted by. -/
def scheduleKey (m : Matched) : ℤ ×ₗ ℤ :=
  toLex (match args.scheduleSource with | .send => m.sendTimeMs | .arrival => m.recvTimeMs, m.seqNum)

def packetEvents (matched : List Matched) : Except PyError (List Event) := do
  let baseDelayMs ← percentile (matched.map fun m => ((m.recvTimeMs - m.sendTimeMs : ℤ) : ℚ))
    args.baseDelayPercentile
  let sendOriginMs ← minimum (matched.map Matched.sendTimeMs)
  let recvOriginMs ← minimum (matched.map Matched.recvTimeMs)
  return (sortedBy (scheduleKey args) matched).map
    (packetEvent args baseDelayMs sendOriginMs recvOriginMs)

/-! ## Coalescing -/

/-- The event that stands for a group: the group's statistic, at the given time, with the rest taken
from the group's first event by a key. -/
def groupEvent {κ : Type*} [LinearOrder κ] (key : Event → κ) (atMs : Event → ℤ)
    (group : List Event) : Except PyError (Option Event) :=
  (pickStat (group.map Event.delayMs) args.coalesceStat).map fun delayMs =>
    (group.argmin key).map fun first =>
      { first with atMs := atMs first, delayMs := delayMs, packetCount := some group.length }

/-- `min(event["at_ms"] for event in group)`. -/
def earliest (group : List Event) : ℤ := ((group.map Event.atMs).min?).getD 0

def coalesceByFrame (events : List Event) : Except PyError (List Event) :=
  let frames := DefaultDict.tally (fun e : Event => (e.ssrc, e.rtpTimestamp)) [] (fun es e => es ++ [e])
    .empty events
  readAll (fun frame => groupEvent args (fun e => toLex (e.atMs, e.seqNum)) Event.atMs frame.2)
    (sortedBy (fun frame => earliest frame.2) frames.entries)

/-- The start of an event's `--coalesce-ms` bucket. -/
def bucketAtMs (e : Event) : ℤ := e.atMs.fdiv args.coalesceMs * args.coalesceMs

def coalesceByTime (events : List Event) : Except PyError (List Event) :=
  let buckets := DefaultDict.tally (bucketAtMs args) [] (fun es e => es ++ [e]) .empty events
  readAll (fun bucket => groupEvent args Event.seqNum (fun _ => bucket.1) bucket.2)
    (sortedBy Prod.fst buckets.entries)

/-! ## Emission -/

/-- The variables of the emission loop. The state tuple of a row differs from another only in its
delay, so `previous_state` is the delay of the last row. -/
structure Emission where
  previousDelay : Option ℤ := none
  rows : List TraceRow := []

def eventRow (e : Event) : TraceRow where
  atMs := toString e.atMs
  delayMs := toString e.delayMs
  jitterMs := "0"
  lossPct := "0"
  rateKbit := ""
  limitPkts := ""
  note := "pkt:ssrc=" ++ toString e.ssrc ++ ",seq=" ++ toString e.seqNum ++
    ",rtp=" ++ toString e.rtpTimestamp ++ ",n=" ++ toString (e.packetCount.getD 1)

def emit (st : Emission) (e : Event) : Emission :=
  if 0 < args.delayDeadbandMs ∧
      st.previousDelay.any (fun d => |e.delayMs - d| ≤ args.delayDeadbandMs) then st
  else if !args.emitDuplicates ∧ st.previousDelay = some e.delayMs then st
  else { previousDelay := some e.delayMs, rows := st.rows ++ [eventRow e] }

def baselineRow : TraceRow := ⟨"0", "0", "0", "0", "", "", "baseline"⟩

/-- The emitted rows, with a baseline in front of rows that start later than 0. -/
def withBaseline (rows : List TraceRow) : Except PyError (List TraceRow) :=
  match rows with
  | [] => .error (.valueError "packet-level trace generation produced no rows")
  | first :: _ => .ok (if first.atMs ≠ "0" then baselineRow :: rows else rows)

def eventRows (events : List Event) : Except PyError (List TraceRow) :=
  withBaseline (events.foldl (emit args) {}).rows

/-- The events that reach the emission loop. -/
def coalesced (events : List Event) : Except PyError (List Event) :=
  (if args.coalesceByFrame then coalesceByFrame args events else .ok events).bind fun events =>
    if 0 < args.coalesceMs then coalesceByTime args events else .ok events

end Events

/-- `main` up to the writing of its rows. -/
def buildPacketTrace (args : Args) (logs : Logs) : Except PyError (List TraceRow) := do
  let sendRows := readRows logs.rtpSend
  let receiverPacketRows := readRows logs.packetBufferInserts
  if sendRows = [] then throw (.fileNotFoundError "rtp_send.csv")
  if receiverPacketRows = [] then throw (.fileNotFoundError "packet_buffer_inserts.csv")
  let receiverPacketRows ← dropWarmupRows receiverPacketRows (Py.trunc (args.dropWarmupSec * 1000))
  let st ← matchingLoop sendRows receiverPacketRows
  if st.matched = [] then throw (.valueError "no matched video RTP packets")
  let events ← packetEvents args st.matched
  let events ← coalesced args events
  eventRows args events

end WebrtcTrace.TraceTools.Packet
