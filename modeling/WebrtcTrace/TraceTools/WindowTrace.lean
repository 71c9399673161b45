import WebrtcTrace.TraceTools.Matching

/-! # `trace_tools/build_trace_from_logs.py`

`build_trace` from the rows of the logs to the rows of the trace. The log directories exist; a file in
them may not. Each loop of the source is one definition, in the order of the source: samples
(`feedbackLoop` or `matchingLoop`), acked bytes, base delay, bandwidth estimates, sent bytes, losses,
freeze notes, and the window loop.

`statistics.pstdev` takes a square root and is the parameter `pstdev`.
-/

namespace WebrtcTrace.TraceTools.Window
set_option autoImplicit false

/-! ## Options and logs -/

inductive DelaySource where
  | feedback
  | receiverArrival
  deriving DecidableEq, Repr

inductive RateSource where
  | auto
  | none
  | acked
  | bwe
  | send
  deriving DecidableEq, Repr

structure Args where
  windowMs : ℤ := 50
  baseDelayPercentile : ℚ := 5
  delaySource : DelaySource := .feedback
  rateSource : RateSource := .auto
  rateHeadroom : ℚ := 105 / 100
  delayQuantumMs : ℤ := 5
  jitterQuantumMs : ℤ := 5
  rateQuantumKbit : ℤ := 50
  minRateKbit : ℤ := 150
  lossQuantumPct : ℚ := 1 / 2
  maxLossPct : ℚ := 30
  dropWarmupSec : ℚ := 0
  arrivalShiftMs : ℤ := 0
  disableLoss : Bool := false
  limitPkts : ℤ := 1000
  receiverTimeOffsetMs : ℤ := 0

structure ReceiverLogs where
  packetBufferInserts : Option (List Row)
  videoFreeze : Option (List Row)

structure Logs where
  packetFeedback : Option (List Row)
  bweTarget : Option (List Row)
  rtpSend : Option (List Row)
  receiver : Option ReceiverLogs

/-! ## Origins and warmup -/

def percentile : List ℚ → ℚ → Except PyError ℚ :=
  TraceTools.percentile "no values available for percentile"

def pickRateSource (args : Args) (logs : Logs) : Except PyError RateSource :=
  if args.rateSource ≠ .auto then .ok args.rateSource
  else if logs.packetFeedback.isSome then .ok .acked
  else if logs.bweTarget.isSome then .ok .bwe
  else if logs.rtpSend.isSome then .ok .send
  else .error (.fileNotFoundError "no sender log usable for throughput trace")

def resolveOriginMs (packetFeedbackRows bweRows sendRows : List Row) : Except PyError ℤ := do
  let recvTimes ← columnInts "recv_time_ms" packetFeedbackRows
  let targets ← columnInts "timestamp_ms" bweRows
  let sendTimes ← columnInts "send_time_ms" sendRows
  let candidates := recvTimes ++ targets ++ sendTimes
  if candidates = [] then throw (.valueError "no timestamped sender rows found")
  minimum candidates

def receiverArrivalOriginMs (receiverPacketRows : List Row) : Except PyError ℤ := do
  let candidates ← columnInts "timestamp_ms" receiverPacketRows
  if candidates = [] then throw (.valueError "no receiver packet insert timestamps found")
  minimum candidates

def dropWarmupRows (rows : List Row) (timestampKey : String) (warmupMs : ℤ) :
    Except PyError (List Row) := do
  if warmupMs ≤ 0 then return rows
  let timestamps ← columnInts timestampKey rows
  if timestamps = [] then return rows
  let cutoff := (← minimum timestamps) + warmupMs
  rowsFrom timestampKey cutoff rows

/-- What `build_trace` has settled before its first loop. -/
structure Inputs where
  rateSource : RateSource
  disableLoss : Bool
  packetFeedbackRows : List Row
  bweRows : List Row
  sendRows : List Row
  receiverPacketRows : List Row
  originMs : ℤ
  deriving DecidableEq

def prepare (args : Args) (logs : Logs) : Except PyError Inputs := do
  let packetFeedbackRows := readRows logs.packetFeedback
  let bweRows := readRows logs.bweTarget
  let sendRows := readRows logs.rtpSend
  let receiverPacketRows := logs.receiver.elim [] fun r => readRows r.packetBufferInserts
  let warmupMs := Py.trunc (args.dropWarmupSec * 1000)
  let rateSource ← pickRateSource args logs
  match args.delaySource with
  | .receiverArrival =>
    if logs.receiver.isNone then
      throw (.valueError "--delay-source receiver-arrival requires --receiver-log-dir")
    if args.rateSource ≠ .auto ∧ rateSource ≠ .none then
      throw (.valueError "--delay-source receiver-arrival currently requires --rate-source none")
    let receiverPacketRows ← dropWarmupRows receiverPacketRows "timestamp_ms" warmupMs
    let originMs ← receiverArrivalOriginMs receiverPacketRows
    return ⟨.none, true, packetFeedbackRows, bweRows, sendRows, receiverPacketRows, originMs⟩
  | .feedback =>
    let packetFeedbackRows ← dropWarmupRows packetFeedbackRows "recv_time_ms" warmupMs
    let bweRows ← dropWarmupRows bweRows "timestamp_ms" warmupMs
    let sendRows ← dropWarmupRows sendRows "send_time_ms" warmupMs
    let originMs ← resolveOriginMs packetFeedbackRows bweRows sendRows
    return ⟨rateSource, args.disableLoss, packetFeedbackRows, bweRows, sendRows,
      receiverPacketRows, originMs⟩

/-! ## The bins -/

inductive Note where
  | receiverArrivalMatches (counts : MatchCounts)
  | freeze (duration : ℤ)
  deriving DecidableEq, Repr

def Note.text : Note → String
  | receiverArrivalMatches n =>
    "receiver_arrival_matches:" ++ "exact=" ++ toString n.exactMatches ++
      ",ssrc_seq=" ++ toString n.ssrcSeqMatches ++ "," ++
      "seq_only=" ++ toString n.seqOnlyMatches ++ "," ++
      "rtp_ts_mismatch=" ++ toString n.rtpTimestampMismatches
  | freeze duration => "freeze:" ++ toString duration ++ "ms"

structure Bins where
  delay : DefaultDict ℤ (List ℚ) := .empty
  acked : DefaultDict ℤ ℤ := .empty
  ackedSend : DefaultDict ℤ ℤ := .empty
  bwe : DefaultDict ℤ (List ℚ) := .empty
  send : DefaultDict ℤ ℤ := .empty
  jitter : DefaultDict ℤ (List ℚ) := .empty
  loss : DefaultDict ℤ ℚ := .empty
  note : DefaultDict ℤ (List Note) := .empty
  allDelaySamples : List ℚ := []

/-- `max(0, ms // window_ms)`. -/
def windowIndex (windowMs ms : ℤ) : Except PyError ℤ := (floorDiv ms windowMs).map (max 0)

def Bins.addSample (b : Bins) (idx : ℤ) (sampleDelay : ℚ) : Bins := { b with
  allDelaySamples := b.allDelaySamples ++ [sampleDelay]
  delay := b.delay.update idx [] (· ++ [sampleDelay]) }

def Bins.addAcked (b : Bins) (idx sendIdx sizeBytes : ℤ) : Bins := { b with
  acked := b.acked.update idx 0 (· + sizeBytes)
  ackedSend := b.ackedSend.update sendIdx 0 (· + sizeBytes) }

/-! ## The loops over the logs -/

structure Feedback where
  sendTime : ℤ
  recvTime : ℤ
  sizeBytes : ℤ
  deriving DecidableEq, Repr

/-- The tests at the head of both feedback loops. -/
def readFeedback (row : Row) : Except PyError (Option Feedback) := do
  let sendTime ← asInt row "send_time_ms"
  let recvTime ← asInt row "recv_time_ms"
  let sizeBytes ← asInt row "size_bytes"
  match sendTime, recvTime, sizeBytes with
  | some sendTime, some recvTime, some sizeBytes =>
    if recvTime < sendTime then return none else return some ⟨sendTime, recvTime, sizeBytes⟩
  | _, _, _ => return none

/-- A timestamp and a second value of a row, if it has both. -/
def readTimed (timestampKey valueKey : String) (row : Row) : Except PyError (Option (ℤ × ℤ)) := do
  let ts ← asInt row timestampKey
  let value ← asInt row valueKey
  match ts, value with
  | some ts, some value => return some (ts, value)
  | _, _ => return none

section Loops
variable (args : Args) (inputs : Inputs)

def feedbackLoop (b : Bins) : Except PyError Bins :=
  scanRows readFeedback (fun b f =>
    (windowIndex args.windowMs (f.recvTime - inputs.originMs)).bind fun idx =>
    (windowIndex args.windowMs (f.sendTime - inputs.originMs)).map fun sendIdx =>
      (b.addSample idx ((f.recvTime - f.sendTime : ℤ) : ℚ)).addAcked idx sendIdx f.sizeBytes)
    b inputs.packetFeedbackRows

/-- The variables of the matching loop. -/
structure MatchingLoop where
  matching : MatchState
  counts : MatchCounts := {}
  matchedPackets : ℕ := 0
  bins : Bins

def matchRow (st : MatchingLoop) (r : ReceiverPacket) : Except PyError MatchingLoop :=
  match matchPacket st.matching r with
  | (none, matching) => .ok { st with matching := matching }
  | (some (kind, candidate), matching) =>
    (windowIndex args.windowMs (r.recvTimeMs - inputs.originMs - args.arrivalShiftMs)).map fun idx =>
      { matching := matching
        counts := st.counts.add r kind candidate
        matchedPackets := st.matchedPackets + 1
        bins := st.bins.addSample idx ((r.recvTimeMs - candidate.sendTimeMs : ℤ) : ℚ) }

def matchingLoop (b : Bins) : Except PyError MatchingLoop :=
  (buildSenderPacketIndexes false inputs.sendRows).bind fun indexes =>
    scanRows readReceiver (matchRow args inputs) { matching := ⟨indexes, ∅⟩, bins := b }
      inputs.receiverPacketRows

def receiverArrivalDelays (b : Bins) : Except PyError Bins :=
  (matchingLoop args inputs b).bind fun st =>
    if st.matchedPackets = 0 then
      .error (.valueError "receiver-arrival delay source found no matching seq_num rows")
    else .ok { st.bins with
      note := st.bins.note.update 0 [] (· ++ [.receiverArrivalMatches st.counts]) }

def ackedLoop (b : Bins) : Except PyError Bins :=
  if inputs.rateSource = .acked ∨ inputs.disableLoss = false then
    scanRows readFeedback (fun b f =>
      (windowIndex args.windowMs (f.recvTime - inputs.originMs)).bind fun idx =>
      (windowIndex args.windowMs (f.sendTime - inputs.originMs)).map fun sendIdx =>
        b.addAcked idx sendIdx f.sizeBytes) b inputs.packetFeedbackRows
  else .ok b

def baseDelayMs (b : Bins) : Except PyError ℚ :=
  if b.allDelaySamples = [] then .ok 0 else percentile b.allDelaySamples args.baseDelayPercentile

/-- `adjusted`, for every bin, and the bins of more than one sample once more as jitter. -/
def adjustDelays (b : Bins) : Except PyError Bins :=
  (baseDelayMs args b).map fun base =>
    if b.allDelaySamples = [] then b
    else
      let adjusted := b.delay.mapValues fun samples => samples.map fun sample => max 0 (sample - base)
      { b with
        delay := adjusted
        jitter := adjusted.filterMapValues fun samples =>
          if 1 < samples.length then some samples else none }

def bweLoop (b : Bins) : Except PyError Bins :=
  if inputs.rateSource = .bwe then
    scanRows (readTimed "timestamp_ms" "target_bps") (fun b e =>
      (windowIndex args.windowMs (e.1 - inputs.originMs)).map fun idx =>
        { b with bwe := b.bwe.update idx [] (· ++ [(e.2 : ℚ) / 1000]) }) b inputs.bweRows
  else .ok b

def sendLoop (b : Bins) : Except PyError Bins :=
  if inputs.rateSource = .send ∨ inputs.disableLoss = false then
    scanRows (readTimed "send_time_ms" "payload_size") (fun b e =>
      (windowIndex args.windowMs (e.1 - inputs.originMs)).map fun idx =>
        { b with send := b.send.update idx 0 (· + e.2) }) b inputs.sendRows
  else .ok b

/-- The loss of a window, from what was delivered and what was sent in it. -/
def lossPct (deliveredBytes sentBytes : ℤ) : ℚ :=
  min args.maxLossPct (max 0 (1 - (deliveredBytes : ℚ) / sentBytes) * 100)

def lossBins (b : Bins) : Bins :=
  if inputs.disableLoss then b
  else { b with
    loss := b.send.entries.foldl (fun loss e =>
      if e.2 ≤ 0 then loss
      else loss.update e.1 0 fun _ => lossPct args ((b.ackedSend.get? e.1).getD 0) e.2) b.loss }

def freezeLoop (receiver : Option ReceiverLogs) (b : Bins) : Except PyError Bins :=
  match receiver with
  | none => .ok b
  | some receiver =>
    let freezeRows := readRows receiver.videoFreeze
    (columnInts "timestamp_ms" freezeRows).bind fun timestamps =>
      match timestamps.min? with
      | none => .ok b
      | some freezeOrigin =>
        scanRows (readTimed "timestamp_ms" "freeze_duration_ms") (fun b e =>
          (floorDiv (max 0 (e.1 - freezeOrigin + args.receiverTimeOffsetMs)) args.windowMs).map
            fun idx => { b with note := b.note.update idx [] (· ++ [.freeze e.2]) }) b freezeRows

/-- Everything up to the window loop. -/
def collectBins (receiver : Option ReceiverLogs) : Except PyError Bins := do
  let b ← match args.delaySource with
    | .feedback => feedbackLoop args inputs {}
    | .receiverArrival => receiverArrivalDelays args inputs {}
  let b ← ackedLoop args inputs b
  let b ← adjustDelays args b
  let b ← bweLoop args inputs b
  let b ← sendLoop args inputs b
  freezeLoop args receiver (lossBins args inputs b)

variable {args inputs}

/-! Each of the last loops fills one kind of bins and leaves the others as they are. -/

theorem bweLoop_frame {b b' : Bins} (h : bweLoop args inputs b = .ok b') :
    b' = { b with bwe := b'.bwe } := by
  unfold bweLoop at h
  split_ifs at h
  · apply scanRows_preserves (P := fun b' => b' = { b with bwe := b'.bwe }) _ rfl h
    intro mid e b' hmid he
    obtain ⟨idx, _, rfl⟩ := Except.map_eq_ok.mp he
    rw [hmid]
  · cases h
    rfl

theorem sendLoop_frame {b b' : Bins} (h : sendLoop args inputs b = .ok b') :
    b' = { b with send := b'.send } := by
  unfold sendLoop at h
  split_ifs at h
  · apply scanRows_preserves (P := fun b' => b' = { b with send := b'.send }) _ rfl h
    intro mid e b' hmid he
    obtain ⟨idx, _, rfl⟩ := Except.map_eq_ok.mp he
    rw [hmid]
  · cases h
    rfl

theorem lossBins_frame (b : Bins) :
    lossBins args inputs b = { b with loss := (lossBins args inputs b).loss } := by
  unfold lossBins
  split <;> rfl

theorem freezeLoop_frame {receiver : Option ReceiverLogs} {b b' : Bins}
    (h : freezeLoop args receiver b = .ok b') : b' = { b with note := b'.note } := by
  cases receiver with
  | none =>
    cases h
    rfl
  | some receiver =>
    obtain ⟨timestamps, _, h⟩ := Except.bind_eq_ok.mp h
    cases hmin : timestamps.min? with
    | none =>
      simp only [hmin] at h
      cases h
      rfl
    | some freezeOrigin =>
      simp only [hmin] at h
      apply scanRows_preserves (P := fun b' => b' = { b with note := b'.note }) _ rfl h
      intro mid e b' hmid he
      obtain ⟨idx, _, rfl⟩ := Except.map_eq_ok.mp he
      rw [hmid]

/-- The bins after each stage of a run that comes to the window loop. -/
theorem collectBins_stages {receiver : Option ReceiverLogs} {b : Bins}
    (h : collectBins args inputs receiver = .ok b) :
    ∃ b1 b2 b3 b4 b5,
      (args.delaySource = .feedback ∧ feedbackLoop args inputs {} = .ok b1 ∨
        args.delaySource = .receiverArrival ∧ receiverArrivalDelays args inputs {} = .ok b1) ∧
      ackedLoop args inputs b1 = .ok b2 ∧ adjustDelays args b2 = .ok b3 ∧
      bweLoop args inputs b3 = .ok b4 ∧ sendLoop args inputs b4 = .ok b5 ∧
      freezeLoop args receiver (lossBins args inputs b5) = .ok b := by
  cases hmode : args.delaySource <;> rw [collectBins, hmode] at h <;>
    obtain ⟨b1, h1, h⟩ := Except.bind_eq_ok.mp h <;>
    obtain ⟨b2, h2, h⟩ := Except.bind_eq_ok.mp h <;>
    obtain ⟨b3, h3, h⟩ := Except.bind_eq_ok.mp h <;>
    obtain ⟨b4, h4, h⟩ := Except.bind_eq_ok.mp h <;>
    obtain ⟨b5, h5, h6⟩ := Except.bind_eq_ok.mp h
  · exact ⟨b1, b2, b3, b4, b5, .inl ⟨rfl, h1⟩, h2, h3, h4, h5, h6⟩
  · exact ⟨b1, b2, b3, b4, b5, .inr ⟨rfl, h1⟩, h2, h3, h4, h5, h6⟩

end Loops

def maxBin (b : Bins) : ℤ :=
  [b.delay.keys, b.acked.keys, b.ackedSend.keys, b.bwe.keys, b.send.keys, b.jitter.keys,
    b.loss.keys, b.note.keys].foldl (fun m keys => keys.foldl max m) 0

/-! ## The window loop -/

/-- `previous_delay`, `previous_jitter`, `previous_loss`, `previous_rate`. -/
structure Carry where
  previousDelay : ℚ := 0
  previousJitter : ℚ := 0
  previousLoss : ℚ := 0
  previousRate : Option ℚ := none

/-- `state`. -/
structure WindowState where
  delay : ℤ
  jitter : ℤ
  loss : String
  rate : String
  limitPkts : String
  deriving DecidableEq, Repr

section WindowLoop
variable (pstdev : List ℚ → ℚ) (args : Args) (rateSource : RateSource) (b : Bins)

/-- `acked_bins[idx] * 8.0 / window_ms * args.rate_headroom`, and the same for `send_bins`. -/
def byteRate (bytes : ℤ) : ℚ := (bytes : ℚ) * 8 / args.windowMs * args.rateHeadroom

/-- `current_rate` before the minimum is applied. -/
def measuredRate (previousRate : Option ℚ) (idx : ℤ) : Option ℚ :=
  match rateSource with
  | .none => none
  | .acked => (b.acked.get? idx).elim previousRate fun bytes => some (byteRate args bytes)
  | .bwe => (b.bwe.get? idx).elim previousRate fun targets =>
      if targets = [] then previousRate else some (median targets * args.rateHeadroom)
  | .send => (b.send.get? idx).elim previousRate fun bytes => some (byteRate args bytes)
  | .auto => previousRate

def currentRate (previousRate : Option ℚ) (idx : ℤ) : Option ℚ :=
  (measuredRate args rateSource b previousRate idx).map fun rate =>
    if 0 < rate then max (args.minRateKbit : ℚ) rate else rate

/-- One window's update of the carried values. -/
def carryStep (c : Carry) (idx : ℤ) : Carry where
  previousDelay := (b.delay.get? idx).elim c.previousDelay fun samples =>
    if samples = [] then c.previousDelay else median samples
  previousJitter := (b.jitter.get? idx).elim c.previousJitter fun samples =>
    if samples = [] then c.previousJitter else if 1 < samples.length then pstdev samples else 0
  previousLoss := (b.loss.get? idx).getD c.previousLoss
  previousRate := currentRate args rateSource b c.previousRate idx

/-- `f"{q_loss_value:.1f}".rstrip("0").rstrip(".")`. -/
def lossText (value : ℚ) : String :=
  .ofList (Py.rstripWhile (· = '.') (Py.rstripWhile (· = '0') (Py.format1f value).toList))

/-- `state` of a window, from the carried values after its update. -/
def windowState (c : Carry) : WindowState :=
  let qDelay := max 0 (quantize c.previousDelay args.delayQuantumMs)
  let qLossValue := max 0 (quantizeFloat c.previousLoss args.lossQuantumPct)
  let qRate := c.previousRate.elim "" fun rate =>
    if rate ≤ 0 then "" else toString (max 1 (quantize rate args.rateQuantumKbit))
  { delay := qDelay
    jitter := if qDelay ≤ 0 then 0 else max 0 (quantize c.previousJitter args.jitterQuantumMs)
    loss := if qLossValue ≤ 0 then "" else lossText qLossValue
    rate := qRate
    limitPkts := if qRate = "" then "" else toString args.limitPkts }

/-- `note` of a window. -/
def windowNote (idx : ℤ) : String :=
  ";".intercalate (((b.note.get? idx).getD []).map Note.text)

def traceRow (idx : ℤ) (state : WindowState) (note : String) : TraceRow where
  atMs := toString (idx * args.windowMs)
  delayMs := toString state.delay
  jitterMs := toString state.jitter
  lossPct := if state.loss = "" then "0" else state.loss
  rateKbit := state.rate
  limitPkts := state.limitPkts
  note := if note = "" then "baseline" else note

/-- The variables of the window loop. -/
structure WindowLoop where
  carry : Carry := {}
  previousState : Option WindowState := none
  rows : List TraceRow := []

def windowStep (st : WindowLoop) (idx : ℤ) : WindowLoop :=
  let carry := carryStep pstdev args rateSource b st.carry idx
  let state := windowState args carry
  let note := windowNote b idx
  if idx = 0 ∨ some state ≠ st.previousState ∨ note ≠ "" then
    { carry := carry
      previousState := some state
      rows := st.rows ++ [traceRow args idx state note] }
  else { st with carry := carry }

/-- `range(max_bin + 1)`. -/
def windows (last : ℤ) : List ℤ := (List.range (last + 1).toNat).map Int.ofNat

def windowRows (last : ℤ) : List TraceRow :=
  ((windows last).foldl (windowStep pstdev args rateSource b) {}).rows

end WindowLoop

/-- `build_trace` up to the writing of its rows. -/
def buildTrace (pstdev : List ℚ → ℚ) (args : Args) (logs : Logs) : Except PyError (List TraceRow) :=
  (prepare args logs).bind fun inputs =>
  (collectBins args inputs logs.receiver).bind fun b =>
    let rows := windowRows pstdev args inputs.rateSource b (maxBin b)
    if rows = [] then .error (.valueError "trace generation produced no rows") else .ok rows

end WebrtcTrace.TraceTools.Window
