import WebrtcTrace.CsvLog.Conservation
import WebrtcTrace.Foundations.CsvLines
import WebrtcTrace.Packets.PacketBuffer
import WebrtcTrace.Rtp.RtpSenderEgress
import WebrtcTrace.TraceTools.Matching
import WebrtcTrace.TraceTools.Replay

/-! # The logs as the tools read them

`rtp_send.csv` and `packet_buffer_inserts.csv` are printed with `snprintf`, number by number, and read
with `csv.DictReader`. Such a file is read as the dictionaries of its rows (`readDicts_numbers`), and the
columns the matching needs are the numbers that were printed (`readSender_row`, `readReceiver_row`).
-/

namespace WebrtcTrace.TraceTools
open CsvLog
set_option autoImplicit false

/-! ## Printing -/

/-- A row of numbers, as `snprintf` prints it. -/
def numberLine (fields : List ℤ) : Line := ",".intercalate (fields.map toString) ++ "\n"

def headerLine (columns : List String) : Line := ",".intercalate columns ++ "\n"

def sendColumns : List String :=
  ["send_time_ms", "ssrc", "seq_num", "rtp_timestamp", "marker", "payload_size", "is_audio", "packet_type"]

/-- The header `CompleteSendPacket` opens `rtp_send.csv` with. -/
def rtpSendHeader : Line :=
  "send_time_ms,ssrc,seq_num,rtp_timestamp,marker,payload_size,is_audio,packet_type\n"

def sendFields (row : Rtp.RtpSendRow) : List ℤ :=
  [row.sendTimeMs, row.ssrc.toNat, row.seqNum.toNat, row.rtpTimestamp.toNat, row.marker.toNat,
    row.payloadSize, row.isAudio.toNat, row.packetType.code]

def sendLine (row : Rtp.RtpSendRow) : Line := numberLine (sendFields row)

def insertColumns : List String :=
  ["timestamp_ms", "ssrc", "seq_num", "rtp_timestamp", "marker", "payload_size", "missing_count",
    "smallest_missing"]

/-- The header of `PacketBufferInsertLog`. -/
def packetInsertHeader : Line :=
  "timestamp_ms,ssrc,seq_num,rtp_timestamp,marker,payload_size,missing_count,smallest_missing\n"

/-- A row of `packet_buffer_inserts.csv`, with the time it was written at. -/
structure InsertedPacket where
  timestampMs : ℤ
  ssrc : UInt32
  seqNum : UInt16
  rtpTimestamp : UInt32
  marker : Bool
  payloadSize : ℕ
  missingCount : ℕ
  smallestMissing : ℤ
  deriving DecidableEq, Repr

/-- The rows of the packet buffer's own model that go to this file. -/
def InsertedPacket.ofLogRow (timestampMs : ℤ) : Packets.LogRow → Option InsertedPacket
  | .insert ssrc seqNum rtpTimestamp marker payloadSize missingCount smallestMissing =>
    some ⟨timestampMs, ssrc, seqNum, rtpTimestamp, marker, payloadSize, missingCount, smallestMissing⟩
  | _ => none

def insertFields (row : InsertedPacket) : List ℤ :=
  [row.timestampMs, row.ssrc.toNat, row.seqNum.toNat, row.rtpTimestamp.toNat, row.marker.toNat,
    row.payloadSize, row.missingCount, row.smallestMissing]

def insertLine (row : InsertedPacket) : Line := numberLine (insertFields row)

example : rtpSendHeader = headerLine sendColumns := by decide +kernel

/-- The text of a file. -/
def fileText (file : List Line) : Csv.Text := file.flatMap String.toList

/-- What `csv.DictReader` makes of a row of numbers. -/
def numberRow (columns : List String) (fields : List ℤ) : Row :=
  columns.zip (fields.map fun n => some (toString n))

/-! ## Reading a file of numbers -/

theorem toList_intercalate (fields : List String) :
    (",".intercalate fields).toList = Csv.joinPlain (fields.map String.toList) := by
  induction fields with
  | nil => rfl
  | cons field fields ih =>
    cases fields with
    | nil => rw [String.intercalate_singleton]; rfl
    | cons next fields =>
      rw [String.intercalate_cons_cons, String.toList_append, String.toList_append, ih,
        List.append_assoc]
      rfl

theorem toList_headerLine (columns : List String) :
    (headerLine columns).toList = Csv.line (columns.map String.toList) := by
  rw [headerLine, String.toList_append, toList_intercalate]
  rfl

theorem toList_numberLine (fields : List ℤ) :
    (numberLine fields).toList = Csv.line (fields.map fun n => (toString n).toList) := by
  rw [numberLine, String.toList_append, toList_intercalate, List.map_map]
  rfl

/-- Column names without commas, quotes and line breaks, and not too long. -/
def PlainColumns (columns : List String) : Prop :=
  2 ≤ columns.length ∧ ∀ column ∈ columns, Csv.Plain column.toList ∧
    column.length ≤ Replay.fieldSizeLimit

instance (columns : List String) : Decidable (PlainColumns columns) := by
  unfold PlainColumns Csv.Plain
  infer_instance

theorem length_toString_le {n : ℤ} {k : ℕ} (hk : 0 < k) (h : n.natAbs < 10 ^ k) :
    (toString n).length ≤ k + 1 := by
  cases n with
  | ofNat n =>
    have hrepr : (toString (Int.ofNat n)).length ≤ k := (Nat.length_repr_le_iff hk).mpr h
    omega
  | negSucc n =>
    have hrepr : (toString (n + 1)).length ≤ k := (Nat.length_repr_le_iff hk).mpr h
    rw [show toString (Int.negSucc n) = "-" ++ toString (n + 1) from rfl, String.length_append]
    have hsign : "-".length = 1 := by decide +kernel
    omega

theorem length_toString_natCast {n k : ℕ} (hk : 0 < k) (h : n < 10 ^ k) :
    (toString (n : ℤ)).length ≤ k := (Nat.length_repr_le_iff hk).mpr h

/-- A file of numbers, with as many in a row as there are columns. -/
theorem readDicts_numbers {columns : List String} (hcolumns : PlainColumns columns)
    {rows : List (List ℤ)} (hlength : ∀ fields ∈ rows, fields.length = columns.length)
    (hfits : ∀ fields ∈ rows, ∀ n ∈ fields, (toString n).length ≤ Replay.fieldSizeLimit) :
    Replay.readDicts (fileText (headerLine columns :: rows.map numberLine)) =
      .ok (rows.map (numberRow columns)) := by
  have htext : fileText (headerLine columns :: rows.map numberLine) =
      (columns.map String.toList ::
        rows.map fun fields => fields.map fun n => (toString n).toList).flatMap Csv.line := by
    simp only [fileText, List.flatMap_cons, toList_headerLine, List.flatMap_map, toList_numberLine]
  have htwo : ∀ record ∈ columns.map String.toList ::
      rows.map (fun fields => fields.map fun n => (toString n).toList), 2 ≤ record.length := by
    simp only [List.forall_mem_cons, List.forall_mem_map, List.length_map]
    exact ⟨hcolumns.1, fun fields hfields => hlength fields hfields ▸ hcolumns.1⟩
  have hdecode := @Csv.decode_lines Replay.fieldSizeLimit
    (columns.map String.toList :: rows.map fun fields => fields.map fun n => (toString n).toList)
    (fun record hrecord => by
      have hlong := htwo record hrecord
      constructor <;> rintro rfl <;> simp at hlong)
    (by
      simp only [List.forall_mem_cons, List.forall_mem_map]
      exact ⟨fun column hcolumn => (hcolumns.2 column hcolumn).1, fun fields _ n _ => Csv.plain_int n⟩)
    (by
      simp only [List.forall_mem_cons, List.forall_mem_map, String.length_toList]
      exact ⟨fun column hcolumn => (hcolumns.2 column hcolumn).2, hfits⟩)
  have hrecords : (columns.map String.toList ::
      rows.map fun fields => fields.map fun n => (toString n).toList).map (List.map String.ofList) =
        columns :: rows.map fun fields => fields.map toString := by
    simp [Function.comp_def]
  have hnonempty : (rows.map fun fields => fields.map toString).filter (· ≠ []) =
      rows.map fun fields : List ℤ => fields.map toString := by
    rw [List.filter_eq_self]
    simp only [List.forall_mem_map, decide_eq_true_eq]
    intro fields hfields hnil
    have hlong := hlength fields hfields ▸ hcolumns.1
    rw [List.map_eq_nil_iff.mp hnil] at hlong
    simp at hlong
  rw [Replay.readDicts, htext, hdecode]
  show Except.ok (Replay.dictRows (List.map (List.map String.ofList) _)) = _
  rw [hrecords, Replay.dictRows, hnonempty, List.map_map]
  refine congrArg Except.ok (List.map_congr_left fun fields hfields => ?_)
  simp [Replay.dictRow, numberRow, hlength fields hfields, Function.comp_def]

/-! ## Reading a column -/

theorem text_number {row : Row} {key : String} {n : ℤ} (h : row.get? key = some (some (toString n))) :
    row.text key = .ok (toString n) := by
  simp only [Row.text, h, Py.strip_toString]

theorem asInt_number {row : Row} {key : String} {n : ℤ}
    (h : row.get? key = some (some (toString n))) : asInt row key = .ok (some n) := by
  have hint : intOfFloat (toString n) = .ok n := by
    rw [intOfFloat, Py.float_toString_int]
    simp [Py.trunc]
  rw [asInt, text_number h]
  show (if toString n = "" then Except.ok none else (intOfFloat (toString n)).map some) = _
  rw [if_neg (Py.toString_ne_empty n), hint]
  rfl

/-! ## Reading a row -/

/-- The row the reader makes of a sent packet. -/
def sendRow (row : Rtp.RtpSendRow) : Row := numberRow sendColumns (sendFields row)

def insertedRow (row : InsertedPacket) : Row := numberRow insertColumns (insertFields row)

/-- What the tools make of a logged video packet. -/
def senderPacket (row : Rtp.RtpSendRow) : SenderPacket where
  seqNum := row.seqNum.toNat
  sendTimeMs := row.sendTimeMs
  rtpTimestamp := orMinusOne (some row.rtpTimestamp.toNat)
  ssrc := some row.ssrc.toNat

def receiverPacket (row : InsertedPacket) : ReceiverPacket where
  seqNum := row.seqNum.toNat
  recvTimeMs := row.timestampMs
  ssrc := some row.ssrc.toNat
  rtpTimestamp := some row.rtpTimestamp.toNat

/-- The tools keep the video packets of a video stream. -/
def isVideo (row : Rtp.RtpSendRow) : Bool := !row.isAudio && row.packetType = .video

theorem isVideoSendRow_row (row : Rtp.RtpSendRow) :
    isVideoSendRow (sendRow row) = .ok (isVideo row) := by
  have haudio : (sendRow row).get? "is_audio" = some (some (toString (row.isAudio.toNat : ℤ))) := by
    simp [Row.get?, sendRow, numberRow, sendColumns, sendFields]
  have htype : (sendRow row).get? "packet_type" =
      some (some (toString (row.packetType.code : ℤ))) := by
    simp [Row.get?, sendRow, numberRow, sendColumns, sendFields]
  rw [isVideoSendRow, haudio, text_number htype, isVideo]
  cases row.isAudio <;> cases row.packetType <;> decide +kernel

theorem readSender_row (ssrcFirst : Bool) (row : Rtp.RtpSendRow) :
    readSender ssrcFirst (sendRow row) = .ok (if isVideo row then some (senderPacket row) else none) := by
  have hnumber : ∀ key n, (sendRow row).get? key = some (some (toString n)) →
      asInt (sendRow row) key = .ok (some n) := fun key n h => asInt_number h
  have hseq := hnumber "seq_num" row.seqNum.toNat
    (by simp [Row.get?, sendRow, numberRow, sendColumns, sendFields])
  have htime := hnumber "send_time_ms" row.sendTimeMs
    (by simp [Row.get?, sendRow, numberRow, sendColumns, sendFields])
  have hssrc := hnumber "ssrc" row.ssrc.toNat
    (by simp [Row.get?, sendRow, numberRow, sendColumns, sendFields])
  have hrtp := hnumber "rtp_timestamp" row.rtpTimestamp.toNat
    (by simp [Row.get?, sendRow, numberRow, sendColumns, sendFields])
  rw [readSender, isVideoSendRow_row, hseq, htime, hssrc, hrtp]
  cases isVideo row <;> cases ssrcFirst <;> rfl

theorem readReceiver_row (row : InsertedPacket) :
    readReceiver (insertedRow row) = .ok (some (receiverPacket row)) := by
  have hnumber : ∀ key n, (insertedRow row).get? key = some (some (toString n)) →
      asInt (insertedRow row) key = .ok (some n) := fun key n h => asInt_number h
  have hseq := hnumber "seq_num" row.seqNum.toNat
    (by simp [Row.get?, insertedRow, numberRow, insertColumns, insertFields])
  have htime := hnumber "timestamp_ms" row.timestampMs
    (by simp [Row.get?, insertedRow, numberRow, insertColumns, insertFields])
  have hssrc := hnumber "ssrc" row.ssrc.toNat
    (by simp [Row.get?, insertedRow, numberRow, insertColumns, insertFields])
  have hrtp := hnumber "rtp_timestamp" row.rtpTimestamp.toNat
    (by simp [Row.get?, insertedRow, numberRow, insertColumns, insertFields])
  rw [readReceiver, hseq, htime, hssrc, hrtp]
  rfl

end WebrtcTrace.TraceTools
