import WebrtcTrace.Foundations.Runs
import Mathlib.Data.List.Basic

/-! # `rtc::AsyncCsvLog` (`rtc_base/csv_log.h`)

A bounded queue of rows between any number of producer threads, which call `WriteLine`, and one
writer thread, which takes the whole queue in one exchange and writes it row by row; the destructor
raises `stop_`, wakes the writer and joins it.

Each `std::mutex` section is one step (`writeLine`, `takeBatch`, `setStop`); outside the mutex the
writer takes one step per `fputs` and per statement after the loop. `notify_one` and the wait of
`cv_` only decide when the writer looks at its predicate again, so `takeBatch` is enabled whenever
the predicate holds. The file is the list of strings handed to `fputs`: `fflush` and the buffering
mode do not change it. The log is one whose file was opened; the counters are natural numbers.
-/

namespace WebrtcTrace.CsvLog
open Runs
set_option autoImplicit false

/-- What `fputs` writes for one C string: its characters up to the terminating NUL. -/
abbrev Line := String

/-- One row of `logging_stats.csv`, without its time and file name columns. -/
structure StatsRow where
  enqueuedRows : ℕ
  droppedRows : ℕ
  maxQueueDepth : ℕ
  deriving DecidableEq, Repr

/-- Where the writer thread stands in `WriterLoop`. -/
inductive Writer where
  /-- before the mutex section of the loop body, or inside its wait -/
  | waiting
  /-- in the `for` loop, with this many rows of `local` written -/
  | writing (written : ℕ)
  /-- `local` cleared and the file flushed, before `MaybeWriteStats` -/
  | flushed
  /-- the loop was left and the thread function returned -/
  | done
  deriving DecidableEq, Repr

/-- Where the destructor stands. -/
inductive Destructor where
  | notStarted
  /-- `stop_` is set and the writer notified; inside `writer_.join()` -/
  | joining
  /-- the join returned and the file is closed -/
  | joined
  /-- the final statistics row is written -/
  | finished
  deriving DecidableEq, Repr

structure AsyncCsvLog where
  file : List Line
  queue : List Line
  /-- `local`, the writer thread's own deque -/
  localRows : List Line
  stop : Bool
  lastStatsRows : ℕ
  enqueuedRows : ℕ
  droppedRows : ℕ
  maxQueueDepth : ℕ
  stats : List StatsRow
  writer : Writer
  destructor : Destructor
  deriving DecidableEq, Repr

/-- The constructor on a file that opened: the header, if any, is in the file and the writer runs. -/
def AsyncCsvLog.create (header : Option Line) : AsyncCsvLog where
  file := header.toList
  queue := []
  localRows := []
  stop := false
  lastStatsRows := 0
  enqueuedRows := 0
  droppedRows := 0
  maxQueueDepth := 0
  stats := []
  writer := .waiting
  destructor := .notStarted

/-! ## The producers -/

/-- Which way a call of `WriteLine` went. -/
inductive WriteResult where
  | ignored
  | dropped
  | enqueued
  deriving DecidableEq, Repr

/-- `WriteLine(row, len)`; `none` is the null pointer. The queued string is built from the pointer
alone, `len` is only compared with zero. The compare-exchange loop on `max_queue_depth_` runs under
the mutex, the only place that writes it, and so takes the maximum. -/
def writeLine (maxQueueRows : ℕ) (s : AsyncCsvLog) (row : Option Line) (len : ℕ) :
    WriteResult × AsyncCsvLog :=
  match row with
  | none => (.ignored, s)
  | some row =>
    if len = 0 then (.ignored, s)
    else if s.queue.length ≥ maxQueueRows then
      (.dropped, { s with droppedRows := s.droppedRows + 1 })
    else
      (.enqueued, { s with
        queue := s.queue ++ [row]
        enqueuedRows := s.enqueuedRows + 1
        maxQueueDepth := max s.maxQueueDepth (s.queue.length + 1) })

/-! ## The writer thread -/

/-- The mutex section of `WriterLoop`: the wait's predicate, the exchange and the exit test. -/
def takeBatch (s : AsyncCsvLog) : Option AsyncCsvLog :=
  if s.writer = .waiting ∧ (s.stop = true ∨ s.queue ≠ []) then
    if s.stop = true ∧ s.queue = [] then
      some { s with queue := s.localRows, localRows := s.queue, writer := .done }
    else
      some { s with queue := s.localRows, localRows := s.queue, writer := .writing 0 }
  else none

/-- One turn of the `for` loop. -/
def putRow (s : AsyncCsvLog) : Option AsyncCsvLog :=
  match s.writer with
  | .writing i => s.localRows[i]?.map fun row =>
      { s with file := s.file ++ [row], writer := .writing (i + 1) }
  | _ => none

/-- The end of the `for` loop, `local.clear()` and `fflush`. -/
def clearBatch (s : AsyncCsvLog) : Option AsyncCsvLog :=
  if s.writer = .writing s.localRows.length then
    some { s with localRows := [], writer := .flushed }
  else none

def statsRow (s : AsyncCsvLog) : StatsRow := ⟨s.enqueuedRows, s.droppedRows, s.maxQueueDepth⟩

/-- `MaybeWriteStats`, after which the loop starts over. -/
def maybeWriteStats (s : AsyncCsvLog) : Option AsyncCsvLog :=
  if s.writer = .flushed then
    if s.enqueuedRows - s.lastStatsRows < 1000 then some { s with writer := .waiting }
    else some { s with
      lastStatsRows := s.enqueuedRows
      stats := s.stats ++ [statsRow s]
      writer := .waiting }
  else none

/-! ## The destructor -/

def setStop (s : AsyncCsvLog) : Option AsyncCsvLog :=
  if s.destructor = .notStarted then some { s with stop := true, destructor := .joining } else none

def join (s : AsyncCsvLog) : Option AsyncCsvLog :=
  if s.destructor = .joining ∧ s.writer = .done then some { s with destructor := .joined } else none

def finalStats (s : AsyncCsvLog) : Option AsyncCsvLog :=
  if s.destructor = .joined then
    some { s with stats := s.stats ++ [statsRow s], destructor := .finished }
  else none

/-! ## The system -/

/-- A step of one of the threads; `ι` names the producers, of which there may be any number. -/
inductive Action (ι : Type*) where
  | writeLine (producer : ι) (row : Option Line) (len : ℕ)
  | takeBatch
  | putRow
  | clearBatch
  | maybeWriteStats
  | setStop
  | join
  | finalStats
  deriving DecidableEq, Repr

variable {ι : Type*}

def next (maxQueueRows : ℕ) (s : AsyncCsvLog) : Action ι → Option AsyncCsvLog
  | .writeLine _ row len => some (writeLine maxQueueRows s row len).2
  | .takeBatch => CsvLog.takeBatch s
  | .putRow => CsvLog.putRow s
  | .clearBatch => CsvLog.clearBatch s
  | .maybeWriteStats => CsvLog.maybeWriteStats s
  | .setStop => CsvLog.setStop s
  | .join => CsvLog.join s
  | .finalStats => CsvLog.finalStats s

/-- A run of the log from its construction, in any interleaving of the threads. -/
abbrev LogRun (maxQueueRows : ℕ) (header : Option Line) :
    List (AsyncCsvLog × Action ι) → AsyncCsvLog → Prop :=
  Run (fun s a t => next maxQueueRows s a = some t) (.create header)

/-! ## What the history of a run says -/

/-- The row a step accepted, when the step is a call of `WriteLine` that accepted one. -/
def acceptedRow (maxQueueRows : ℕ) (e : AsyncCsvLog × Action ι) : Option Line :=
  match e.2 with
  | .writeLine _ row len =>
    if (writeLine maxQueueRows e.1 row len).1 = .enqueued then row else none
  | _ => none

/-- The accepted rows, in the order of their mutex sections. -/
def accepted (maxQueueRows : ℕ) (tr : List (AsyncCsvLog × Action ι)) : List Line :=
  tr.filterMap (acceptedRow maxQueueRows)

/-- A call of `WriteLine` with a row of non-zero length. -/
def Action.nonEmptyWrite : Action ι → Bool
  | .writeLine _ row len => row.isSome && len != 0
  | _ => false

def completedCalls (tr : List (AsyncCsvLog × Action ι)) : ℕ :=
  tr.countP fun e => e.2.nonEmptyWrite

def Action.isWriteLine : Action ι → Bool
  | .writeLine .. => true
  | _ => false

/-- Whether this step dropped a row. -/
def drops (maxQueueRows : ℕ) (e : AsyncCsvLog × Action ι) : Prop :=
  ∃ i row len, e.2 = .writeLine i row len ∧ (writeLine maxQueueRows e.1 row len).1 = .dropped

/-- No call of `WriteLine` comes after `stop_` is set. -/
def noWriteAfterStop (tr : List (AsyncCsvLog × Action ι)) : Prop :=
  ∀ e ∈ tr, e.1.stop = true → e.2.isWriteLine = false

/-- The rows of `local` that the `for` loop has not written yet. -/
def AsyncCsvLog.unwritten (s : AsyncCsvLog) : List Line :=
  match s.writer with
  | .writing i => s.localRows.drop i
  | _ => s.localRows

/-- The largest length the queue had in these states. -/
def deepestQueue (ss : List AsyncCsvLog) : ℕ := ss.foldl (fun d s => max d s.queue.length) 0

end WebrtcTrace.CsvLog
