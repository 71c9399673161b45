import WebrtcTrace.CsvLog.AsyncLog

/-! # The log loses, duplicates and reorders nothing it accepts

`Shape` is what every step keeps of the state alone: where the writer's batch can be non-empty, and
what a finished writer implies. Over it the conserved quantity is the sequence
`file ++ unwritten rest of local ++ queue`: a batch is taken only when `local` is empty, so the
exchange moves the queue in front of itself, and one `fputs` moves one row across the first joint.
-/

namespace WebrtcTrace.CsvLog
open Runs
set_option autoImplicit false

variable {ι : Type*} {maxQueueRows : ℕ} {header : Option Line}

/-! ## What a state looks like between steps -/

structure Shape (maxQueueRows : ℕ) (s : AsyncCsvLog) : Prop where
  queue_le : s.queue.length ≤ maxQueueRows
  written_le : ∀ i, s.writer = .writing i → i ≤ s.localRows.length
  batch_nil : (∀ i, s.writer ≠ .writing i) → s.localRows = []
  done_stop : s.writer = .done → s.stop = true
  joined_done : s.destructor = .joined ∨ s.destructor = .finished → s.writer = .done

theorem shape_create : Shape maxQueueRows (.create header) where
  queue_le := Nat.zero_le _
  written_le := by simp [AsyncCsvLog.create]
  batch_nil := fun _ => rfl
  done_stop := by simp [AsyncCsvLog.create]
  joined_done := by simp [AsyncCsvLog.create]

/-- What a mutex section of `WriteLine` can do. -/
theorem writeLine_cases (maxQueueRows : ℕ) (s : AsyncCsvLog) (row : Option Line) (len : ℕ) :
    ((row = none ∨ len = 0) ∧ writeLine maxQueueRows s row len = (.ignored, s)) ∨
    (∃ r, row = some r ∧ len ≠ 0 ∧ maxQueueRows ≤ s.queue.length ∧
      writeLine maxQueueRows s row len = (.dropped, { s with droppedRows := s.droppedRows + 1 })) ∨
    (∃ r, row = some r ∧ len ≠ 0 ∧ s.queue.length < maxQueueRows ∧
      writeLine maxQueueRows s row len = (.enqueued, { s with
        queue := s.queue ++ [r]
        enqueuedRows := s.enqueuedRows + 1
        maxQueueDepth := max s.maxQueueDepth (s.queue.length + 1) })) := by
  cases row with
  | none => exact .inl ⟨.inl rfl, rfl⟩
  | some r =>
    by_cases hl : len = 0
    · exact .inl ⟨.inr hl, by simp [writeLine, hl]⟩
    · by_cases hq : maxQueueRows ≤ s.queue.length
      · exact .inr (.inl ⟨r, rfl, hl, hq, by simp [writeLine, hl, hq]⟩)
      · exact .inr (.inr ⟨r, rfl, hl, Nat.lt_of_not_le hq, by simp [writeLine, hl, hq]⟩)

theorem takeBatch_cases {s t : AsyncCsvLog} (h : takeBatch s = some t) :
    s.writer = .waiting ∧
    ((s.stop = true ∧ s.queue = [] ∧
        t = { s with queue := s.localRows, localRows := s.queue, writer := .done }) ∨
      (¬ (s.stop = true ∧ s.queue = []) ∧
        t = { s with queue := s.localRows, localRows := s.queue, writer := .writing 0 })) := by
  unfold takeBatch at h
  split_ifs at h with hw he
  · exact ⟨hw.1, .inl ⟨he.1, he.2, (Option.some.inj h).symm⟩⟩
  · exact ⟨hw.1, .inr ⟨he, (Option.some.inj h).symm⟩⟩

theorem putRow_cases {s t : AsyncCsvLog} (h : putRow s = some t) :
    ∃ i row, s.writer = .writing i ∧ s.localRows[i]? = some row ∧
      t = { s with file := s.file ++ [row], writer := .writing (i + 1) } := by
  unfold putRow at h
  split at h
  · next i hw =>
    obtain ⟨row, hr, rfl⟩ := Option.map_eq_some_iff.mp h
    exact ⟨i, row, hw, hr, rfl⟩
  · cases h

theorem clearBatch_cases {s t : AsyncCsvLog} (h : clearBatch s = some t) :
    s.writer = .writing s.localRows.length ∧ t = { s with localRows := [], writer := .flushed } := by
  unfold clearBatch at h
  split_ifs at h with hw
  exact ⟨hw, (Option.some.inj h).symm⟩

/-- `MaybeWriteStats` reads the counters and touches nothing the rows pass through. -/
theorem maybeWriteStats_cases {s t : AsyncCsvLog} (h : maybeWriteStats s = some t) :
    s.writer = .flushed ∧ ∃ last stats,
      t = { s with lastStatsRows := last, stats := stats, writer := .waiting } := by
  unfold maybeWriteStats at h
  split_ifs at h with hw hl
  · exact ⟨hw, s.lastStatsRows, s.stats, (Option.some.inj h).symm⟩
  · exact ⟨hw, _, _, (Option.some.inj h).symm⟩

theorem setStop_cases {s t : AsyncCsvLog} (h : setStop s = some t) :
    s.destructor = .notStarted ∧ t = { s with stop := true, destructor := .joining } := by
  unfold setStop at h
  split_ifs at h with hd
  exact ⟨hd, (Option.some.inj h).symm⟩

theorem join_cases {s t : AsyncCsvLog} (h : join s = some t) :
    s.destructor = .joining ∧ s.writer = .done ∧ t = { s with destructor := .joined } := by
  unfold join at h
  split_ifs at h with hd
  exact ⟨hd.1, hd.2, (Option.some.inj h).symm⟩

theorem finalStats_cases {s t : AsyncCsvLog} (h : finalStats s = some t) :
    s.destructor = .joined ∧ ∃ stats, t = { s with stats := stats, destructor := .finished } := by
  unfold finalStats at h
  split_ifs at h with hd
  exact ⟨hd, _, (Option.some.inj h).symm⟩

theorem shape_writeLine {s : AsyncCsvLog} (hs : Shape maxQueueRows s) (row : Option Line) (len : ℕ) :
    Shape maxQueueRows (writeLine maxQueueRows s row len).2 := by
  rcases writeLine_cases maxQueueRows s row len with
    ⟨_, he⟩ | ⟨r, _, _, _, he⟩ | ⟨r, _, _, hq, he⟩ <;> rw [he]
  · exact hs
  · exact ⟨hs.queue_le, hs.written_le, hs.batch_nil, hs.done_stop, hs.joined_done⟩
  · refine ⟨?_, hs.written_le, hs.batch_nil, hs.done_stop, hs.joined_done⟩
    simp only [List.length_append, List.length_singleton]
    omega

theorem Shape.not_joined {s : AsyncCsvLog} (hs : Shape maxQueueRows s) (hw : s.writer ≠ .done) :
    ¬ (s.destructor = .joined ∨ s.destructor = .finished) :=
  fun hd => hw (hs.joined_done hd)

theorem shape_step {s t : AsyncCsvLog} {a : Action ι} (hs : Shape maxQueueRows s)
    (h : next maxQueueRows s a = some t) : Shape maxQueueRows t := by
  cases a with
  | writeLine i row len =>
    cases h
    exact shape_writeLine hs row len
  | takeBatch =>
    obtain ⟨hw, ⟨hst, hq, rfl⟩ | ⟨_, rfl⟩⟩ := takeBatch_cases h
    all_goals
      have hl : s.localRows = [] := hs.batch_nil (by simp [hw])
    · exact ⟨by simp [hl], by simp, fun _ => hq, fun _ => hst, fun _ => rfl⟩
    · refine ⟨by simp [hl], ?_, ?_, by simp, ?_⟩
      · rintro i ⟨⟩
        exact Nat.zero_le _
      · intro hn
        exact absurd rfl (hn 0)
      · exact fun hd => absurd hd (hs.not_joined (by simp [hw]))
  | putRow =>
    obtain ⟨i, row, hw, hr, rfl⟩ := putRow_cases h
    obtain ⟨hi, _⟩ := List.getElem?_eq_some_iff.mp hr
    refine ⟨hs.queue_le, ?_, ?_, by simp, ?_⟩
    · rintro j ⟨⟩
      exact hi
    · intro hn
      exact absurd rfl (hn (i + 1))
    · exact fun hd => absurd hd (hs.not_joined (by simp [hw]))
  | clearBatch =>
    obtain ⟨hw, rfl⟩ := clearBatch_cases h
    refine ⟨hs.queue_le, by simp, fun _ => rfl, by simp, ?_⟩
    exact fun hd => absurd hd (hs.not_joined (by simp [hw]))
  | maybeWriteStats =>
    obtain ⟨hw, _, _, rfl⟩ := maybeWriteStats_cases h
    refine ⟨hs.queue_le, by simp, fun _ => hs.batch_nil (by simp [hw]), by simp, ?_⟩
    exact fun hd => absurd hd (hs.not_joined (by simp [hw]))
  | setStop =>
    obtain ⟨hd, rfl⟩ := setStop_cases h
    exact ⟨hs.queue_le, hs.written_le, hs.batch_nil, fun _ => rfl, by simp⟩
  | join =>
    obtain ⟨_, hw, rfl⟩ := join_cases h
    exact ⟨hs.queue_le, hs.written_le, hs.batch_nil, hs.done_stop, fun _ => hw⟩
  | finalStats =>
    obtain ⟨hd, _, rfl⟩ := finalStats_cases h
    exact ⟨hs.queue_le, hs.written_le, hs.batch_nil, hs.done_stop, fun _ => hs.joined_done (.inl hd)⟩

theorem shape_run {tr : List (AsyncCsvLog × Action ι)} {s : AsyncCsvLog}
    (h : LogRun maxQueueRows header tr s) : Shape maxQueueRows s :=
  h.invariant shape_create fun _ _ _ hs ht => shape_step hs ht

/-! ## The history, one step longer -/

@[simp] theorem accepted_snoc (tr : List (AsyncCsvLog × Action ι)) (e : AsyncCsvLog × Action ι) :
    accepted maxQueueRows (tr ++ [e]) =
      accepted maxQueueRows tr ++ (acceptedRow maxQueueRows e).toList := by
  unfold accepted
  rw [List.filterMap_append]
  cases h : acceptedRow maxQueueRows e <;> simp [h]

@[simp] theorem completedCalls_snoc (tr : List (AsyncCsvLog × Action ι))
    (e : AsyncCsvLog × Action ι) :
    completedCalls (tr ++ [e]) = completedCalls tr + if e.2.nonEmptyWrite then 1 else 0 := by
  simp [completedCalls, List.countP_append, List.countP_singleton]

theorem deepestQueue_snoc (ss : List AsyncCsvLog) (s : AsyncCsvLog) :
    deepestQueue (ss ++ [s]) = max (deepestQueue ss) s.queue.length := by
  simp [deepestQueue, List.foldl_append]

theorem noWriteAfterStop_snoc {tr : List (AsyncCsvLog × Action ι)} {e : AsyncCsvLog × Action ι}
    (h : noWriteAfterStop (tr ++ [e])) :
    noWriteAfterStop tr ∧ (e.1.stop = true → e.2.isWriteLine = false) :=
  ⟨fun e' he' => h e' (by simp [he']), h e (by simp)⟩

/-! ## What a run keeps -/

/-- What a run is accountable for, over its history. -/
structure Ledger (maxQueueRows : ℕ) (header : Option Line) (tr : List (AsyncCsvLog × Action ι))
    (s : AsyncCsvLog) : Prop where
  conserved : s.file ++ s.unwritten ++ s.queue = header.toList ++ accepted maxQueueRows tr
  enqueued : s.enqueuedRows = (accepted maxQueueRows tr).length
  completed : s.enqueuedRows + s.droppedRows = completedCalls tr
  deepest : s.maxQueueDepth = deepestQueue (visited tr s)
  drained : noWriteAfterStop tr → s.writer = .done → s.queue = []

theorem ledger_create :
    Ledger (ι := ι) maxQueueRows header [] (.create header) where
  conserved := by simp [AsyncCsvLog.create, AsyncCsvLog.unwritten, accepted]
  enqueued := rfl
  completed := rfl
  deepest := rfl
  drained := fun _ _ => rfl

theorem Ledger.length_le {tr : List (AsyncCsvLog × Action ι)} {s : AsyncCsvLog}
    (hl : Ledger maxQueueRows header tr s) : s.queue.length ≤ s.maxQueueDepth := by
  rw [hl.deepest, visited, deepestQueue_snoc]
  exact le_max_right _ _

theorem Ledger.deepest_snoc {tr : List (AsyncCsvLog × Action ι)} {s : AsyncCsvLog}
    (hl : Ledger maxQueueRows header tr s) (a : Action ι) (t : AsyncCsvLog) :
    deepestQueue (visited (tr ++ [(s, a)]) t) = max s.maxQueueDepth t.queue.length := by
  rw [visited, List.map_append, deepestQueue_snoc]
  change max (deepestQueue (visited tr s)) _ = _
  rw [hl.deepest]

/-- A step that is not a call of `WriteLine` accepts nothing and completes no call: the ledger only
asks that the row sequence and the counters are as before, and the queue no longer than it was. -/
theorem ledger_internal {tr : List (AsyncCsvLog × Action ι)} {s t : AsyncCsvLog} {a : Action ι}
    (hl : Ledger maxQueueRows header tr s) (ha : a.isWriteLine = false)
    (hrows : t.file ++ t.unwritten ++ t.queue = s.file ++ s.unwritten ++ s.queue)
    (henq : t.enqueuedRows = s.enqueuedRows) (hdrop : t.droppedRows = s.droppedRows)
    (hdepth : t.maxQueueDepth = s.maxQueueDepth) (hlen : t.queue.length ≤ s.queue.length)
    (hdone : t.writer = .done → s.writer = .done ∧ t.queue = s.queue ∨ t.queue = []) :
    Ledger maxQueueRows header (tr ++ [(s, a)]) t := by
  have hacc : acceptedRow maxQueueRows (s, a) = none := by
    cases a <;> first | rfl | cases ha
  have hcall : a.nonEmptyWrite = false := by
    cases a <;> first | rfl | cases ha
  refine ⟨?_, ?_, ?_, ?_, ?_⟩
  · rw [hrows, hl.conserved, accepted_snoc, hacc]
    simp
  · rw [henq, hl.enqueued, accepted_snoc, hacc]
    simp
  · rw [henq, hdrop, hl.completed, completedCalls_snoc, hcall]
    simp
  · rw [hdepth, hl.deepest_snoc, max_eq_left (hlen.trans hl.length_le)]
  · intro hn hd
    obtain ⟨hw, hq⟩ | hq := hdone hd
    · rw [hq]
      exact hl.drained (noWriteAfterStop_snoc hn).1 hw
    · exact hq

theorem ledger_writeLine {tr : List (AsyncCsvLog × Action ι)} {s : AsyncCsvLog}
    (hs : Shape maxQueueRows s) (hl : Ledger maxQueueRows header tr s) (i : ι) (row : Option Line)
    (len : ℕ) :
    Ledger maxQueueRows header (tr ++ [(s, .writeLine i row len)])
      (writeLine maxQueueRows s row len).2 := by
  -- a writer that is done saw `stop_`, so under the promise no row can follow it
  have hpromise : noWriteAfterStop (tr ++ [(s, Action.writeLine i row len)]) →
      s.writer = .done → False := by
    intro hn hd
    have := (noWriteAfterStop_snoc hn).2 (hs.done_stop hd)
    cases this
  rcases writeLine_cases maxQueueRows s row len with
    ⟨hr, he⟩ | ⟨r, rfl, hlen, _, he⟩ | ⟨r, rfl, hlen, _, he⟩
  · have hcall : (Action.writeLine i row len).nonEmptyWrite = false := by
      obtain rfl | rfl := hr <;> simp [Action.nonEmptyWrite]
    rw [he]
    refine ⟨?_, ?_, ?_, ?_, fun hn hd => (hpromise hn hd).elim⟩
    · rw [hl.conserved, accepted_snoc]
      simp [acceptedRow, he]
    · rw [hl.enqueued, accepted_snoc]
      simp [acceptedRow, he]
    · rw [hl.completed, completedCalls_snoc, hcall]
      simp
    · rw [hl.deepest_snoc, max_eq_left hl.length_le]
  · rw [he]
    refine ⟨?_, ?_, ?_, ?_, fun hn hd => (hpromise hn hd).elim⟩
    · rw [accepted_snoc]
      simpa [acceptedRow, he, AsyncCsvLog.unwritten] using hl.conserved
    · rw [accepted_snoc]
      simpa [acceptedRow, he] using hl.enqueued
    · have hc := hl.completed
      rw [completedCalls_snoc]
      simp [Action.nonEmptyWrite, hlen]
      omega
    · rw [hl.deepest_snoc, max_eq_left hl.length_le]
  · rw [he]
    refine ⟨?_, ?_, ?_, ?_, fun hn hd => (hpromise hn hd).elim⟩
    · have hc := hl.conserved
      rw [accepted_snoc]
      simp only [acceptedRow, he, if_true, Option.toList_some]
      rw [← List.append_assoc header.toList, ← hc]
      simp [AsyncCsvLog.unwritten]
    · have hc := hl.enqueued
      rw [accepted_snoc]
      simp [acceptedRow, he, hc]
    · have hc := hl.completed
      rw [completedCalls_snoc]
      simp [Action.nonEmptyWrite, hlen]
      omega
    · rw [hl.deepest_snoc]
      simp

theorem ledger_step {tr : List (AsyncCsvLog × Action ι)} {s t : AsyncCsvLog} {a : Action ι}
    (hs : Shape maxQueueRows s) (hl : Ledger maxQueueRows header tr s)
    (h : next maxQueueRows s a = some t) : Ledger maxQueueRows header (tr ++ [(s, a)]) t := by
  cases a with
  | writeLine i row len =>
    cases h
    exact ledger_writeLine hs hl i row len
  | takeBatch =>
    obtain ⟨hw, ⟨_, hq, rfl⟩ | ⟨_, rfl⟩⟩ := takeBatch_cases h
    all_goals
      have hb : s.localRows = [] := hs.batch_nil (by simp [hw])
    · apply ledger_internal hl rfl <;> simp [AsyncCsvLog.unwritten, hw, hb]
    · apply ledger_internal hl rfl <;> simp [AsyncCsvLog.unwritten, hw, hb]
  | putRow =>
    obtain ⟨i, row, hw, hr, rfl⟩ := putRow_cases h
    obtain ⟨hi, hrow⟩ := List.getElem?_eq_some_iff.mp hr
    have hdrop : s.localRows.drop i = row :: s.localRows.drop (i + 1) := by
      rw [List.drop_eq_getElem_cons hi, hrow]
    apply ledger_internal hl rfl <;> simp [AsyncCsvLog.unwritten, hw, hdrop]
  | clearBatch =>
    obtain ⟨hw, rfl⟩ := clearBatch_cases h
    apply ledger_internal hl rfl <;> simp [AsyncCsvLog.unwritten, hw]
  | maybeWriteStats =>
    obtain ⟨hw, _, _, rfl⟩ := maybeWriteStats_cases h
    apply ledger_internal hl rfl <;> simp [AsyncCsvLog.unwritten, hw]
  | setStop =>
    obtain ⟨_, rfl⟩ := setStop_cases h
    apply ledger_internal hl rfl <;> simp [AsyncCsvLog.unwritten]
    exact fun hd => .inl hd
  | join =>
    obtain ⟨_, hw, rfl⟩ := join_cases h
    apply ledger_internal hl rfl <;> simp [AsyncCsvLog.unwritten, hw]
  | finalStats =>
    obtain ⟨_, _, rfl⟩ := finalStats_cases h
    apply ledger_internal hl rfl <;> simp [AsyncCsvLog.unwritten]
    exact fun hd => .inl hd

theorem ledger_run {tr : List (AsyncCsvLog × Action ι)} {s : AsyncCsvLog}
    (h : LogRun maxQueueRows header tr s) : Ledger maxQueueRows header tr s := by
  have hboth : Shape maxQueueRows s ∧ Ledger maxQueueRows header tr s :=
    h.history (I := fun tr s => Shape maxQueueRows s ∧ Ledger maxQueueRows header tr s)
      ⟨shape_create, ledger_create⟩
      fun _ _ _ _ hi ht => ⟨shape_step hi.1 ht, ledger_step hi.1 hi.2 ht⟩
  exact hboth.2

theorem dropped_when_full {tr : List (AsyncCsvLog × Action ι)} {s : AsyncCsvLog}
    (h : LogRun maxQueueRows header tr s) :
    ∀ e ∈ tr, drops maxQueueRows e → e.1.queue.length = maxQueueRows := by
  refine h.each (P := fun s a => drops maxQueueRows (s, a) → s.queue.length = maxQueueRows)
    (fun hr => shape_run hr) ?_
  rintro s a t hs _ ⟨i, row, len, _, hd⟩
  rcases writeLine_cases maxQueueRows s row len with
    ⟨_, he⟩ | ⟨_, _, _, hq, _⟩ | ⟨_, _, _, _, he⟩
  · rw [he] at hd
    cases hd
  · exact le_antisymm hs.queue_le hq
  · rw [he] at hd
    cases hd

/-- **Nothing accepted is lost, doubled or reordered.** In every run, whatever the interleaving:
what was accepted is what is written, then what the writer still holds, then the queue; the
counters count accepted rows and completed calls; a row is dropped only at a full queue; the
recorded depth is the deepest the queue has been. When no call follows `stop_`, the file is the
header and the accepted rows once the join has returned. -/
theorem accepted_rows_conserved {ι : Type*} (maxQueueRows : ℕ) (header : Option Line)
    (tr : List (AsyncCsvLog × Action ι)) (s : AsyncCsvLog) (h : LogRun maxQueueRows header tr s) :
    s.file ++ s.unwritten ++ s.queue = header.toList ++ accepted maxQueueRows tr ∧
    s.enqueuedRows = (accepted maxQueueRows tr).length ∧
    s.enqueuedRows + s.droppedRows = completedCalls tr ∧
    (∀ e ∈ tr, drops maxQueueRows e → e.1.queue.length = maxQueueRows) ∧
    s.maxQueueDepth = deepestQueue (visited tr s) ∧
    (noWriteAfterStop tr → s.destructor = .joined ∨ s.destructor = .finished →
      s.file = header.toList ++ accepted maxQueueRows tr) := by
  have hl := ledger_run h
  have hs := shape_run h
  refine ⟨hl.conserved, hl.enqueued, hl.completed, dropped_when_full h, hl.deepest, ?_⟩
  intro hn hd
  have hw := hs.joined_done hd
  have hb : s.localRows = [] := hs.batch_nil (by simp [hw])
  have hc := hl.conserved
  rw [hl.drained hn hw] at hc
  simpa [AsyncCsvLog.unwritten, hw, hb] using hc

/-- Two producers, a queue of one row: the second producer's first row is dropped, its later row is
drained after the destructor has set `stop_`. -/
def shutdownActions : List (Action ℕ) :=
  [.writeLine 0 (some "1,a\n") 4, .writeLine 1 (some "2,b\n") 4, .takeBatch, .putRow,
    .writeLine 1 (some "3,c\n") 4, .setStop, .clearBatch, .maybeWriteStats, .takeBatch, .putRow,
    .clearBatch, .maybeWriteStats, .takeBatch, .join]

def shutdownRun : List (AsyncCsvLog × Action ℕ) × AsyncCsvLog :=
  (execute (next 1) (.create (some "id,row\n")) shutdownActions).getD ([], .create none)

theorem accepted_rows_conserved_at_shutdown :
    shutdownRun.2.file = ["id,row\n", "1,a\n", "3,c\n"] ∧ shutdownRun.2.droppedRows = 1 ∧
      shutdownRun.2.file = ["id,row\n"] ++ accepted 1 shutdownRun.1 := by
  have hexec : execute (next 1) (.create (some "id,row\n")) shutdownActions =
      some (shutdownRun.1, shutdownRun.2) := by decide
  have hrun : LogRun 1 (some "id,row\n") shutdownRun.1 shutdownRun.2 := Run.execute hexec
  refine ⟨by decide, by decide, ?_⟩
  exact (accepted_rows_conserved 1 (some "id,row\n") shutdownRun.1 shutdownRun.2 hrun).2.2.2.2.2
    (by unfold noWriteAfterStop; decide) (.inl (by decide))

end WebrtcTrace.CsvLog
