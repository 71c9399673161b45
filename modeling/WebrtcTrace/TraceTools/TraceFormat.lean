import WebrtcTrace.TraceTools.ReplayRun

/-! # The trace format

What the builders guarantee of their rows (`SoundTrace`) and why the replay accepts such rows: the
file is read back row by row, sorting changes nothing, and every row has its command. The one thing
that is not about the rows' values is the length of a field, which the reader limits.
-/

namespace WebrtcTrace.TraceTools
set_option autoImplicit false

/-- `int(row["at_ms"])`, for a row that has one. -/
def TraceRow.time (row : TraceRow) : ℤ := (Py.int row.atMs).getD 0

/-- A text without line breaks. -/
def OneLine (s : String) : Prop := ∀ c ∈ s.toList, Csv.isBreak c = false

instance (s : String) : Decidable (OneLine s) :=
  List.decidableBAll _ s.toList

structure TraceRow.Sound (row : TraceRow) : Prop where
  atMs : Py.int row.atMs = some row.time
  delay : ∃ d j : ℤ, Py.int row.delayMs = some d ∧ Py.int row.jitterMs = some j ∧ 0 ≤ d ∧ 0 ≤ j ∧
    (0 < j → 0 < d)
  loss : ∃ q : ℚ, Py.float row.lossPct = some (.finite q) ∧ 0 ≤ q
  limit : row.limitPkts ≠ "" ↔ row.rateKbit ≠ ""
  line : ∀ field ∈ row.fields, OneLine field

structure SoundTrace (rows : List TraceRow) : Prop where
  sound : ∀ row ∈ rows, row.Sound
  start : rows.head?.map TraceRow.time = some 0
  ordered : rows.Pairwise fun row row' => row.time ≤ row'.time

/-- No field is too long for the reader. -/
def Fits (rows : List TraceRow) : Prop :=
  ∀ row ∈ rows, ∀ field ∈ row.fields, field.length ≤ Replay.fieldSizeLimit

theorem oneLine_append {s t : String} : OneLine (s ++ t) ↔ OneLine s ∧ OneLine t := by
  simp only [OneLine, String.toList_append, List.mem_append]
  exact ⟨fun h => ⟨fun c hc => h c (.inl hc), fun c hc => h c (.inr hc)⟩,
    fun h c hc => hc.elim (h.1 c) (h.2 c)⟩

theorem isBreak_of_isDigit {c : Char} (h : c.isDigit) : Csv.isBreak c = false := by
  rw [Csv.isBreak, Bool.or_eq_false_iff, decide_eq_false_iff_not, decide_eq_false_iff_not]
  constructor
  · rintro rfl
    simp at h
  · rintro rfl
    simp at h

theorem oneLine_natCast (n : ℕ) : OneLine (toString n) :=
  fun c hc => isBreak_of_isDigit (Py.isDigit_toString n c hc)

theorem oneLine_int (n : ℤ) : OneLine (toString n) := by
  intro c hc
  obtain h | rfl := Py.isDigit_or_minus_toString n c hc
  · exact isBreak_of_isDigit h
  · rfl

namespace Replay

/-! ## Reading the file back -/

theorem lookup_toRow {row : TraceRow} {key value : String}
    (h : (key, value) ∈ traceColumns.zip row.fields) : lookup row.toRow key = .ok (some value) := by
  simp only [traceColumns, TraceRow.fields, List.zip_cons_cons, List.zip_nil_left, List.mem_cons,
    Prod.mk.injEq, List.not_mem_nil, or_false] at h
  obtain ⟨rfl, rfl⟩ | ⟨rfl, rfl⟩ | ⟨rfl, rfl⟩ | ⟨rfl, rfl⟩ | ⟨rfl, rfl⟩ | ⟨rfl, rfl⟩ | ⟨rfl, rfl⟩ := h <;>
  simp [lookup, Row.get?, TraceRow.toRow, TraceRow.fields, traceColumns]

theorem rowTime_toRow {row : TraceRow} (h : row.Sound) : rowTime row.toRow = .ok row.time := by
  rw [rowTime, lookup_toRow (by simp [traceColumns, TraceRow.fields] : ("at_ms", row.atMs) ∈ _)]
  simp [toInt, h.atMs, Except.bind]

theorem dictRows_fields (rows : List TraceRow) :
    dictRows (traceColumns :: rows.map TraceRow.fields) = rows.map TraceRow.toRow := by
  have hnonempty : (rows.map TraceRow.fields).filter (· ≠ []) = rows.map TraceRow.fields := by
    rw [List.filter_eq_self]
    intro fields hfields
    obtain ⟨row, _, rfl⟩ := List.mem_map.mp hfields
    simp [TraceRow.fields]
  rw [dictRows, hnonempty, List.map_map]
  refine List.map_congr_left fun row _ => ?_
  simp [dictRow, TraceRow.toRow, TraceRow.fields, traceColumns]

/-- What the reader makes of a written trace, before the fields are looked at. -/
theorem decode_traceFile {rows : List TraceRow} (h : ∀ row ∈ rows, row.Sound) :
    (Fits rows → Csv.decode fieldSizeLimit (traceFile rows) =
        .ok ((traceColumns :: rows.map TraceRow.fields).map (List.map String.toList))) ∧
      (¬ Fits rows → Csv.decode fieldSizeLimit (traceFile rows) = .error .fieldTooLarge) := by
  have hne : ∀ record ∈ (traceColumns :: rows.map TraceRow.fields).map (List.map String.toList),
      record ≠ [] := by
    intro record hrecord
    obtain ⟨fields, hfields, rfl⟩ := List.mem_map.mp hrecord
    obtain rfl | hfields := List.mem_cons.mp hfields
    · simp [traceColumns]
    · obtain ⟨row, _, rfl⟩ := List.mem_map.mp hfields
      simp [TraceRow.fields]
  have hcolumns : ∀ column ∈ traceColumns, OneLine column := by decide +kernel
  have hline : ∀ record ∈ (traceColumns :: rows.map TraceRow.fields).map (List.map String.toList),
      ∀ field ∈ record, ∀ c ∈ field, Csv.isBreak c = false := by
    intro record hrecord field hfield
    obtain ⟨fields, hfields, rfl⟩ := List.mem_map.mp hrecord
    obtain ⟨text, htext, rfl⟩ := List.mem_map.mp hfield
    obtain rfl | hfields := List.mem_cons.mp hfields
    · exact hcolumns text htext
    · obtain ⟨row, hrow, rfl⟩ := List.mem_map.mp hfields
      exact (h row hrow).line text htext
  have hfits : (∀ record ∈ (traceColumns :: rows.map TraceRow.fields).map (List.map String.toList),
      ∀ field ∈ record, field.length ≤ fieldSizeLimit) ↔ Fits rows := by
    simp only [List.map_cons, List.forall_mem_cons, List.forall_mem_map, String.length_toList]
    exact and_iff_right (by decide +kernel)
  rw [traceFile, Csv.decode_encode fieldSizeLimit hne hline]
  exact ⟨fun hf => if_pos (hfits.mpr hf), fun hf => if_neg (mt hfits.mp hf)⟩

theorem readTrace_too_long {rows : List TraceRow} (h : ∀ row ∈ rows, row.Sound) (hlong : ¬ Fits rows)
    (path : String) : readTrace path (traceFile rows) = .error (csvError .fieldTooLarge) := by
  rw [readTrace, readDicts, (decode_traceFile h).2 hlong]
  rfl

theorem sortedByTime_toRow {rows : List TraceRow} (h : SoundTrace rows) :
    sortedByTime (rows.map TraceRow.toRow) = .ok (rows.map TraceRow.toRow) := by
  have hkeys : (rows.map TraceRow.toRow).mapM (fun row => (rowTime row).map fun t => (t, row)) =
      .ok (rows.map fun row => (row.time, row.toRow)) := by
    have hsound := h.sound
    clear h
    induction rows with
    | nil => rfl
    | cons row rows ih =>
      rw [List.map_cons, List.mapM_cons, rowTime_toRow (hsound row List.mem_cons_self),
        ih fun r hr => hsound r (List.mem_cons_of_mem row hr)]
      rfl
  have hsorted : (rows.map fun row => (row.time, row.toRow)).insertionSort
      (fun a b => a.1 ≤ b.1) = rows.map fun row => (row.time, row.toRow) :=
    List.Pairwise.insertionSort_eq (List.pairwise_map.mpr h.ordered)
  rw [sortedByTime, hkeys]
  show Except.ok (((rows.map fun row => (row.time, row.toRow)).insertionSort
    fun a b => a.1 ≤ b.1).map Prod.snd) = _
  rw [hsorted, List.map_map]
  rfl

/-- **A sound trace is accepted**, and its rows stay in their order. -/
theorem readTrace_traceFile {rows : List TraceRow} (h : SoundTrace rows) (hfits : Fits rows)
    (path : String) : readTrace path (traceFile rows) = .ok (rows.map TraceRow.toRow) := by
  have hread : readDicts (traceFile rows) = .ok (rows.map TraceRow.toRow) := by
    have htexts : ((traceColumns :: rows.map TraceRow.fields).map (List.map String.toList)).map
        (List.map String.ofList) = traceColumns :: rows.map TraceRow.fields := by
      simp [List.map_map, Function.comp_def]
    rw [readDicts, (decode_traceFile h.sound).1 hfits]
    show Except.ok (dictRows _) = _
    rw [htexts, dictRows_fields]
  obtain ⟨first, hfirst, hstart⟩ := Option.map_eq_some_iff.mp h.start
  obtain ⟨rest, rfl⟩ := List.head?_eq_some_iff.mp hfirst
  have hmissing : (required.filter fun column => first.toRow.get? column = none) = [] := by
    simp [required, Row.get?, TraceRow.toRow, TraceRow.fields, traceColumns]
  have hsorted := sortedByTime_toRow h
  have htime : rowTime first.toRow = .ok 0 := by
    rw [rowTime_toRow (h.sound first List.mem_cons_self), hstart]
  rw [List.map_cons] at hread hsorted ⊢
  simp only [readTrace, hread, bind, Except.bind, hmissing, ne_eq, not_true_eq_false, if_false,
    hsorted, List.head?_cons, Option.elim_some, htime]
  rfl

/-! ## Commands -/

section Commands
variable (floatText : Py.Float → String) (args : Args)

theorem buildTcCmd_ok {delayMs jitterMs : ℤ} (h : jitterMs ≠ 0 → 0 < delayMs)
    (operation : Operation) (lossPct : Py.Float) (rateKbit limitPkts : String) :
    ∃ cmd, buildTcCmd floatText args operation delayMs jitterMs lossPct rateKbit limitPkts = .ok cmd := by
  have hjitter : ¬ (jitterMs ≠ 0 ∧ delayMs ≤ 0) := fun hbad => (h hbad.1).not_ge hbad.2
  unfold buildTcCmd
  simp only [hjitter, if_false]
  exact ⟨_, rfl⟩

theorem intOrZero_toRow {row : TraceRow} {key value : String} {n : ℤ}
    (hkey : (key, value) ∈ traceColumns.zip row.fields) (h : Py.int value = some n) :
    intOrZero row.toRow key = .ok n := by
  have hvalue : value ≠ "" := by
    rintro rfl
    rw [show Py.int "" = none by decide +kernel] at h
    cases h
  rw [intOrZero, lookup_toRow hkey]
  simp [Except.bind, hvalue, toInt, h]

theorem floatOrZero_toRow {row : TraceRow} {key value : String} {x : Py.Float}
    (hkey : (key, value) ∈ traceColumns.zip row.fields) (h : Py.float value = some x) :
    floatOrZero row.toRow key = .ok x := by
  have hvalue : value ≠ "" := by
    rintro rfl
    rw [show Py.float "" = none by decide +kernel] at h
    cases h
  rw [floatOrZero, lookup_toRow hkey]
  simp [Except.bind, hvalue, h]

theorem stripped_toRow {row : TraceRow} {key value : String}
    (hkey : (key, value) ∈ traceColumns.zip row.fields) :
    stripped row.toRow key = .ok (Py.strip value) := by
  rw [stripped, lookup_toRow hkey]
  rfl

/-- A sound row has a command, for every operation. -/
theorem rowCommand_ok {row : TraceRow} (h : row.Sound) (operation : Operation) :
    ∃ cmd, rowCommand floatText args row.toRow operation = .ok cmd := by
  obtain ⟨d, j, hd, hj, _, hj0, hpos⟩ := h.delay
  obtain ⟨q, hq, _⟩ := h.loss
  have hjitter : j ≠ 0 → 0 < d := fun hne => hpos (lt_of_le_of_ne hj0 hne.symm)
  obtain ⟨cmd, hcmd⟩ := buildTcCmd_ok floatText args hjitter operation (.finite q)
    (Py.strip row.rateKbit) (Py.strip row.limitPkts)
  refine ⟨cmd, ?_⟩
  rw [rowCommand, intOrZero_toRow (by simp [traceColumns, TraceRow.fields]) hd,
    intOrZero_toRow (by simp [traceColumns, TraceRow.fields]) hj,
    floatOrZero_toRow (by simp [traceColumns, TraceRow.fields]) hq,
    stripped_toRow (by simp [traceColumns, TraceRow.fields] : ("rate_kbit", row.rateKbit) ∈ _),
    stripped_toRow (by simp [traceColumns, TraceRow.fields] : ("limit_pkts", row.limitPkts) ∈ _)]
  exact hcmd

/-- Only a failing command can stop the replay of a sound row. -/
theorem playRow_error {row : TraceRow} (h : row.Sound) {run : List (List String) → Except PyError ℤ}
    (hrun : ∀ cmds, ∃ returncode, run cmds = .ok returncode) (issued : List (List String))
    (operation : Operation) (e : PyError)
    (he : (playRow floatText args run issued row.toRow operation).raised = some e) :
    e = .calledProcessError := by
  obtain ⟨cmd, hcmd⟩ := rowCommand_ok floatText args h operation
  obtain ⟨fallback, hfallback⟩ := rowCommand_ok floatText args h .replace
  have hnote : stripped row.toRow "note" = .ok (Py.strip row.note) :=
    stripped_toRow (by simp [traceColumns, TraceRow.fields])
  obtain ⟨first, hfirst⟩ := hrun (issued ++ [cmd])
  obtain ⟨second, hsecond⟩ := hrun (issued ++ [cmd, fallback])
  simp only [playRow, hcmd, hnote, Except.bind, Except.map, hfirst] at he
  by_cases hdone : args.dryRun = true ∨ first = 0
  · obtain hdry | rfl := hdone
    · simp [hdry] at he
    · simp at he
  · obtain ⟨hdry, hcode⟩ := not_or.mp hdone
    simp only [hdry, hcode, if_false] at he
    cases operation with
    | replace => simpa using he.symm
    | change =>
      by_cases hagain : second = 0
      · simp [runFallback, hfallback, hsecond, hagain] at he
      · simpa [runFallback, hfallback, hsecond, hagain] using he.symm

theorem applyRow_error {row : TraceRow} (h : row.Sound) (run : List String → ℕ)
    (operation : Operation) (e : PyError)
    (he : applyRow floatText args run row.toRow operation = .error e) : e = .calledProcessError := by
  have hplay := @playRow_applyRow floatText args run [] row.toRow operation
  rw [he] at hplay
  exact playRow_error floatText args h (fun _ => ⟨_, rfl⟩) [] operation e hplay

end Commands
end Replay
end WebrtcTrace.TraceTools
