import WebrtcTrace.TraceTools.Replayable
import WebrtcTrace.TraceTools.ReplayRun

/-! # From the logs to the interface

The window tool and the replay, one after the other: the trace is written, read back and played. Whenever
the rows that are due have been played, the last command issued sets the state of the current window; the
loop of the replay is followed here to its last row only (`playRows_last`), the rest is the coding of the
windows as changes.
-/

namespace WebrtcTrace.TraceTools

namespace Replay
set_option autoImplicit false

section Playing
variable {floatText : Py.Float → String} {args : Args} {run : List (List String) → Except PyError ℤ}
  {sleepUntil : ℤ → Except PyError Unit} {updateMode : Operation} {issued : List (List String)}
  {row : Row} {rows : List Row} {operation : Operation} {index : ℕ}

/-- The command of a row, in one of its two forms, is the last one issued. -/
def EndsWith (floatText : Py.Float → String) (args : Args) (row : Row) (played : Progress) : Prop :=
  ∃ operation cmd, rowCommand floatText args row operation = .ok cmd ∧
    played.issued.getLast? = some cmd

theorem runFallback_last (h : (runFallback floatText args run issued row).raised = none) :
    EndsWith floatText args row (runFallback floatText args run issued row) := by
  unfold runFallback at h ⊢
  cases hcmd : rowCommand floatText args row .replace with
  | error e =>
    rw [hcmd] at h
    cases h
  | ok fallback =>
    rw [hcmd] at h
    dsimp only at h ⊢
    cases hrun : run (issued ++ [fallback]) with
    | error e =>
      rw [hrun] at h
      cases h
    | ok returncode => exact ⟨.replace, fallback, hcmd, List.getLast?_concat⟩

theorem playRow_last (h : (playRow floatText args run issued row operation).raised = none) :
    EndsWith floatText args row (playRow floatText args run issued row operation) := by
  unfold playRow at h ⊢
  cases hcmd : rowCommand floatText args row operation with
  | error e =>
    rw [hcmd] at h
    cases h
  | ok cmd =>
    rw [hcmd] at h
    cases hnote : stripped row "note" with
    | error e =>
      rw [hnote] at h
      cases h
    | ok note =>
      rw [hnote] at h
      simp only [Except.bind, Except.map] at h ⊢
      have hlast : EndsWith floatText args row { issued := issued ++ [cmd] } :=
        ⟨operation, cmd, hcmd, List.getLast?_concat⟩
      split_ifs at h ⊢ with hdry
      · exact hlast
      · cases hrun : run (issued ++ [cmd]) with
        | error e =>
          rw [hrun] at h
          cases h
        | ok returncode =>
          rw [hrun] at h
          dsimp only at h ⊢
          split_ifs at h ⊢ with hcode
          · exact hlast
          · cases operation with
            | replace => cases h
            | change => exact runFallback_last h

theorem playNext_last
    (h : (playNext floatText args run sleepUntil updateMode index row issued).raised = none) :
    EndsWith floatText args row (playNext floatText args run sleepUntil updateMode index row issued) := by
  unfold playNext at h ⊢
  cases hsleep : (rowTime row).bind sleepUntil with
  | error e =>
    rw [hsleep] at h
    cases h
  | ok _ =>
    rw [hsleep] at h
    exact playRow_last h

/-- When no row has raised, the last command issued is one of the last row. -/
theorem playRows_last (rows : List Row) (row : Row) : ∀ (index : ℕ) (issued : List (List String)),
    (playRows floatText args run sleepUntil updateMode index (rows ++ [row]) issued).raised = none →
      EndsWith floatText args row
        (playRows floatText args run sleepUntil updateMode index (rows ++ [row]) issued) := by
  induction rows with
  | nil =>
    intro index issued h
    rw [List.nil_append, playRows_cons] at h ⊢
    split_ifs at h ⊢ with hraised
    · exact playNext_last h
    · exact playNext_last (Option.not_isSome_iff_eq_none.mp hraised)
  | cons first rows ih =>
    intro index issued h
    rw [List.cons_append, playRows_cons] at h ⊢
    split_ifs at h ⊢ with hraised
    · rw [h] at hraised
      cases hraised
    · exact ih _ _ h

/-- If no row raises, none of the first ones does. -/
theorem playRows_front (done rest : List Row) : ∀ (index : ℕ) (issued : List (List String)),
    (playRows floatText args run sleepUntil updateMode index (done ++ rest) issued).raised = none →
      (playRows floatText args run sleepUntil updateMode index done issued).raised = none := by
  induction done with
  | nil => exact fun _ _ _ => rfl
  | cons row done ih =>
    intro index issued h
    rw [List.cons_append, playRows_cons] at h
    rw [playRows_cons]
    split_ifs at h ⊢ with hraised
    · exact h
    · exact ih _ _ h

/-- Rows with a command raise nothing while the waits and the commands succeed. -/
theorem playRows_succeeds (hrun : ∀ cmds, run cmds = .ok 0) (hsleep : ∀ t, sleepUntil t = .ok ())
    (rows : List Row) (hrows : ∀ row ∈ rows, (∃ t, rowTime row = .ok t) ∧
      (∃ note, stripped row "note" = .ok note) ∧
      ∀ operation, ∃ cmd, rowCommand floatText args row operation = .ok cmd) :
    ∀ (index : ℕ) (issued : List (List String)),
      (playRows floatText args run sleepUntil updateMode index rows issued).raised = none := by
  induction rows with
  | nil => exact fun index issued => rfl
  | cons row rows ih =>
    intro index issued
    obtain ⟨⟨⟨t, ht⟩, ⟨note, hnote⟩, hcommand⟩, hrest⟩ := List.forall_mem_cons.mp hrows
    obtain ⟨cmd, hcmd⟩ := hcommand (if index = 0 then .replace else updateMode)
    have hnext : (playNext floatText args run sleepUntil updateMode index row issued).raised = none := by
      simp [playNext, ht, Except.bind, hsleep, playRow, hcmd, hnote, Except.map, hrun]
    rw [playRows_cons, hnext]
    exact ih hrest _ _

end Playing
end Replay

namespace Window
set_option autoImplicit false

/-! ## The command of a window -/

/-- The command that sets the state of a window. -/
def stateCommand (floatText : Py.Float → String) (args : Replay.Args) (operation : Replay.Operation)
    (state : WindowState) : Except PyError (List String) :=
  Replay.buildTcCmd floatText args operation state.delay state.jitter
    ((Py.float (if state.loss = "" then "0" else state.loss)).getD .nan) state.rate state.limitPkts

theorem strip_rate (args : Args) (c : Carry) :
    Py.strip (windowState args c).rate = (windowState args c).rate ∧
      Py.strip (windowState args c).limitPkts = (windowState args c).limitPkts := by
  have hempty : Py.strip "" = "" := by decide +kernel
  have hrate : Py.strip (windowState args c).rate = (windowState args c).rate := by
    unfold windowState
    dsimp only
    cases c.previousRate with
    | none => exact hempty
    | some rate =>
      rw [Option.elim_some]
      split_ifs
      · exact hempty
      · exact Py.strip_toString _
  refine ⟨hrate, ?_⟩
  have hlimit : (windowState args c).limitPkts =
      if (windowState args c).rate = "" then "" else toString args.limitPkts := rfl
  rw [hlimit]
  split_ifs
  · exact hempty
  · exact Py.strip_toString _

/-- The replay turns the row of a window into the command of its state. -/
theorem rowCommand_rowOf (pstdev : List ℚ → ℚ) {args : Args} (rateSource : RateSource) (b : Bins)
    (hw : 1 ≤ args.windowMs) (floatText : Py.Float → String) (rargs : Replay.Args)
    (operation : Replay.Operation) (e : ℕ × WindowState)
    (he : e.2 = stateAt pstdev args rateSource b e.1) :
    Replay.rowCommand floatText rargs (rowOf args b e).toRow operation =
      stateCommand floatText rargs operation e.2 := by
  obtain ⟨idx, state⟩ := e
  change state = stateAt pstdev args rateSource b idx at he
  subst he
  have hsound := (rowOf_sound pstdev rateSource b hw
    (e := (idx, stateAt pstdev args rateSource b idx)) rfl).1
  have hshows : Shows (rowOf args b (idx, stateAt pstdev args rateSource b idx))
    (stateAt pstdev args rateSource b idx) := shows_traceRow args idx _ _
  obtain ⟨q, hq, _⟩ := hsound.loss
  obtain ⟨hrate, hlimit⟩ := strip_rate args (carriedAfter pstdev args rateSource b (idx + 1))
  rw [Replay.rowCommand,
    Replay.intOrZero_toRow (by simp [traceColumns, TraceRow.fields]) hshows.delay,
    Replay.intOrZero_toRow (by simp [traceColumns, TraceRow.fields]) hshows.jitter,
    Replay.floatOrZero_toRow (by simp [traceColumns, TraceRow.fields]) hq,
    Replay.stripped_toRow (by simp [traceColumns, TraceRow.fields] :
      ("rate_kbit", (rowOf args b (idx, stateAt pstdev args rateSource b idx)).rateKbit) ∈ _),
    Replay.stripped_toRow (by simp [traceColumns, TraceRow.fields] :
      ("limit_pkts", (rowOf args b (idx, stateAt pstdev args rateSource b idx)).limitPkts) ∈ _),
    hshows.rate, hshows.limitPkts]
  rw [hshows.loss] at hq
  rw [stateCommand, hq, Option.getD_some]
  simp only [stateAt, hrate, hlimit]
  rfl

/-! ## The rows that are due -/

/-- The time of a row as the replay reads it. -/
def TimeIs (row : Row) (P : ℤ → Prop) : Prop := ∃ t, Replay.rowTime row = .ok t ∧ P t

/-- The rows of a trace, split at the time of a window. The last of those due has the window's state. -/
theorem changes_due (pstdev : List ℚ → ℚ) {args : Args} (rateSource : RateSource) (b : Bins)
    (hw : 1 ≤ args.windowMs) {n idx : ℕ} (hidx : idx < n) :
    ∃ due e later,
      (changes pstdev args rateSource b n).entries.map (fun e => (rowOf args b e).toRow) =
        (due ++ [(rowOf args b e).toRow]) ++ later ∧
      e.2 = stateAt pstdev args rateSource b e.1 ∧ e.2 = stateAt pstdev args rateSource b idx ∧
      (∀ row ∈ due ++ [(rowOf args b e).toRow], TimeIs row (· ≤ idx * args.windowMs)) ∧
      ∀ row ∈ later, TimeIs row (idx * args.windowMs < ·) := by
  have htracks : ChangeLog.Tracks (stateAt pstdev args rateSource b) (Forced b) n
    (changes pstdev args rateSource b n) := ChangeLog.tracks_upTo n
  obtain ⟨j, hj, hlookup, hmem⟩ :=
    @ChangeLog.lookup_upTo _ _ (stateAt pstdev args rateSource b) (Forced b) _ _ _ hidx
  obtain ⟨due, hdue⟩ := List.getLast?_eq_some_iff.mp hlookup
  have hdue : (changes pstdev args rateSource b n).entries.filter (fun e => e.1 ≤ idx) =
    due ++ [(j, stateAt pstdev args rateSource b idx)] := hdue
  have htime : ∀ e ∈ (changes pstdev args rateSource b n).entries,
      Replay.rowTime (rowOf args b e).toRow = .ok (e.1 * args.windowMs) := by
    intro e he
    obtain ⟨hsound, hvalue⟩ := rowOf_sound pstdev rateSource b hw (htracks.below e he).2
    rw [Replay.rowTime_toRow hsound, hvalue]
  have hpos : 0 < args.windowMs := by omega
  refine ⟨due.map fun e => (rowOf args b e).toRow, (j, stateAt pstdev args rateSource b idx),
    ((changes pstdev args rateSource b n).entries.filter fun e => idx < e.1).map fun e =>
      (rowOf args b e).toRow, ?_, (htracks.below _ hmem).2, rfl, fun row hrow => ?_, fun row hrow => ?_⟩
  · have hsplit := htracks.entries_split idx
    rw [hdue] at hsplit
    conv_lhs => rw [hsplit]
    simp
  · have hfilter : row ∈ (due ++ [(j, stateAt pstdev args rateSource b idx)]).map fun e =>
        (rowOf args b e).toRow := by simpa using hrow
    rw [← hdue] at hfilter
    obtain ⟨e, he, rfl⟩ := List.mem_map.mp hfilter
    obtain ⟨hentry, hle⟩ := List.mem_filter.mp he
    refine ⟨_, htime e hentry, ?_⟩
    exact Int.mul_le_mul_of_nonneg_right (Int.ofNat_le.mpr (of_decide_eq_true hle)) hpos.le
  · obtain ⟨e, he, rfl⟩ := List.mem_map.mp hrow
    obtain ⟨hentry, hlt⟩ := List.mem_filter.mp he
    refine ⟨_, htime e hentry, ?_⟩
    exact Int.mul_lt_mul_of_pos_right (Int.ofNat_lt.mpr (of_decide_eq_true hlt)) hpos

/-- **The replay shows the interface the windows of the logs.** With windows of at least 1 ms, a trace
built from logs in which no field is too long for the reader (`Fits`) is read back, and playing it raises
nothing of its own. For every window: the rows that are due at its start come first, and if they are played
without an exception the last command issued is the one that sets the delay, jitter, loss and rate of this
window. -/
theorem replay_follows_windows {pstdev : List ℚ → ℚ} {args : Args} {logs : Logs} {rows : List TraceRow}
    (hw : 1 ≤ args.windowMs) (h : buildTrace pstdev args logs = .ok rows) (hfits : Fits rows)
    (path : String) :
    ∃ inputs b played, prepare args logs = .ok inputs ∧
      collectBins args inputs logs.receiver = .ok b ∧
      Replay.readTrace path (traceFile rows) = .ok played ∧
      ∀ (floatText : Py.Float → String) (rargs : Replay.Args)
        (run : List (List String) → Except PyError ℤ) (sleepUntil : ℤ → Except PyError Unit)
        (updateMode : Replay.Operation),
        ((∀ cmds, run cmds = .ok 0) → (∀ t, sleepUntil t = .ok ()) →
          (Replay.playRows floatText rargs run sleepUntil updateMode 0 played []).raised = none) ∧
        ∀ idx : ℕ, (idx : ℤ) ≤ maxBin b → ∃ due later, played = due ++ later ∧
          (∀ row ∈ due, TimeIs row (· ≤ idx * args.windowMs)) ∧
          (∀ row ∈ later, TimeIs row (idx * args.windowMs < ·)) ∧
          ((Replay.playRows floatText rargs run sleepUntil updateMode 0 due []).raised = none →
            ∃ operation cmd,
              (Replay.playRows floatText rargs run sleepUntil updateMode 0 due []).issued.getLast? =
                some cmd ∧
              stateCommand floatText rargs operation
                (stateAt pstdev args inputs.rateSource b idx) = .ok cmd) := by
  obtain ⟨hsound, _⟩ := buildTrace_sound hw h
  obtain ⟨inputs, hinputs, h⟩ := Except.bind_eq_ok.mp h
  obtain ⟨b, hb, h⟩ := Except.bind_eq_ok.mp h
  dsimp only at h
  split_ifs at h
  cases h
  refine ⟨inputs, b, _, hinputs, hb, Replay.readTrace_traceFile hsound hfits path, ?_⟩
  intro floatText rargs run sleepUntil updateMode
  refine ⟨fun hrun hsleep => ?_, fun idx hidx => ?_⟩
  · refine Replay.playRows_succeeds hrun hsleep _ (fun row hrow => ?_) 0 []
    obtain ⟨row, hmem, rfl⟩ := List.mem_map.mp hrow
    have hrowSound := hsound.sound row hmem
    have hnote : ("note", row.note) ∈ traceColumns.zip row.fields := by
      simp [traceColumns, TraceRow.fields]
    exact ⟨⟨_, Replay.rowTime_toRow hrowSound⟩, ⟨_, Replay.stripped_toRow hnote⟩,
      fun operation => Replay.rowCommand_ok floatText rargs hrowSound operation⟩
  · have hlt : idx < (maxBin b + 1).toNat := by omega
    obtain ⟨due, e, later, hsplit, hown, hstate, hdue, hlater⟩ :=
      changes_due pstdev inputs.rateSource b hw hlt
    rw [windowRows_changeLog, List.map_map]
    refine ⟨due ++ [(rowOf args b e).toRow], later, hsplit, hdue, hlater, fun hdone => ?_⟩
    obtain ⟨operation, cmd, hcmd, hlast⟩ := Replay.playRows_last due _ 0 [] hdone
    rw [rowCommand_rowOf pstdev inputs.rateSource b hw floatText rargs operation e hown, hstate] at hcmd
    exact ⟨operation, cmd, hlast, hcmd⟩

def delayRow (sendTimeMs recvTimeMs : String) : Row :=
  .full [("send_time_ms", sendTimeMs), ("recv_time_ms", recvTimeMs), ("size_bytes", "1000")]

/-- Delays of 10 ms and 60 ms, two windows apart. -/
def delayLogs : Logs := ⟨some [delayRow "0" "10", delayRow "50" "110"], none, none, none⟩

def delayTrace : List TraceRow :=
  [⟨"0", "0", "0", "0", "350", "1000", "baseline"⟩, ⟨"100", "50", "0", "0", "350", "1000", "baseline"⟩]

/-- At the window of 100 ms both rows are due, and the last command sets the delay of 50 ms. -/
theorem replay_follows_windows_delays :
    ∃ due later, Replay.readTrace "trace.csv" (traceFile delayTrace) = .ok (due ++ later) ∧
      (∀ row ∈ due, TimeIs row (· ≤ 100)) ∧ (∀ row ∈ later, TimeIs row (100 < ·)) ∧
      (Replay.playRows (fun _ => "") Replay.replayArgs (fun _ => .ok 0) (fun _ => .ok ()) .change 0
        (due ++ later) []).raised = none ∧
      ∃ word, (Replay.playRows (fun _ => "") Replay.replayArgs (fun _ => .ok 0) (fun _ => .ok ()) .change 0
        due []).issued.getLast? = some ["tc", "qdisc", word, "dev", "eth0", "root", "netem",
          "limit", "1000", "delay", "50ms", "rate", "350kbit"] := by
  have hbuild : buildTrace (fun _ => 0) {} delayLogs = .ok delayTrace := by decide +kernel
  have hfits : Fits delayTrace := by
    unfold Fits
    decide +kernel
  have hwindows : ((prepare {} delayLogs).bind fun inputs =>
      (collectBins {} inputs delayLogs.receiver).map fun b =>
        (maxBin b, stateAt (fun _ => 0) {} inputs.rateSource b 2)) =
      .ok (2, ⟨50, 0, "", "350", "1000"⟩) := by decide +kernel
  obtain ⟨inputs, b, played, hinputs, hb, hread, hplay⟩ :=
    replay_follows_windows (by decide) hbuild hfits "trace.csv"
  obtain ⟨hdone, hwindow⟩ := hplay (fun _ => "") Replay.replayArgs (fun _ => .ok 0) (fun _ => .ok ()) .change
  rw [hinputs] at hwindows
  simp only [Except.bind, hb, Except.map, Except.ok.injEq, Prod.mk.injEq] at hwindows
  obtain ⟨hmax, hstate⟩ := hwindows
  obtain ⟨due, later, rfl, hdue, hlater, hlast⟩ := hwindow 2 (by rw [hmax]; decide)
  have hraised := hdone (fun _ => rfl) fun _ => rfl
  obtain ⟨operation, cmd, hissued, hcmd⟩ := hlast (Replay.playRows_front due later 0 [] hraised)
  have htext : ∀ operation, ∃ word, stateCommand (fun _ => "") Replay.replayArgs operation
      ⟨50, 0, "", "350", "1000"⟩ = .ok ["tc", "qdisc", word, "dev", "eth0", "root", "netem", "limit", "1000",
        "delay", "50ms", "rate", "350kbit"] := by
    intro operation
    cases operation
    · exact ⟨"change", by decide +kernel⟩
    · exact ⟨"replace", by decide +kernel⟩
  obtain ⟨word, hword⟩ := htext operation
  rw [hstate, hword] at hcmd
  exact ⟨due, later, hread, hdue, hlater, hraised, word,
    hissued.trans (congrArg some (Except.ok.inj hcmd).symm)⟩

end Window
end WebrtcTrace.TraceTools
