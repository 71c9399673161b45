import WebrtcTrace.TraceTools.Replay

/-! # The run of `replay_netem_trace.py`

`main` plays the rows of a trace one after the other and resets the interface at the end if it is asked
to. What is kept is the commands issued so far, which an exception does not take back. The parameter
`run` is the return code of the last command of those issued, or the exception of starting it, and
`sleepUntil` is the wait for the time of a row; both may depend on anything.

The reset is the last command of a run in which no row raises. There is no handler for one that raises:
the run ends there (`main_resets`), and the scripts that call the tool reset the interface themselves.
-/

namespace WebrtcTrace.TraceTools.Replay
set_option autoImplicit false

/-! ## Playing rows -/

/-- The commands issued so far, and the exception that has ended the run. -/
structure Progress where
  issued : List (List String) := []
  raised : Option PyError := none
  deriving DecidableEq

section Playing
variable (floatText : Py.Float → String) (args : Args) (run : List (List String) → Except PyError ℤ)

/-- The fallback of a `change` that has failed. -/
def runFallback (issued : List (List String)) (row : Row) : Progress :=
  match rowCommand floatText args row .replace with
  | .error e => { issued := issued, raised := some e }
  | .ok fallback =>
    match run (issued ++ [fallback]) with
    | .error e => { issued := issued ++ [fallback], raised := some e }
    | .ok returncode => {
        issued := issued ++ [fallback]
        raised := if returncode = 0 then none else some .calledProcessError }

/-- `apply_row`, after the commands of the rows before. -/
def playRow (issued : List (List String)) (row : Row) (operation : Operation) : Progress :=
  match (rowCommand floatText args row operation).bind fun cmd =>
      (stripped row "note").map fun _ => cmd with
  | .error e => { issued := issued, raised := some e }
  | .ok cmd =>
    if args.dryRun then { issued := issued ++ [cmd] }
    else
      match run (issued ++ [cmd]) with
      | .error e => { issued := issued ++ [cmd], raised := some e }
      | .ok returncode =>
        if returncode = 0 then { issued := issued ++ [cmd] }
        else
          match operation with
          | .change => runFallback floatText args run (issued ++ [cmd]) row
          | .replace => { issued := issued ++ [cmd], raised := some .calledProcessError }

variable (sleepUntil : ℤ → Except PyError Unit) (updateMode : Operation)

/-- One round of the loop of `main`. -/
def playNext (index : ℕ) (row : Row) (issued : List (List String)) : Progress :=
  match (rowTime row).bind sleepUntil with
  | .error e => { issued := issued, raised := some e }
  | .ok _ => playRow floatText args run issued row (if index = 0 then .replace else updateMode)

/-- The loop of `main` from the row of this index on. -/
def playRows : ℕ → List Row → List (List String) → Progress
  | _, [], issued => { issued := issued }
  | index, row :: rows, issued =>
    let played := playNext floatText args run sleepUntil updateMode index row issued
    if played.raised.isSome then played else playRows (index + 1) rows played.issued

def resetRow : Row := TraceRow.toRow ⟨"", "0", "0", "0", "", "", "reset baseline"⟩

/-- `main`, with the trace file as it is read. -/
def main (resetAtEnd : Bool) (path : String) (file : Csv.Text) : Progress :=
  match readTrace path file with
  | .error e => { raised := some e }
  | .ok rows =>
    let played := playRows floatText args run sleepUntil updateMode 0 rows []
    if played.raised.isSome then played
    else if resetAtEnd then playRow floatText args run played.issued resetRow .replace
    else played

/-- The command of the zero-delay baseline. -/
def baselineCmd : List String :=
  tcPrefix args.netNamespace args.useSudo ++
    ["qdisc", "replace", "dev", args.iface, "root", "netem", "delay", "0ms"]

end Playing

/-! ## What one row issues -/

section Playing
variable {floatText : Py.Float → String} {args : Args} {run : List (List String) → Except PyError ℤ}
  {sleepUntil : ℤ → Except PyError Unit} {updateMode : Operation} {issued : List (List String)}
  {row : Row} {rows : List Row} {operation : Operation}

variable (floatText args run) in
theorem runFallback_issued (issued : List (List String)) (row : Row) :
    ∃ own, own.length ≤ 1 ∧ (runFallback floatText args run issued row).issued = issued ++ own := by
  unfold runFallback
  cases rowCommand floatText args row .replace with
  | error e => exact ⟨[], by decide, (List.append_nil issued).symm⟩
  | ok fallback =>
    refine ⟨[fallback], le_rfl, ?_⟩
    dsimp only
    split <;> rfl

/-- **A row issues two commands at most**, and one at least unless it raises. -/
theorem playRow_issued (issued : List (List String)) (row : Row) (operation : Operation) :
    ∃ own, own.length ≤ 2 ∧
      (playRow floatText args run issued row operation).issued = issued ++ own ∧
      ((playRow floatText args run issued row operation).raised = none → own ≠ []) := by
  unfold playRow
  cases (rowCommand floatText args row operation).bind fun cmd =>
      (stripped row "note").map fun _ => cmd with
  | error e => exact ⟨[], by decide, (List.append_nil issued).symm, fun h => by cases h⟩
  | ok cmd =>
    have hone : [cmd].length ≤ 2 := Nat.le_succ 1
    dsimp only
    split_ifs
    · exact ⟨[cmd], hone, rfl, fun _ => List.cons_ne_nil _ _⟩
    · cases run (issued ++ [cmd]) with
      | error e => exact ⟨[cmd], hone, rfl, fun _ => List.cons_ne_nil _ _⟩
      | ok returncode =>
        dsimp only
        split_ifs
        · exact ⟨[cmd], hone, rfl, fun _ => List.cons_ne_nil _ _⟩
        · cases operation with
          | replace => exact ⟨[cmd], hone, rfl, fun _ => List.cons_ne_nil _ _⟩
          | change =>
            obtain ⟨own, hlength, hissued⟩ := runFallback_issued floatText args run (issued ++ [cmd]) row
            refine ⟨cmd :: own, Nat.succ_le_succ hlength, ?_, fun _ => List.cons_ne_nil _ _⟩
            rw [hissued, List.append_assoc]
            rfl

/-- The reset issues the baseline command, whatever comes of it. -/
theorem playRow_reset (issued : List (List String)) :
    (playRow floatText args run issued resetRow .replace).issued = issued ++ [baselineCmd args] := by
  have hcmd : (rowCommand floatText args resetRow .replace).bind (fun cmd =>
      (stripped resetRow "note").map fun _ => cmd) = .ok (baselineCmd args) := by
    have hdelay : intOrZero resetRow "delay_ms" = .ok 0 := by decide +kernel
    have hjitter : intOrZero resetRow "jitter_ms" = .ok 0 := by decide +kernel
    have hloss : floatOrZero resetRow "loss_pct" = .ok (.finite 0) := by decide +kernel
    have hrate : stripped resetRow "rate_kbit" = .ok "" := by decide +kernel
    have hlimit : stripped resetRow "limit_pkts" = .ok "" := by decide +kernel
    have hnote : stripped resetRow "note" = .ok "reset baseline" := by decide +kernel
    have hzero : Int.repr 0 ++ "ms" = "0ms" := by decide +kernel
    rw [rowCommand, hdelay, hjitter, hloss, hrate, hlimit, hnote]
    simp [hzero, buildTcCmd, baselineCmd, bind, Except.bind, Except.map, pure, Except.pure,
      Py.Float.isPositive, Operation.text]
  unfold playRow
  rw [hcmd]
  dsimp only
  split_ifs
  · rfl
  · cases run (issued ++ [baselineCmd args]) with
    | error e => rfl
    | ok returncode =>
      dsimp only
      split_ifs <;> rfl

/-- Where a command has one return code whenever it runs, this is `applyRow`. -/
theorem playRow_applyRow (code : List String → ℕ) (issued : List (List String)) (row : Row)
    (operation : Operation) :
    match applyRow floatText args code row operation with
    | .error e => (playRow floatText args (fun cmds => .ok (code (cmds.getLastD []))) issued row
        operation).raised = some e
    | .ok cmds =>
      playRow floatText args (fun cmds => .ok (code (cmds.getLastD []))) issued row operation =
        { issued := issued ++ cmds } := by
  have hlast : ∀ (cmds : List (List String)) (cmd : List String), (cmds ++ [cmd]).getLastD [] = cmd :=
    fun cmds cmd => List.getLastD_concat
  unfold playRow applyRow
  cases rowCommand floatText args row operation with
  | error e => rfl
  | ok cmd =>
    cases stripped row "note" with
    | error e => rfl
    | ok note =>
      simp only [bind, Except.bind, Except.map, hlast]
      by_cases hdry : args.dryRun = true
      · simp [hdry, pure, Except.pure]
      · by_cases hcode : code cmd = 0
        · simp [hdry, hcode, pure, Except.pure]
        · cases operation with
          | replace => simp [hdry, hcode, throw, throwThe, MonadExceptOf.throw]
          | change =>
            simp only [hdry, hcode, runFallback, hlast]
            cases rowCommand floatText args row .replace with
            | error e => simp [hcode]
            | ok fallback =>
              by_cases hfallback : code fallback = 0
              · simp [hcode, hfallback, pure, Except.pure]
              · simp [hcode, hfallback, throw, throwThe, MonadExceptOf.throw]

/-! ## The loop -/

variable (floatText args run sleepUntil updateMode) in
theorem playNext_issued (index : ℕ) (row : Row) (issued : List (List String)) :
    ∃ own, own.length ≤ 2 ∧
      (playNext floatText args run sleepUntil updateMode index row issued).issued = issued ++ own ∧
      ((playNext floatText args run sleepUntil updateMode index row issued).raised = none →
        own ≠ []) := by
  unfold playNext
  cases (rowTime row).bind sleepUntil with
  | error e => exact ⟨[], Nat.zero_le 2, (List.append_nil issued).symm, fun h => by cases h⟩
  | ok _ => exact playRow_issued issued row _

theorem playRows_cons (index : ℕ) (row : Row) (rows : List Row) (issued : List (List String)) :
    playRows floatText args run sleepUntil updateMode index (row :: rows) issued =
      if (playNext floatText args run sleepUntil updateMode index row issued).raised.isSome then
        playNext floatText args run sleepUntil updateMode index row issued
      else playRows floatText args run sleepUntil updateMode (index + 1) rows
        (playNext floatText args run sleepUntil updateMode index row issued).issued := rfl

/-- **A run in which no row raises** has issued a command for each. -/
theorem playRows_done (rows : List Row) : ∀ (index : ℕ) (issued : List (List String)),
    (playRows floatText args run sleepUntil updateMode index rows issued).raised = none →
      issued.length + rows.length ≤
        (playRows floatText args run sleepUntil updateMode index rows issued).issued.length := by
  induction rows with
  | nil => exact fun index issued _ => le_rfl
  | cons row rows ih =>
    intro index issued hdone
    obtain ⟨own, _, hissued, hown⟩ := playNext_issued floatText args run sleepUntil updateMode
      index row issued
    rw [playRows_cons] at hdone ⊢
    split_ifs at hdone ⊢ with hraised
    · rw [hdone] at hraised
      cases hraised
    · have hrest := ih _ _ hdone
      have hpos := List.length_pos_iff.mpr (hown (Option.not_isSome_iff_eq_none.mp hraised))
      rw [hissued, List.length_append] at hrest
      rw [List.length_cons, hissued]
      omega

/-- **A run in which a row raises** ends there, after at most two commands of that row. -/
theorem playRows_raised (rows : List Row) : ∀ (index : ℕ) (issued : List (List String)) (e : PyError),
    (playRows floatText args run sleepUntil updateMode index rows issued).raised = some e →
      ∃ done row rest own, rows = done ++ row :: rest ∧ own.length ≤ 2 ∧
        (playRows floatText args run sleepUntil updateMode index done issued).raised = none ∧
        (playRows floatText args run sleepUntil updateMode index rows issued).issued =
          (playRows floatText args run sleepUntil updateMode index done issued).issued ++ own := by
  induction rows with
  | nil =>
    intro index issued e h
    cases h
  | cons row rows ih =>
    intro index issued e h
    obtain ⟨own, hlength, hissued, _⟩ := playNext_issued floatText args run sleepUntil
      updateMode index row issued
    rw [playRows_cons] at h
    split_ifs at h with hraised
    · refine ⟨[], row, rows, own, rfl, hlength, rfl, ?_⟩
      rw [playRows_cons, if_pos hraised, hissued]
      rfl
    · obtain ⟨done, row', rest, own', rfl, hlength', hdone, hissued'⟩ := ih _ _ e h
      refine ⟨row :: done, row', rest, own', rfl, hlength', ?_, ?_⟩
      · rw [playRows_cons, if_neg hraised, hdone]
      · rw [playRows_cons, if_neg hraised, hissued', playRows_cons, if_neg hraised]

/-- **The reset is the last command of a run in which no row raises**, after one at least for each row;
a run in which a row raises ends at that row. -/
theorem main_resets (floatText : Py.Float → String) (args : Args)
    (run : List (List String) → Except PyError ℤ) (sleepUntil : ℤ → Except PyError Unit)
    (updateMode : Operation) {path : String} {file : Csv.Text} {rows : List Row}
    (hread : readTrace path file = .ok rows) :
    ((playRows floatText args run sleepUntil updateMode 0 rows []).raised = none →
      ∃ issued, rows.length ≤ issued.length ∧
        (main floatText args run sleepUntil updateMode true path file).issued =
          issued ++ [baselineCmd args]) ∧
    ∀ e, (playRows floatText args run sleepUntil updateMode 0 rows []).raised = some e →
      (main floatText args run sleepUntil updateMode true path file).raised = some e ∧
      ∃ done row rest own, rows = done ++ row :: rest ∧ own.length ≤ 2 ∧
        (playRows floatText args run sleepUntil updateMode 0 done []).raised = none ∧
        (main floatText args run sleepUntil updateMode true path file).issued =
          (playRows floatText args run sleepUntil updateMode 0 done []).issued ++ own := by
  unfold main
  rw [hread]
  dsimp only
  constructor
  · intro hdone
    have hcommands := playRows_done rows 0 [] hdone
    rw [hdone, if_neg (by decide), if_pos rfl, playRow_reset]
    exact ⟨_, by simpa using hcommands, rfl⟩
  · intro e he
    rw [he, if_pos rfl]
    exact ⟨he, playRows_raised rows 0 [] e he⟩

end Playing

def replayArgs : Args := { iface := "eth0" }

/-- A delay of 100 ms, and then a jitter of 5 ms or nothing. -/
def twoRows (jitterMs : String) : List TraceRow :=
  [⟨"0", "100", "0", "0", "", "", ""⟩, ⟨"10", "0", jitterMs, "0", "", "", ""⟩]

theorem main_resets_two_rows :
    ∃ issued, 2 ≤ issued.length ∧
      (main (fun _ => "") replayArgs (fun _ => .ok 0) (fun _ => .ok ()) .change true "trace.csv"
        (traceFile (twoRows "0"))).issued = issued ++ [baselineCmd replayArgs] := by
  have hread : readTrace "trace.csv" (traceFile (twoRows "0")) =
      .ok ((twoRows "0").map TraceRow.toRow) := by decide +kernel
  exact (main_resets (fun _ => "") replayArgs (fun _ => .ok 0) (fun _ => .ok ()) .change hread).1
    (by decide +kernel)

/-- The second row has jitter and no delay: the interface keeps its 100 ms. -/
theorem jitter_row_ends_run :
    readTrace "trace.csv" (traceFile (twoRows "5")) = .ok ((twoRows "5").map TraceRow.toRow) ∧
      main (fun _ => "") replayArgs (fun _ => .ok 0) (fun _ => .ok ()) .change true "trace.csv"
        (traceFile (twoRows "5")) =
      { issued := [["tc", "qdisc", "replace", "dev", "eth0", "root", "netem", "delay", "100ms"]]
        raised := some (.valueError "jitter_ms requires delay_ms > 0 in this tool") } := by
  decide +kernel

end WebrtcTrace.TraceTools.Replay
