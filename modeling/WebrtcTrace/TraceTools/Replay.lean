import WebrtcTrace.Foundations.Csv
import WebrtcTrace.TraceTools.Rows

/-! # `trace_tools/replay_netem_trace.py`

The trace file as the builders write it, and the replay of a trace file: reading it, and the `tc`
command of each row; the loop over the rows is in `ReplayRun`. The text of a float in a command is the
parameter `floatText`, and the return codes of the commands are the parameter `run`.
-/

namespace WebrtcTrace.TraceTools
set_option autoImplicit false

/-! ## The trace file -/

def traceColumns : List String :=
  ["at_ms", "delay_ms", "jitter_ms", "loss_pct", "rate_kbit", "limit_pkts", "note"]

def TraceRow.fields (row : TraceRow) : List String :=
  [row.atMs, row.delayMs, row.jitterMs, row.lossPct, row.rateKbit, row.limitPkts, row.note]

/-- A trace row as the replay reads it. -/
def TraceRow.toRow (row : TraceRow) : Row := traceColumns.zip (row.fields.map some)

/-- `writer.writeheader()` and `writer.writerows(rows)`, in both builders. -/
def traceFile (rows : List TraceRow) : Csv.Text :=
  Csv.encode ((traceColumns :: rows.map TraceRow.fields).map (List.map String.toList))

namespace Replay

/-! ## Reading a trace -/

/-- The default of `csv.field_size_limit()`. -/
def fieldSizeLimit : ℕ := 131072

def csvError : Csv.Error → PyError
  | .fieldTooLarge => .csvError ("field larger than field limit (" ++ toString fieldSizeLimit ++ ")")
  | .newLineInUnquotedField => .csvError "new-line character seen in unquoted field"

/-- A record under its column names, which are distinct. Columns it does not reach are `None`; fields
beyond the columns go under a key that nobody reads. -/
def dictRow (fieldnames record : List String) : Row :=
  fieldnames.zip (record.map some ++ List.replicate (fieldnames.length - record.length) none)

/-- `csv.DictReader`: the first record names the columns, and empty records are skipped. -/
def dictRows : List (List String) → List Row
  | [] => []
  | fieldnames :: records => (records.filter (· ≠ [])).map (dictRow fieldnames)

def readDicts (file : Csv.Text) : Except PyError (List Row) :=
  ((Csv.decode fieldSizeLimit file).mapError csvError).map fun records =>
    dictRows (records.map (List.map String.ofList))

/-- `row[key]`. -/
def lookup (row : Row) (key : String) : Except PyError (Option String) :=
  (row.get? key).elim (.error .keyError) .ok

/-- `int(value)`. -/
def toInt : Option String → Except PyError ℤ
  | none => .error .typeError
  | some value => (Py.int value).elim (.error (.valueError "invalid literal for int()")) .ok

/-- `int(row["at_ms"])`. -/
def rowTime (row : Row) : Except PyError ℤ := (lookup row "at_ms").bind toInt

/-- The required columns, sorted. -/
def required : List String :=
  ["at_ms", "delay_ms", "jitter_ms", "limit_pkts", "loss_pct", "note", "rate_kbit"]

def missingMessage (missing : List String) : String :=
  "trace missing columns: [" ++ ", ".intercalate (missing.map fun c => "'" ++ c ++ "'") ++ "]"

/-- `sorted(rows, key=lambda row: int(row["at_ms"]))`. -/
def sortedByTime (rows : List Row) : Except PyError (List Row) :=
  (rows.mapM fun row => (rowTime row).map fun t => (t, row)).map fun keyed =>
    (keyed.insertionSort fun a b => a.1 ≤ b.1).map Prod.snd

def readTrace (path : String) (file : Csv.Text) : Except PyError (List Row) := do
  let rows ← readDicts file
  match rows with
  | [] => throw (.valueError ("trace is empty: " ++ path))
  | first :: _ =>
    let missing := required.filter fun column => first.get? column = none
    if missing ≠ [] then throw (.valueError (missingMessage missing))
    let parsed ← sortedByTime rows
    let start ← parsed.head?.elim (.error .indexError) rowTime
    if start ≠ 0 then throw (.valueError "first trace row must start at at_ms=0")
    return parsed

/-! ## Commands -/

inductive Operation where
  | change
  | replace
  deriving DecidableEq, Repr

def Operation.text : Operation → String
  | change => "change"
  | replace => "replace"

structure Args where
  netNamespace : Option String := none
  iface : String
  useSudo : Bool := false
  dryRun : Bool := false

def tcPrefix (netNamespace : Option String) (useSudo : Bool) : List String :=
  let start := if useSudo then ["sudo", "-n"] else []
  match netNamespace with
  | none => start ++ ["tc"]
  | some name => if name = "" then start ++ ["tc"] else start ++ ["ip", "netns", "exec", name, "tc"]

section Commands
variable (floatText : Py.Float → String) (args : Args)

def buildTcCmd (operation : Operation) (delayMs jitterMs : ℤ) (lossPct : Py.Float)
    (rateKbit limitPkts : String) : Except PyError (List String) := do
  let cmd := tcPrefix args.netNamespace args.useSudo ++
    ["qdisc", operation.text, "dev", args.iface, "root", "netem"]
  let cmd := if limitPkts ≠ "" then cmd ++ ["limit", limitPkts] else cmd
  if jitterMs ≠ 0 ∧ delayMs ≤ 0 then
    throw (.valueError "jitter_ms requires delay_ms > 0 in this tool")
  let cmd := cmd ++ if jitterMs ≠ 0 then ["delay", toString delayMs ++ "ms", toString jitterMs ++ "ms"]
    else ["delay", toString delayMs ++ "ms"]
  let cmd := if lossPct.isPositive then cmd ++ ["loss", floatText lossPct ++ "%"] else cmd
  return if rateKbit ≠ "" then cmd ++ ["rate", rateKbit ++ "kbit"] else cmd

/-- `int(row[key] or 0)`. -/
def intOrZero (row : Row) (key : String) : Except PyError ℤ :=
  (lookup row key).bind fun value =>
    if value = none ∨ value = some "" then .ok 0 else toInt value

/-- `float(row[key] or 0)`. -/
def floatOrZero (row : Row) (key : String) : Except PyError Py.Float :=
  (lookup row key).bind fun value =>
    match value with
    | none => .ok (.finite 0)
    | some text =>
      if text = "" then .ok (.finite 0)
      else (Py.float text).elim (.error (.valueError "could not convert string to float")) .ok

/-- `row[key].strip()`. -/
def stripped (row : Row) (key : String) : Except PyError String :=
  (lookup row key).bind fun value => value.elim (.error .attributeError) fun text => .ok (Py.strip text)

/-- The command of a row. -/
def rowCommand (row : Row) (operation : Operation) : Except PyError (List String) := do
  let delayMs ← intOrZero row "delay_ms"
  let jitterMs ← intOrZero row "jitter_ms"
  let lossPct ← floatOrZero row "loss_pct"
  let rateKbit ← stripped row "rate_kbit"
  let limitPkts ← stripped row "limit_pkts"
  buildTcCmd floatText args operation delayMs jitterMs lossPct rateKbit limitPkts

/-- The commands that `apply_row` runs. -/
def applyRow (run : List String → ℕ) (row : Row) (operation : Operation) :
    Except PyError (List (List String)) := do
  let cmd ← rowCommand floatText args row operation
  let _ ← stripped row "note"
  if args.dryRun ∨ run cmd = 0 then return [cmd]
  match operation with
  | .replace => throw .calledProcessError
  | .change =>
    let fallback ← rowCommand floatText args row .replace
    if run fallback ≠ 0 then throw .calledProcessError
    return [cmd, fallback]

end Commands
end Replay
end WebrtcTrace.TraceTools
