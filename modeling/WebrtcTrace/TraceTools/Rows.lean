import WebrtcTrace.Foundations.PyNumbers
import WebrtcTrace.Foundations.RowLoop
import Mathlib.Data.List.Sort
import Mathlib.Tactic.FieldSimp
import Mathlib.Tactic.Ring

/-! # What the trace tools share (`trace_tools/*.py`)

A log is the list of its rows as `csv.DictReader` gives them: a column that is missing in a short row
has the value `None`. The two builders define the same helpers; where they differ (the message of
`percentile`), the difference is a parameter here. Numbers are read by `Py.float` and computed with
exactly.
-/

namespace WebrtcTrace.TraceTools
set_option autoImplicit false

/-- The exceptions that can end a tool. -/
inductive PyError where
  | valueError (message : String)
  | fileNotFoundError (message : String)
  | csvError (message : String)
  | overflowError
  | zeroDivisionError
  | indexError
  | keyError
  | typeError
  | attributeError
  | calledProcessError
  deriving DecidableEq, Repr

abbrev Row := List (String × Option String)

/-- A row that has all of its columns. -/
def Row.full (columns : List (String × String)) : Row := columns.map fun e => (e.1, some e.2)

/-- `row.get(key)`. The outer `none` is a missing key. -/
def Row.get? (row : Row) (key : String) : Option (Option String) :=
  (row.find? (·.1 = key)).map Prod.snd

/-- `row.get(key, "").strip()`. -/
def Row.text (row : Row) (key : String) : Except PyError String :=
  match row.get? key with
  | none => .ok ""
  | some none => .error .attributeError
  | some (some value) => .ok (Py.strip value)

/-- `int(float(value))`. -/
def intOfFloat (value : String) : Except PyError ℤ :=
  match Py.float value with
  | none => .error (.valueError "could not convert string to float")
  | some .nan => .error (.valueError "cannot convert float NaN to integer")
  | some (.infinite _) => .error .overflowError
  | some (.finite q) => .ok (Py.trunc q)

def asInt (row : Row) (key : String) : Except PyError (Option ℤ) :=
  (row.text key).bind fun value => if value = "" then .ok none else (intOfFloat value).map some

/-- The values of a column, in order, without the rows that have none. -/
def columnInts (key : String) : List Row → Except PyError (List ℤ) := readAll (asInt · key)

/-- The rows whose timestamp is there and not before the cutoff. -/
def rowsFrom (timestampKey : String) (cutoff : ℤ) : List Row → Except PyError (List Row) :=
  readAll fun row => (asInt row timestampKey).map fun ts =>
    if ts.any (cutoff ≤ ·) then some row else none

/-- The rows of a file that may not exist. -/
def readRows (file : Option (List Row)) : List Row := file.getD []

/-! ## Arithmetic -/

/-- `a // b`. -/
def floorDiv (a b : ℤ) : Except PyError ℤ :=
  if b = 0 then .error .zeroDivisionError else .ok (a.fdiv b)

def quantize (value : ℚ) (quantum : ℤ) : ℤ :=
  if quantum ≤ 1 then Py.round value else Py.round (value / quantum) * quantum

def quantizeFloat (value quantum : ℚ) : ℚ :=
  if quantum ≤ 0 then value else Py.round3 (Py.round (value / quantum) * quantum)

theorem quantize_mono {q r : ℚ} (h : q ≤ r) (quantum : ℤ) : quantize q quantum ≤ quantize r quantum := by
  unfold quantize
  split_ifs with hquantum
  · exact Py.round_mono h
  · have hpos : (0 : ℚ) ≤ quantum := by exact_mod_cast (show (0 : ℤ) ≤ quantum by omega)
    have hround := Py.round_mono (div_le_div_of_nonneg_right h hpos)
    exact mul_le_mul_of_nonneg_right hround (by omega)

theorem dvd_quantize {quantum : ℤ} (hquantum : 1 ≤ quantum) (value : ℚ) :
    quantum ∣ quantize value quantum := by
  unfold quantize
  split_ifs with hone
  · rw [le_antisymm hone hquantum]
    exact one_dvd _
  · exact dvd_mul_left _ _

theorem abs_quantize_sub_le {quantum : ℤ} (hquantum : 1 ≤ quantum) (value : ℚ) :
    |(quantize value quantum : ℚ) - value| ≤ quantum / 2 := by
  unfold quantize
  split_ifs with hone
  · rw [le_antisymm hone hquantum]
    simpa using Py.abs_round_sub_le value
  · have hpos : (0 : ℚ) < quantum := by exact_mod_cast (show (0 : ℤ) < quantum by omega)
    have hscaled : ((Py.round (value / quantum) * quantum : ℤ) : ℚ) - value =
        ((Py.round (value / quantum) : ℚ) - value / quantum) * quantum := by
      push_cast
      field_simp
    rw [hscaled, abs_mul, abs_of_pos hpos]
    calc |(Py.round (value / quantum) : ℚ) - value / quantum| * quantum
        ≤ 1 / 2 * quantum := mul_le_mul_of_nonneg_right (Py.abs_round_sub_le _) hpos.le
      _ = quantum / 2 := by ring

/-- A multiple of the quantum stays as it is. -/
theorem quantize_of_dvd {quantum n : ℤ} (h : quantum ∣ n) : quantize n quantum = n := by
  unfold quantize
  split_ifs with hone
  · exact Py.round_intCast n
  · obtain ⟨k, rfl⟩ := h
    have hne : (quantum : ℚ) ≠ 0 := by exact_mod_cast (show quantum ≠ 0 by omega)
    have hquotient : ((quantum * k : ℤ) : ℚ) / quantum = k := by
      push_cast
      exact mul_div_cancel_left₀ _ hne
    rw [hquotient, Py.round_intCast, mul_comm]

/-- `sorted(values)`. -/
def sorted (values : List ℚ) : List ℚ := values.insertionSort (· ≤ ·)

/-- `values[i]`, where a negative index counts from the end. -/
def item (values : List ℚ) (i : ℤ) : Except PyError ℚ :=
  let j := if i < 0 then i + values.length else i
  if 0 ≤ j then (values[j.toNat]?).elim (.error .indexError) .ok else .error .indexError

def percentile (emptyMessage : String) (values : List ℚ) (pct : ℚ) : Except PyError ℚ :=
  match sorted values with
  | [] => .error (.valueError emptyMessage)
  | [value] => .ok value
  | ordered =>
    let position := ((ordered.length - 1 : ℕ) : ℚ) * (pct / 100)
    if ⌊position⌋ = ⌈position⌉ then item ordered ⌊position⌋
    else
      let weight := position - ⌊position⌋
      (item ordered ⌊position⌋).bind fun lo => (item ordered ⌈position⌉).map fun hi =>
        lo * (1 - weight) + hi * weight

/-- `statistics.median` of a non-empty list. -/
def median (values : List ℚ) : ℚ :=
  let ordered := sorted values
  let half := ordered.length / 2
  if ordered.length % 2 = 1 then ordered.getD half 0
  else (ordered.getD (half - 1) 0 + ordered.getD half 0) / 2

/-- `min(values)`. -/
def minimum (values : List ℤ) : Except PyError ℤ :=
  values.min?.elim (.error (.valueError "min() arg is an empty sequence")) .ok

/-! ## Sender rows -/

def isVideoSendRow (row : Row) : Except PyError Bool :=
  if row.get? "is_audio" = some (some "") ∨ row.get? "is_audio" = some (some "0") then
    (row.text "packet_type").map fun packetType => packetType = "" || packetType = "1"
  else .ok false

/-! ## Trace rows -/

/-- A row of the trace file, in the order of its columns. -/
structure TraceRow where
  atMs : String
  delayMs : String
  jitterMs : String
  lossPct : String
  rateKbit : String
  limitPkts : String
  note : String
  deriving DecidableEq, Repr

end WebrtcTrace.TraceTools
