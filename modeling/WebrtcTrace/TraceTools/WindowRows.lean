import WebrtcTrace.Foundations.ChangeLog
import WebrtcTrace.TraceTools.WindowTrace

/-! # The window trace as a log of changes

The window loop carries its values through every window and writes a row only when the state differs
from the last written one, at window 0 and where there are notes. Its rows are a `ChangeLog` of the
states (`windowRows_changeLog`), so the state of every window can be read off them.
-/

namespace WebrtcTrace.TraceTools.Window
set_option autoImplicit false

section Coding
variable (pstdev : List ℚ → ℚ) (args : Args) (rateSource : RateSource) (b : Bins)

/-- The carried values after the first `n` windows. -/
def carriedAfter (n : ℕ) : Carry :=
  (List.range n).foldl (fun c (i : ℕ) => carryStep pstdev args rateSource b c i) {}

/-- The state of a window by the carry-forward rules, whatever is emitted. -/
def stateAt (idx : ℕ) : WindowState :=
  windowState args (carriedAfter pstdev args rateSource b (idx + 1))

/-- A window whose row is written in any case. -/
def Forced (idx : ℕ) : Prop := idx = 0 ∨ windowNote b idx ≠ ""

instance : DecidablePred (Forced b) := fun _ => inferInstanceAs (Decidable (_ ∨ _))

def changes (n : ℕ) : ChangeLog WindowState :=
  .upTo (stateAt pstdev args rateSource b) (Forced b) n

/-- The row of a change. -/
def rowOf (e : ℕ × WindowState) : TraceRow := traceRow args e.1 e.2 (windowNote b e.1)

theorem carriedAfter_succ (n : ℕ) : carriedAfter pstdev args rateSource b (n + 1) =
    carryStep pstdev args rateSource b (carriedAfter pstdev args rateSource b n) n := by
  rw [carriedAfter, List.range_succ, List.foldl_append]
  rfl

theorem windowStep_changeLog (n : ℕ) (log : ChangeLog WindowState) :
    windowStep pstdev args rateSource b
        ⟨carriedAfter pstdev args rateSource b n, log.last, log.entries.map (rowOf args b)⟩ n =
      ⟨carriedAfter pstdev args rateSource b (n + 1),
        (log.record (stateAt pstdev args rateSource b) (Forced b) n).last,
        (log.record (stateAt pstdev args rateSource b) (Forced b) n).entries.map (rowOf args b)⟩ := by
  have hemit : ((n : ℤ) = 0 ∨ some (stateAt pstdev args rateSource b n) ≠ log.last ∨
      windowNote b n ≠ "") ↔
      (some (stateAt pstdev args rateSource b n) ≠ log.last ∨ Forced b n) := by
    rw [Forced, Int.natCast_eq_zero]
    tauto
  rw [windowStep, ← carriedAfter_succ]
  show (if (n : ℤ) = 0 ∨ some (stateAt pstdev args rateSource b n) ≠ log.last ∨
    windowNote b n ≠ "" then _ else _) = _
  rw [ChangeLog.record]
  by_cases h : some (stateAt pstdev args rateSource b n) ≠ log.last ∨ Forced b n
  · rw [if_pos (hemit.mpr h), if_pos h, List.map_append]
    rfl
  · rw [if_neg (mt hemit.mp h), if_neg h]

/-- **The window loop writes a log of changes.** -/
theorem windowRows_changeLog (last : ℤ) :
    windowRows pstdev args rateSource b last =
      (changes pstdev args rateSource b (last + 1).toNat).entries.map (rowOf args b) := by
  have hrun : ∀ n : ℕ, ((List.range n).map Int.ofNat).foldl (windowStep pstdev args rateSource b) {} =
      ⟨carriedAfter pstdev args rateSource b n, (changes pstdev args rateSource b n).last,
        (changes pstdev args rateSource b n).entries.map (rowOf args b)⟩ := by
    intro n
    induction n with
    | zero => rfl
    | succ n ih =>
      rw [List.range_succ, List.map_append, List.foldl_append, ih,
        show changes pstdev args rateSource b (n + 1) = _ from ChangeLog.upTo_succ n]
      exact windowStep_changeLog pstdev args rateSource b n _
  rw [windowRows, windows, hrun]

end Coding

/-! ## Reading the rows -/

/-- The last row with `at_ms` up to a time. -/
def lastRowAt (rows : List TraceRow) (ms : ℤ) : Option TraceRow :=
  (rows.filter fun row => (Py.int row.atMs).any (· ≤ ms)).getLast?

/-- A row with the fields of a state. -/
structure Shows (row : TraceRow) (state : WindowState) : Prop where
  delay : Py.int row.delayMs = some state.delay
  jitter : Py.int row.jitterMs = some state.jitter
  loss : row.lossPct = if state.loss = "" then "0" else state.loss
  rate : row.rateKbit = state.rate
  limitPkts : row.limitPkts = state.limitPkts

theorem windowState_nonneg (args : Args) (c : Carry) :
    0 ≤ (windowState args c).delay ∧ 0 ≤ (windowState args c).jitter := by
  refine ⟨le_max_left _ _, ?_⟩
  unfold windowState
  dsimp only
  split_ifs
  · exact le_rfl
  · exact le_max_left _ _

theorem shows_traceRow (args : Args) (idx : ℤ) (c : Carry) (note : String) :
    Shows (traceRow args idx (windowState args c) note) (windowState args c) where
  delay := Py.int_toString_of_nonneg (windowState_nonneg args c).1
  jitter := Py.int_toString_of_nonneg (windowState_nonneg args c).2
  loss := rfl
  rate := rfl
  limitPkts := rfl

section Reading
variable {pstdev : List ℚ → ℚ} {args : Args} {rateSource : RateSource} {b : Bins}

theorem int_rowOf (hw : 1 ≤ args.windowMs) (e : ℕ × WindowState) :
    Py.int (rowOf args b e).atMs = some ((e.1 : ℤ) * args.windowMs) :=
  Py.int_toString_of_nonneg (mul_nonneg (Int.natCast_nonneg _) (by omega))

theorem atMs_le_iff (hw : 1 ≤ args.windowMs) (e : ℕ × WindowState) (idx : ℕ) :
    (Py.int (rowOf args b e).atMs).any (· ≤ (idx : ℤ) * args.windowMs) = decide (e.1 ≤ idx) := by
  rw [int_rowOf hw, Option.any_some, decide_eq_decide,
    Int.mul_le_mul_right (show 0 < args.windowMs by omega), Int.ofNat_le]

theorem lastRowAt_changes (hw : 1 ≤ args.windowMs) (n idx : ℕ) :
    lastRowAt ((changes pstdev args rateSource b n).entries.map (rowOf args b))
        ((idx : ℤ) * args.windowMs) =
      ((changes pstdev args rateSource b n).lookup idx).map (rowOf args b) := by
  rw [lastRowAt, List.filter_map, List.getLast?_map, ChangeLog.lookup]
  congr 3
  funext e
  exact atMs_le_iff hw e idx

theorem text_receiverArrivalMatches (n : MatchCounts) :
    (Note.receiverArrivalMatches n).text = "receiver_arrival_matches:" ++ "exact=" ++
      toString n.exactMatches ++ ",ssrc_seq=" ++ toString n.ssrcSeqMatches ++ "," ++ "seq_only=" ++
      toString n.seqOnlyMatches ++ "," ++ "rtp_ts_mismatch=" ++
      toString n.rtpTimestampMismatches := rfl

theorem text_freeze (duration : ℤ) :
    (Note.freeze duration).text = "freeze:" ++ toString duration ++ "ms" := rfl

theorem semicolon_not_in_note (n : Note) : ';' ∉ n.text.toList := by
  have hnat : ∀ k : ℕ, ';' ∉ (toString k).toList := fun k h => by
    simpa using Py.isDigit_toString k _ h
  have hint : ∀ k : ℤ, ';' ∉ (toString k).toList := fun k h => by
    simpa using Py.isDigit_or_minus_toString k _ h
  cases n with
  | receiverArrivalMatches counts =>
    simp only [text_receiverArrivalMatches, String.toList_append, List.mem_append, hnat, or_false]
    decide +kernel
  | freeze duration =>
    simp only [text_freeze, String.toList_append, List.mem_append, hint, or_false]
    decide +kernel

theorem note_ne_empty (n : Note) : n.text ≠ "" := by
  intro h
  cases n with
  | receiverArrivalMatches counts =>
    rw [text_receiverArrivalMatches] at h
    have hlabel : "rtp_ts_mismatch=" = "" :=
      (String.append_eq_empty_iff.mp (String.append_eq_empty_iff.mp h).1).2
    exact absurd hlabel (by decide +kernel)
  | freeze duration =>
    rw [text_freeze] at h
    exact absurd (String.append_eq_empty_iff.mp h).2 (by decide +kernel)

/-- The notes of a window can be read off its text. -/
theorem splitOn_windowNote {idx : ℤ} {notes : List Note} (h : b.note.get? idx = some notes)
    (hne : notes ≠ []) :
    (windowNote b idx).toList.splitOn ';' = notes.map fun n => n.text.toList := by
  rw [windowNote, h, Option.getD_some, String.toList_intercalate,
    show ";".toList = [';'] from rfl, List.splitOn_intercalate, List.map_map]
  · rfl
  · intro text htext
    obtain ⟨s, hs, rfl⟩ := List.mem_map.mp htext
    obtain ⟨n, _, rfl⟩ := List.mem_map.mp hs
    exact semicolon_not_in_note n
  · simpa using hne

theorem windowNote_ne_empty {idx : ℤ} {notes : List Note} (h : b.note.get? idx = some notes)
    (hne : notes ≠ []) : windowNote b idx ≠ "" := by
  obtain ⟨n, notes, rfl⟩ := List.exists_cons_of_ne_nil hne
  intro hempty
  have hsplit := splitOn_windowNote h hne
  rw [hempty, List.map_cons] at hsplit
  exact note_ne_empty n (String.toList_eq_nil_iff.mp (List.cons.inj hsplit).1.symm)

end Reading

/-! ## Lossless coding -/

/-- **The emitted rows are a lossless coding of the windows.** At the time of every window the last
row shows the state of the window, and a window with notes has one row of its own, with its state and
its notes in order. -/
theorem window_rows_lossless (pstdev : List ℚ → ℚ) (args : Args) (rateSource : RateSource) (b : Bins)
    (hw : 1 ≤ args.windowMs) (last : ℤ) (idx : ℕ) (hidx : (idx : ℤ) ≤ last) :
    (∃ row, lastRowAt (windowRows pstdev args rateSource b last) ((idx : ℤ) * args.windowMs) =
        some row ∧ Shows row (stateAt pstdev args rateSource b idx)) ∧
      ∀ notes, b.note.get? idx = some notes → notes ≠ [] →
        ∃ row, (windowRows pstdev args rateSource b last).filter
            (fun row => Py.int row.atMs = some ((idx : ℤ) * args.windowMs)) = [row] ∧
          Shows row (stateAt pstdev args rateSource b idx) ∧
          row.note.toList.splitOn ';' = notes.map fun n => n.text.toList := by
  have hlt : idx < (last + 1).toNat := by omega
  rw [windowRows_changeLog]
  refine ⟨?_, fun notes hnotes hne => ?_⟩
  · obtain ⟨j, _, hlookup, _⟩ :=
      @ChangeLog.lookup_upTo _ _ (stateAt pstdev args rateSource b) (Forced b) _ _ _ hlt
    refine ⟨rowOf args b (j, stateAt pstdev args rateSource b idx), ?_, shows_traceRow args j _ _⟩
    rw [lastRowAt_changes hw, changes, hlookup, Option.map_some]
  · have htext : windowNote b idx ≠ "" := windowNote_ne_empty hnotes hne
    refine ⟨rowOf args b (idx, stateAt pstdev args rateSource b idx), ?_,
      shows_traceRow args idx _ _, ?_⟩
    · have hat : ∀ e : ℕ × WindowState,
          (Py.int (rowOf args b e).atMs = some ((idx : ℤ) * args.windowMs)) ↔ e.1 = idx := by
        intro e
        have hne0 : args.windowMs ≠ 0 := by omega
        rw [int_rowOf hw, Option.some.injEq, mul_left_inj' hne0, Int.natCast_inj]
      rw [List.filter_map]
      simp only [Function.comp_def, hat]
      rw [changes, ChangeLog.entries_at hlt (.inr htext)]
      rfl
    · rw [show (rowOf args b (idx, stateAt pstdev args rateSource b idx)).note = windowNote b idx
        from if_neg htext]
      exact splitOn_windowNote hnotes hne

/-- Delays, jitter and a rate in the first window, loss and a freeze in the second. -/
def freezeBins : Bins where
  delay := .update .empty 0 [] (· ++ [40])
  jitter := .update .empty 0 [] (· ++ [10, 30])
  send := .update .empty 0 0 (· + 1000)
  loss := .update .empty 1 0 (· + 5 / 2)
  note := .update .empty 1 [] (· ++ [.freeze 100])

def freezeState : WindowState := ⟨40, 10, "2.5", "150", "1000"⟩

theorem window_rows_lossless_freeze :
    (∃ row, (windowRows (fun _ => 10) { rateSource := .send } .send freezeBins 2).filter
        (fun row => Py.int row.atMs = some (((1 : ℕ) : ℤ) * 50)) = [row] ∧ Shows row freezeState ∧
      row.note.toList.splitOn ';' = ["freeze:100ms".toList]) ∧
    ∃ row, lastRowAt (windowRows (fun _ => 10) { rateSource := .send } .send freezeBins 2)
        (((2 : ℕ) : ℤ) * 50) = some row ∧ Shows row freezeState := by
  have hnotes : freezeBins.note.get? ((1 : ℕ) : ℤ) = some [.freeze 100] := by decide +kernel
  have hstate : ∀ idx ∈ [1, 2],
      stateAt (fun _ => 10) { rateSource := .send } .send freezeBins idx = freezeState := by
    decide +kernel
  have hlossless := window_rows_lossless (fun _ => 10) { rateSource := .send } .send freezeBins
    (by decide) 2
  obtain ⟨row, hrow, hshows, htext⟩ := (hlossless 1 (by decide)).2 _ hnotes (by decide)
  obtain ⟨row', hrow', hshows'⟩ := (hlossless 2 (by decide)).1
  rw [hstate 1 (by decide)] at hshows
  rw [hstate 2 (by decide)] at hshows'
  exact ⟨⟨row, hrow, hshows, htext.trans (by decide +kernel)⟩, row', hrow', hshows'⟩

end WebrtcTrace.TraceTools.Window
