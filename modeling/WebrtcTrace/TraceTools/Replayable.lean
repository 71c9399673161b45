import WebrtcTrace.TraceTools.Schedule
import WebrtcTrace.TraceTools.WindowRows

/-! # Traces can be replayed

Both builders write sound traces, so the replay accepts them. The window tool can write a note that
is too long for the reader: one window may hold any number of freezes.
-/

namespace WebrtcTrace.TraceTools
set_option autoImplicit false

namespace Window

/-! ## The texts of a row -/

theorem isDecimal_lossText {value : ℚ} (h : 0 < value) : Py.IsDecimal (lossText value).toList := by
  obtain ⟨n, hn⟩ : ∃ n, n = (Py.round (value * 10)).natAbs := ⟨_, rfl⟩
  have hdot : ∀ c : Char, c.isDigit → decide (c = '.') = false := fun c hc => by
    simp [Py.isDigit_cases hc]
  have hlast : Nat.toDigits 10 (n % 10) = [(n % 10).digitChar] :=
    Nat.toDigits_of_lt_base (Nat.mod_lt n (by omega))
  have hformat : (Py.format1f value).toList =
      (Nat.toDigits 10 (n / 10) ++ ['.']) ++ [(n % 10).digitChar] := by
    rw [Py.format1f, if_neg h.not_gt, ← hlast, ← hn]
    simp only [String.toList_append]
    rw [show (toString (n / 10)).toList = Nat.toDigits 10 (n / 10) from Nat.toList_repr,
      show (toString (n % 10)).toList = Nat.toDigits 10 (n % 10) from Nat.toList_repr]
    rfl
  rw [lossText, String.toList_ofList, hformat, Py.rstripWhile_snoc]
  by_cases hzero : n % 10 = 0
  · rw [hzero, if_pos (by decide), Py.rstripWhile_snoc, if_neg (by decide),
      Py.rstripWhile_snoc, if_pos (by decide), Py.rstripWhile_id]
    · exact .whole (Py.isDigit_toDigits _) Nat.toDigits_ne_nil
    · exact fun c hc => hdot c (Py.isDigit_toDigits _ c (List.mem_of_getLast? hc))
  · have hdigit : ∀ d < 10, d ≠ 0 → Nat.digitChar d ≠ '0' := by decide
    have hne := hdigit (n % 10) (Nat.mod_lt n (by omega)) hzero
    have hdecimal : ((n % 10).digitChar).isDigit :=
      Py.isDigit_toDigits (n % 10) _ (by rw [hlast]; exact List.mem_singleton_self _)
    rw [if_neg (by simpa using hne), Py.rstripWhile_snoc, if_neg (by rw [hdot _ hdecimal]; simp),
      List.append_assoc]
    exact .point (Py.isDigit_toDigits _) Nat.toDigits_ne_nil
      (fun c hc => List.mem_singleton.mp hc ▸ hdecimal) (List.cons_ne_nil _ _)

theorem oneLine_isDecimal {s : String} (h : Py.IsDecimal s.toList) : OneLine s := by
  unfold OneLine
  generalize s.toList = cs at h
  cases h with
  | whole hds _ => exact fun c hc => isBreak_of_isDigit (hds c hc)
  | point hds _ hfs _ =>
    intro c hc
    rw [List.mem_append, List.mem_cons] at hc
    obtain hc | rfl | hc := hc
    · exact isBreak_of_isDigit (hds c hc)
    · rfl
    · exact isBreak_of_isDigit (hfs c hc)

theorem oneLine_intercalate {texts : List String} (h : ∀ t ∈ texts, OneLine t) :
    OneLine (";".intercalate texts) := by
  have hsemicolon : OneLine ";" := by decide +kernel
  induction texts with
  | nil => decide +kernel
  | cons t texts ih =>
    obtain ⟨ht, htexts⟩ := List.forall_mem_cons.mp h
    cases texts with
    | nil => simpa using ht
    | cons u texts =>
      rw [String.intercalate_cons_cons, oneLine_append, oneLine_append]
      exact ⟨⟨ht, hsemicolon⟩, ih htexts⟩

theorem oneLine_note (n : Note) : OneLine n.text := by
  cases n with
  | receiverArrivalMatches counts =>
    simp only [text_receiverArrivalMatches, oneLine_append, oneLine_natCast, and_true]
    decide +kernel
  | freeze duration =>
    simp only [text_freeze, oneLine_append, oneLine_int, and_true]
    decide +kernel

/-! ## Rows -/

section Rows
variable {args : Args} {idx : ℤ} {c : Carry} {note : String}

theorem windowState_loss (args : Args) (c : Carry) :
    (windowState args c).loss = "" ∨ Py.IsDecimal (windowState args c).loss.toList := by
  unfold windowState
  dsimp only
  split_ifs with h
  · exact .inl rfl
  · exact .inr (isDecimal_lossText (not_le.mp h))

theorem windowState_rate (args : Args) (c : Carry) :
    OneLine (windowState args c).rate ∧ OneLine (windowState args c).limitPkts ∧
      ((windowState args c).limitPkts ≠ "" ↔ (windowState args c).rate ≠ "") := by
  have hempty : OneLine "" := by decide +kernel
  have hrate : OneLine (windowState args c).rate := by
    unfold windowState
    dsimp only
    cases c.previousRate with
    | none => exact hempty
    | some rate =>
      rw [Option.elim_some]
      split_ifs
      · exact hempty
      · exact oneLine_int _
  have hlimit : (windowState args c).limitPkts =
      if (windowState args c).rate = "" then "" else toString args.limitPkts := rfl
  refine ⟨hrate, ?_, ?_⟩
  · rw [hlimit]
    split_ifs
    · exact hempty
    · exact oneLine_int _
  · rw [hlimit]
    split_ifs with h
    · exact iff_of_false (not_not_intro rfl) (not_not_intro h)
    · exact iff_of_true (Py.toString_ne_empty _) h

theorem windowState_jitter (args : Args) (c : Carry) (h : 0 < (windowState args c).jitter) :
    0 < (windowState args c).delay := by
  by_contra hdelay
  have hzero : (windowState args c).jitter = 0 := if_pos (not_lt.mp hdelay)
  omega

theorem traceRow_sound (hat : 0 ≤ idx * args.windowMs) (hnote : OneLine note) :
    (traceRow args idx (windowState args c) note).Sound ∧
      (traceRow args idx (windowState args c) note).time = idx * args.windowMs := by
  have htime : Py.int (traceRow args idx (windowState args c) note).atMs =
      some (idx * args.windowMs) := Py.int_toString_of_nonneg hat
  have hvalue : (traceRow args idx (windowState args c) note).time = idx * args.windowMs := by
    rw [TraceRow.time, htime, Option.getD_some]
  obtain ⟨hdelay, hjitter⟩ := windowState_nonneg args c
  obtain ⟨hrateLine, hlimitLine, hlimit⟩ := windowState_rate args c
  have hloss : OneLine (traceRow args idx (windowState args c) note).lossPct ∧
      ∃ q : ℚ, Py.float (traceRow args idx (windowState args c) note).lossPct = some (.finite q) ∧
        0 ≤ q := by
    have hzero : Py.float "0" = some (.finite 0) := by decide +kernel
    unfold traceRow
    dsimp only
    split_ifs with hempty
    · exact ⟨by decide +kernel, 0, hzero, le_rfl⟩
    · have hdecimal := (windowState_loss args c).resolve_left hempty
      refine ⟨oneLine_isDecimal hdecimal, ?_⟩
      have hread := Py.float_isDecimal hdecimal
      rwa [String.ofList_toList] at hread
  refine ⟨⟨by rw [htime, hvalue], ?_, hloss.2, hlimit, ?_⟩, hvalue⟩
  · exact ⟨_, _, Py.int_toString_of_nonneg hdelay, Py.int_toString_of_nonneg hjitter, hdelay, hjitter,
      windowState_jitter args c⟩
  · have hnoteLine : OneLine (traceRow args idx (windowState args c) note).note := by
      unfold traceRow
      dsimp only
      split_ifs
      · decide +kernel
      · exact hnote
    simp only [TraceRow.fields, List.forall_mem_cons]
    exact ⟨oneLine_int _, oneLine_int _, oneLine_int _, hloss.1, hrateLine, hlimitLine, hnoteLine,
      by simp⟩

end Rows

theorem oneLine_windowNote (b : Bins) (idx : ℤ) : OneLine (windowNote b idx) := by
  refine oneLine_intercalate fun text htext => ?_
  obtain ⟨n, _, rfl⟩ := List.mem_map.mp htext
  exact oneLine_note n

theorem maxBin_nonneg (b : Bins) : 0 ≤ maxBin b := by
  have hmax : ∀ (keys : List ℤ) (m : ℤ), m ≤ keys.foldl max m := by
    intro keys
    induction keys with
    | nil => exact fun m => le_rfl
    | cons k keys ih => exact fun m => (le_max_left m k).trans (ih (max m k))
  have hkeys : ∀ (keyss : List (List ℤ)) (m : ℤ),
      m ≤ keyss.foldl (fun m keys => keys.foldl max m) m := by
    intro keyss
    induction keyss with
    | nil => exact fun m => le_rfl
    | cons keys keyss ih => exact fun m => (hmax keys m).trans (ih _)
  exact hkeys _ 0

section Windows
variable (pstdev : List ℚ → ℚ) (rateSource : RateSource) (b : Bins) {args : Args} {last : ℤ}

theorem rowOf_sound (hw : 1 ≤ args.windowMs) {e : ℕ × WindowState}
    (he : e.2 = stateAt pstdev args rateSource b e.1) :
    (rowOf args b e).Sound ∧ (rowOf args b e).time = e.1 * args.windowMs := by
  have hat : 0 ≤ (e.1 : ℤ) * args.windowMs := mul_nonneg (Int.natCast_nonneg _) (by omega)
  rw [rowOf, he]
  exact traceRow_sound hat (oneLine_windowNote b e.1)

/-- The rows of the window loop. -/
theorem windowRows_sound (hw : 1 ≤ args.windowMs) (hlast : 0 ≤ last) :
    SoundTrace (windowRows pstdev args rateSource b last) ∧
      (windowRows pstdev args rateSource b last).Pairwise fun row row' => row.time < row'.time := by
  have htracks : ChangeLog.Tracks (stateAt pstdev args rateSource b) (Forced b) (last + 1).toNat
    (changes pstdev args rateSource b (last + 1).toNat) := ChangeLog.tracks_upTo _
  have hhead : (changes pstdev args rateSource b (last + 1).toNat).entries.head? =
      some (0, stateAt pstdev args rateSource b 0) := ChangeLog.head?_upTo (by omega) (.inl rfl)
  have hsound : ∀ e ∈ (changes pstdev args rateSource b (last + 1).toNat).entries,
      (rowOf args b e).Sound ∧ (rowOf args b e).time = e.1 * args.windowMs := fun e he =>
    rowOf_sound pstdev rateSource b hw (htracks.below e he).2
  have hincreasing : ((changes pstdev args rateSource b (last + 1).toNat).entries.map
      (rowOf args b)).Pairwise fun row row' => row.time < row'.time := by
    rw [List.pairwise_map]
    refine htracks.increasing.imp_of_mem fun {e e'} he he' hlt => ?_
    rw [(hsound e he).2, (hsound e' he').2]
    exact Int.mul_lt_mul_of_pos_right (Int.ofNat_lt.mpr hlt) (by omega)
  rw [windowRows_changeLog]
  refine ⟨⟨fun row hrow => ?_, ?_, hincreasing.imp le_of_lt⟩, hincreasing⟩
  · obtain ⟨e, he, rfl⟩ := List.mem_map.mp hrow
    exact (hsound e he).1
  · rw [List.head?_map, hhead, Option.map_some, Option.map_some,
      (rowOf_sound pstdev rateSource b hw rfl).2, Nat.cast_zero, zero_mul]

end Windows

/-- **The window tool writes sound traces**, one row a time. -/
theorem buildTrace_sound {pstdev : List ℚ → ℚ} {args : Args} {logs : Logs} {rows : List TraceRow}
    (hw : 1 ≤ args.windowMs) (h : buildTrace pstdev args logs = .ok rows) :
    SoundTrace rows ∧ rows.Pairwise fun row row' => row.time < row'.time := by
  obtain ⟨inputs, _, h⟩ := Except.bind_eq_ok.mp h
  obtain ⟨b, _, h⟩ := Except.bind_eq_ok.mp h
  dsimp only at h
  split_ifs at h
  cases h
  exact windowRows_sound pstdev inputs.rateSource b hw (maxBin_nonneg b)

end Window

/-! ## Replaying -/

/-- A trace that the replay accepts, unless a field is too long for the reader. -/
structure Replayable (rows : List TraceRow) : Prop where
  nonempty : rows ≠ []
  sound : SoundTrace rows
  accepted : Fits rows →
    ∀ path, Replay.readTrace path (traceFile rows) = .ok (rows.map TraceRow.toRow)
  commands : ∀ (floatText : Py.Float → String) (args : Replay.Args), ∀ row ∈ rows, ∀ operation,
    (∃ cmd, Replay.rowCommand floatText args row.toRow operation = .ok cmd) ∧
      ∀ run e, Replay.applyRow floatText args run row.toRow operation = .error e →
        e = .calledProcessError

theorem SoundTrace.replayable {rows : List TraceRow} (h : SoundTrace rows) : Replayable rows where
  nonempty := by
    rintro rfl
    cases h.start
  sound := h
  accepted := fun hfits path => Replay.readTrace_traceFile h hfits path
  commands := fun floatText args row hrow operation =>
    ⟨Replay.rowCommand_ok floatText args (h.sound row hrow) operation,
      fun run e he => Replay.applyRow_error floatText args (h.sound row hrow) run operation e he⟩

/-! ## A note that is too long -/

def freezeRow : Row := .full [("timestamp_ms", "0"), ("freeze_duration_ms", "100")]

/-- A number of freezes of 100 ms at the same time, and a sender row without a size. -/
def freezeLogs (n : ℕ) : Window.Logs where
  packetFeedback := none
  bweTarget := none
  rtpSend := some [.full [("send_time_ms", "0")]]
  receiver := some ⟨none, some (List.replicate n freezeRow)⟩

def freezeInputs : Window.Inputs :=
  ⟨.send, false, [], [], [.full [("send_time_ms", "0")]], [], 0⟩

def freezeNotes (n : ℕ) : DefaultDict ℤ (List Window.Note) :=
  .tally (fun _ => 0) [] (fun notes note => notes ++ [note]) .empty
    (List.replicate n (.freeze 100))

theorem prepare_freezes (n : ℕ) : Window.prepare {} (freezeLogs n) = .ok freezeInputs := by
  rw [show Window.prepare {} (freezeLogs n) = Window.prepare {} (freezeLogs 0) from rfl]
  decide +kernel

theorem freezeLoop_freezes {n : ℕ} (hn : 0 < n) (b : Window.Bins) (hb : b.note = .empty) :
    Window.freezeLoop {} (freezeLogs n).receiver b = .ok { b with note := freezeNotes n } := by
  have htimes : columnInts "timestamp_ms" (List.replicate n freezeRow) = .ok (List.replicate n 0) :=
    readAll_replicate (by decide +kernel) n
  have hread : readAll (Window.readTimed "timestamp_ms" "freeze_duration_ms")
      (List.replicate n freezeRow) = .ok (List.replicate n (0, 100)) :=
    readAll_replicate (by decide +kernel) n
  have hmin : (List.replicate n (0 : ℤ)).min? = some 0 := List.min?_replicate_of_pos hn
  -- every freeze is at the first one, in window 0
  have hfold : ∀ (k : ℕ) (b : Window.Bins),
      (List.replicate k ((0 : ℤ), (100 : ℤ))).foldlM (fun (b : Window.Bins) e =>
        (floorDiv (max 0 (e.1 - 0 + 0)) 50).map fun idx =>
          { b with note := b.note.update idx [] (· ++ [.freeze e.2]) }) b =
      (.ok { b with
        note := .tally (fun _ => 0) [] (fun notes note => notes ++ [note]) b.note
          (List.replicate k (.freeze 100)) } : Except PyError Window.Bins) := by
    intro k
    induction k with
    | zero => exact fun b => rfl
    | succ k ih =>
      intro b
      rw [List.replicate_succ, List.replicate_succ, List.foldlM_cons]
      exact ih { b with note := b.note.update 0 [] (· ++ [.freeze 100]) }
  show (columnInts "timestamp_ms" (List.replicate n freezeRow)).bind _ = _
  rw [htimes]
  simp only [Except.bind, hmin]
  refine scanRows_eq_ok.mpr ⟨_, hread, (hfold n b).trans ?_⟩
  rw [hb]
  rfl

theorem collectBins_freezes {n : ℕ} (hn : 0 < n) :
    Window.collectBins {} freezeInputs (freezeLogs n).receiver =
      .ok { note := freezeNotes n } := by
  have hsize : Window.readTimed "send_time_ms" "payload_size" (.full [("send_time_ms", "0")]) =
      .ok none := by decide +kernel
  have hsend : Window.sendLoop {} freezeInputs {} = .ok {} := by
    have hrows : freezeInputs.sendRows = [.full [("send_time_ms", "0")]] := rfl
    rw [Window.sendLoop, if_pos (.inl rfl), hrows, scanRows, hsize]
    rfl
  have hbefore : Window.collectBins {} freezeInputs (freezeLogs n).receiver =
      (Window.sendLoop {} freezeInputs {}).bind fun b =>
        Window.freezeLoop {} (freezeLogs n).receiver (Window.lossBins {} freezeInputs b) := rfl
  rw [hbefore, hsend]
  exact freezeLoop_freezes hn {} rfl

theorem length_freezeNote {n : ℕ} {b : Window.Bins} (hb : b.note = freezeNotes (n + 1)) :
    (Window.windowNote b 0).length = 13 * n + 12 := by
  have hfilter : (List.replicate (n + 1) (Window.Note.freeze 100)).filter
      (fun _ => decide ((0 : ℤ) = 0)) = List.replicate (n + 1) (.freeze 100) := by
    rw [List.filter_eq_self]
    exact fun _ _ => rfl
  have hnotes : b.note.get? 0 = some (List.replicate (n + 1) (.freeze 100)) := by
    rw [hb, freezeNotes, DefaultDict.get?_collect, hfilter, if_neg]
    exact List.cons_ne_nil _ _
  have hlength : ∀ k : ℕ, (";".intercalate (List.replicate (k + 1) "freeze:100ms")).length =
      13 * k + 12 := by
    intro k
    induction k with
    | zero => decide +kernel
    | succ k ih =>
      rw [List.replicate_succ, List.replicate_succ, String.intercalate_cons_cons,
        ← List.replicate_succ, String.length_append, String.length_append, ih,
        show "freeze:100ms".length = 12 by decide +kernel, show ";".length = 1 by decide +kernel]
      omega
  rw [Window.windowNote, hnotes, Option.getD_some, List.map_replicate,
    show (Window.Note.freeze 100).text = "freeze:100ms" by decide +kernel, hlength]

/-- From 10083 freezes on, the replay rejects what the builder wrote. -/
theorem readTrace_freezes {n : ℕ} (hn : 10082 ≤ n) :
    ∃ rows, Window.buildTrace (fun _ => 0) {} (freezeLogs (n + 1)) = .ok rows ∧
      ∀ path, Replay.readTrace path (traceFile rows) = .error (Replay.csvError .fieldTooLarge) := by
  obtain ⟨b, hb⟩ : ∃ b : Window.Bins, b = { note := freezeNotes (n + 1) } := ⟨_, rfl⟩
  have hnote : (Window.windowNote b 0).length = 13 * n + 12 := length_freezeNote (hb ▸ rfl)
  have hsound : SoundTrace (Window.windowRows (fun _ => 0) {} .send b (Window.maxBin b)) :=
    (Window.windowRows_sound _ _ b (by decide) (Window.maxBin_nonneg b)).1
  -- the row of window 0 is there, with all of the notes
  obtain ⟨row, hrow, hrowNote⟩ :
      ∃ row ∈ Window.windowRows (fun _ => 0) {} .send b (Window.maxBin b),
        row.note = Window.windowNote b 0 := by
    have hmax := Window.maxBin_nonneg b
    have htracks : ChangeLog.Tracks (Window.stateAt (fun _ => 0) {} .send b) (Window.Forced b)
      (Window.maxBin b + 1).toNat _ := ChangeLog.tracks_upTo _
    have hforced := htracks.forced 0 (by omega) (.inl rfl)
    rw [Window.windowRows_changeLog]
    refine ⟨_, List.mem_map_of_mem hforced, if_neg fun hempty => ?_⟩
    have hzero : (Window.windowNote b 0).length = 0 := by
      rw [show Window.windowNote b 0 = "" from hempty]
      rfl
    omega
  have hlong : ¬ Fits (Window.windowRows (fun _ => 0) {} .send b (Window.maxBin b)) := by
    intro hfits
    have hle := hfits row hrow row.note (by simp [TraceRow.fields])
    rw [hrowNote, hnote, Replay.fieldSizeLimit] at hle
    omega
  refine ⟨_, ?_, fun path => Replay.readTrace_too_long hsound.sound hlong path⟩
  rw [Window.buildTrace, prepare_freezes]
  show (Window.collectBins {} freezeInputs (freezeLogs (n + 1)).receiver).bind _ = _
  rw [collectBins_freezes (Nat.succ_pos n), ← hb]
  exact if_neg (List.ne_nil_of_mem hrow)

/-! ## Both tools -/

/-- **Every trace a builder writes can be replayed**, if no field is too long for the reader. -/
theorem traces_replayable :
    (∀ pstdev args logs rows, 1 ≤ args.windowMs → Window.buildTrace pstdev args logs = .ok rows →
      Replayable rows ∧ rows.Pairwise fun row row' => row.time < row'.time) ∧
    ∀ args logs rows, 0 ≤ args.minDelayMs → args.minDelayMs ≤ args.maxDelayMs →
      Packet.buildPacketTrace args logs = .ok rows → Replayable rows := by
  refine ⟨fun pstdev args logs rows hw h => ?_, fun args logs rows hmin hmax h => ?_⟩
  · obtain ⟨hsound, hincreasing⟩ := Window.buildTrace_sound hw h
    exact ⟨hsound.replayable, hincreasing⟩
  · exact (Packet.buildPacketTrace_sound hmin hmax h).replayable

/-- Delays of 10 ms and 60 ms, two windows apart, and a freeze in the first window. -/
def freezeDelayLogs : Window.Logs where
  packetFeedback := some [.full [("send_time_ms", "0"), ("recv_time_ms", "10"), ("size_bytes", "1000")],
    .full [("send_time_ms", "50"), ("recv_time_ms", "110"), ("size_bytes", "1000")]]
  bweTarget := none
  rtpSend := none
  receiver := some ⟨none, some [freezeRow]⟩

def freezeDelayTrace : List TraceRow :=
  [⟨"0", "0", "0", "0", "350", "1000", "freeze:100ms"⟩, ⟨"100", "50", "0", "0", "350", "1000", "baseline"⟩]

def packetLogs : Packet.Logs where
  rtpSend := some [.full [("seq_num", "1"), ("send_time_ms", "100"), ("is_audio", "0")],
    .full [("seq_num", "2"), ("send_time_ms", "140"), ("is_audio", "0")]]
  packetBufferInserts := some [.full [("seq_num", "1"), ("timestamp_ms", "130")],
    .full [("seq_num", "2"), ("timestamp_ms", "230")]]

def packetTrace : List TraceRow :=
  [⟨"0", "0", "0", "0", "", "", "pkt:ssrc=-1,seq=1,rtp=-1,n=1"⟩,
    ⟨"40", "57", "0", "0", "", "", "pkt:ssrc=-1,seq=2,rtp=-1,n=1"⟩]

theorem traces_replayable_two_rows :
    (Window.buildTrace (fun _ => 0) {} freezeDelayLogs = .ok freezeDelayTrace ∧
      Replay.readTrace "trace.csv" (traceFile freezeDelayTrace) =
        .ok (freezeDelayTrace.map TraceRow.toRow)) ∧
    Packet.buildPacketTrace {} packetLogs = .ok packetTrace ∧
      Replay.readTrace "trace.csv" (traceFile packetTrace) =
        .ok (packetTrace.map TraceRow.toRow) := by
  have hdelays : Window.buildTrace (fun _ => 0) {} freezeDelayLogs = .ok freezeDelayTrace := by
    decide +kernel
  have hpacket : Packet.buildPacketTrace {} packetLogs = .ok packetTrace := by decide +kernel
  have hwindow := (traces_replayable.1 _ {} _ _ (by decide) hdelays).1
  have hpackets := traces_replayable.2 {} _ _ (by decide) (by decide) hpacket
  refine ⟨⟨hdelays, hwindow.accepted ?_ _⟩, hpacket, hpackets.accepted ?_ _⟩
  · unfold Fits
    decide +kernel
  · unfold Fits
    decide +kernel

theorem long_note_rejected :
    ∃ rows, Window.buildTrace (fun _ => 0) {} (freezeLogs 10083) = .ok rows ∧
      ∀ path, Replay.readTrace path (traceFile rows) =
        .error (.csvError "field larger than field limit (131072)") :=
  readTrace_freezes (Nat.le_refl 10082)

end WebrtcTrace.TraceTools
