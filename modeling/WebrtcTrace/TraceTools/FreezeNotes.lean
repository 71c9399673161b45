import WebrtcTrace.TraceTools.WindowTrace

/-! # The windows of the freeze notes

In the receiver-arrival mode packets and freezes are logged by one clock, but the freeze notes are
binned from the earliest freeze and the packets from the origin of the trace. So a note is in the
window of its freeze exactly if the distance of the two origins does not carry it over an edge of that
window (`freeze_note_window_iff`).
-/

namespace WebrtcTrace.TraceTools.Window
set_option autoImplicit false

def freezeRows (logs : Logs) : List Row := logs.receiver.elim [] fun r => readRows r.videoFreeze

/-- The window the freeze loop puts a note in. -/
def noteWindow (args : Args) (freezeOrigin ts : ℤ) : ℤ :=
  (max 0 (ts - freezeOrigin + args.receiverTimeOffsetMs)).fdiv args.windowMs

def Note.freezeDuration : Note → Option ℤ
  | freeze duration => some duration
  | receiverArrivalMatches _ => none

/-- The durations of the freezes noted in a window. -/
def freezesAt (b : Bins) (idx : ℤ) : List ℤ :=
  ((b.note.get? idx).getD []).filterMap Note.freezeDuration

/-! ## The loops before the freeze loop -/

section Loops
variable {args : Args} {inputs : Inputs} {b b' : Bins}

theorem ackedLoop_note (h : ackedLoop args inputs b = .ok b') : b'.note = b.note := by
  unfold ackedLoop at h
  split_ifs at h
  · apply scanRows_keeps _ h
    intro b f b' hf
    obtain ⟨idx, _, hf⟩ := Except.bind_eq_ok.mp hf
    obtain ⟨sendIdx, _, rfl⟩ := Except.map_eq_ok.mp hf
    rfl
  · cases h
    rfl

theorem adjustDelays_note (h : adjustDelays args b = .ok b') : b'.note = b.note := by
  obtain ⟨base, _, rfl⟩ := Except.map_eq_ok.mp h
  split_ifs <;> rfl

theorem matchRow_note {st st' : MatchingLoop} {r : ReceiverPacket}
    (h : matchRow args inputs st r = .ok st') : st'.bins.note = st.bins.note := by
  unfold matchRow at h
  split at h
  · cases h
    rfl
  · obtain ⟨idx, _, rfl⟩ := Except.map_eq_ok.mp h
    rfl

theorem receiverArrivalDelays_freezesAt (h : receiverArrivalDelays args inputs {} = .ok b) (idx : ℤ) :
    freezesAt b idx = [] := by
  obtain ⟨st, hst, h⟩ := Except.bind_eq_ok.mp h
  obtain ⟨indexes, _, hst⟩ := Except.bind_eq_ok.mp hst
  have hnote : st.bins.note = .empty :=
    scanRows_keeps (f := fun st : MatchingLoop => st.bins.note) (fun st r st' => matchRow_note) hst
  split_ifs at h
  cases h
  rw [freezesAt, hnote, DefaultDict.get?_update, DefaultDict.get?_empty]
  split_ifs <;> rfl

/-! ## The freeze loop -/

theorem freezesAt_update (b : Bins) (window duration idx : ℤ) :
    freezesAt { b with note := b.note.update window [] (· ++ [.freeze duration]) } idx =
      freezesAt b idx ++ if window = idx then [duration] else [] := by
  rw [freezesAt, DefaultDict.get?_update]
  by_cases hidx : window = idx
  · subst hidx
    rw [if_pos rfl, if_pos rfl, Option.getD_some, List.filterMap_append]
    rfl
  · have hother : ¬ idx = window := fun h => hidx h.symm
    rw [if_neg hother, if_neg hidx, List.append_nil, freezesAt]

/-- **The freeze loop** notes each freeze in its `noteWindow`, in the order of the log. -/
theorem freezeLoop_freezesAt {receiver : ReceiverLogs} (h : freezeLoop args (some receiver) b = .ok b') :
    ∃ timestamps, columnInts "timestamp_ms" (readRows receiver.videoFreeze) = .ok timestamps ∧
      ∀ freezeOrigin, timestamps.min? = some freezeOrigin → ∃ freezes,
        readAll (readTimed "timestamp_ms" "freeze_duration_ms") (readRows receiver.videoFreeze) =
          .ok freezes ∧
        ∀ idx, freezesAt b' idx = freezesAt b idx ++
          (freezes.filter fun e => noteWindow args freezeOrigin e.1 = idx).map Prod.snd := by
  obtain ⟨timestamps, htimestamps, hloop⟩ := Except.bind_eq_ok.mp h
  clear h
  refine ⟨timestamps, htimestamps, fun freezeOrigin hmin => ?_⟩
  simp only [hmin] at hloop
  obtain ⟨freezes, hfreezes, hfold⟩ := scanRows_eq_ok.mp hloop
  refine ⟨freezes, hfreezes, fun idx => ?_⟩
  clear hloop hfreezes
  induction freezes generalizing b with
  | nil =>
    cases hfold
    rw [List.filter_nil, List.map_nil, List.append_nil]
  | cons e freezes ih =>
    rw [List.foldlM_cons] at hfold
    obtain ⟨mid, hmid, hfold⟩ := Except.bind_eq_ok.mp hfold
    obtain ⟨window, hwindow, rfl⟩ := Except.map_eq_ok.mp hmid
    have hat : noteWindow args freezeOrigin e.1 = window := by
      unfold floorDiv at hwindow
      split_ifs at hwindow
      exact Except.ok.inj hwindow
    rw [ih hfold, freezesAt_update, List.append_assoc, List.filter_cons, hat]
    congr 1
    by_cases hidx : window = idx
    · simp [hidx]
    · simp [hidx]

end Loops

theorem mem_columnInts {timestampKey valueKey : String} {rows : List Row} {timestamps : List ℤ}
    {timed : List (ℤ × ℤ)} (htimestamps : columnInts timestampKey rows = .ok timestamps)
    (htimed : readAll (readTimed timestampKey valueKey) rows = .ok timed) {e : ℤ × ℤ}
    (he : e ∈ timed) : e.1 ∈ timestamps := by
  induction rows generalizing timestamps timed with
  | nil =>
    cases htimed
    cases he
  | cons row rows ih =>
    rw [columnInts, readAll_cons] at htimestamps
    rw [readAll_cons] at htimed
    obtain ⟨ts, hts, htimestamps⟩ := Except.bind_eq_ok.mp htimestamps
    obtain ⟨rest, hrest, rfl⟩ := Except.map_eq_ok.mp htimestamps
    obtain ⟨x, hx, htimed⟩ := Except.bind_eq_ok.mp htimed
    obtain ⟨timedRest, htimedRest, rfl⟩ := Except.map_eq_ok.mp htimed
    apply List.mem_append.mpr
    obtain he | he := List.mem_append.mp he
    · left
      rw [Option.mem_toList] at he
      obtain ⟨ts', hts', hx⟩ := Except.bind_eq_ok.mp hx
      obtain ⟨value, _, hx⟩ := Except.bind_eq_ok.mp hx
      obtain rfl : ts = ts' := Except.ok.inj (hts.symm.trans hts')
      rw [he] at hx
      cases ts with
      | none => cases hx
      | some t =>
        cases value with
        | none => cases hx
        | some v =>
          cases hx
          exact Option.mem_toList.mpr rfl
    · right
      exact ih hrest htimedRest he

/-! ## Two origins -/

/-- The offset of a time in its window does not leave the window when the origin moves. -/
def SameWindow (windowMs origin freezeOrigin ts : ℤ) : Prop :=
  ((ts - origin).fmod windowMs - (freezeOrigin - origin)).fdiv windowMs = 0

instance (windowMs origin freezeOrigin ts : ℤ) : Decidable (SameWindow windowMs origin freezeOrigin ts) :=
  inferInstanceAs (Decidable (_ = _))

theorem fdiv_sub_eq_iff (windowMs origin freezeOrigin ts : ℤ) :
    (ts - freezeOrigin).fdiv windowMs = (ts - origin).fdiv windowMs ↔
      SameWindow windowMs origin freezeOrigin ts := by
  by_cases hw : windowMs = 0
  · subst hw
    simp [SameWindow]
  · have hsplit : ts - freezeOrigin = windowMs * (ts - origin).fdiv windowMs +
        ((ts - origin).fmod windowMs - (freezeOrigin - origin)) := by
      have h := Int.mul_fdiv_add_fmod (ts - origin) windowMs
      omega
    rw [hsplit, Int.mul_add_fdiv_left _ _ hw, SameWindow]
    omega

/-- **When a freeze note is in the window of its freeze.** All freezes of the log are noted, each in
the window of its distance from the earliest one; that is the window of a packet received at the same
time if and only if the distance between the two origins does not move the time out of its window. -/
theorem freeze_note_window_iff {args : Args} {logs : Logs} {inputs : Inputs} {b : Bins}
    (hmode : args.delaySource = .receiverArrival) (hshift : args.arrivalShiftMs = 0)
    (hoffset : args.receiverTimeOffsetMs = 0) (hprepare : prepare args logs = .ok inputs)
    (h : collectBins args inputs logs.receiver = .ok b) :
    ∃ timestamps, columnInts "timestamp_ms" (freezeRows logs) = .ok timestamps ∧
      ∀ freezeOrigin, timestamps.min? = some freezeOrigin → ∃ freezes,
        readAll (readTimed "timestamp_ms" "freeze_duration_ms") (freezeRows logs) = .ok freezes ∧
        (∀ idx, freezesAt b idx =
          (freezes.filter fun e => noteWindow args freezeOrigin e.1 = idx).map Prod.snd) ∧
        ∀ e ∈ freezes, inputs.originMs ≤ e.1 →
          (0 < args.windowMs →
            windowIndex args.windowMs (e.1 - inputs.originMs - args.arrivalShiftMs) =
              .ok ((e.1 - inputs.originMs).fdiv args.windowMs)) ∧
          (noteWindow args freezeOrigin e.1 = (e.1 - inputs.originMs).fdiv args.windowMs ↔
            SameWindow args.windowMs inputs.originMs freezeOrigin e.1) := by
  obtain ⟨b1, b2, b3, b4, b5, hsamples, h2, h3, h4, h5, h6⟩ := collectBins_stages h
  have h1 : receiverArrivalDelays args inputs {} = .ok b1 := by
    obtain ⟨hother, _⟩ | ⟨_, h1⟩ := hsamples
    · rw [hmode] at hother
      cases hother
    · exact h1
  have hreceiver : ∃ receiver, logs.receiver = some receiver := by
    cases hlogs : logs.receiver with
    | some receiver => exact ⟨receiver, rfl⟩
    | none =>
      obtain ⟨rateSource, _, hprepare⟩ := Except.bind_eq_ok.mp hprepare
      simp only [hmode, hlogs] at hprepare
      cases hprepare
  obtain ⟨receiver, hreceiver⟩ := hreceiver
  have hrows : freezeRows logs = readRows receiver.videoFreeze := by rw [freezeRows, hreceiver]; rfl
  have hbefore : ∀ idx, freezesAt (lossBins args inputs b5) idx = [] := by
    intro idx
    have hnote : (lossBins args inputs b5).note = b1.note := by
      rw [lossBins_frame, sendLoop_frame h5, bweLoop_frame h4]
      exact (adjustDelays_note h3).trans (ackedLoop_note h2)
    rw [freezesAt, hnote]
    exact receiverArrivalDelays_freezesAt h1 idx
  rw [hreceiver] at h6
  obtain ⟨timestamps, htimestamps, hloop⟩ := freezeLoop_freezesAt h6
  rw [hrows]
  refine ⟨timestamps, htimestamps, fun freezeOrigin hmin => ?_⟩
  obtain ⟨freezes, hfreezes, hat⟩ := hloop freezeOrigin hmin
  refine ⟨freezes, hfreezes, fun idx => ?_, fun e he horigin => ⟨fun hw => ?_, ?_⟩⟩
  · rw [hat, hbefore, List.nil_append]
  · rw [windowIndex, floorDiv, if_neg hw.ne', hshift, Int.sub_zero]
    have hnonneg : 0 ≤ (e.1 - inputs.originMs).fdiv args.windowMs :=
      Int.fdiv_nonneg (by omega) hw.le
    exact congrArg Except.ok (max_eq_right hnonneg)
  · have hearliest : freezeOrigin ≤ e.1 :=
      (List.min?_eq_some_iff.mp hmin).2 _ (mem_columnInts htimestamps hfreezes he)
    rw [noteWindow, hoffset, Int.add_zero, max_eq_right (by omega), fdiv_sub_eq_iff]

/-! ### On one log -/

def arrivalArgs : Args := { delaySource := .receiverArrival }

/-- One packet, received at 1000 ms, and one freeze. -/
def oneFreeze (freezeAt : String) : Logs where
  packetFeedback := none
  bweTarget := none
  rtpSend := some [.full [("is_audio", "0"), ("packet_type", "1"), ("seq_num", "1"),
    ("send_time_ms", "990"), ("rtp_timestamp", "0"), ("ssrc", "7")]]
  receiver := some
    { packetBufferInserts := some [.full [("seq_num", "1"), ("timestamp_ms", "1000")]]
      videoFreeze := some [.full [("timestamp_ms", freezeAt), ("freeze_duration_ms", "200")]] }

/-- The freeze half a second into the trace is noted in the first window. -/
theorem freeze_noted_in_first_window :
    ∃ inputs b, prepare arrivalArgs (oneFreeze "1500") = .ok inputs ∧
      collectBins arrivalArgs inputs (oneFreeze "1500").receiver = .ok b ∧
      inputs.originMs = 1000 ∧ freezesAt b 0 = [200] ∧
      freezesAt b ((1500 - inputs.originMs).fdiv arrivalArgs.windowMs) = [] := by
  have hrun : ((prepare arrivalArgs (oneFreeze "1500")).toOption.bind fun inputs =>
      (collectBins arrivalArgs inputs (oneFreeze "1500").receiver).toOption.map fun b =>
        (inputs.originMs, freezesAt b 0, freezesAt b 10)) = some (1000, [200], []) := by
    decide +kernel
  obtain ⟨inputs, hinputs, hrun⟩ := Option.bind_eq_some_iff.mp hrun
  obtain ⟨b, hb, hvalues⟩ := Option.map_eq_some_iff.mp hrun
  simp only [Prod.mk.injEq] at hvalues
  obtain ⟨horigin, hfirst, hten⟩ := hvalues
  refine ⟨inputs, b, Except.eq_ok_of_toOption hinputs, Except.eq_ok_of_toOption hb, horigin, hfirst, ?_⟩
  rw [horigin]
  exact hten

/-- A first freeze at the origin itself leaves the two origins the same. -/
theorem freeze_note_window_iff_at_origin :
    ∃ inputs b, prepare arrivalArgs (oneFreeze "1000") = .ok inputs ∧
      collectBins arrivalArgs inputs (oneFreeze "1000").receiver = .ok b ∧
      noteWindow arrivalArgs 1000 1000 = (1000 - inputs.originMs).fdiv 50 := by
  have hrun : ((prepare arrivalArgs (oneFreeze "1000")).toOption.bind fun inputs =>
      (collectBins arrivalArgs inputs (oneFreeze "1000").receiver).toOption.map fun _ =>
        inputs.originMs) = some 1000 := by
    decide +kernel
  obtain ⟨inputs, hinputs, hrun⟩ := Option.bind_eq_some_iff.mp hrun
  obtain ⟨b, hb, horigin⟩ := Option.map_eq_some_iff.mp hrun
  have hprepare := Except.eq_ok_of_toOption hinputs
  have hbins := Except.eq_ok_of_toOption hb
  obtain ⟨timestamps, htimestamps, hloop⟩ := freeze_note_window_iff rfl rfl rfl hprepare hbins
  obtain rfl : [1000] = timestamps :=
    Except.ok.inj ((by decide +kernel : columnInts "timestamp_ms" (freezeRows (oneFreeze "1000")) =
      .ok [1000]).symm.trans htimestamps)
  obtain ⟨freezes, hfreezes, _, hwindow⟩ := hloop 1000 (by decide)
  obtain rfl : [(1000, 200)] = freezes :=
    Except.ok.inj ((by decide +kernel : readAll (readTimed "timestamp_ms" "freeze_duration_ms")
      (freezeRows (oneFreeze "1000")) = .ok [(1000, 200)]).symm.trans hfreezes)
  refine ⟨inputs, b, hprepare, hbins, ?_⟩
  apply (hwindow (1000, 200) (List.mem_singleton_self _) (by rw [horigin])).2.mpr
  rw [horigin]
  decide +kernel

end WebrtcTrace.TraceTools.Window
