import WebrtcTrace.TraceTools.WindowTrace
import Mathlib.Algebra.BigOperators.Group.List.Basic
import Mathlib.Tactic.Linarith

/-! # The byte accounting of the feedback mode

In the feedback mode two loops fill `acked_bins` and `acked_send_bins` from the same rows: the delay
loop always, the acked loop if the rate or the loss needs the bins. So the bins hold every row once if
nothing needs them, and twice if something does (`byte_accounting_iff`).
-/

namespace WebrtcTrace.TraceTools.Window
set_option autoImplicit false

/-! ## Windows and sums -/

/-- The window of a time. -/
def windowOf (windowMs ms : ℤ) : ℤ := max 0 (ms.fdiv windowMs)

def recvWindow (args : Args) (inputs : Inputs) (f : Feedback) : ℤ :=
  windowOf args.windowMs (f.recvTime - inputs.originMs)

def sendWindow (args : Args) (inputs : Inputs) (f : Feedback) : ℤ :=
  windowOf args.windowMs (f.sendTime - inputs.originMs)

/-- The `size_bytes` of the rows in a window. -/
def bytesIn (window : Feedback → ℤ) (fs : List Feedback) (idx : ℤ) : ℤ :=
  ((fs.filter (window · = idx)).map Feedback.sizeBytes).sum

/-- The window of a `rtp_send` row, read as its `send_time_ms` and its `payload_size`. -/
def sentWindow (args : Args) (inputs : Inputs) (e : ℤ × ℤ) : ℤ :=
  windowOf args.windowMs (e.1 - inputs.originMs)

/-- The `payload_size` of the `rtp_send` rows in a window. -/
def sentIn (args : Args) (inputs : Inputs) (sent : List (ℤ × ℤ)) (idx : ℤ) : ℤ :=
  ((sent.filter (sentWindow args inputs · = idx)).map Prod.snd).sum

theorem windowIndex_eq_ok {windowMs ms idx : ℤ} (h : windowIndex windowMs ms = .ok idx) :
    windowOf windowMs ms = idx := by
  unfold windowIndex floorDiv at h
  split_ifs at h
  · cases h
  · exact Except.ok.inj h

theorem foldl_add {α : Type} (size : α → ℤ) (xs : List α) (n : ℤ) :
    xs.foldl (fun n x => n + size x) n = n + (xs.map size).sum := by
  induction xs generalizing n with
  | nil => simp
  | cons x xs ih =>
    rw [List.foldl_cons, ih, List.map_cons, List.sum_cons]
    omega

/-- A dictionary of sums, after one more loop over the rows. -/
theorem getD_tally_add {α : Type} (window : α → ℤ) (size : α → ℤ) (d : DefaultDict ℤ ℤ)
    (xs : List α) (idx : ℤ) :
    ((DefaultDict.tally window 0 (fun n x => n + size x) d xs).get? idx).getD 0 =
      (d.get? idx).getD 0 + ((xs.filter (window · = idx)).map size).sum := by
  rw [DefaultDict.getD_tally, foldl_add]

/-! ## The loops -/

/-- The bins of bytes and of losses. -/
def Bins.ledger (b : Bins) : DefaultDict ℤ ℤ × DefaultDict ℤ ℤ × DefaultDict ℤ ℤ × DefaultDict ℤ ℚ :=
  (b.acked, b.ackedSend, b.send, b.loss)

/-- The bins of bytes after one pass over the counted rows. -/
def Bins.counted (args : Args) (inputs : Inputs) (fs : List Feedback) (b : Bins) :
    DefaultDict ℤ ℤ × DefaultDict ℤ ℤ × DefaultDict ℤ ℤ × DefaultDict ℤ ℚ :=
  (.tally (recvWindow args inputs) 0 (fun n f => n + f.sizeBytes) b.acked fs,
    .tally (sendWindow args inputs) 0 (fun n f => n + f.sizeBytes) b.ackedSend fs, b.send, b.loss)

section Loops
variable {args : Args} {inputs : Inputs} {b b' : Bins}

theorem foldlM_counted {step : Bins → Feedback → Except PyError Bins}
    (hstep : ∀ b f b', step b f = .ok b' → b'.ledger =
      (b.acked.update (recvWindow args inputs f) 0 (· + f.sizeBytes),
        b.ackedSend.update (sendWindow args inputs f) 0 (· + f.sizeBytes), b.send, b.loss))
    (fs : List Feedback) (h : fs.foldlM step b = .ok b') : b'.ledger = b.counted args inputs fs := by
  induction fs generalizing b with
  | nil =>
    cases h
    rfl
  | cons f fs ih =>
    rw [List.foldlM_cons] at h
    obtain ⟨mid, hmid, h⟩ := Except.bind_eq_ok.mp h
    have hledger := hstep b f mid hmid
    simp only [Bins.ledger, Prod.mk.injEq] at hledger
    obtain ⟨hacked, hackedSend, hsend, hloss⟩ := hledger
    rw [ih h, Bins.counted, hacked, hackedSend, hsend, hloss]
    rfl

/-- The delay loop counts every row. -/
theorem feedbackLoop_counted (h : feedbackLoop args inputs b = .ok b') :
    ∃ fs, readAll readFeedback inputs.packetFeedbackRows = .ok fs ∧
      b'.ledger = b.counted args inputs fs := by
  obtain ⟨fs, hfs, h⟩ := scanRows_eq_ok.mp h
  refine ⟨fs, hfs, foldlM_counted (fun b f b' hf => ?_) fs h⟩
  obtain ⟨idx, hidx, hf⟩ := Except.bind_eq_ok.mp hf
  obtain ⟨sendIdx, hsendIdx, rfl⟩ := Except.map_eq_ok.mp hf
  rw [recvWindow, sendWindow, windowIndex_eq_ok hidx, windowIndex_eq_ok hsendIdx]
  rfl

/-- The acked loop counts every row, once it runs. -/
theorem ackedLoop_counted {fs : List Feedback}
    (hfs : readAll readFeedback inputs.packetFeedbackRows = .ok fs)
    (h : ackedLoop args inputs b = .ok b') :
    b'.ledger = if inputs.rateSource = .acked ∨ inputs.disableLoss = false then
      b.counted args inputs fs else b.ledger := by
  unfold ackedLoop at h
  split_ifs at h ⊢
  · obtain ⟨fs', hfs', h⟩ := scanRows_eq_ok.mp h
    obtain rfl : fs = fs' := Except.ok.inj (hfs.symm.trans hfs')
    refine foldlM_counted (fun b f b' hf => ?_) fs h
    obtain ⟨idx, hidx, hf⟩ := Except.bind_eq_ok.mp hf
    obtain ⟨sendIdx, hsendIdx, rfl⟩ := Except.map_eq_ok.mp hf
    rw [recvWindow, sendWindow, windowIndex_eq_ok hidx, windowIndex_eq_ok hsendIdx]
    rfl
  · cases h
    rfl

theorem adjustDelays_ledger (h : adjustDelays args b = .ok b') : b'.ledger = b.ledger := by
  obtain ⟨base, _, rfl⟩ := Except.map_eq_ok.mp h
  split_ifs <;> rfl

theorem bweLoop_ledger (h : bweLoop args inputs b = .ok b') : b'.ledger = b.ledger := by
  rw [bweLoop_frame h]
  rfl

theorem freezeLoop_ledger {receiver : Option ReceiverLogs}
    (h : freezeLoop args receiver b = .ok b') : b'.ledger = b.ledger := by
  rw [freezeLoop_frame h]
  rfl

/-- The send loop, when the loss needs it. -/
theorem sendLoop_ledger (h : sendLoop args inputs b = .ok b') :
    (b'.acked = b.acked ∧ b'.ackedSend = b.ackedSend ∧ b'.loss = b.loss) ∧
      (inputs.disableLoss = false →
        ∃ sent, readAll (readTimed "send_time_ms" "payload_size") inputs.sendRows = .ok sent ∧
          b'.send = .tally (sentWindow args inputs) 0 (fun n e => n + e.2) b.send sent) := by
  have hframe := sendLoop_frame h
  refine ⟨⟨?_, ?_, ?_⟩, fun hloss => ?_⟩
  · rw [hframe]
  · rw [hframe]
  · rw [hframe]
  · unfold sendLoop at h
    rw [if_pos (.inr hloss)] at h
    obtain ⟨sent, hsent, hfold⟩ := scanRows_eq_ok.mp h
    refine ⟨sent, hsent, ?_⟩
    clear h hframe hsent
    induction sent generalizing b with
    | nil =>
      cases hfold
      rfl
    | cons e sent ih =>
      rw [List.foldlM_cons] at hfold
      obtain ⟨mid, hmid, hfold⟩ := Except.bind_eq_ok.mp hfold
      obtain ⟨idx, hidx, rfl⟩ := Except.map_eq_ok.mp hmid
      rw [ih hfold, ← windowIndex_eq_ok hidx]
      rfl

theorem get?_lossBins (hloss : inputs.disableLoss = false) (hempty : b.loss = .empty) (idx : ℤ) :
    (lossBins args inputs b).loss.get? idx =
      if 0 < (b.send.get? idx).getD 0 then
        some (lossPct args ((b.ackedSend.get? idx).getD 0) ((b.send.get? idx).getD 0)) else none := by
  rw [lossBins, if_neg (by simp [hloss])]
  show (b.send.entries.foldl _ b.loss).get? idx = _
  rw [DefaultDict.get?_foldl_set (fun e => e.2 ≤ 0) _ 0 idx b.send.distinct, hempty,
    DefaultDict.get?_empty]
  cases hfind : b.send.entries.find? fun e => decide (e.1 = idx) with
  | none => simp [DefaultDict.get?, hfind]
  | some e =>
    have hkey : e.1 = idx := by simpa using List.find?_some hfind
    subst hkey
    by_cases hsent : e.2 ≤ 0
    · simp [DefaultDict.get?, hfind, hsent, hsent.not_gt]
    · simp [DefaultDict.get?, hfind, hsent, not_le.mp hsent]

/-! ## What the bins hold when the window loop starts -/

/-- How often a row is counted. -/
def passes (inputs : Inputs) : ℤ :=
  if inputs.rateSource = .acked ∨ inputs.disableLoss = false then 2 else 1

/-- The bins of acked bytes after both loops. -/
theorem passes_counted {fs : List Feedback} {b1 b2 : Bins}
    (h1 : b1.ledger = (Bins.counted args inputs fs {}))
    (h2 : b2.ledger = if inputs.rateSource = .acked ∨ inputs.disableLoss = false then
      b1.counted args inputs fs else b1.ledger) :
    (∀ idx, (b2.acked.get? idx).getD 0 = passes inputs * bytesIn (recvWindow args inputs) fs idx) ∧
      (∀ f ∈ fs, recvWindow args inputs f ∈ b2.acked.keys) ∧
      (∀ idx, (b2.ackedSend.get? idx).getD 0 =
        passes inputs * bytesIn (sendWindow args inputs) fs idx) ∧
      b2.send = .empty ∧ b2.loss = .empty := by
  simp only [Bins.ledger, Bins.counted, Prod.mk.injEq] at h1
  obtain ⟨hacked1, hackedSend1, hsend1, hloss1⟩ := h1
  unfold passes
  split_ifs at h2 ⊢ <;> simp only [Bins.ledger, Bins.counted, Prod.mk.injEq] at h2 <;>
    obtain ⟨hacked, hackedSend, hsend, hloss⟩ := h2 <;>
    refine ⟨fun idx => ?_, fun f hf => ?_, fun idx => ?_, hsend.trans hsend1, hloss.trans hloss1⟩
  · rw [hacked, hacked1, getD_tally_add, getD_tally_add, DefaultDict.get?_empty, bytesIn]
    simp only [Option.getD_none]
    omega
  · rw [hacked]
    exact DefaultDict.mem_keys_tally.mpr (.inr ⟨f, hf, rfl⟩)
  · rw [hackedSend, hackedSend1, getD_tally_add, getD_tally_add, DefaultDict.get?_empty, bytesIn]
    simp only [Option.getD_none]
    omega
  · rw [hacked, hacked1, getD_tally_add, DefaultDict.get?_empty, bytesIn]
    simp only [Option.getD_none]
    omega
  · rw [hacked, hacked1]
    exact DefaultDict.mem_keys_tally.mpr (.inr ⟨f, hf, rfl⟩)
  · rw [hackedSend, hackedSend1, getD_tally_add, DefaultDict.get?_empty, bytesIn]
    simp only [Option.getD_none]
    omega

theorem collectBins_counted {receiver : Option ReceiverLogs} (hmode : args.delaySource = .feedback)
    (h : collectBins args inputs receiver = .ok b) :
    ∃ fs, readAll readFeedback inputs.packetFeedbackRows = .ok fs ∧
      (∀ idx, (b.acked.get? idx).getD 0 =
        passes inputs * bytesIn (recvWindow args inputs) fs idx) ∧
      (∀ f ∈ fs, recvWindow args inputs f ∈ b.acked.keys) ∧
      (∀ idx, (b.ackedSend.get? idx).getD 0 =
        passes inputs * bytesIn (sendWindow args inputs) fs idx) ∧
      (inputs.disableLoss = false → ∃ sent,
        readAll (readTimed "send_time_ms" "payload_size") inputs.sendRows = .ok sent ∧
        ∀ idx, b.loss.get? idx = if 0 < sentIn args inputs sent idx then
          some (lossPct args ((b.ackedSend.get? idx).getD 0) (sentIn args inputs sent idx))
          else none) := by
  obtain ⟨b1, b2, b3, b4, b5, hsamples, h2, h3, h4, h5, h6⟩ := collectBins_stages h
  have h1 : feedbackLoop args inputs {} = .ok b1 := by
    obtain ⟨_, h1⟩ | ⟨hother, _⟩ := hsamples
    · exact h1
    · rw [hmode] at hother
      cases hother
  obtain ⟨fs, hfs, hcounted⟩ := feedbackLoop_counted h1
  obtain ⟨hacked, hkeys, hackedSend, hsend2, hloss2⟩ :=
    passes_counted hcounted (ackedLoop_counted hfs h2)
  -- from the acked loop on, only the send loop and the loss bins write to the ledger
  have hkept := (bweLoop_ledger h4).trans (adjustDelays_ledger h3)
  obtain ⟨⟨hacked5, hackedSend5, hloss5⟩, hsent⟩ := sendLoop_ledger h5
  have hlast := freezeLoop_ledger h6
  simp only [Bins.ledger, Prod.mk.injEq] at hkept hlast
  obtain ⟨hacked4, hackedSend4, hsend4, hloss4⟩ := hkept
  obtain ⟨hacked6, hackedSend6, hsend6, hloss6⟩ := hlast
  have hackedLast : b.acked = b2.acked := by
    rw [hacked6, ← hacked4, ← hacked5, lossBins_frame]
  have hackedSendLast : b.ackedSend = b5.ackedSend := by
    rw [hackedSend6, lossBins_frame]
  refine ⟨fs, hfs, hackedLast ▸ hacked, hackedLast ▸ hkeys, ?_, fun hloss => ?_⟩
  · rw [hackedSendLast, hackedSend5, hackedSend4]
    exact hackedSend
  · obtain ⟨sent, hread, hsend5⟩ := hsent hloss
    refine ⟨sent, hread, fun idx => ?_⟩
    have hsentIn : (b5.send.get? idx).getD 0 = sentIn args inputs sent idx := by
      rw [hsend5, hsend4, hsend2, getD_tally_add]
      simp [sentIn]
    rw [hloss6, get?_lossBins hloss (hloss5.trans (hloss4.trans hloss2)), hsentIn, hackedSendLast]

end Loops

/-! ## Each row once -/

/-- The byte accounting as it is meant: sums over the counted rows, each once, and the rate and the
loss that follow from them. -/
structure AccountedOnce (args : Args) (inputs : Inputs) (fs : List Feedback) (b : Bins) : Prop where
  acked : inputs.rateSource = .acked →
    ∀ idx, (b.acked.get? idx).getD 0 = bytesIn (recvWindow args inputs) fs idx
  ackedSend : ∀ idx, (b.ackedSend.get? idx).getD 0 = bytesIn (sendWindow args inputs) fs idx
  rate : inputs.rateSource = .acked → ∀ previousRate, ∀ f ∈ fs,
    measuredRate args inputs.rateSource b previousRate (recvWindow args inputs f) =
      some (byteRate args (bytesIn (recvWindow args inputs) fs (recvWindow args inputs f)))
  loss : inputs.disableLoss = false → ∃ sent,
    readAll (readTimed "send_time_ms" "payload_size") inputs.sendRows = .ok sent ∧
    ∀ idx, b.loss.get? idx = if 0 < sentIn args inputs sent idx then
      some (lossPct args (bytesIn (sendWindow args inputs) fs idx) (sentIn args inputs sent idx))
      else none

/-- **When every row is counted once.** Either neither the rate nor the loss needs the acked bins, or
there is nothing to count twice: the bytes of every send window, and of every receive window if the
rate reads them, add up to 0. -/
theorem byte_accounting_iff {args : Args} {inputs : Inputs} {receiver : Option ReceiverLogs}
    {b : Bins} (hmode : args.delaySource = .feedback)
    (h : collectBins args inputs receiver = .ok b) :
    ∃ fs, readAll readFeedback inputs.packetFeedbackRows = .ok fs ∧
      (AccountedOnce args inputs fs b ↔
        (inputs.rateSource ≠ .acked ∧ inputs.disableLoss = true) ∨
          ((∀ idx, bytesIn (sendWindow args inputs) fs idx = 0) ∧
            (inputs.rateSource = .acked → ∀ idx, bytesIn (recvWindow args inputs) fs idx = 0))) := by
  obtain ⟨fs, hfs, hacked, hkeys, hackedSend, hloss⟩ := collectBins_counted hmode h
  refine ⟨fs, hfs, fun honce => ?_, fun hcond => ?_⟩
  · by_cases hneeded : inputs.rateSource = .acked ∨ inputs.disableLoss = false
    · have hpasses : passes inputs = 2 := if_pos hneeded
      rw [hpasses] at hacked hackedSend
      refine .inr ⟨fun idx => ?_, fun hrate idx => ?_⟩
      · have honceIdx := honce.ackedSend idx
        have htwice := hackedSend idx
        omega
      · have honceIdx := honce.acked hrate idx
        have htwice := hacked idx
        omega
    · rw [not_or, Bool.not_eq_false] at hneeded
      exact .inl hneeded
  · have hsend : ∀ idx, (b.ackedSend.get? idx).getD 0 = bytesIn (sendWindow args inputs) fs idx := by
      intro idx
      rw [hackedSend]
      obtain ⟨hrate, hdisabled⟩ | ⟨hzero, _⟩ := hcond
      · rw [passes, if_neg (by simp [hrate, hdisabled]), one_mul]
      · rw [hzero, mul_zero]
    have hrecv : inputs.rateSource = .acked →
        ∀ idx, (b.acked.get? idx).getD 0 = bytesIn (recvWindow args inputs) fs idx := by
      intro hrate idx
      rw [hacked]
      obtain ⟨hother, _⟩ | ⟨_, hzero⟩ := hcond
      · exact absurd hrate hother
      · rw [hzero hrate, mul_zero]
    refine ⟨hrecv, hsend, fun hrate previousRate f hf => ?_, fun hdisabled => ?_⟩
    · obtain ⟨bytes, hbytes⟩ := DefaultDict.mem_keys.mp (hkeys f hf)
      have hsum := hrecv hrate (recvWindow args inputs f)
      rw [hbytes, Option.getD_some] at hsum
      rw [hrate, measuredRate, hbytes, Option.elim_some, hsum]
    · obtain ⟨sent, hsent, hbins⟩ := hloss hdisabled
      refine ⟨sent, hsent, fun idx => ?_⟩
      rw [hbins, hsend]

/-! ### On one log -/

def feedbackRow (sendTime recvTime sizeBytes : String) : Row :=
  .full [("send_time_ms", sendTime), ("recv_time_ms", recvTime), ("size_bytes", sizeBytes)]

/-- With the default options one row of 1000 bytes counts as 2000. -/
theorem feedback_row_counted_twice :
    ∃ inputs b, prepare {} ⟨some [feedbackRow "0" "10" "1000"], none, none, none⟩ = .ok inputs ∧
      collectBins {} inputs none = .ok b ∧ b.acked.get? 0 = some 2000 ∧
      ∃ fs, readAll readFeedback inputs.packetFeedbackRows = .ok fs ∧
        bytesIn (recvWindow {} inputs) fs 0 = 1000 ∧ ¬ AccountedOnce {} inputs fs b := by
  let inputs : Inputs := ⟨.acked, false, [feedbackRow "0" "10" "1000"], [], [], [], 10⟩
  have hacked : ((collectBins {} inputs none).toOption.map fun b => b.acked.get? 0) =
      some (some 2000) := by decide +kernel
  cases hbins : collectBins {} inputs none with
  | error e =>
    rw [hbins] at hacked
    cases hacked
  | ok b =>
    rw [hbins] at hacked
    have hb : b.acked.get? 0 = some 2000 := Option.some.inj hacked
    refine ⟨inputs, b, by decide +kernel, hbins, hb, [⟨0, 10, 1000⟩], by decide +kernel,
      by decide +kernel, fun honce => ?_⟩
    have hsum := honce.acked rfl 0
    rw [hb] at hsum
    exact absurd hsum (by decide +kernel)

theorem byte_accounting_iff_loss_disabled :
    ∃ b, collectBins { rateSource := .none, disableLoss := true }
        ⟨.none, true, [feedbackRow "0" "10" "1000"], [], [], [], 10⟩ none = .ok b ∧
      AccountedOnce { rateSource := .none, disableLoss := true }
        ⟨.none, true, [feedbackRow "0" "10" "1000"], [], [], [], 10⟩ [⟨0, 10, 1000⟩] b := by
  have hok : (collectBins { rateSource := .none, disableLoss := true }
      ⟨.none, true, [feedbackRow "0" "10" "1000"], [], [], [], 10⟩ none).toOption.isSome = true := by
    decide +kernel
  cases hbins : collectBins { rateSource := .none, disableLoss := true }
      ⟨.none, true, [feedbackRow "0" "10" "1000"], [], [], [], 10⟩ none with
  | error e =>
    rw [hbins] at hok
    cases hok
  | ok b =>
    obtain ⟨fs, hfs, hiff⟩ := byte_accounting_iff rfl hbins
    have hread : readAll readFeedback [feedbackRow "0" "10" "1000"] =
        .ok [⟨0, 10, 1000⟩] := by decide +kernel
    obtain rfl : fs = [⟨0, 10, 1000⟩] := Except.ok.inj (hfs.symm.trans hread)
    exact ⟨b, rfl, hiff.mpr (.inl ⟨by decide, rfl⟩)⟩

end WebrtcTrace.TraceTools.Window
