import WebrtcTrace.TraceTools.WindowRows

/-! # The jitter a window is given

The window loop takes a window's jitter from `jitter_bins`, which has no entry for a window of one
sample, and keeps the earlier jitter where there is none. So a window of one sample does not get the
jitter 0 that `pstdev(...) if len(...) > 1 else 0.0` would give it, but that of the last window of
several samples (`jitterAt_eq`).
-/

namespace WebrtcTrace.TraceTools.Window
set_option autoImplicit false

/-! ## The jitter bins -/

/-- The entry of `jitter_bins` for the adjusted samples of a window. -/
def severalSamples (samples : List ℚ) : Option (List ℚ) :=
  if 1 < samples.length then some samples else none

/-- The bins before the delays are adjusted. -/
structure Collecting (b : Bins) : Prop where
  jitter : b.jitter = .empty
  delay : b.allDelaySamples = [] → b.delay = .empty

def JitterOfDelay (b : Bins) : Prop := b.jitter = b.delay.filterMapValues severalSamples

theorem Collecting.initial : Collecting {} := ⟨rfl, fun _ => rfl⟩

theorem Collecting.addSample {b : Bins} (h : Collecting b) (idx : ℤ) (sampleDelay : ℚ) :
    Collecting (b.addSample idx sampleDelay) :=
  ⟨h.jitter, fun hnil => absurd hnil (List.append_ne_nil_of_right_ne_nil _ (List.cons_ne_nil _ _))⟩

section Loops
variable {args : Args} {inputs : Inputs} {b b' : Bins}

theorem feedbackLoop_collecting (hb : Collecting b) (h : feedbackLoop args inputs b = .ok b') :
    Collecting b' := by
  apply scanRows_preserves _ hb h
  intro b f b' hb hf
  obtain ⟨idx, _, hf⟩ := Except.bind_eq_ok.mp hf
  obtain ⟨sendIdx, _, rfl⟩ := Except.map_eq_ok.mp hf
  have hsample := hb.addSample idx ((f.recvTime - f.sendTime : ℤ) : ℚ)
  exact ⟨hsample.jitter, hsample.delay⟩

theorem matchRow_collecting {st st' : MatchingLoop} {r : ReceiverPacket} (hst : Collecting st.bins)
    (h : matchRow args inputs st r = .ok st') : Collecting st'.bins := by
  unfold matchRow at h
  split at h
  · cases h
    exact hst
  · obtain ⟨idx, _, rfl⟩ := Except.map_eq_ok.mp h
    exact hst.addSample idx _

theorem receiverArrivalDelays_collecting (hb : Collecting b)
    (h : receiverArrivalDelays args inputs b = .ok b') : Collecting b' := by
  obtain ⟨st, hst, h⟩ := Except.bind_eq_ok.mp h
  obtain ⟨indexes, _, hst⟩ := Except.bind_eq_ok.mp hst
  have hbins : Collecting st.bins := by
    apply scanRows_preserves (P := fun st : MatchingLoop => Collecting st.bins) _ hb hst
    intro st r st' hst' hr
    exact matchRow_collecting hst' hr
  split_ifs at h
  cases h
  exact ⟨hbins.jitter, hbins.delay⟩

theorem ackedLoop_collecting (hb : Collecting b) (h : ackedLoop args inputs b = .ok b') :
    Collecting b' := by
  unfold ackedLoop at h
  split_ifs at h
  · apply scanRows_preserves _ hb h
    intro b f b' hb hf
    obtain ⟨idx, _, hf⟩ := Except.bind_eq_ok.mp hf
    obtain ⟨sendIdx, _, rfl⟩ := Except.map_eq_ok.mp hf
    exact ⟨hb.jitter, hb.delay⟩
  · cases h
    exact hb

theorem adjustDelays_jitter (hb : Collecting b) (h : adjustDelays args b = .ok b') :
    JitterOfDelay b' := by
  obtain ⟨base, _, rfl⟩ := Except.map_eq_ok.mp h
  split_ifs with hnil
  · rw [JitterOfDelay, hb.jitter, hb.delay hnil]
    rfl
  · rfl

/-- **`jitter_bins` when the window loop starts**: the windows of more than one sample. -/
theorem collectBins_jitter {receiver : Option ReceiverLogs}
    (h : collectBins args inputs receiver = .ok b) : JitterOfDelay b := by
  obtain ⟨b1, b2, b3, b4, b5, hsamples, h2, h3, h4, h5, h6⟩ := collectBins_stages h
  have hcollected : Collecting b1 := by
    obtain ⟨_, h1⟩ | ⟨_, h1⟩ := hsamples
    · exact feedbackLoop_collecting .initial h1
    · exact receiverArrivalDelays_collecting .initial h1
  have hjitter : JitterOfDelay b3 := adjustDelays_jitter (ackedLoop_collecting hcollected h2) h3
  rw [JitterOfDelay, freezeLoop_frame h6, lossBins_frame, sendLoop_frame h5, bweLoop_frame h4]
  exact hjitter

end Loops

/-! ## The carried jitter -/

section Carried
variable (pstdev : List ℚ → ℚ) (args : Args) (rateSource : RateSource) (b : Bins)

/-- `previous_jitter` as it enters the quantisation in a window. -/
def jitterAt (idx : ℕ) : ℚ := (carriedAfter pstdev args rateSource b (idx + 1)).previousJitter

/-- The last window of several samples among the first `n`. -/
def lastSeveral (n : ℕ) : Option (List ℚ) :=
  ((List.range n).filterMap fun (j : ℕ) => (b.delay.get? j).bind severalSamples).getLast?

theorem lastSeveral_succ (n : ℕ) :
    lastSeveral b (n + 1) = ((b.delay.get? n).bind severalSamples).or (lastSeveral b n) := by
  rw [lastSeveral, List.range_succ, List.filterMap_append, List.getLast?_append]
  cases h : (b.delay.get? n).bind severalSamples <;> simp [h, lastSeveral]

variable {pstdev args rateSource b}

theorem carryStep_jitter (hb : JitterOfDelay b) (c : Carry) (idx : ℤ) :
    (carryStep pstdev args rateSource b c idx).previousJitter =
      (((b.delay.get? idx).bind severalSamples).map pstdev).getD c.previousJitter := by
  have hget : b.jitter.get? idx = (b.delay.get? idx).bind severalSamples := by
    rw [hb, DefaultDict.get?_filterMapValues]
  simp only [carryStep, hget]
  cases hdelay : b.delay.get? idx with
  | none => rfl
  | some samples =>
    simp only [Option.bind_some, severalSamples]
    split_ifs with hseveral
    · have hne : samples ≠ [] := List.ne_nil_of_length_pos (by omega)
      simp [hne, hseveral]
    · rfl

/-- **The jitter that is carried**: that of the last window of several samples. -/
theorem carriedAfter_jitter (hb : JitterOfDelay b) (n : ℕ) :
    (carriedAfter pstdev args rateSource b n).previousJitter =
      ((lastSeveral b n).map pstdev).getD 0 := by
  induction n with
  | zero => rfl
  | succ n ih =>
    rw [carriedAfter_succ, carryStep_jitter hb, ih, lastSeveral_succ]
    cases (b.delay.get? n).bind severalSamples <;> rfl

theorem jitterAt_eq (hb : JitterOfDelay b) (idx : ℕ) : jitterAt pstdev args rateSource b idx =
    (((b.delay.get? idx).bind severalSamples).map pstdev).getD
      (((lastSeveral b idx).map pstdev).getD 0) := by
  rw [jitterAt, carriedAfter_succ, carryStep_jitter hb, carriedAfter_jitter hb]

end Carried

/-! ## The jitter of a window's own samples -/

/-- The jitter as it is meant: in a window with samples that of the samples, in one without the
jitter of the window before. -/
structure OwnJitter (pstdev : List ℚ → ℚ) (args : Args) (rateSource : RateSource) (b : Bins) :
    Prop where
  own : ∀ (idx : ℕ) samples, b.delay.get? idx = some samples → samples ≠ [] →
    jitterAt pstdev args rateSource b idx = pstdev samples
  carried : ∀ idx : ℕ, b.delay.get? ((idx + 1 : ℕ) : ℤ) = none →
    jitterAt pstdev args rateSource b (idx + 1) = jitterAt pstdev args rateSource b idx

/-- **When every window has the jitter of its own samples.** Before each window of one sample, the
last window of several samples, if there is one, has the deviation 0. -/
theorem own_jitter_iff {pstdev : List ℚ → ℚ} (hone : ∀ x, pstdev [x] = 0) {args : Args}
    {inputs : Inputs} {receiver : Option ReceiverLogs} {b : Bins}
    (h : collectBins args inputs receiver = .ok b) :
    OwnJitter pstdev args inputs.rateSource b ↔
      ∀ (idx : ℕ) x, b.delay.get? idx = some [x] →
        ∀ samples, lastSeveral b idx = some samples → pstdev samples = 0 := by
  have hb : JitterOfDelay b := collectBins_jitter h
  constructor
  · intro hown idx x hx samples hlast
    have hjitter := hown.own idx [x] hx (List.cons_ne_nil x [])
    rw [jitterAt_eq hb, hx, hlast, hone] at hjitter
    exact hjitter
  · intro hcond
    refine ⟨fun idx samples hsamples hne => ?_, fun idx hnone => ?_⟩
    · rw [jitterAt_eq hb, hsamples, Option.bind_some, severalSamples]
      split_ifs with hseveral
      · rfl
      · -- a window of one sample shows what is carried into it
        obtain ⟨x, rest, rfl⟩ := List.exists_cons_of_ne_nil hne
        have hrest : rest = [] := by
          apply List.eq_nil_of_length_eq_zero
          rw [List.length_cons] at hseveral
          omega
        subst hrest
        rw [hone]
        cases hlast : lastSeveral b idx with
        | none => rfl
        | some earlier => exact hcond idx x hsamples earlier hlast
    · rw [jitterAt, carriedAfter_succ, carryStep_jitter hb, hnone]
      rfl

/-! ### On one log -/

/-- The population standard deviation of up to two samples. -/
def halfDifference : List ℚ → ℚ
  | [x, y] => max (x - y) (y - x) / 2
  | _ => 0

/-- Samples of 10 and 30 ms in the first window, one of 10 ms in the second. -/
def sparseInputs : Inputs :=
  ⟨.acked, false, [feedbackTimes "0" "10", feedbackTimes "0" "30", feedbackTimes "50" "60"],
    [], [], [], 10⟩
where
  feedbackTimes (sendTime recvTime : String) : Row :=
    .full [("send_time_ms", sendTime), ("recv_time_ms", recvTime), ("size_bytes", "100")]

/-- The second window has one sample and the jitter of the first. -/
theorem single_sample_carries_jitter :
    ∃ b, collectBins {} sparseInputs none = .ok b ∧ b.delay.get? (1 : ℕ) = some [0] ∧
      jitterAt halfDifference {} sparseInputs.rateSource b 1 = 10 ∧
      ¬ OwnJitter halfDifference {} sparseInputs.rateSource b := by
  have hrun : ((collectBins {} sparseInputs none).toOption.map fun b =>
      (b.delay.get? (1 : ℕ), jitterAt halfDifference {} sparseInputs.rateSource b 1)) =
        some (some [0], 10) := by decide +kernel
  cases hbins : collectBins {} sparseInputs none with
  | error e =>
    rw [hbins] at hrun
    cases hrun
  | ok b =>
    rw [hbins] at hrun
    obtain ⟨hdelay, hjitter⟩ := Prod.mk.inj (Option.some.inj hrun)
    refine ⟨b, rfl, hdelay, hjitter, fun hown => ?_⟩
    have hzero := hown.own 1 [0] hdelay (List.cons_ne_nil 0 [])
    rw [hjitter] at hzero
    exact absurd hzero (by decide +kernel)

/-- Equal delays have no deviation to carry. -/
theorem own_jitter_iff_equal_delays :
    ∃ b, collectBins {} ⟨.acked, false, [sparseInputs.feedbackTimes "0" "10",
        sparseInputs.feedbackTimes "10" "20", sparseInputs.feedbackTimes "50" "60"], [], [], [], 10⟩
        none = .ok b ∧
      OwnJitter halfDifference {} .acked b := by
  have hrun : ((collectBins {} ⟨.acked, false, [sparseInputs.feedbackTimes "0" "10",
      sparseInputs.feedbackTimes "10" "20", sparseInputs.feedbackTimes "50" "60"], [], [], [], 10⟩
      none).toOption.map fun b => (b.delay.entries)) = some [(0, [0, 0]), (1, [0])] := by
    decide +kernel
  cases hbins : collectBins {} ⟨.acked, false, [sparseInputs.feedbackTimes "0" "10",
      sparseInputs.feedbackTimes "10" "20", sparseInputs.feedbackTimes "50" "60"], [], [], [], 10⟩
      none with
  | error e =>
    rw [hbins] at hrun
    cases hrun
  | ok b =>
    rw [hbins] at hrun
    have hentries : b.delay.entries = [(0, [0, 0]), (1, [0])] := Option.some.inj hrun
    refine ⟨b, rfl, (own_jitter_iff (fun _ => rfl) hbins).mpr ?_⟩
    intro idx x _ samples hlast
    obtain ⟨j, _, hj⟩ := List.mem_filterMap.mp (List.mem_of_getLast? hlast)
    obtain ⟨entry, hentry, hseveral⟩ := Option.bind_eq_some_iff.mp hj
    rw [DefaultDict.get?_eq_some, hentries] at hentry
    have hsame : samples = entry := by
      unfold severalSamples at hseveral
      split_ifs at hseveral
      exact (Option.some.inj hseveral).symm
    simp only [List.mem_cons, Prod.mk.injEq, List.not_mem_nil, or_false] at hentry
    obtain ⟨_, rfl⟩ | ⟨_, rfl⟩ := hentry
    · rw [hsame]
      decide +kernel
    · rw [hsame]
      decide +kernel

end WebrtcTrace.TraceTools.Window
