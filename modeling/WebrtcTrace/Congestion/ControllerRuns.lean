import WebrtcTrace.Congestion.ControllerSteps
import Mathlib.Data.List.DropRight
import Mathlib.Data.List.Induction

/-! # The controller over whole runs

What holds after any calls is shown change by change. The rows of `bwe_target.csv` and the target rates
given out are the changes of what was read (`bwe_target_rows_are_changes`), the congestion window is that
of the last reports and was told where it is needed (`data_window_told`), and the rate constraints in force
are those the estimators were told last (`bounds_told`). Calls on the constraints only are those of
`RateConstraints` (`afterOps_calls`).
-/

namespace WebrtcTrace.Congestion.GoogCc
open StatePrograms
set_option autoImplicit false

section Runs
variable {I T A W P : Type} {units : Units} {o : Estimators I T A} {k : Components W P}
  {settings : Settings}

/-! ## From changes to runs -/

theorem filterMap_snoc {α β : Type*} (f : α → Option β) (l : List α) (a : α) :
    (l ++ [a]).filterMap f = l.filterMap f ++ (f a).toList := by
  rw [List.filterMap_append]
  cases h : f a <;> simp [h]

theorem Path.keeps {Inv : Turn I T A W P → Prop}
    (hchange : ∀ t t', Inv t → Change units o settings t t' → Inv t') {t t' : Turn I T A W P}
    (h : Path units o settings t t') (ht : Inv t) : Inv t' := by
  induction h with
  | refl => exact ht
  | tail _ hlast ih => exact hchange _ _ ih hlast

/-- What every change keeps, and the end of a call, holds after any calls. With it go the RTTs that were
taken from the reports. -/
theorem afterOps_keeps (Inv : List ℤ → Turn I T A W P → Prop) {s₀ : Session I T A W P}
    (hstart : Inv [] { session := s₀ })
    (hchange : ∀ seen t t', Inv seen t → Change units o settings t t' → Inv seen t')
    (hend : ∀ seen s u rtts, Inv seen ⟨s, u, rtts, false, false⟩ →
      Inv (seen ++ rtts) { session := { s with updates := s.updates ++ [u] } }) (ops : List Op) :
    Inv (ops.filterMap (opRtt units)) { session := afterOps units o k settings s₀ ops } := by
  induction ops using List.reverseRecOn with
  | nil => exact hstart
  | append_singleton ops op ih =>
    have hpath := perform_path units o k settings (afterOps units o k settings s₀ ops) op
    have hlast := hend _ _ _ _ (Path.keeps (hchange _) hpath ih)
    have hops : afterOps units o k settings s₀ (ops ++ [op]) =
        (handle units o k settings op (afterOps units o k settings s₀ ops)).2 := by
      rw [afterOps, List.foldl_append]
      rfl
    rw [hops, filterMap_snoc]
    exact hlast

/-! ## The estimates -/

/-- What a row of `bwe_target.csv` says of the estimates. -/
def rowColumns (row : BweTargetRow) : DataRate × DataRate × Option UInt8 × ℤ × LossBasedState :=
  (row.targetBps, row.pushbackTargetBps, some row.fractionLossX256, row.rttMs, row.lossBasedState)

variable (units) in
def estimateColumns (e : Estimates) : DataRate × DataRate × Option UInt8 × ℤ × LossBasedState :=
  (e.targetRate, e.pushbackTargetRate, e.fractionLoss, units.ms e.roundTripTime, e.lossBasedState)

/-- What a target rate that is given out says of the estimates. -/
def messageColumns (msg : TargetTransferRate) : DataRate × ℤ × ℚ :=
  (msg.targetRate, msg.networkEstimate.roundTripTime, msg.networkEstimate.lossRateRatio)

def toldColumns (dropFrameOnly : Bool) (e : Estimates) : DataRate × ℤ × ℚ :=
  (if dropFrameOnly then e.targetRate else e.pushbackTargetRate, e.roundTripTime,
    ((e.fractionLoss.getD 0).toNat : ℚ) / 255)

def targetRates (updates : List (NetworkControlUpdate P)) : List TargetTransferRate :=
  updates.filterMap NetworkControlUpdate.targetRate

theorem networkChanged_iff (r : Readings P) (s : Controller) :
    NetworkChanged r s ↔ readEstimates r ≠ lastEstimates s := by
  simp only [NetworkChanged, readEstimates, lastEstimates, ne_eq, Estimates.mk.injEq, not_and_or]
  tauto

variable (units) in
/-- The log and the updates have the changes of what was read, from the members of `c` on. -/
structure Reported (c : Controller) (t : Turn I T A W P) : Prop where
  rows : t.session.bweRows.map rowColumns =
    (changesFrom (lastEstimates c) t.session.estimates).map (estimateColumns units)
  messages : (targetRates t.session.updates ++ t.update.targetRate.toList).map messageColumns =
    (changesFrom (lastEstimates c) t.session.estimates).map
      (toldColumns c.useCongestionWindowDropFrameOnly)
  times : t.session.bweRows.map BweTargetRow.timestampMs =
    (targetRates t.session.updates ++ t.update.targetRate.toList).map fun msg => units.ms msg.atTime
  last : lastEstimates t.session.controller.toController =
    t.session.estimates.getLast?.getD (lastEstimates c)
  dropFrameOnly : t.session.controller.useCongestionWindowDropFrameOnly =
    c.useCongestionWindowDropFrameOnly

theorem Reported.telling {c : Controller} {t : Turn I T A W P} (h : Reported units c t)
    {d : NetworkController I T A} (hd : SameTelling t.session.controller d) (w : W)
    (calls : List ComponentCall) (due : Bool) : Reported units c { t with
      session := { t.session with controller := d, world := w, calls := calls }
      boundsDue := due } :=
  ⟨h.rows, h.messages, h.times, hd.last.trans h.last, hd.dropFrameOnly.trans h.dropFrameOnly⟩

/-- The step at which something is read. -/
theorem Reported.estimates {c : Controller} {t : Turn I T A W P} (h : Reported units c t)
    (r : Readings P) (w : W) (calls : List ComponentCall) (atTime : ℤ)
    (hnone : t.update.targetRate = none) :
    Reported units c { t with
      session := { t.session with
        controller := { t.session.controller with toController :=
          (Congestion.maybeTriggerOnNetworkChanged units r t.session.controller.toController true
            t.update atTime).controller }
        world := w
        calls := calls
        estimates := t.session.estimates ++ [readEstimates r]
        bweRows := t.session.bweRows ++
          (Congestion.maybeTriggerOnNetworkChanged units r t.session.controller.toController true
            t.update atTime).logged.toList }
      update := (Congestion.maybeTriggerOnNetworkChanged units r t.session.controller.toController true
        t.update atTime).update } := by
  have hchanges : changesFrom (lastEstimates c) (t.session.estimates ++ [readEstimates r]) =
      changesFrom (lastEstimates c) t.session.estimates ++
        if readEstimates r = lastEstimates t.session.controller.toController then []
        else [readEstimates r] := by
    rw [changesFrom_append, ← h.last]
    rfl
  have hmessages := h.messages
  have htimes := h.times
  rw [hnone, Option.toList_none, List.append_nil] at hmessages htimes
  rw [Congestion.maybeTriggerOnNetworkChanged]
  by_cases hchanged : NetworkChanged r t.session.controller.toController
  · have hread := (networkChanged_iff r _).mp hchanged
    simp only [if_pos hchanged, if_true, Option.toList_some]
    rw [if_neg hread] at hchanges
    refine ⟨?_, ?_, ?_, ?_, h.dropFrameOnly⟩
    · rw [hchanges, List.map_append, List.map_append, h.rows]
      rfl
    · rw [hchanges, Option.toList_some, List.map_append, List.map_append, hmessages, ← h.dropFrameOnly]
      rfl
    · rw [Option.toList_some, List.map_append, List.map_append, htimes]
      rfl
    · rw [List.getLast?_concat]
      rfl
  · have hread := not_not.mp (mt (networkChanged_iff r _).mpr hchanged)
    simp only [if_neg hchanged, Option.toList_none, List.append_nil]
    rw [if_pos hread, List.append_nil] at hchanges
    refine ⟨hchanges ▸ h.rows, hchanges ▸ h.messages, h.times, ?_, h.dropFrameOnly⟩
    rw [List.getLast?_concat]
    exact hread.symm

theorem Reported.change {c : Controller} {t t' : Turn I T A W P} (h : Reported units c t)
    (hchange : Change units o settings t t') : Reported units c t' := by
  cases hchange with
  | world w => exact ⟨h.rows, h.messages, h.times, h.last, h.dropFrameOnly⟩
  | call w call hwindow hbounds => exact ⟨h.rows, h.messages, h.times, h.last, h.dropFrameOnly⟩
  | members d htelling hbounds hmin => exact h.telling htelling _ _ _
  | newDelayBasedBwe bwe => exact ⟨h.rows, h.messages, h.times, h.last, h.dropFrameOnly⟩
  | constrain d w call hd hcall hwindow => exact h.telling hd.toSameTelling _ _ _
  | rtt rtt => exact ⟨h.rows, h.messages, h.times, h.last, h.dropFrameOnly⟩
  | windowToPushback window w hpushback hwindow =>
    exact ⟨h.rows, h.messages, h.times, h.last, h.dropFrameOnly⟩
  | windowToUpdate window hwindow hto hnone =>
    exact ⟨h.rows, h.messages, h.times, h.last, h.dropFrameOnly⟩
  | estimates r w calls atTime hnone hcalls => exact h.estimates r w _ atTime hnone
  | pacing probeClusterConfigs pacerConfig => exact ⟨h.rows, h.messages, h.times, h.last, h.dropFrameOnly⟩

theorem reported_afterOps (c : NetworkController I T A) (w : W) (ops : List Op) :
    Reported units c.toController
      { session := afterOps units o k settings { controller := c, world := w } ops } := by
  refine afterOps_keeps (fun _ => Reported units c.toController) ⟨rfl, rfl, rfl, rfl, rfl⟩
    (fun _ _ _ h => h.change) (fun _ s u _ h => ?_) ops
  have htold : targetRates (s.updates ++ [u]) ++ [] = targetRates s.updates ++ u.targetRate.toList := by
    rw [List.append_nil, targetRates, filterMap_snoc]
    rfl
  exact ⟨h.rows, (congrArg _ htold).trans h.messages, h.times.trans (congrArg _ htold.symm), h.last,
    h.dropFrameOnly⟩

variable (units o k settings) in
/-- **The log has the changes.** After any calls the rows of `bwe_target.csv` say, in order, what was read
where it differs from before. As many target rates were given out, each at the time of its row and with the
rate, the round trip time and the loss that were read. The estimates in force, and those `GetNetworkState`
gives, are the ones read last. -/
theorem bwe_target_rows_are_changes (c : NetworkController I T A) (w : W) (ops : List Op) :
    ∃ changes s, changes = changesFrom (lastEstimates c.toController) s.estimates ∧
      s = afterOps units o k settings { controller := c, world := w } ops ∧
      s.bweRows.map rowColumns = changes.map (estimateColumns units) ∧
      (targetRates s.updates).map messageColumns =
        changes.map (toldColumns c.useCongestionWindowDropFrameOnly) ∧
      s.bweRows.map BweTargetRow.timestampMs =
        (targetRates s.updates).map (fun msg => units.ms msg.atTime) ∧
      (lastEstimates c.toController :: changes).IsChain (· ≠ ·) ∧
      lastEstimates s.controller.toController =
        s.estimates.getLast?.getD (lastEstimates c.toController) ∧
      ∀ atTime, (getNetworkState (P := P) units o s.controller atTime).targetRate.map messageColumns =
        some (toldColumns false (s.estimates.getLast?.getD (lastEstimates c.toController))) := by
  have h : Reported units c.toController
      { session := afterOps units o k settings { controller := c, world := w } ops } :=
    reported_afterOps c w ops
  obtain ⟨hrows, hmessages, htimes, hlast, -⟩ := h
  rw [Option.toList_none, List.append_nil] at hmessages htimes
  refine ⟨_, _, rfl, rfl, hrows, hmessages, htimes, isChain_changesFrom _ _, hlast, fun atTime => ?_⟩
  rw [← hlast]
  rfl

end Runs

/-- The bandwidth estimation gives what the delay-based estimator estimated last. -/
def echo : Components DataRate Unit where
  does call w := match call with
    | .updateDelayBasedEstimate _ rate => rate
    | _ => w
  probes _ w := ([], w)
  updateTargetBitrate rate w := (rate, w)
  fetchAndResetLastEstimatedBitrate w := (none, w)
  fractionLoss _ := 0
  roundTripTime _ := 50000
  targetRate w := w
  lossBasedState _ := .delayBasedEstimate
  getMinBitrate _ := 0
  isRttAboveLimit _ := false
  getApplicationLimitedRegionStartTime _ := none
  bitrate _ := none
  peekRate _ := none
  getCurrentEstimate _ := none
  rateTimes rate time := rate * time / 8000000
  halve size := size / 2

def windowUsed : Settings where
  safeResetOnRouteChange := false
  safeResetAcknowledgedRate := false
  ignoreProbesLowerThanNetworkEstimate := false
  limitProbesLowerThanThroughputEstimate := false
  useCongestionWindow := true
  congestionWindowAdditionalTimeMs := 350
  hasPushbackController := false
  hasNetworkEstimator := false
  congestionControllerMinBitrate := 5000
  separateAudio := separated

def newNetworkController : NetworkController Unit ℤ (DataRate × DataRate) where
  toConstrainedController := newController
  delayBasedBwe := .create .delays
  initialConfig := none
  firstPacketSent := false
  previouslyInAlr := false
  feedbackMaxRtts := []
  currentDataWindow := none
  linkCapacityLower := minusInfinity

def reportOf (p : PacketResult) (feedbackTime : ℤ) : TransportPacketsFeedback :=
  ⟨feedbackTime, 0, false, [p], [p]⟩

/-- Constraints, a report, a higher minimum, a report of a packet that was delayed, and an interval. -/
def delayedReports : List Op :=
  [.onTargetRateConstraints ⟨0, some 50000, some 1000000, some 300000⟩,
    .onTransportPacketsFeedback (reportOf ⟨40000, 60000, 1200, false, false⟩ 130000),
    .onStreamsConfig ⟨140000, none, none, some 100000, none, none⟩,
    .onTransportPacketsFeedback (reportOf ⟨150000, 400000, 1200, false, false⟩ 430000),
    .onProcessInterval 500000 none]

/-- The session after them. -/
def reportedSession : Session Unit ℤ (DataRate × DataRate) DataRate Unit :=
  afterOps .nearest .delays echo windowUsed { controller := newNetworkController, world := 0 } delayedReports

theorem bwe_target_rows_are_changes_reported :
    ∃ changes : List Estimates, reportedSession.bweRows.map rowColumns = changes.map (estimateColumns .nearest) ∧
      changes.map Estimates.targetRate = [0, 300000, 150000] ∧
      reportedSession.estimates.map Estimates.targetRate = [0, 300000, 150000, 150000] ∧
      (targetRates reportedSession.updates).map TargetTransferRate.targetRate = [0, 300000, 150000] ∧
      reportedSession.bweRows.map BweTargetRow.timestampMs = [0, 130, 430] := by
  obtain ⟨changes, s, hchanges, hs, hrows, -⟩ := bwe_target_rows_are_changes .nearest .delays echo windowUsed
    newNetworkController 0 delayedReports
  have hsession : s = reportedSession := hs
  subst hsession hchanges
  exact ⟨_, hrows, by decide +kernel, by decide +kernel, by decide +kernel, by decide +kernel⟩

section Runs
variable {I T A W P : Type} {units : Units} {o : Estimators I T A} {k : Components W P}
  {settings : Settings}

/-! ## The congestion window -/

/-- Of the windows told to the pushback controller and those in the updates, one list ends in the window
in force and the other one is empty. -/
structure Told (settings : Settings) (toPushback inUpdates : List ℤ) (window : Option ℤ) : Prop where
  last : (if settings.hasPushbackController then toPushback else inUpdates).getLast? = window
  least : ∀ size ∈ if settings.hasPushbackController then toPushback else inUpdates, kMinCwnd ≤ size
  other : (if settings.hasPushbackController then inUpdates else toPushback) = []

theorem Told.nothing : Told settings [] [] none := by
  refine ⟨?_, fun size hsize => ?_, ?_⟩
  · rw [ite_self]
    rfl
  · rw [ite_self] at hsize
    exact absurd hsize List.not_mem_nil
  · rw [ite_self]

theorem Told.toPushback {toPushback inUpdates : List ℤ} {window : Option ℤ}
    (h : Told settings toPushback inUpdates window) (hpushback : settings.hasPushbackController = true)
    {size : ℤ} (hsize : kMinCwnd ≤ size) : Told settings (toPushback ++ [size]) inUpdates (some size) := by
  obtain ⟨-, hleast, hother⟩ := h
  rw [if_pos hpushback] at hleast hother
  refine ⟨?_, fun size' hsize' => ?_, ?_⟩
  · rw [if_pos hpushback]
    exact List.getLast?_concat
  · rw [if_pos hpushback] at hsize'
    obtain hbefore | hnew := List.mem_append.mp hsize'
    · exact hleast size' hbefore
    · exact List.mem_singleton.mp hnew ▸ hsize
  · rw [if_pos hpushback]
    exact hother

theorem Told.toUpdate {toPushback inUpdates : List ℤ} {window window' : Option ℤ}
    (h : Told settings toPushback inUpdates window)
    (hto : settings.hasPushbackController = false ∨ window' = none)
    (hnone : window' = none → window = none) (hsize : ∀ size ∈ window', kMinCwnd ≤ size) :
    Told settings toPushback (inUpdates ++ window'.toList) window' := by
  cases window' with
  | none =>
    obtain rfl := hnone rfl
    rwa [Option.toList_none, List.append_nil]
  | some size =>
    have hupdate : ¬ settings.hasPushbackController = true := by
      simpa using hto.resolve_right (Option.some_ne_none size)
    obtain ⟨-, hleast, hother⟩ := h
    rw [if_neg hupdate] at hleast hother
    refine ⟨?_, fun size' hsize' => ?_, ?_⟩
    · rw [if_neg hupdate]
      exact List.getLast?_concat
    · rw [if_neg hupdate] at hsize'
      obtain hbefore | hnew := List.mem_append.mp hsize'
      · exact hleast size' hbefore
      · exact hsize size' (List.mem_singleton.mp hnew ▸ rfl)
    · rw [if_neg hupdate]
      exact hother

def windowCalls (calls : List ComponentCall) : List ℤ := calls.filterMap dataWindow

def congestionWindows (updates : List (NetworkControlUpdate P)) : List ℤ :=
  updates.filterMap NetworkControlUpdate.congestionWindow

theorem pushFeedbackRtt_rtake (rtts : List ℤ) (rtt : ℤ) :
    pushFeedbackRtt (rtts.rtake kMaxFeedbackRttWindow) rtt =
      (rtts ++ [rtt]).rtake kMaxFeedbackRttWindow := by
  have hkept : (rtts.rtake kMaxFeedbackRttWindow ++ [rtt]).length =
      min kMaxFeedbackRttWindow rtts.length + 1 := by
    rw [List.length_append, List.rtake, List.length_drop, List.length_singleton]
    omega
  have hpos : 0 < kMaxFeedbackRttWindow := Nat.zero_lt_succ _
  rw [pushFeedbackRtt, hkept]
  unfold List.rtake
  rw [List.length_append, List.length_singleton]
  by_cases hfull : kMaxFeedbackRttWindow ≤ rtts.length
  · have hne : rtts.drop (rtts.length - kMaxFeedbackRttWindow) ≠ [] := by
      rw [Ne, List.drop_eq_nil_iff]
      omega
    rw [if_pos (by omega), List.tail_append_of_ne_nil hne, List.tail_drop,
      List.drop_append_of_le_length (by omega)]
    congr 2
    omega
  · rw [if_neg (by omega), Nat.sub_eq_zero_of_le (by omega), Nat.sub_eq_zero_of_le (by omega)]
    rfl

theorem rtake_feedbackRtts_eq_nil (rtts : List ℤ) : rtts.rtake kMaxFeedbackRttWindow = [] ↔ rtts = [] := by
  rw [List.rtake, List.drop_eq_nil_iff, ← List.length_eq_zero_iff]
  unfold kMaxFeedbackRttWindow
  omega

/-- The RTTs and the window, when `seen` are the RTTs of the calls before. -/
structure Windowed (settings : Settings) (seen : List ℤ) (t : Turn I T A W P) : Prop where
  rtts : t.session.controller.feedbackMaxRtts = (seen ++ t.rtts).rtake kMaxFeedbackRttWindow
  needed : t.session.controller.currentDataWindow.isSome = true →
    settings.useCongestionWindow = true ∧ seen ++ t.rtts ≠ []
  there : t.windowDue = false → settings.useCongestionWindow = true → seen ++ t.rtts ≠ [] →
    t.session.controller.currentDataWindow.isSome = true
  told : Told settings (windowCalls t.session.calls)
    (congestionWindows t.session.updates ++ t.update.congestionWindow.toList)
    t.session.controller.currentDataWindow

/-- Calls that tell no window. -/
theorem windowCalls_append {calls calls' : List ComponentCall}
    (h : ∀ call ∈ calls', dataWindow call = none) : windowCalls (calls ++ calls') = windowCalls calls := by
  rw [windowCalls, List.filterMap_append, List.filterMap_eq_nil_iff.mpr h, List.append_nil]
  rfl

theorem Windowed.telling {seen : List ℤ} {t : Turn I T A W P} (h : Windowed settings seen t)
    {d : NetworkController I T A} (hd : SameTelling t.session.controller d) (w : W)
    {calls : List ComponentCall} (hcalls : ∀ call ∈ calls, dataWindow call = none) (due : Bool) :
    Windowed settings seen { t with
      session := { t.session with controller := d, world := w, calls := t.session.calls ++ calls }
      boundsDue := due } := by
  refine ⟨hd.feedbackMaxRtts.trans h.rtts, ?_, ?_, ?_⟩
  · rw [hd.currentDataWindow]
    exact h.needed
  · rw [hd.currentDataWindow]
    exact h.there
  · rw [hd.currentDataWindow, windowCalls_append hcalls]
    exact h.told

/-- The window after it was resized, where that is called. -/
theorem Windowed.resized {seen : List ℤ} {t : Turn I T A W P} (h : Windowed settings seen t)
    {window : Option ℤ} (hwindow : Resized settings t window) :
    (window.isSome = true ↔ settings.useCongestionWindow = true ∧ seen ++ t.rtts ≠ []) ∧
      (∀ size ∈ window, kMinCwnd ≤ size) ∧
      (window = none → t.session.controller.currentDataWindow = none) := by
  have hrtts : t.session.controller.feedbackMaxRtts = [] ↔ seen ++ t.rtts = [] := by
    rw [h.rtts, rtake_feedbackRtts_eq_nil]
  obtain ⟨rfl, hkept⟩ | ⟨huse, hne, size, rfl, hsize⟩ := hwindow
  · refine ⟨⟨h.needed, fun hboth => ?_⟩, fun size hsize => ?_, id⟩
    · have hdue : t.windowDue = false := by
        rw [← Bool.not_eq_true]
        exact fun hdue => hkept ⟨hboth.1, hdue, mt hrtts.mp hboth.2⟩
      exact h.there hdue hboth.1 hboth.2
    · exact h.told.least size (List.mem_of_getLast? (h.told.last.trans hsize))
  · refine ⟨⟨fun _ => ⟨huse, mt hrtts.mpr hne⟩, fun _ => rfl⟩, fun size' hsize' => ?_, fun h => ?_⟩
    · rwa [← Option.some.inj hsize']
    · exact absurd h (Option.some_ne_none size)

theorem Windowed.change {seen : List ℤ} {t t' : Turn I T A W P} (h : Windowed settings seen t)
    (hchange : Change units o settings t t') : Windowed settings seen t' := by
  cases hchange with
  | world w => exact ⟨h.rtts, h.needed, h.there, h.told⟩
  | call w call hwindow hbounds =>
    refine ⟨h.rtts, h.needed, h.there, ?_⟩
    rw [windowCalls_append (List.forall_mem_singleton.mpr hwindow)]
    exact h.told
  | members d htelling hbounds hmin =>
    refine ⟨htelling.feedbackMaxRtts.trans h.rtts, ?_, ?_, ?_⟩
    all_goals rw [htelling.currentDataWindow]
    · exact h.needed
    · exact h.there
    · exact h.told
  | newDelayBasedBwe bwe => exact ⟨h.rtts, h.needed, h.there, h.told⟩
  | constrain d w call hd hcall hwindow =>
    exact h.telling hd.toSameTelling w (List.forall_mem_singleton.mpr hwindow) false
  | rtt rtt =>
    refine ⟨?_, fun hsome => ⟨(h.needed hsome).1, ?_⟩, nofun, h.told⟩
    · rw [← List.append_assoc, ← pushFeedbackRtt_rtake, ← h.rtts]
    · rw [← List.append_assoc]
      exact List.append_ne_nil_of_right_ne_nil _ (List.cons_ne_nil _ _)
  | windowToPushback window w hpushback hwindow =>
    obtain ⟨hthere, hleast, -⟩ := h.resized hwindow
    refine ⟨h.rtts, hthere.mp, fun _ huse hne => hthere.mpr ⟨huse, hne⟩, ?_⟩
    rw [windowCalls, filterMap_snoc]
    exact h.told.toPushback hpushback (hleast window rfl)
  | windowToUpdate window hwindow hto hnone =>
    obtain ⟨hthere, hleast, hgone⟩ := h.resized hwindow
    have htold := h.told
    rw [hnone, Option.toList_none, List.append_nil] at htold
    exact ⟨h.rtts, hthere.mp, fun _ huse hne => hthere.mpr ⟨huse, hne⟩, htold.toUpdate hto hgone hleast⟩
  | estimates r w calls atTime hnone hcalls =>
    have hkept : (Congestion.maybeTriggerOnNetworkChanged units r t.session.controller.toController true
        t.update atTime).update.congestionWindow = t.update.congestionWindow := by
      rw [Congestion.maybeTriggerOnNetworkChanged]
      split_ifs <;> rfl
    refine ⟨h.rtts, h.needed, h.there, ?_⟩
    rw [hkept, windowCalls_append fun call hcall => (hcalls call hcall).1]
    exact h.told
  | pacing probeClusterConfigs pacerConfig => exact ⟨h.rtts, h.needed, h.there, h.told⟩

theorem Windowed.finish {seen rtts : List ℤ} {s : Session I T A W P} {u : NetworkControlUpdate P}
    (h : Windowed settings seen ⟨s, u, rtts, false, false⟩) :
    Windowed settings (seen ++ rtts) { session := { s with updates := s.updates ++ [u] } } := by
  have htold := h.told
  rw [congestionWindows, ← filterMap_snoc] at htold
  refine ⟨h.rtts.trans ?_, fun hsome => ?_, fun hdue huse hne => ?_, ?_⟩
  · rw [List.append_nil]
  · rw [List.append_nil]
    exact h.needed hsome
  · rw [List.append_nil] at hne
    exact h.there rfl huse hne
  · rw [Option.toList_none, List.append_nil]
    exact htold

theorem windowed_afterOps {c : NetworkController I T A} {w : W} (hrtts : c.feedbackMaxRtts = [])
    (hwindow : c.currentDataWindow = none) (ops : List Op) :
    Windowed settings (ops.filterMap (opRtt units))
      { session := afterOps units o k settings { controller := c, world := w } ops } := by
  refine afterOps_keeps (Windowed settings) ⟨hrtts, ?_, ?_, ?_⟩ (fun _ _ _ h => h.change)
    (fun _ _ _ _ h => h.finish) ops
  · exact fun hsome => absurd hsome (by simp [hwindow])
  · exact fun _ _ hne => absurd rfl hne
  · rw [hwindow]
    exact Told.nothing

end Runs

section Runs
variable {I T A W P : Type} {units : Units} {o : Estimators I T A} {k : Components W P}
  {settings : Settings}

/-! ## The rate constraints -/

/-- The rate constraints as `ClampConstraints` leaves them. -/
structure Clamped (floor : DataRate) (c : ConstrainedController) : Prop where
  floor : floor ≤ c.minDataRate
  minTarget : c.minTargetRate ≤ c.minDataRate
  allocated : c.useMinAllocatableAsLowerBound = true → c.minTotalAllocatedBitrate ≤ c.minDataRate
  max : c.minDataRate ≤ c.maxDataRate
  starting : ∀ rate ∈ c.startingRate, c.minDataRate ≤ rate

theorem clamped_of_eq {floor : DataRate} {c : ConstrainedController} (h : clampConstraints floor c = c) :
    Clamped floor c := by
  have hmin : c.minDataRate = if c.useMinAllocatableAsLowerBound then
      max (max c.minTargetRate floor) c.minTotalAllocatedBitrate else max c.minTargetRate floor :=
    congrArg ConstrainedController.minDataRate h.symm
  have hbase : max c.minTargetRate floor ≤ c.minDataRate := by
    rw [hmin]
    split_ifs
    · exact le_max_left _ _
    · exact le_rfl
  refine ⟨(le_max_right _ _).trans hbase, (le_max_left _ _).trans hbase, fun hbound => ?_, ?_, ?_⟩
  · rw [hmin, if_pos hbound]
    exact le_max_right _ _
  · have hmax := @clampConstraints_maxDataRate floor c
    rw [h] at hmax
    exact hmax ▸ le_max_left _ _
  · have hstarting := clampConstraints_startingRate floor c
    rw [h] at hstarting
    intro rate hrate
    rw [hstarting] at hrate
    obtain ⟨_, _, rfl⟩ := Option.map_eq_some_iff.mp hrate
    exact le_max_left _ _

theorem Clamped.same {floor : DataRate} {c d : NetworkController I T A}
    (h : Clamped floor c.toConstrainedController) (hd : SameBounds c d) :
    Clamped floor d.toConstrainedController := by
  refine ⟨?_, ?_, fun hbound => ?_, ?_, ?_⟩
  · rw [hd.minDataRate]
    exact h.floor
  · rw [hd.minTargetRate, hd.minDataRate]
    exact h.minTarget
  · rw [hd.lowerBound] at hbound
    rw [hd.allocated hbound, hd.minDataRate]
    exact h.allocated hbound
  · rw [hd.minDataRate, hd.maxDataRate]
    exact h.max
  · rw [hd.startingRate, hd.minDataRate]
    exact h.starting

/-- The pairs of rates that the bandwidth estimation was told. -/
def boundCalls (calls : List ComponentCall) : List (DataRate × DataRate) := calls.filterMap bounds

/-- The rates are those told last, and once some were told they are clamped and the delay-based estimator
has the minimum. -/
structure Bounded (o : Estimators I T A) (settings : Settings) (c : NetworkController I T A)
    (t : Turn I T A W P) : Prop where
  told : (t.session.controller.minDataRate, t.session.controller.maxDataRate) =
    (boundCalls t.session.calls).getLast?.getD (c.minDataRate, c.maxDataRate)
  clamped : boundCalls t.session.calls ≠ [] →
    Clamped settings.congestionControllerMinBitrate t.session.controller.toConstrainedController
  tracked : boundCalls t.session.calls ≠ [] → t.boundsDue = false → ∀ minOf, TracksMin o minOf →
    minOf t.session.controller.delayBasedBwe.rateControl = t.session.controller.minDataRate

theorem boundCalls_append (calls : List ComponentCall) {calls' : List ComponentCall}
    (h : ∀ call ∈ calls', bounds call = none) : boundCalls (calls ++ calls') = boundCalls calls := by
  rw [boundCalls, List.filterMap_append, List.filterMap_eq_nil_iff.mpr h, List.append_nil]
  rfl

theorem Bounded.change {c : NetworkController I T A} {t t' : Turn I T A W P} (h : Bounded o settings c t)
    (hchange : Change units o settings t t') : Bounded o settings c t' := by
  cases hchange with
  | world w => exact ⟨h.told, h.clamped, h.tracked⟩
  | call w call hwindow hbounds =>
    have hcalls := boundCalls_append t.session.calls (List.forall_mem_singleton.mpr hbounds)
    exact ⟨hcalls ▸ h.told, hcalls ▸ h.clamped, hcalls ▸ h.tracked⟩
  | members d htelling hbounds hmin =>
    refine ⟨?_, fun hne => (h.clamped hne).same hbounds, fun hne hdue minOf htracks => ?_⟩
    · rw [hbounds.minDataRate, hbounds.maxDataRate]
      exact h.told
    · rw [hmin minOf htracks, hbounds.minDataRate]
      exact h.tracked hne hdue minOf htracks
  | newDelayBasedBwe bwe => exact ⟨h.told, h.clamped, nofun⟩
  | constrain d w call hd hcall hwindow =>
    refine ⟨?_, fun _ => clamped_of_eq hd.clamped, fun _ _ => hd.told⟩
    rw [boundCalls, filterMap_snoc, hcall, Option.toList_some, List.getLast?_concat]
    rfl
  | rtt rtt => exact ⟨h.told, h.clamped, h.tracked⟩
  | windowToPushback window w hpushback hwindow =>
    have hnone : bounds (.setDataWindow window) = none := rfl
    have hcalls := boundCalls_append t.session.calls (List.forall_mem_singleton.mpr hnone)
    exact ⟨hcalls ▸ h.told, hcalls ▸ h.clamped, hcalls ▸ h.tracked⟩
  | windowToUpdate window hwindow hto hnone => exact ⟨h.told, h.clamped, h.tracked⟩
  | estimates r w calls atTime hnone hcalls =>
    have hallocated := triggered_minTotalAllocatedBitrate units r t.session.controller.toController true
      t.update atTime
    have hnew := boundCalls_append t.session.calls fun call hcall => (hcalls call hcall).2
    refine ⟨hnew ▸ h.told, fun hne => ?_, hnew ▸ h.tracked⟩
    exact (h.clamped (hnew ▸ hne)).same ⟨rfl, rfl, rfl, rfl, rfl, fun _ => hallocated⟩
  | pacing probeClusterConfigs pacerConfig => exact ⟨h.told, h.clamped, h.tracked⟩

variable (units o k settings) in
/-- **The constraints in force are those told.** After any calls the minimum and the maximum are the ones the
bandwidth estimation was told last. Once it was told any, they are clamped, and the rate control of the
delay-based estimator has that minimum too. -/
theorem bounds_told (c : NetworkController I T A) (w : W) (ops : List Op) :
    ∃ s, s = afterOps units o k settings { controller := c, world := w } ops ∧
      (s.controller.minDataRate, s.controller.maxDataRate) =
        (boundCalls s.calls).getLast?.getD (c.minDataRate, c.maxDataRate) ∧
      (boundCalls s.calls ≠ [] →
        Clamped settings.congestionControllerMinBitrate s.controller.toConstrainedController ∧
        ∀ minOf, TracksMin o minOf →
          minOf s.controller.delayBasedBwe.rateControl = s.controller.minDataRate) := by
  have h : Bounded o settings c
      { session := afterOps units o k settings { controller := c, world := w } ops } := by
    refine afterOps_keeps (fun _ => Bounded o settings c) ⟨rfl, fun hne => ?_, fun hne => ?_⟩
      (fun _ _ _ h => h.change) (fun _ _ _ _ h => ⟨h.told, h.clamped, h.tracked⟩) ops
    · exact absurd rfl hne
    · exact absurd rfl hne
  exact ⟨_, rfl, h.told, fun hne => ⟨h.clamped hne, h.tracked hne rfl⟩⟩

end Runs

theorem bounds_told_reported :
    boundCalls reportedSession.calls = [(50000, 1000000), (100000, 1000000)] ∧
      reportedSession.controller.delayBasedBwe.rateControl = (150000, 100000) ∧
      reportedSession.controller.delayBasedBwe.rateControl.2 = reportedSession.controller.minDataRate := by
  have htracks : TracksMin .delays Prod.snd :=
    ⟨fun _ _ => rfl, fun _ _ => rfl, fun _ _ => rfl, fun _ _ _ => rfl, fun _ _ => rfl, fun _ _ => rfl,
      fun _ _ _ _ => rfl⟩
  obtain ⟨s, hs, -, htold⟩ := bounds_told .nearest .delays echo windowUsed newNetworkController 0 delayedReports
  have hsession : s = reportedSession := hs
  subst hsession
  have hcalls : boundCalls reportedSession.calls = [(50000, 1000000), (100000, 1000000)] := by
    decide +kernel
  exact ⟨hcalls, by decide +kernel, (htold (by rw [hcalls]; exact List.cons_ne_nil _ _)).2 _ htracks⟩

section Calls
variable {I T A W P : Type} (units : Units) (o : Estimators I T A) (k : Components W P)
  (settings : Settings)

/-! ## The constraints alone -/

/-- What `MaybeTriggerOnNetworkChanged` reads in a session. -/
def sessionReadings (s : Session I T A W P) : Readings P :=
  readings o k settings s.controller s.world
    (k.does (.setAlrEstimatedBitrate (k.targetRate s.world)) (afterPushback k settings s.world))

theorem onTargetRateConstraints_call (s : Session I T A W P) (constraints : TargetRateConstraints) :
    ∃ answers : Answers P,
      (onTargetRateConstraints units o k settings constraints s).2.controller.toConstrainedController =
        (Congestion.onTargetRateConstraints units settings.congestionControllerMinBitrate
          s.controller.toConstrainedController constraints answers).controller ∧
      (onTargetRateConstraints units o k settings constraints s).1 =
        (Congestion.onTargetRateConstraints units settings.congestionControllerMinBitrate
          s.controller.toConstrainedController constraints answers).update := by
  let answers : Answers P :=
    { setBitrates := fun _ _ _ _ => (resetConstraints o k settings constraints s).1
      onMaxTotalAllocatedBitrate := fun _ _ => []
      readings := sessionReadings o k settings (resetConstraints o k settings constraints s).2
      logOpen := true }
  refine ⟨answers, ?_⟩
  obtain ⟨atTime, minDataRate, maxDataRate, _ | startingRate⟩ := constraints <;> exact ⟨rfl, rfl⟩

theorem setStreams_members (s : Session I T A W P) (msg : StreamsConfig) :
    (setStreams o k settings msg s).2.controller.toConstrainedController =
      setMaxPaddingRate (setMinTotalAllocatedBitrate settings.congestionControllerMinBitrate
        (setPacingFactor s.controller.toConstrainedController msg) msg) msg := by
  unfold setStreams
  rw [run_get, when]
  split_ifs <;> rfl

theorem onStreamsConfig_call (s : Session I T A W P) (msg : StreamsConfig) :
    ∃ answers : Answers P,
      (onStreamsConfig units o k settings msg s).2.controller.toConstrainedController =
        (Congestion.onStreamsConfig units settings.congestionControllerMinBitrate
          s.controller.toConstrainedController msg answers).controller ∧
      (onStreamsConfig units o k settings msg s).1 =
        (Congestion.onStreamsConfig units settings.congestionControllerMinBitrate
          s.controller.toConstrainedController msg answers).update := by
  -- the session after what is told and asked of the probe controller
  let asked := (whenSome msg.requestsAlrProbing (fun enable => component k (.enablePeriodicAlrProbing enable)) s).2
  let told := totalProbes k msg.maxTotalAllocatedBitrate msg.atTime asked
  have htold : told.2.controller = s.controller := by
    simp only [told, asked]
    cases msg.requestsAlrProbing <;> cases msg.maxTotalAllocatedBitrate <;> rfl
  have hmembers := setStreams_members o k settings told.2 msg
  rw [htold] at hmembers
  refine ⟨{ setBitrates := fun _ _ _ _ => []
            onMaxTotalAllocatedBitrate := fun _ _ => told.1
            readings := sessionReadings o k settings s
            logOpen := true }, hmembers, ?_⟩
  have hrun : (onStreamsConfig units o k settings msg s).1 =
      { probeClusterConfigs := told.1
        pacerConfig := if PacingChanged told.2.controller.toConstrainedController msg then
          some (getPacingRates units (setStreams o k settings msg told.2).2.controller.toController msg.atTime)
          else none } := rfl
  rw [hrun, hmembers, htold]
  have hnone : msg.maxTotalAllocatedBitrate = none → told.1 = [] := by
    intro h
    simp only [told, h]
    rfl
  cases hrate : msg.maxTotalAllocatedBitrate with
  | none => simp only [Congestion.onStreamsConfig, hrate, hnone hrate]
  | some rate =>
    simp only [Congestion.onStreamsConfig, hrate]

/-- A call on the constraints as one on the controller. -/
def callOp : Call P → Op
  | .onTargetRateConstraints constraints _ => .onTargetRateConstraints constraints
  | .onStreamsConfig msg _ => .onStreamsConfig msg

theorem perform_call (s : Session I T A W P) (call : Call P) :
    ∃ call' : Call P, callOp call' = callOp call ∧
      (perform units o k settings (callOp call) s).2.controller.toConstrainedController =
        (Congestion.perform units settings.congestionControllerMinBitrate
          s.controller.toConstrainedController call').controller := by
  cases call with
  | onTargetRateConstraints constraints _ =>
    obtain ⟨answers, hcontroller, -⟩ := onTargetRateConstraints_call units o k settings s constraints
    exact ⟨.onTargetRateConstraints constraints answers, rfl, hcontroller⟩
  | onStreamsConfig msg _ =>
    obtain ⟨answers, hcontroller, -⟩ := onStreamsConfig_call units o k settings s msg
    exact ⟨.onStreamsConfig msg answers, rfl, hcontroller⟩

/-- **Calls on the constraints** do to the controller what they do to the constraints alone, for some answers
of the components. -/
theorem afterOps_calls (s : Session I T A W P) (calls : List (Call P)) :
    ∃ calls' : List (Call P), calls'.map callOp = calls.map callOp ∧
      (afterOps units o k settings s (calls.map callOp)).controller.toConstrainedController =
        performAll units settings.congestionControllerMinBitrate s.controller.toConstrainedController
          calls' := by
  induction calls using List.reverseRecOn with
  | nil => exact ⟨[], rfl, rfl⟩
  | append_singleton calls call ih =>
    obtain ⟨calls', hcalls, hsame⟩ := ih
    obtain ⟨call', hcall, hnext⟩ := perform_call units o k settings
      (afterOps units o k settings s (calls.map callOp)) call
    refine ⟨calls' ++ [call'], ?_, ?_⟩
    · rw [List.map_append, List.map_append, hcalls, List.map_singleton, hcall]
      rfl
    · rw [List.map_append, afterOps, performAll, List.foldl_append, List.foldl_append]
      refine hnext.trans ?_
      rw [hsame]
      rfl

end Calls

end WebrtcTrace.Congestion.GoogCc
