import WebrtcTrace.Congestion.DelayDetection
import WebrtcTrace.Congestion.GoogCc
import Mathlib.Logic.Relation

/-! # What a call on the controller changes

A call is a path of changes from the session it finds and an empty update (`perform_path`). What holds
after any calls is then shown change by change.
-/

namespace WebrtcTrace.Congestion.GoogCc
open StatePrograms
set_option autoImplicit false

/-! ## Changes -/

/-- A call under way: the update so far, the RTT it took from a report, and what is yet to follow in it. -/
structure Turn (I T A W P : Type) where
  session : Session I T A W P
  update : NetworkControlUpdate P := {}
  rtts : List ℤ := []
  /-- An RTT was taken, and the window does not have it yet. -/
  windowDue : Bool := false
  /-- The delay-based estimator is new, and has no minimum yet. -/
  boundsDue : Bool := false

/-- The window of a call to the pushback controller. -/
def dataWindow : ComponentCall → Option ℤ
  | .setDataWindow window => some window
  | _ => none

/-- The rates of a call to the bandwidth estimation. -/
def bounds : ComponentCall → Option (DataRate × DataRate)
  | .setBitrates _ minDataRate maxDataRate _ => some (minDataRate, maxDataRate)
  | .setMinMaxBitrate minDataRate maxDataRate => some (minDataRate, maxDataRate)
  | _ => none

/-- The minimum of a rate control is what it was last set to. -/
structure TracksMin {I T A : Type} (o : Estimators I T A) (minOf : A → DataRate) : Prop where
  setMinBitrate : ∀ rate a, minOf (o.setMinBitrate rate a) = rate
  setStartBitrate : ∀ rate a, minOf (o.setStartBitrate rate a) = minOf a
  setRtt : ∀ rtt a, minOf (o.setRtt rtt a) = minOf a
  setEstimate : ∀ rate time a, minOf (o.setEstimate rate time a) = minOf a
  setInApplicationLimitedRegion : ∀ inAlr a, minOf (o.setInApplicationLimitedRegion inAlr a) = minOf a
  setNetworkStateEstimate : ∀ estimate a, minOf (o.setNetworkStateEstimate estimate a) = minOf a
  update : ∀ state acked time a, minOf (o.update state acked time a).2 = minOf a

section Changes
variable {I T A W P : Type} (units : Units) (o : Estimators I T A) (settings : Settings)

/-- What the estimates and the window are told from stays. -/
structure SameTelling (c d : NetworkController I T A) : Prop where
  last : lastEstimates d.toController = lastEstimates c.toController
  dropFrameOnly : d.useCongestionWindowDropFrameOnly = c.useCongestionWindowDropFrameOnly
  feedbackMaxRtts : d.feedbackMaxRtts = c.feedbackMaxRtts
  currentDataWindow : d.currentDataWindow = c.currentDataWindow

/-- The rate constraints stay. -/
structure SameBounds (c d : NetworkController I T A) : Prop where
  lowerBound : d.useMinAllocatableAsLowerBound = c.useMinAllocatableAsLowerBound
  minTargetRate : d.minTargetRate = c.minTargetRate
  minDataRate : d.minDataRate = c.minDataRate
  maxDataRate : d.maxDataRate = c.maxDataRate
  startingRate : d.startingRate = c.startingRate
  allocated : c.useMinAllocatableAsLowerBound = true →
    d.minTotalAllocatedBitrate = c.minTotalAllocatedBitrate

/-- The delay-based estimator keeps its minimum. -/
def SameMin (c d : NetworkController I T A) : Prop :=
  ∀ minOf, TracksMin o minOf →
    minOf d.delayBasedBwe.rateControl = minOf c.delayBasedBwe.rateControl

/-- New constraints, with the delay-based estimator told of them. -/
structure Constrained (c d : NetworkController I T A) : Prop extends SameTelling c d where
  clamped : clampConstraints settings.congestionControllerMinBitrate d.toConstrainedController =
    d.toConstrainedController
  told : ∀ minOf, TracksMin o minOf → minOf d.delayBasedBwe.rateControl = d.minDataRate

/-- The window after `UpdateCongestionWindowSize`, where that is called. -/
def Resized (t : Turn I T A W P) (window : Option ℤ) : Prop :=
  (window = t.session.controller.currentDataWindow ∧
      ¬ (settings.useCongestionWindow = true ∧ t.windowDue = true ∧
        t.session.controller.feedbackMaxRtts ≠ [])) ∨
    settings.useCongestionWindow = true ∧ t.session.controller.feedbackMaxRtts ≠ [] ∧
      ∃ size, window = some size ∧ kMinCwnd ≤ size

inductive Change : Turn I T A W P → Turn I T A W P → Prop
  | world (t : Turn I T A W P) (w : W) : Change t { t with session := { t.session with world := w } }
  | call (t : Turn I T A W P) (w : W) (call : ComponentCall) (hwindow : dataWindow call = none)
      (hbounds : bounds call = none) :
      Change t { t with session := { t.session with world := w, calls := t.session.calls ++ [call] } }
  | members (t : Turn I T A W P) (c : NetworkController I T A) (htelling : SameTelling t.session.controller c)
      (hbounds : SameBounds t.session.controller c) (hmin : SameMin o t.session.controller c) :
      Change t { t with session := { t.session with controller := c } }
  | newDelayBasedBwe (t : Turn I T A W P) (bwe : DelayBasedBwe I T A) :
      Change t { t with
        session := { t.session with controller := { t.session.controller with delayBasedBwe := bwe } }
        boundsDue := true }
  | constrain (t : Turn I T A W P) (c : NetworkController I T A) (w : W) (call : ComponentCall)
      (hc : Constrained o settings t.session.controller c)
      (hcall : bounds call = some (c.minDataRate, c.maxDataRate)) (hwindow : dataWindow call = none) :
      Change t { t with
        session := { t.session with controller := c, world := w, calls := t.session.calls ++ [call] }
        boundsDue := false }
  | rtt (t : Turn I T A W P) (rtt : ℤ) :
      Change t { t with
        session := { t.session with controller := { t.session.controller with
          feedbackMaxRtts := pushFeedbackRtt t.session.controller.feedbackMaxRtts rtt } }
        rtts := t.rtts ++ [rtt]
        windowDue := true }
  | windowToPushback (t : Turn I T A W P) (window : ℤ) (w : W)
      (hpushback : settings.hasPushbackController = true) (hwindow : Resized settings t (some window)) :
      Change t { t with
        session := { t.session with
          controller := { t.session.controller with currentDataWindow := some window }
          world := w
          calls := t.session.calls ++ [.setDataWindow window] }
        windowDue := false }
  | windowToUpdate (t : Turn I T A W P) (window : Option ℤ)
      (hwindow : Resized settings t window)
      (hto : settings.hasPushbackController = false ∨ window = none) (hnone : t.update.congestionWindow = none) :
      Change t { t with
        session := { t.session with controller := { t.session.controller with currentDataWindow := window } }
        update := { t.update with congestionWindow := window }
        windowDue := false }
  | estimates (t : Turn I T A W P) (r : Readings P) (w : W) (calls : List ComponentCall) (atTime : ℤ)
      (hnone : t.update.targetRate = none)
      (hcalls : ∀ call ∈ calls, dataWindow call = none ∧ bounds call = none) :
      Change t { t with
        session := { t.session with
          controller := { t.session.controller with toController :=
            (Congestion.maybeTriggerOnNetworkChanged units r t.session.controller.toController true
              t.update atTime).controller }
          world := w
          calls := t.session.calls ++ calls
          estimates := t.session.estimates ++ [readEstimates r]
          bweRows := t.session.bweRows ++
            (Congestion.maybeTriggerOnNetworkChanged units r t.session.controller.toController true
              t.update atTime).logged.toList }
        update := (Congestion.maybeTriggerOnNetworkChanged units r t.session.controller.toController true
          t.update atTime).update }
  | pacing (t : Turn I T A W P) (probeClusterConfigs : List P) (pacerConfig : Option PacerConfig) :
      Change t { t with update := { t.update with
        probeClusterConfigs := probeClusterConfigs
        pacerConfig := pacerConfig } }

abbrev Path : Turn I T A W P → Turn I T A W P → Prop := Relation.ReflTransGen (Change units o settings)

end Changes

theorem clampConstraints_startingRate (floor : DataRate) (c : ConstrainedController) :
    (clampConstraints floor c).startingRate =
      c.startingRate.map (max (clampConstraints floor c).minDataRate) := by
  have hrate : (clampConstraints floor c).startingRate = c.startingRate.map fun rate =>
      if rate < (clampConstraints floor c).minDataRate then (clampConstraints floor c).minDataRate
      else rate := rfl
  rw [hrate]
  congr 1
  funext rate
  split_ifs with h
  · exact (max_eq_left h.le).symm
  · exact (max_eq_right (not_lt.mp h)).symm

/-- Members that are clamped stay as they are. -/
theorem clampConstraints_clamped (floor : DataRate) (c : ConstrainedController) :
    clampConstraints floor (clampConstraints floor c) = clampConstraints floor c := by
  have hmax : (clampConstraints floor (clampConstraints floor c)).maxDataRate =
      (clampConstraints floor c).maxDataRate := by
    rw [clampConstraints_maxDataRate, clampConstraints_maxDataRate]
    exact max_eq_right (le_max_left _ _)
  have hstarting : (clampConstraints floor (clampConstraints floor c)).startingRate =
      (clampConstraints floor c).startingRate := by
    rw [clampConstraints_startingRate, clampConstraints_startingRate, Option.map_map]
    congr 1
    funext rate
    exact max_eq_right (le_max_left _ _)
  have hsplit : clampConstraints floor (clampConstraints floor c) = { clampConstraints floor c with
      maxDataRate := (clampConstraints floor (clampConstraints floor c)).maxDataRate
      startingRate := (clampConstraints floor (clampConstraints floor c)).startingRate } := rfl
  rw [hsplit, hmax, hstarting]

/-! ## The programs, one after the other -/

section Programs
variable {I T A W P : Type} {units : Units} {o : Estimators I T A} {k : Components W P}
  {settings : Settings} {t₀ : Turn I T A W P} {u : NetworkControlUpdate P} {rtts : List ℤ}
  {windowDue boundsDue : Bool}

variable (units o settings t₀ u rtts windowDue boundsDue) in
/-- The changes so far lead to the session, with the rest of the turn as given. -/
def Reached (s : Session I T A W P) : Prop := Path units o settings t₀ ⟨s, u, rtts, windowDue, boundsDue⟩

theorem keeps_component {call : ComponentCall} (hwindow : dataWindow call = none)
    (hbounds : bounds call = none) :
    Keeps (Reached units o settings t₀ u rtts windowDue boundsDue) (component k call) :=
  fun s hs => hs.tail (.call _ (k.does call s.world) call hwindow hbounds)

theorem keeps_answer {α : Type} (f : W → α × W) :
    Keeps (Reached (P := P) units o settings t₀ u rtts windowDue boundsDue) (answer f) :=
  fun s hs => hs.tail (.world _ (f s.world).2)

theorem keeps_probes (call : ProbeCall) :
    Keeps (Reached units o settings t₀ u rtts windowDue boundsDue) (probes k call) :=
  keeps_answer _

theorem keeps_totalProbes (rate : Option DataRate) (atTime : ℤ) :
    Keeps (Reached units o settings t₀ u rtts windowDue boundsDue) (totalProbes k rate atTime) :=
  Ensures.elim (fun _ _ hs => hs) fun _ _ => keeps_probes _

theorem keeps_reading {α : Type} (f : W → α) :
    Keeps (Reached (P := P) units o settings t₀ u rtts windowDue boundsDue) (reading f) :=
  fun _ hs => hs

theorem keeps_get : Keeps (Reached units o settings t₀ u rtts windowDue boundsDue)
    (get : Program I T A W P (Session I T A W P)) :=
  fun _ hs => hs

theorem keeps_onController {f : NetworkController I T A → NetworkController I T A}
    (htelling : ∀ c, SameTelling c (f c)) (hbounds : ∀ c, SameBounds c (f c))
    (hmin : ∀ c, SameMin o c (f c)) :
    Keeps (Reached (W := W) (P := P) units o settings t₀ u rtts windowDue boundsDue) (onController f) :=
  fun _ hs => hs.tail (.members _ _ (htelling _) (hbounds _) (hmin _))

/-- The update goes from one with no target rate to one that may have it. -/
theorem ensures_maybeTriggerOnNetworkChanged (atTime : ℤ) (hnone : u.targetRate = none) :
    Ensures (Reached units o settings t₀ u rtts windowDue boundsDue)
      (maybeTriggerOnNetworkChanged units o k settings u atTime)
      fun u' s => u'.congestionWindow = u.congestionWindow ∧
        Reached units o settings t₀ u' rtts windowDue boundsDue s := by
  intro s hs
  let probing := k.does (.setAlrEstimatedBitrate (k.targetRate s.world)) (afterPushback k settings s.world)
  let r := readings o k settings s.controller s.world probing
  refine ⟨?_, hs.tail (.estimates _ r _ _ atTime hnone ?_)⟩
  · change (Congestion.maybeTriggerOnNetworkChanged units r s.controller.toController true u
      atTime).update.congestionWindow = _
    rw [Congestion.maybeTriggerOnNetworkChanged]
    split_ifs <;> rfl
  · split_ifs <;> simp [dataWindow, bounds]

theorem ensures_resetConstraints (constraints : TargetRateConstraints) :
    Ensures (Reached units o settings t₀ u rtts windowDue boundsDue)
      (resetConstraints o k settings constraints)
      fun _ => Reached units o settings t₀ u rtts windowDue false := by
  intro s hs
  have hconstrained : Constrained o settings s.controller
      (resetConstraints o k settings constraints s).2.controller := by
    obtain ⟨atTime, minDataRate, maxDataRate, _ | startingRate⟩ := constraints
    · exact ⟨⟨rfl, rfl, rfl, rfl⟩, clampConstraints_clamped _ _, fun minOf h => h.setMinBitrate _ _⟩
    · exact ⟨⟨rfl, rfl, rfl, rfl⟩, clampConstraints_clamped _ _, fun minOf h => h.setMinBitrate _ _⟩
  have hchange : Change units o settings ⟨s, u, rtts, windowDue, boundsDue⟩ _ :=
    .constrain _ _ (resetConstraints o k settings constraints s).2.world
      (.setBitrates (resetConstraints o k settings constraints s).2.controller.startingRate _ _
        constraints.atTime) hconstrained rfl rfl
  obtain ⟨atTime, minDataRate, maxDataRate, _ | startingRate⟩ := constraints
  · exact hs.tail hchange
  · exact hs.tail hchange

theorem setPacingFactor_eq (c : ConstrainedController) (msg : StreamsConfig) :
    ∃ factor, setPacingFactor c msg =
      { c with toController := { c.toController with pacingFactor := factor } } := by
  rw [setPacingFactor]
  split_ifs
  · exact ⟨_, rfl⟩
  · exact ⟨c.pacingFactor, rfl⟩

theorem setMaxPaddingRate_eq (c : ConstrainedController) (msg : StreamsConfig) :
    ∃ rate, setMaxPaddingRate c msg =
      { c with toController := { c.toController with maxPaddingRate := rate } } := by
  unfold setMaxPaddingRate
  cases msg.maxPaddingRate with
  | none => exact ⟨c.maxPaddingRate, rfl⟩
  | some rate =>
    simp only
    split_ifs
    · exact ⟨rate, rfl⟩
    · exact ⟨c.maxPaddingRate, rfl⟩

/-- A message that allocates a new minimum clamps the members if the minimum bounds them, and a message
changes nothing else of them. -/
theorem setMinTotalAllocatedBitrate_cases (floor : DataRate) (c : ConstrainedController) (msg : StreamsConfig) :
    (((newAllocated c.minTotalAllocatedBitrate msg).isSome ∧ c.useMinAllocatableAsLowerBound = true) ∧
      ∃ d, setMinTotalAllocatedBitrate floor (setPacingFactor c msg) msg = clampConstraints floor d ∧
        lastEstimates d.toController = lastEstimates c.toController ∧
        d.useCongestionWindowDropFrameOnly = c.useCongestionWindowDropFrameOnly) ∨
    ¬ ((newAllocated c.minTotalAllocatedBitrate msg).isSome ∧ c.useMinAllocatableAsLowerBound = true) ∧
      ∃ factor rate, setMinTotalAllocatedBitrate floor (setPacingFactor c msg) msg =
          { c with toController :=
            { c.toController with pacingFactor := factor, minTotalAllocatedBitrate := rate } } ∧
        (c.useMinAllocatableAsLowerBound = true → rate = c.minTotalAllocatedBitrate) := by
  obtain ⟨factor, hfactor⟩ := setPacingFactor_eq c msg
  rw [hfactor]
  unfold setMinTotalAllocatedBitrate
  cases hnew : newAllocated c.minTotalAllocatedBitrate msg with
  | none =>
    right
    exact ⟨fun h => absurd h.1 (by simp), factor, c.minTotalAllocatedBitrate, rfl, fun _ => rfl⟩
  | some rate =>
    simp only
    by_cases hbound : c.useMinAllocatableAsLowerBound = true
    · rw [if_pos hbound]
      exact .inl ⟨⟨rfl, hbound⟩, _, rfl, rfl, rfl⟩
    · rw [if_neg hbound]
      exact .inr ⟨fun h => hbound h.2, factor, rate, rfl, fun h => absurd h hbound⟩

theorem keeps_setStreams (msg : StreamsConfig) :
    Keeps (Reached (W := W) (P := P) units o settings t₀ u rtts windowDue false) (setStreams o k settings msg) := by
  intro s hs
  obtain ⟨padding, hpadding⟩ := setMaxPaddingRate_eq
    (setMinTotalAllocatedBitrate settings.congestionControllerMinBitrate
      (setPacingFactor s.controller.toConstrainedController msg) msg) msg
  unfold setStreams
  rw [run_get, hpadding]
  obtain ⟨hnew, d, hd, hlast, hdrop⟩ | ⟨hnew, factor, rate, heq, hrate⟩ :=
    setMinTotalAllocatedBitrate_cases settings.congestionControllerMinBitrate
      s.controller.toConstrainedController msg
  · have hclamped := clampConstraints_clamped settings.congestionControllerMinBitrate d
    rw [hd, when, if_pos hnew]
    refine hs.tail (.constrain _ { s.controller with
        toConstrainedController := { clampConstraints settings.congestionControllerMinBitrate d with
          maxPaddingRate := padding }
        delayBasedBwe := s.controller.delayBasedBwe.setMinBitrate o
          (clampConstraints settings.congestionControllerMinBitrate d).minDataRate } _
      (.setMinMaxBitrate _ _) ⟨⟨hlast, hdrop, rfl, rfl⟩, ?_, fun minOf h => h.setMinBitrate _ _⟩ rfl rfl)
    exact congrArg (fun c : ConstrainedController => { c with maxPaddingRate := padding }) hclamped
  · rw [heq, when, if_neg hnew]
    refine hs.tail (.members _ _ ⟨rfl, rfl, rfl, rfl⟩ ⟨rfl, rfl, rfl, rfl, rfl, hrate⟩ ?_)
    exact fun _ _ => rfl

theorem ensures_onStreamsConfig (msg : StreamsConfig) :
    Ensures (Reached units o settings t₀ {} rtts windowDue false) (onStreamsConfig units o k settings msg)
      fun u' => Reached units o settings t₀ u' rtts windowDue false := by
  refine Keeps.bind (Keeps.whenSome fun _ _ => keeps_component rfl rfl) fun _ =>
    Keeps.bind (keeps_totalProbes _ _) fun probeClusterConfigs => Keeps.bind keeps_get fun s =>
    Keeps.bind (keeps_setStreams msg) fun _ => Keeps.bind keeps_get fun s' => ?_
  exact fun _ hs => hs.tail (.pacing _ _ _)

theorem run_onController (f : NetworkController I T A → NetworkController I T A) (s : Session I T A W P) :
    onController f s = (⟨⟩, { s with controller := f s.controller }) := rfl

/-- The session after the window was resized, or not. -/
theorem resized_of_when {resize : Bool} {t : Turn I T A W P}
    (huse : resize = true → settings.useCongestionWindow = true)
    (hdue : settings.useCongestionWindow = true → t.windowDue = true → resize = true) :
    ∃ window, Resized settings t window ∧
      when (resize = true) (updateCongestionWindowSize (P := P) k settings) t.session =
        (⟨⟩, { t.session with
          controller := { t.session.controller with currentDataWindow := window } }) := by
  cases resize with
  | false =>
    refine ⟨t.session.controller.currentDataWindow, .inl ⟨rfl, ?_⟩, rfl⟩
    exact fun h => Bool.false_ne_true (hdue h.1 h.2.1)
  | true =>
    have hrun : when (true = true) (updateCongestionWindowSize (P := P) k settings) t.session =
        updateCongestionWindowSize k settings t.session := rfl
    rw [hrun]
    cases hmin : t.session.controller.feedbackMaxRtts.min? with
    | none =>
      refine ⟨t.session.controller.currentDataWindow, .inl ⟨rfl, fun h => ?_⟩, ?_⟩
      · exact h.2.2 (List.min?_eq_none_iff.mp hmin)
      · rw [updateCongestionWindowSize, run_onController, hmin]
    | some minRtt =>
      refine ⟨some (updatedDataWindow k settings t.session.controller minRtt), .inr ⟨huse rfl, ?_, _, rfl, ?_⟩, ?_⟩
      · exact fun h => by simp [h] at hmin
      · unfold updatedDataWindow
        cases t.session.controller.currentDataWindow with
        | none => exact le_max_left _ _
        | some current => exact le_max_left _ _
      · rw [updateCongestionWindowSize, run_onController, hmin]

theorem ensures_handOutDataWindow {resize : Bool} (probeClusterConfigs : List P)
    (huse : resize = true → settings.useCongestionWindow = true)
    (hdue : settings.useCongestionWindow = true → windowDue = true → resize = true)
    (hnone : u.congestionWindow = none) :
    Ensures (Reached units o settings t₀ u rtts windowDue boundsDue)
      (handOutDataWindow k settings resize { u with probeClusterConfigs := probeClusterConfigs })
      fun u' s => u'.targetRate = u.targetRate ∧ Reached units o settings t₀ u' rtts false boundsDue s := by
  intro s hs
  let u' : NetworkControlUpdate P := { u with probeClusterConfigs := probeClusterConfigs }
  have hs' : Reached units o settings t₀ u' rtts windowDue boundsDue s := hs.tail (.pacing _ _ _)
  obtain ⟨window, hwindow, hresized⟩ :=
    @resized_of_when _ _ _ _ _ k settings _ ⟨s, u', rtts, windowDue, boundsDue⟩ huse hdue
  have hrun : handOutDataWindow k settings resize u' s =
      (if settings.hasPushbackController ∧ window.isSome then
        whenSome window (fun window => component k (.setDataWindow window)) >>= fun _ => pure u'
      else pure { u' with congestionWindow := window } : Program I T A W P (NetworkControlUpdate P))
        { s with controller := { s.controller with currentDataWindow := window } } := by
    rw [handOutDataWindow, run_bind, hresized]
    rfl
  rw [hrun]
  cases hpushback : settings.hasPushbackController with
  | false => exact ⟨rfl, hs'.tail (.windowToUpdate _ window hwindow (.inl hpushback) hnone)⟩
  | true =>
    cases window with
    | none => exact ⟨rfl, hs'.tail (.windowToUpdate _ none hwindow (.inr rfl) hnone)⟩
    | some window => exact ⟨rfl, hs'.tail (.windowToPushback _ window _ hpushback hwindow)⟩

/-- From the probe clusters of new constraints to the update. -/
theorem ensures_probesThenEstimates {boundsDue' : Bool} (atTime : ℤ) {m : Program I T A W P (List P)}
    (hm : Ensures (Reached units o settings t₀ {} rtts windowDue boundsDue) m
      fun _ => Reached units o settings t₀ {} rtts windowDue boundsDue') :
    Ensures (Reached units o settings t₀ {} rtts windowDue boundsDue)
      (m >>= fun probeClusterConfigs => maybeTriggerOnNetworkChanged units o k settings
        { probeClusterConfigs := probeClusterConfigs } atTime)
      fun u' => Reached units o settings t₀ u' rtts windowDue boundsDue' := by
  refine Ensures.bind hm fun probeClusterConfigs s hs => ?_
  exact (ensures_maybeTriggerOnNetworkChanged atTime rfl s
    (hs.tail (.pacing _ probeClusterConfigs none))).2

theorem ensures_onNetworkRouteChange (atTime : ℤ) (constraints : TargetRateConstraints) :
    Ensures (Reached units o settings t₀ {} rtts windowDue boundsDue)
      (onNetworkRouteChange units o k settings atTime constraints)
      fun u' => Reached units o settings t₀ u' rtts windowDue false := by
  refine Keeps.bind keeps_get fun s => Keeps.bind (keeps_component rfl rfl) fun _ =>
    Keeps.bind (keeps_component rfl rfl) fun _ =>
    Keeps.bind (Keeps.when fun _ => keeps_component rfl rfl) fun _ =>
    Ensures.bind (fun _ hs => hs.tail (.newDelayBasedBwe _ (.create o))) fun _ =>
    Keeps.bind (keeps_component rfl rfl) fun _ => Keeps.bind (keeps_component rfl rfl) fun _ => ?_
  exact ensures_probesThenEstimates atTime (ensures_resetConstraints _)

theorem ensures_startUp (config : NetworkControllerConfig) (atTime : ℤ) :
    Ensures (Reached units o settings t₀ {} rtts windowDue false) (startUp units o k settings config atTime)
      fun u' s => u'.targetRate = none ∧ u'.congestionWindow = none ∧
        Reached units o settings t₀ u' rtts windowDue false s := by
  refine Ensures.bind (ensures_resetConstraints _) fun probeClusterConfigs => Keeps.bind keeps_get fun s =>
    Keeps.bind (Keeps.whenSome fun _ _ => keeps_component rfl rfl) fun _ =>
    Keeps.bind (keeps_component rfl rfl) fun _ => Keeps.bind (keeps_totalProbes _ _) fun total =>
    Keeps.bind (keeps_onController (fun _ => ⟨rfl, rfl, rfl, rfl⟩)
      (fun _ => ⟨rfl, rfl, rfl, rfl, rfl, fun _ => rfl⟩) fun _ _ _ => rfl) fun _ => ?_
  exact fun _ hs => ⟨rfl, rfl, hs.tail (.pacing _ _ _)⟩

theorem ensures_onProcessInterval (atTime : ℤ) (pacerQueue : Option ℕ) :
    Ensures (Reached units o settings t₀ {} rtts false false)
      (onProcessInterval units o k settings atTime pacerQueue)
      fun u' => Reached units o settings t₀ u' rtts false false := by
  refine Keeps.bind keeps_get fun s => Ensures.bind
    (Ensures.elim (fun _ s hs => ⟨rfl, rfl, hs⟩) fun config _ => ensures_startUp config atTime) fun update => ?_
  refine Ensures.given fun htarget => Ensures.given fun hwindow => ?_
  refine Keeps.bind (Keeps.whenSome fun _ _ => Keeps.when fun _ => keeps_component rfl rfl) fun _ =>
    Keeps.bind (keeps_component rfl rfl) fun _ => Keeps.bind (keeps_reading _) fun alrStartTime =>
    Keeps.bind (keeps_component rfl rfl) fun _ => Keeps.bind (keeps_probes _) fun processed => ?_
  refine Ensures.bind (ensures_handOutDataWindow _ id (fun h _ => h) hwindow) fun update' =>
    Ensures.given fun htarget' s hs => ?_
  exact (ensures_maybeTriggerOnNetworkChanged atTime (htarget'.trans htarget) s hs).2

theorem ensures_onSentPacket (sentPacket : SentPacket) :
    Ensures (Reached units o settings t₀ {} rtts windowDue boundsDue)
      (onSentPacket units o k settings sentPacket)
      fun u' => Reached units o settings t₀ u' rtts windowDue boundsDue := by
  refine Keeps.bind (keeps_component rfl rfl) fun _ => Keeps.bind (keeps_reading _) fun alrStartTime =>
    Keeps.bind (keeps_component rfl rfl) fun _ => Keeps.bind keeps_get fun s => Keeps.bind ?_ fun _ =>
    Keeps.bind (keeps_component rfl rfl) fun _ => Ensures.ite (fun _ => ?_) fun _ _ hs => hs
  · exact Keeps.when fun _ => Keeps.bind (keeps_onController (fun _ => ⟨rfl, rfl, rfl, rfl⟩)
      (fun _ => ⟨rfl, rfl, rfl, rfl, rfl, fun _ => rfl⟩) fun _ _ _ => rfl) fun _ => keeps_component rfl rfl
  · exact Keeps.bind (keeps_component rfl rfl) fun _ s hs =>
      (ensures_maybeTriggerOnNetworkChanged sentPacket.sendTime rfl s hs).2

theorem keeps_setNetworkStateEstimate (estimate : Option StateEstimate) :
    Keeps (Reached units o settings t₀ u rtts windowDue boundsDue)
      (setNetworkStateEstimate k estimate) := by
  refine Keeps.bind keeps_get fun s => Keeps.bind ?_ fun _ =>
    Keeps.whenSome fun _ _ => Keeps.when fun _ => keeps_component rfl rfl
  exact keeps_onController (fun _ => ⟨rfl, rfl, rfl, rfl⟩)
    (fun _ => ⟨rfl, rfl, rfl, rfl, rfl, fun _ => rfl⟩) fun _ _ _ => rfl

theorem incomingPacketFeedback_rateControl (separateAudio : BweSeparateAudioPacketsSettings)
    (bwe : DelayBasedBwe I T A) (p : PacketResult) (atTime : ℤ) :
    (bwe.incomingPacketFeedback units o separateAudio p atTime).1.rateControl = bwe.rateControl := by
  simp only [DelayBasedBwe.incomingPacketFeedback, DelayBasedBwe.updateDetector,
    DelayBasedBwe.selectDetector, DelayBasedBwe.resetOnTimeOut]
  split_ifs <;> rfl

theorem estimateBitrate_min {minOf : A → DataRate} (h : TracksMin o minOf) (bwe : DelayBasedBwe I T A)
    (acknowledged probe : Option DataRate) (recovered : Bool) (atTime : ℤ) :
    minOf (bwe.estimateBitrate o acknowledged probe recovered atTime).2 = minOf bwe.rateControl := by
  unfold DelayBasedBwe.estimateBitrate
  by_cases hoveruse : bwe.activeState o = .overusing
  · rw [if_pos hoveruse]
    cases acknowledged with
    | none =>
      simp only
      split_ifs
      · exact h.setEstimate _ _ _
      · rfl
    | some acked =>
      simp only
      split_ifs
      · exact h.update _ _ _ _
      · rfl
  · rw [if_neg hoveruse]
    cases probe with
    | none => exact h.update _ _ _ _
    | some probe => exact h.setEstimate _ _ _

/-- Feedback leaves the minimum of the rate control alone. -/
theorem sameMin_incomingPacketFeedbackVector {minOf : A → DataRate} (h : TracksMin o minOf)
    (separateAudio : BweSeparateAudioPacketsSettings) (bwe : DelayBasedBwe I T A)
    (packets : List PacketResult) (atTime : ℤ) (acknowledged probe : Option DataRate)
    (estimate : Option NetworkStateEstimate) (inAlr : Bool) :
    minOf (bwe.incomingPacketFeedbackVector units o separateAudio packets atTime acknowledged probe
      estimate inAlr).bwe.rateControl = minOf bwe.rateControl := by
  unfold DelayBasedBwe.incomingPacketFeedbackVector
  split_ifs
  · rfl
  · refine (estimateBitrate_min h _ _ _ _ _).trans ?_
    rw [h.setNetworkStateEstimate, h.setInApplicationLimitedRegion]
    exact congrArg minOf (incomingPackets_same _
      (fun s p => incomingPacketFeedback_rateControl separateAudio s p atTime) bwe packets)

theorem keeps_tellDelayBasedEstimate (report : TransportPacketsFeedback) (result : DelayResult)
    (probe : Option DataRate) (inAlr : Bool) :
    Keeps (Reached units o settings t₀ u rtts windowDue boundsDue)
      (tellDelayBasedEstimate k report result probe inAlr) := by
  refine Keeps.bind (Keeps.when fun _ => ?_) fun _ => keeps_component rfl rfl
  exact Keeps.bind (Keeps.when fun _ => keeps_component rfl rfl) fun _ => keeps_component rfl rfl

theorem keeps_takeDelayBasedEstimate (report : TransportPacketsFeedback)
    (acknowledged probe : Option DataRate) (inAlr : Bool) :
    Keeps (Reached units o settings t₀ u rtts windowDue boundsDue)
      (takeDelayBasedEstimate units o k settings report acknowledged probe inAlr) := by
  intro s hs
  have hs' : Reached units o settings t₀ u rtts windowDue boundsDue
      (onDelayBasedBwe (fun _ => (s.controller.delayBasedBwe.incomingPacketFeedbackVector units o
        settings.separateAudio report.sortedByReceiveTime report.feedbackTime acknowledged probe
        s.controller.estimate inAlr).bwe) s).2 :=
    hs.tail (.members _ _ ⟨rfl, rfl, rfl, rfl⟩ ⟨rfl, rfl, rfl, rfl, rfl, fun _ => rfl⟩ fun minOf h =>
      sameMin_incomingPacketFeedbackVector h _ _ _ _ _ _ _ _)
  exact keeps_tellDelayBasedEstimate report _ probe inAlr _ hs'

theorem keeps_takeProbeResult (report : TransportPacketsFeedback) (acknowledged : Option DataRate) :
    Keeps (Reached units o settings t₀ u rtts windowDue boundsDue)
      (takeProbeResult units k settings report acknowledged) := by
  refine Keeps.bind (Keeps.when fun _ => ?_) fun _ => Keeps.bind (keeps_answer _) fun _ =>
    Keeps.bind keeps_get fun _ _ hs => hs
  exact Keeps.bind (keeps_component rfl rfl) fun _ => Keeps.bind (keeps_reading _) fun estimate =>
    keeps_setNetworkStateEstimate estimate

/-- The RTT that is taken from a report. -/
def reportRtt (units : Units) (report : TransportPacketsFeedback) : Option ℤ :=
  if report.empty then none else (feedbackRtts report).map fun rtts => units.ms rtts.1

def opRtt (units : Units) : Op → Option ℤ
  | .onTransportPacketsFeedback report => reportRtt units report
  | _ => none

theorem ensures_takeFeedback (report : TransportPacketsFeedback) (maxAndMin : Option (ℤ × ℤ))
    (alrStartTime : Option ℤ) :
    Ensures (Reached units o settings t₀ u [] false boundsDue)
      (takeFeedback units k report maxAndMin alrStartTime)
      fun _ => Reached units o settings t₀ u (maxAndMin.map fun rtts => units.ms rtts.1).toList
        maxAndMin.isSome boundsDue := by
  refine Ensures.bind (Q := ?_) (R := fun _ => Reached units o settings t₀ u
    (maxAndMin.map fun rtts => units.ms rtts.1).toList maxAndMin.isSome boundsDue) ?_ fun _ => ?_
  · cases maxAndMin with
    | none => exact fun _ hs => hs
    | some rtts =>
      exact Ensures.bind (fun s hs => hs.tail (.rtt _ _)) fun _ => keeps_component rfl rfl
  refine Keeps.bind keeps_get fun s => Keeps.bind (Keeps.when fun _ => Keeps.bind (keeps_component rfl rfl)
    fun _ => keeps_component rfl rfl) fun _ => Keeps.bind (keeps_onController (fun _ => ⟨rfl, rfl, rfl, rfl⟩)
    (fun _ => ⟨rfl, rfl, rfl, rfl, rfl, fun _ => rfl⟩) fun _ _ _ => rfl) fun _ =>
    Keeps.bind (keeps_component rfl rfl) fun _ => Keeps.bind (keeps_reading _) fun acknowledged =>
    Keeps.bind (keeps_component rfl rfl) fun _ => Keeps.bind (Keeps.forM fun _ _ => keeps_component rfl rfl)
    fun _ _ hs => hs

theorem ensures_onTransportPacketsFeedback (report : TransportPacketsFeedback) :
    Ensures (Reached units o settings t₀ {} [] false false)
      (onTransportPacketsFeedback units o k settings report)
      fun u' => Reached units o settings t₀ u' (reportRtt units report).toList false false := by
  unfold onTransportPacketsFeedback reportRtt
  by_cases hempty : report.empty = true
  · rw [if_pos hempty, if_pos hempty]
    exact fun _ hs => hs
  rw [if_neg hempty, if_neg hempty]
  refine Keeps.bind (keeps_onController (fun _ => ⟨rfl, rfl, rfl, rfl⟩)
      (fun _ => ⟨rfl, rfl, rfl, rfl, rfl, fun _ => rfl⟩) fun _ _ _ => rfl) fun _ =>
    Keeps.bind (Keeps.when fun _ => keeps_component rfl rfl) fun _ =>
    Keeps.bind (keeps_reading _) fun alrStartTime =>
    Ensures.bind (ensures_takeFeedback report _ alrStartTime) fun acknowledged =>
    Keeps.bind (keeps_takeProbeResult report acknowledged) fun probe =>
    Keeps.bind (keeps_takeDelayBasedEstimate report acknowledged probe _) fun result => ?_
  refine Ensures.bind (Ensures.ite (fun _ => ensures_maybeTriggerOnNetworkChanged report.feedbackTime rfl)
    fun _ s hs => ⟨rfl, hs⟩) fun update => Ensures.given fun hwindow => ?_
  refine Keeps.bind (Ensures.ite (fun _ => Keeps.bind (keeps_component rfl rfl) fun _ => keeps_probes _)
    fun _ _ hs => hs) fun requested => ?_
  refine Ensures.post (ensures_handOutDataWindow _ ?_ ?_ hwindow) fun _ _ h => h.2
  · exact fun h => (Bool.and_eq_true_iff.mp h).1
  · exact fun huse hdue => Bool.and_eq_true_iff.mpr ⟨huse, hdue⟩

/-- **What a call does** is a path of changes from nothing to its update. -/
theorem perform_path (units : Units) (o : Estimators I T A) (k : Components W P) (settings : Settings)
    (s : Session I T A W P) (op : Op) :
    Path units o settings ⟨s, {}, [], false, false⟩
      ⟨(perform units o k settings op s).2, (perform units o k settings op s).1,
        (opRtt units op).toList, false, false⟩ := by
  have hs : Reached units o settings ⟨s, {}, [], false, false⟩ {} [] false false s := .refl
  cases op with
  | onNetworkAvailability atTime available =>
    exact (keeps_probes (k := k) (.onNetworkAvailability atTime available) s hs).tail (.pacing _ _ none)
  | onNetworkRouteChange atTime constraints => exact ensures_onNetworkRouteChange atTime constraints s hs
  | onProcessInterval atTime pacerQueue => exact ensures_onProcessInterval atTime pacerQueue s hs
  | onRemoteBitrateReport receiveTime bandwidth =>
    exact hs.tail (.call _ _ (.updateReceiverEstimate receiveTime bandwidth) rfl rfl)
  | onRoundTripTimeUpdate receiveTime roundTripTime smoothed =>
    cases smoothed with
    | true => exact hs
    | false =>
      have hmembers : Reached units o settings ⟨s, {}, [], false, false⟩ {} [] false false
          (onDelayBasedBwe (fun bwe => bwe.onRttUpdate o roundTripTime) s).2 :=
        hs.tail (.members _ _ ⟨rfl, rfl, rfl, rfl⟩ ⟨rfl, rfl, rfl, rfl, rfl, fun _ => rfl⟩
          fun _ h => h.setRtt _ _)
      exact hmembers.tail (.call _ _ (.updateRtt roundTripTime receiveTime) rfl rfl)
  | onSentPacket sentPacket => exact ensures_onSentPacket sentPacket s hs
  | onReceivedPacket => exact hs
  | onStreamsConfig msg => exact ensures_onStreamsConfig msg s hs
  | onTargetRateConstraints constraints =>
    exact ensures_probesThenEstimates constraints.atTime (ensures_resetConstraints constraints) s hs
  | onTransportLossReport packetsLostDelta packetsReceivedDelta receiveTime =>
    exact hs.tail (.call _ _ (.updatePacketsLost packetsLostDelta
      (packetsReceivedDelta + packetsLostDelta) receiveTime) rfl rfl)
  | onTransportPacketsFeedback report => exact ensures_onTransportPacketsFeedback report s hs
  | onNetworkStateEstimate estimate =>
    have hkeeps : Keeps (Reached units o settings ⟨s, {}, [], false, false⟩ {} [] false false)
        (when (settings.hasNetworkEstimator = false) (setNetworkStateEstimate k (some estimate))) :=
      Keeps.when fun _ => keeps_setNetworkStateEstimate _
    exact hkeeps s hs

end Programs
end WebrtcTrace.Congestion.GoogCc
