import WebrtcTrace.Sending.VideoSendStream

/-! # Registration with the bitrate allocator

The stream is an observer of the allocator while it runs, that is, while it may send and an encoding is
active (`IsRunning`). The check every two seconds takes it out when the encoder is silent. What the
allocator holds of the stream is read off the calls (`registration`); the steps keep it in line with the
members (`Registered`).
-/

namespace WebrtcTrace.Sending
open Runs VideoSendStream
set_option autoImplicit false

variable {config : SendConfig}

/-! ## What the allocator holds -/

/-- What a call leaves the allocator with. -/
def register (held : Option MediaStreamAllocationConfig) :
    SendEvent → Option MediaStreamAllocationConfig
  | .addObserver limits => some limits
  | .removeObserver => none
  | _ => held

/-- What the allocator holds of the stream after these calls. -/
def registration (events : List SendEvent) : Option MediaStreamAllocationConfig :=
  events.foldl register none

/-- The limits with padding, whatever the state of the encoder. -/
def paddedLimits (config : SendConfig) (s : VideoSendStream) : MediaStreamAllocationConfig :=
  ({ s with disablePadding := false } : VideoSendStream).getAllocationConfig config

structure Registered (config : SendConfig) (held : Option MediaStreamAllocationConfig)
    (s : VideoSendStream) : Prop where
  running : s.isRunning = (s.isActive && s.hasActiveEncodings)
  only : s.isRunning = false → held = none
  active : s.isRunning = true → s.timedOut = false → held = some (s.getAllocationConfig config)
  limits : ∀ limits ∈ held, limits = s.getAllocationConfig config ∨
    s.timedOut = true ∧ s.disablePadding = true ∧ limits = paddedLimits config s

/-! ## Steps -/

section Steps
variable {held : Option MediaStreamAllocationConfig} {s : VideoSendStream}

/-- The allocator gets the current limits of a stream that runs. -/
theorem Registered.refreshed {t : VideoSendStream} (hheld : held = some (t.getAllocationConfig config))
    (hrunning : t.isRunning = true) (hsends : t.isActive = true)
    (hencodes : t.hasActiveEncodings = true) : Registered config held t where
  running := by rw [hrunning, hsends, hencodes]; rfl
  only h := by rw [hrunning] at h; cases h
  active _ _ := hheld
  limits _ h := .inl (Option.some.inj (hheld.symm.trans h)).symm

/-- The allocator holds nothing of a stream that does not run. -/
theorem Registered.halted {t : VideoSendStream} (hrunning : t.isRunning = false)
    (hsends : (t.isActive && t.hasActiveEncodings) = false) : Registered config none t where
  running := by rw [hrunning, hsends]
  only _ := rfl
  active h _ := by rw [hrunning] at h; cases h
  limits := nofun

/-- A step that leaves the flags and the limits alone. -/
theorem Registered.congr (h : Registered config held s) {t : VideoSendStream}
    (hrunning : t.isRunning = s.isRunning) (hsends : t.isActive = s.isActive)
    (hencodes : t.hasActiveEncodings = s.hasActiveEncodings) (htimedOut : t.timedOut = s.timedOut)
    (hdisabled : t.disablePadding = s.disablePadding)
    (hlimits : t.getAllocationConfig config = s.getAllocationConfig config)
    (hpadded : paddedLimits config t = paddedLimits config s) : Registered config held t where
  running := by rw [hrunning, hsends, hencodes, h.running]
  only := by rw [hrunning]; exact h.only
  active := by rw [hrunning, htimedOut, hlimits]; exact h.active
  limits := by rw [hlimits, htimedOut, hdisabled, hpadded]; exact h.limits

theorem Registered.sends (h : Registered config held s) (hrunning : s.isRunning = true) :
    s.isActive = true ∧ s.hasActiveEncodings = true := by
  have hboth := h.running.symm.trans hrunning
  rwa [Bool.and_eq_true] at hboth

theorem Registered.start (h : Registered config held s) :
    Registered config ((s.start config).events.foldl register held) (s.start config).state := by
  unfold VideoSendStream.start startupVideoSendStream
  dsimp only
  split_ifs with hstart
  · rw [Bool.and_eq_true] at hstart
    exact .refreshed rfl rfl rfl hstart.2
  · by_cases hrunning : s.isRunning = true
    · obtain ⟨hsends, hencodes⟩ := h.sends hrunning
      exact h.congr rfl hsends.symm rfl rfl rfl rfl rfl
    · rw [Bool.not_eq_true] at hrunning
      have hencodes : s.hasActiveEncodings = false := by simpa [hrunning] using hstart
      have hnone : held = none := h.only hrunning
      rw [hnone]
      exact .halted hrunning hencodes

theorem Registered.stop (h : Registered config held s) :
    Registered config (s.stop.events.foldl register held) s.stop.state := by
  unfold VideoSendStream.stop stopVideoSendStream
  dsimp only
  split_ifs with hsends hrunning
  · exact h
  · exact .halted rfl rfl
  · rw [Bool.not_eq_true] at hrunning
    have hnone : held = none := h.only hrunning
    rw [hnone]
    exact .halted hrunning rfl

theorem Registered.reconfigure (h : Registered config held s) (encoderConfig : VideoEncoderConfig) :
    Registered config ((s.reconfigureVideoEncoder config encoderConfig).events.foldl register held)
      (s.reconfigureVideoEncoder config encoderConfig).state := by
  unfold reconfigureVideoEncoder startupVideoSendStream stopVideoSendStream
  dsimp only
  split_ifs with hstart hstop
  · simp only [Bool.and_eq_true] at hstart
    exact .refreshed rfl rfl hstart.1.2 hstart.1.1
  · simp only [Bool.and_eq_true, Bool.not_eq_true'] at hstop
    refine .halted rfl ?_
    show (s.isActive && Sending.hasActiveEncodings encoderConfig) = false
    rw [hstop.1, Bool.and_false]
  · by_cases hrunning : s.isRunning = true
    · obtain ⟨hsends, hencodes⟩ := h.sends hrunning
      have hencodes' : Sending.hasActiveEncodings encoderConfig = true := by simpa [hrunning] using hstop
      exact h.congr rfl rfl (hencodes'.trans hencodes.symm) rfl rfl rfl rfl
    · rw [Bool.not_eq_true] at hrunning
      have hnone : held = none := h.only hrunning
      rw [hnone]
      refine .halted hrunning ?_
      show (s.isActive && Sending.hasActiveEncodings encoderConfig) = false
      rw [Bool.and_comm]
      simpa [hrunning] using hstart

/-- The limits without padding. -/
def bareLimits (config : SendConfig) (s : VideoSendStream) : MediaStreamAllocationConfig :=
  ({ s with disablePadding := true } : VideoSendStream).getAllocationConfig config

theorem limits_cases (s : VideoSendStream) :
    s.getAllocationConfig config = bareLimits config s ∨
      s.getAllocationConfig config = paddedLimits config s := by
  by_cases hdisabled : s.disablePadding = true
  · left
    unfold bareLimits getAllocationConfig
    rw [hdisabled]
  · right
    unfold paddedLimits getAllocationConfig
    rw [Bool.not_eq_true] at hdisabled
    rw [hdisabled]

/-- The check takes a silent stream out if it has a target, and its padding away. -/
theorem Registered.check (h : Registered config held s) :
    Registered config ((s.checkEncoderActivity config).events.foldl register held)
      (s.checkEncoderActivity config).state := by
  unfold checkEncoderActivity signalEncoderActive
  dsimp only
  split_ifs with hstopped hsilent hout htimedOut hrunning
  · exact h
  · have hrunning : s.isRunning = true := by simpa using hstopped
    exact ⟨h.running, fun _ => rfl, nofun, nofun⟩
  · refine ⟨h.running, h.only, nofun, fun limits hlimits => ?_⟩
    obtain hcurrent | ⟨_, _, hpadded⟩ := h.limits limits hlimits
    · obtain hbare | hpadded := @limits_cases config s
      · exact .inl (hcurrent.trans hbare)
      · exact .inr ⟨rfl, rfl, hcurrent.trans hpadded⟩
    · exact .inr ⟨rfl, rfl, hpadded⟩
  · obtain ⟨hsends, hencodes⟩ := h.sends hrunning
    exact .refreshed rfl hrunning hsends hencodes
  · exact absurd hrunning (by simpa using hstopped)
  · exact h.congr rfl rfl rfl rfl rfl rfl rfl

theorem Registered.change (h : Registered config held s) (streams : List VideoStream) (isSvc : Bool)
    (contentType : ContentType) (minTransmitBitrateBps : ℤ) :
    Registered config ((s.changeEncoderConfiguration config streams isSvc contentType
        minTransmitBitrateBps).events.foldl register held)
      (s.changeEncoderConfiguration config streams isSvc contentType minTransmitBitrateBps).state := by
  unfold changeEncoderConfiguration signalEncoderActive
  cases streams with
  | nil => exact h
  | cons first others =>
    dsimp only
    split_ifs with hrunning
    · obtain ⟨hsends, hencodes⟩ := h.sends hrunning
      exact .refreshed rfl hrunning hsends hencodes
    · have hrunning := Bool.eq_false_iff.mpr hrunning
      have hnone : held = none := h.only hrunning
      rw [hnone]
      exact .halted hrunning (h.running.symm.trans hrunning)

/-- Handing in an allocation does not concern the allocator. -/
theorem Registered.update (h : Registered config held s) (allocation : VideoBitrateAllocation)
    (nowMs : ℤ) :
    Registered config ((s.updateAllocation config allocation nowMs).events.foldl register held)
      (s.updateAllocation config allocation nowMs).state := by
  unfold updateAllocation
  split_ifs
  · exact h
  · cases s.videoBitrateAllocationContext with
    | none => exact h.congr rfl rfl rfl rfl rfl rfl rfl
    | some context =>
      dsimp only
      split_ifs <;> exact h.congr rfl rfl rfl rfl rfl rfl rfl

theorem Registered.image (h : Registered config held s) (nowMs : ℤ) :
    Registered config ((s.imageEncoded config nowMs).events.foldl register held)
      (s.imageEncoded config nowMs).state := by
  unfold VideoSendStream.imageEncoded
  extract_lets enabled
  have henabled : Registered config (enabled.events.foldl register held) enabled.state := by
    simp only [enabled, signalEncoderActive]
    split_ifs with hdisabled hrunning
    · obtain ⟨hsends, hencodes⟩ := h.sends hrunning
      exact .refreshed rfl hrunning hsends hencodes
    · have hrunning := Bool.eq_false_iff.mpr hrunning
      have hnone : held = none := h.only hrunning
      rw [hnone]
      exact .halted hrunning (h.running.symm.trans hrunning)
    · exact h
  cases enabled.state.videoBitrateAllocationContext.bind VbaSendContext.throttledAllocation with
  | none => exact henabled
  | some allocation =>
    dsimp only
    rw [List.foldl_append]
    exact henabled.update allocation nowMs

theorem Registered.perform (h : Registered config held s) (op : SendOp) :
    Registered config ((s.perform config op).events.foldl register held)
      (s.perform config op).state := by
  cases op with
  | start => exact h.start
  | stop => exact h.stop
  | stopPermanently => exact h.stop
  | reconfigureVideoEncoder encoderConfig => exact h.reconfigure encoderConfig
  | checkEncoderActivity => exact h.check
  | onBitrateUpdated | onEncoderConfigurationChanged | onEncodedImage | onFrameDropped =>
    exact h.congr rfl rfl rfl rfl rfl rfl rfl
  | onBitrateAllocationUpdated allocation isCurrent nowMs =>
    cases isCurrent with
    | false => exact h.congr rfl rfl rfl rfl rfl rfl rfl
    | true => exact h.update allocation nowMs
  | runTask nowMs =>
    simp only [VideoSendStream.perform, VideoSendStream.runTask]
    cases hqueue : s.workerQueue with
    | nil => exact h
    | cons task tasks =>
      have htasks : Registered config held { s with workerQueue := tasks } :=
        h.congr rfl rfl rfl rfl rfl rfl rfl
      cases task with
      | encoderConfigurationChanged streams isSvc contentType minTransmitBitrateBps =>
        exact htasks.change streams isSvc contentType minTransmitBitrateBps
      | bitrateAllocationUpdated allocation => exact htasks.update allocation nowMs
      | imageEncoded => exact htasks.image nowMs

end Steps

/-! ## Runs -/

theorem registration_append (events events' : List SendEvent) :
    registration (events ++ events') = events'.foldl register (registration events) :=
  List.foldl_append

theorem registered_run {encoderConfig : VideoEncoderConfig} {tr : List (VideoSendStream × SendOp)}
    {s : VideoSendStream} (h : SendRun config encoderConfig tr s) :
    Registered config (registration (sendEvents config tr)) s := by
  refine h.history (I := fun tr s => Registered config (registration (sendEvents config tr)) s) ?_ ?_
  · exact .halted rfl rfl
  · rintro tr s op t hs rfl
    rw [sendEvents_snoc, registration_append]
    exact hs.perform op

/-- The targets the encoder got. -/
def encoderTargets (events : List SendEvent) : List ℤ :=
  events.filterMap fun e =>
    match e with
    | .encoderBitrate target _ _ _ _ => some target
    | _ => none

theorem encoderTargets_append (events events' : List SendEvent) :
    encoderTargets (events ++ events') = encoderTargets events ++ encoderTargets events' :=
  List.filterMap_append

/-- An outcome that tells the encoder nothing and does not stop the stream, or tells it to pause. -/
def Pauses (s : VideoSendStream) (out : SendOutcome) : Prop :=
  encoderTargets out.events = [] ∧ (out.state.isRunning = false → s.isRunning = false) ∨
    encoderTargets out.events = [0]

theorem pauses_update (s : VideoSendStream) (allocation : VideoBitrateAllocation) (nowMs : ℤ) :
    encoderTargets (s.updateAllocation config allocation nowMs).events = [] ∧
      (s.updateAllocation config allocation nowMs).state.isRunning = s.isRunning := by
  unfold updateAllocation
  split_ifs
  · exact ⟨rfl, rfl⟩
  · cases s.videoBitrateAllocationContext with
    | none => exact ⟨rfl, rfl⟩
    | some context =>
      dsimp only
      split_ifs <;> exact ⟨rfl, rfl⟩

theorem pauses_image (s : VideoSendStream) (nowMs : ℤ) : Pauses s (s.imageEncoded config nowMs) := by
  unfold VideoSendStream.imageEncoded
  extract_lets enabled
  obtain ⟨hevents, hrunning⟩ :
      encoderTargets enabled.events = [] ∧ enabled.state.isRunning = s.isRunning := by
    simp only [enabled, signalEncoderActive]
    split_ifs <;> exact ⟨rfl, rfl⟩
  cases enabled.state.videoBitrateAllocationContext.bind VbaSendContext.throttledAllocation with
  | none => exact .inl ⟨hevents, fun h => hrunning.symm.trans h⟩
  | some allocation =>
    obtain ⟨hevents', hrunning'⟩ := @pauses_update config enabled.state allocation nowMs
    refine .inl ⟨?_, fun h => hrunning.symm.trans (hrunning'.symm.trans h)⟩
    exact (encoderTargets_append _ _).trans (by rw [hevents, hevents', List.nil_append])

theorem perform_pauses (s : VideoSendStream) {op : SendOp}
    (hop : ∀ update payload protection, op ≠ .onBitrateUpdated update payload protection) :
    Pauses s (s.perform config op) := by
  cases op with
  | onBitrateUpdated update payload protection => exact absurd rfl (hop update payload protection)
  | start =>
    simp only [VideoSendStream.perform, VideoSendStream.start, startupVideoSendStream]
    split_ifs
    · exact .inl ⟨rfl, nofun⟩
    · exact .inl ⟨rfl, id⟩
  | stop | stopPermanently =>
    simp only [VideoSendStream.perform, VideoSendStream.stopPermanently, VideoSendStream.stop,
      stopVideoSendStream]
    split_ifs
    · exact .inl ⟨rfl, id⟩
    · exact .inr rfl
    · exact .inl ⟨rfl, id⟩
  | reconfigureVideoEncoder encoderConfig =>
    simp only [VideoSendStream.perform, VideoSendStream.reconfigureVideoEncoder, startupVideoSendStream,
      stopVideoSendStream]
    split_ifs
    · exact .inl ⟨rfl, nofun⟩
    · exact .inr rfl
    · exact .inl ⟨rfl, id⟩
  | checkEncoderActivity =>
    simp only [VideoSendStream.perform, VideoSendStream.checkEncoderActivity, signalEncoderActive]
    split_ifs <;> exact .inl ⟨rfl, id⟩
  | onEncoderConfigurationChanged | onEncodedImage | onFrameDropped => exact .inl ⟨rfl, id⟩
  | onBitrateAllocationUpdated allocation isCurrent nowMs =>
    cases isCurrent with
    | false => exact .inl ⟨rfl, id⟩
    | true =>
      obtain ⟨hevents, hrunning⟩ := @pauses_update config s allocation nowMs
      exact .inl ⟨hevents, fun h => hrunning.symm.trans h⟩
  | runTask nowMs =>
    simp only [VideoSendStream.perform, VideoSendStream.runTask]
    cases s.workerQueue with
    | nil => exact .inl ⟨rfl, id⟩
    | cons task tasks =>
      cases task with
      | encoderConfigurationChanged streams isSvc contentType minTransmitBitrateBps =>
        cases streams with
        | nil => exact .inl ⟨rfl, id⟩
        | cons first others =>
          simp only [changeEncoderConfiguration, signalEncoderActive]
          split_ifs <;> exact .inl ⟨rfl, id⟩
      | bitrateAllocationUpdated allocation =>
        obtain ⟨hevents, hrunning⟩ :=
          @pauses_update config { s with workerQueue := tasks } allocation nowMs
        exact .inl ⟨hevents, fun h => hrunning.symm.trans h⟩
      | imageEncoded => exact pauses_image { s with workerQueue := tasks } nowMs

/-- The allocator updates a stream only while it holds it. -/
def UpdatesHeld (config : SendConfig) (tr : List (VideoSendStream × SendOp)) : Prop :=
  ∀ before s update payload protection after,
    tr = before ++ (s, .onBitrateUpdated update payload protection) :: after →
    (registration (sendEvents config before)).isSome = true

theorem UpdatesHeld.before {tr : List (VideoSendStream × SendOp)} {e : VideoSendStream × SendOp}
    (h : UpdatesHeld config (tr ++ [e])) : UpdatesHeld config tr :=
  fun before s update payload protection after htr =>
    h before s update payload protection (after ++ [e]) (by rw [htr, List.append_assoc, List.cons_append])

/-- The encoder of a stream that does not run has a target of zero. -/
theorem paused_run {encoderConfig : VideoEncoderConfig} {tr : List (VideoSendStream × SendOp)}
    {s : VideoSendStream} (h : SendRun config encoderConfig tr s) (hheld : UpdatesHeld config tr) :
    s.isRunning = false → ∀ target ∈ (encoderTargets (sendEvents config tr)).getLast?, target = 0 := by
  induction h with
  | start => exact fun _ target htarget => nomatch htarget
  | @snoc tr s t op hr ht ih =>
    subst ht
    intro hstopped
    rw [sendEvents_snoc, encoderTargets_append]
    by_cases hop : ∃ update payload protection, op = .onBitrateUpdated update payload protection
    · obtain ⟨update, payload, protection, rfl⟩ := hop
      have hnone := (registered_run hr).only hstopped
      have hsome := hheld tr s update payload protection [] rfl
      rw [hnone] at hsome
      cases hsome
    · have hop' : ∀ update payload protection, op ≠ .onBitrateUpdated update payload protection :=
        fun update payload protection heq => hop ⟨update, payload, protection, heq⟩
      obtain ⟨hevents, hrunning⟩ | hevents := @perform_pauses config s _ hop'
      · rw [hevents, List.append_nil]
        exact ih hheld.before (hrunning hstopped)
      · rw [hevents, List.getLast?_concat]
        exact fun target htarget => (Option.some.inj htarget).symm

/-- **The allocator holds the stream while it runs.** In every run, whatever the threads of the encoder
do meanwhile: the stream runs exactly if it may send and an encoding is active; the allocator holds it
only while it runs; it holds the current limits unless the encoder has timed out, and after that it may
hold nothing or the limits with the padding that was taken away. If the allocator updates only streams it
holds, the encoder of a stream that does not run was last told to pause. -/
theorem registered_while_running (encoderConfig : VideoEncoderConfig)
    (tr : List (VideoSendStream × SendOp)) (s : VideoSendStream)
    (h : SendRun config encoderConfig tr s) :
    (s.isRunning = true ↔ s.isActive = true ∧ s.hasActiveEncodings = true) ∧
      (s.isRunning = false → registration (sendEvents config tr) = none) ∧
      (s.isRunning = true → s.timedOut = false →
        registration (sendEvents config tr) = some (s.getAllocationConfig config)) ∧
      (∀ limits ∈ registration (sendEvents config tr), limits = s.getAllocationConfig config ∨
        s.timedOut = true ∧ s.disablePadding = true ∧ limits = paddedLimits config s) ∧
      (UpdatesHeld config tr → s.isRunning = false →
        ∀ target ∈ (encoderTargets (sendEvents config tr)).getLast?, target = 0) := by
  have hs := registered_run h
  refine ⟨?_, hs.only, hs.active, hs.limits, paused_run h⟩
  rw [hs.running, Bool.and_eq_true]

/-- A stream that is started, configured and updated. -/
def updatedOps : List SendOp :=
  [.start, .onEncoderConfigurationChanged oneStream.simulcastLayers false .realtimeVideo 0, .runTask 0,
    .onBitrateUpdated ⟨0, 50, 0⟩ 500000 0]

/-- The camera stops: the second check takes the stream out. -/
def silentOps : List SendOp :=
  updatedOps ++ [.onEncodedImage ⟨90000, 0, 0, 640, 480, 1000, 3, none, none, 20⟩ 100,
    .runTask 100, .checkEncoderActivity, .checkEncoderActivity]

/-- It is enough to look at what comes before each update of a run. -/
theorem UpdatesHeld.of_take {tr : List (VideoSendStream × SendOp)}
    (h : ∀ i < tr.length, (tr[i]?.any fun e => e.2 matches .onBitrateUpdated ..) = true →
      (registration (sendEvents config (tr.take i))).isSome = true) : UpdatesHeld config tr := by
  rintro before s update payload protection after rfl
  have hbefore := h before.length (by simp)
  rw [List.getElem?_append_right le_rfl, List.take_left, Nat.sub_self] at hbefore
  exact hbefore rfl

/-- Held with its limits while it runs, out once the camera is silent, and told to pause by a stop. -/
theorem registered_while_running_silent :
    (∃ tr s, SendRun realtime oneStream tr s ∧
      registration (sendEvents realtime tr) = some ⟨30000, 1000000, 0, 0, true, 1, true⟩ ∧
      encoderTargets (sendEvents realtime tr) = [500000]) ∧
    (∃ tr s, SendRun realtime oneStream tr s ∧ s.timedOut = true ∧
      registration (sendEvents realtime tr) = none ∧
      s.isActive = true ∧ s.hasActiveEncodings = true) ∧
    ∃ tr s, SendRun realtime oneStream tr s ∧ UpdatesHeld realtime tr ∧ tr.map Prod.snd =
        updatedOps ++ [.stop] ∧ registration (sendEvents realtime tr) = none ∧
      (encoderTargets (sendEvents realtime tr)).getLast? = some 0 := by
  have hrun := fun ops => Run.of_next (VideoSendStream.next realtime) (.create oneStream) ops
  refine ⟨⟨_, _, hrun updatedOps, ?_, by decide +kernel⟩,
    ⟨_, _, hrun silentOps, by decide +kernel, by decide +kernel, ?_⟩,
    ⟨_, _, hrun (updatedOps ++ [.stop]), ?_, by decide +kernel, ?_⟩⟩
  · obtain ⟨_, _, hheld, _⟩ := @registered_while_running realtime oneStream _ _ (hrun updatedOps)
    exact (hheld (by decide +kernel) (by decide +kernel)).trans (by decide +kernel)
  · obtain ⟨hruns, _⟩ := @registered_while_running realtime oneStream _ _ (hrun silentOps)
    exact hruns.mp (by decide +kernel)
  · exact UpdatesHeld.of_take (by decide +kernel)
  · obtain ⟨_, hnone, _, _, hpaused⟩ :=
      @registered_while_running realtime oneStream _ _ (hrun (updatedOps ++ [.stop]))
    refine ⟨hnone (by decide +kernel), ?_⟩
    have hpaused := hpaused (UpdatesHeld.of_take (by decide +kernel)) (by decide +kernel)
    obtain ⟨target, hlast⟩ := Option.isSome_iff_exists.mp (by decide +kernel :
      (encoderTargets (sendEvents realtime (history (VideoSendStream.next realtime) (.create oneStream)
        (updatedOps ++ [.stop])))).getLast?.isSome = true)
    rw [hlast, hpaused target hlast]

end WebrtcTrace.Sending
