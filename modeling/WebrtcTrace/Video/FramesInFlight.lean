import WebrtcTrace.Video.ReceiveStream
import WebrtcTrace.Video.ReleaseLoops

/-! # One frame at a time

In a stream that is started once there is one frame on its way at most: the buffer controller is ready
for one, or one is in the decode queue, or its result is on the way back (`tokens`). While the stream
runs there is exactly one, so it never stalls. With it goes what the members that travel with the frame
stand for: a keyframe is required when the last frame handed to the decoder was not decoded (`InFlight`).
-/

namespace WebrtcTrace.Video
open Runs ReceiveStream
set_option autoImplicit false

variable {H : Type*} {U : Upstream H}

/-! ## What the buffer controller releases -/

namespace BufferController
variable {c : BufferController H}

/-- The flags after an operation that releases nothing. -/
structure Quiet (c c' : BufferController H) : Prop where
  ready : c'.decoderReadyForNewFrame = c.decoderReadyForNewFrame
  required : c'.keyframeRequired = c.keyframeRequired
  scheduled : c'.scheduledRtpTimestamp = c.scheduledRtpTimestamp ∨ c'.scheduledRtpTimestamp = none ∨
    c.decoderReadyForNewFrame = true ∧ c.keyframeRequired = false

/-- What an operation of the controller releases, and on what grounds. -/
inductive Does (c : BufferController H) (out : Outcome H) : Prop
  | quiet (nothing : released out.events = []) (same : Quiet c out.state)
  /-- The decoder waits for a keyframe. -/
  | forced (frame : EncodedFrame) (one : released out.events = [frame])
      (key : frame.isKeyframe = true) (ready : c.decoderReadyForNewFrame = true)
      (required : c.keyframeRequired = true) (busy : out.state.decoderReadyForNewFrame = false)
      (scheduled : out.state.scheduledRtpTimestamp = c.scheduledRtpTimestamp)
  /-- The time of the scheduled frame has come. -/
  | fired (frame : EncodedFrame) (one : released out.events = [frame])
      (waits : c.scheduledRtpTimestamp ≠ none) (busy : out.state.decoderReadyForNewFrame = false)
      (scheduled : out.state.scheduledRtpTimestamp = none)

theorem Quiet.refl (c : BufferController H) : Quiet c c := ⟨rfl, rfl, .inl rfl⟩

theorem released_append (events events' : List Event) :
    released (events ++ events') = released events ++ released events' := List.filterMap_append

theorem released_onFrameReady (c : BufferController H) (frames : List EncodedFrame) :
    released (c.onFrameReady frames).events = frames.head?.toList := by
  have hdropped : released (if c.framesDroppedBeforeLastNewFrame < c.buffer.numDroppedFrames then
      [Event.droppedFrames (c.buffer.numDroppedFrames - c.framesDroppedBeforeLastNewFrame)]
      else []) = [] := by
    split_ifs <;> rfl
  rw [onFrameReady_events, released_append, hdropped, List.nil_append]
  cases frames <;> rfl

theorem onFrameReady_scheduled (c : BufferController H) (frames : List EncodedFrame) :
    (c.onFrameReady frames).state.scheduledRtpTimestamp = c.scheduledRtpTimestamp := by
  unfold onFrameReady
  split_ifs <;> rfl

theorem Does.of_buffer {b : FrameBuffer H} {out : Outcome H} (h : Does { c with buffer := b } out) :
    Does c out := by
  cases h with
  | quiet nothing same => exact .quiet nothing ⟨same.ready, same.required, same.scheduled⟩
  | forced frame one key ready required busy scheduled =>
    exact .forced frame one key ready required busy scheduled
  | fired frame one waits busy scheduled => exact .fired frame one waits busy scheduled

theorem force_does (fuel : ℕ) : ∀ c : BufferController H, c.decoderReadyForNewFrame = true →
    c.keyframeRequired = true → Does c (forceKeyFrameReleaseImmediately U fuel c) := by
  induction fuel with
  | zero => exact fun c _ _ => .quiet rfl (.refl c)
  | succ fuel ih =>
    intro c hready hrequired
    unfold forceKeyFrameReleaseImmediately
    cases c.buffer.decodableTemporalUnitsInfo with
    | none => exact .quiet rfl (.refl c)
    | some info =>
      dsimp only
      split_ifs with hkey
      · obtain ⟨frame, hhead, hframe⟩ := (Option.any_eq_true _ _).mp hkey
        refine .forced frame ?_ hframe hready hrequired (onFrameReady_state _ _).2.1
          (onFrameReady_scheduled _ _)
        rw [released_onFrameReady, hhead]
        rfl
      · have hrest := ih { c with buffer := (c.buffer.extractNextDecodableTemporalUnit U).2 }
          hready hrequired
        exact hrest.of_buffer

theorem scheduleOrDrop_flags (timing : DecodeTiming) (fuel : ℕ) :
    ∀ (n : ℕ) (c : BufferController H),
      (scheduleOrDrop U timing n fuel c).decoderReadyForNewFrame = c.decoderReadyForNewFrame ∧
        (scheduleOrDrop U timing n fuel c).keyframeRequired = c.keyframeRequired := by
  induction fuel with
  | zero => exact fun n c => ⟨rfl, rfl⟩
  | succ fuel ih =>
    intro n c
    unfold scheduleOrDrop
    cases c.buffer.decodableTemporalUnitsInfo with
    | none => exact ⟨rfl, rfl⟩
    | some info =>
      dsimp only
      split_ifs
      · rw [scheduleFrame_eq]
        exact ⟨rfl, rfl⟩
      · exact ih (n + 1) _

theorem maybeSchedule_does (c : BufferController H) (timing : DecodeTiming) :
    Does c (c.maybeScheduleFrameForRelease U timing) := by
  unfold maybeScheduleFrameForRelease
  by_cases hready : c.decoderReadyForNewFrame = true
  · rw [if_pos hready]
    cases c.buffer.decodableTemporalUnitsInfo with
    | none => exact .quiet rfl (.refl c)
    | some info =>
      dsimp only
      by_cases hrequired : c.keyframeRequired = true
      · rw [if_pos hrequired]
        exact force_does _ c hready hrequired
      · rw [if_neg hrequired]
        split_ifs
        · exact .quiet rfl (.refl c)
        · obtain ⟨hready', hrequired'⟩ := scheduleOrDrop_flags (U := U) timing c.buffer.currentSize 0 c
          exact .quiet rfl ⟨hready', hrequired', .inr (.inr ⟨hready, Bool.eq_false_iff.mpr hrequired⟩)⟩
  · rw [if_neg hready]
    exact .quiet rfl (.refl c)

theorem insertFrame_does (c : BufferController H) (frame : EncodedFrame) (timing : DecodeTiming) :
    Does c (c.insertFrame U frame timing).2 := by
  unfold insertFrame
  dsimp only
  split_ifs
  · -- the report of the complete frame releases nothing
    cases (maybeSchedule_does (U := U) { c with buffer := (c.buffer.insertFrame U frame).2 }
      timing).of_buffer with
    | quiet nothing same => exact .quiet nothing same
    | forced f one key ready required busy scheduled =>
      exact .forced f one key ready required busy scheduled
    | fired f one waits busy scheduled => exact .fired f one waits busy scheduled
  · exact .quiet rfl ⟨rfl, rfl, .inl rfl⟩

theorem schedulerFires_does (c : BufferController H) : Does c (c.schedulerFires U) := by
  unfold schedulerFires
  cases hscheduled : c.scheduledRtpTimestamp with
  | none => exact .quiet rfl (.refl c)
  | some rtpTimestamp =>
    dsimp only
    unfold frameReadyForDecode
    dsimp only
    cases c.buffer.decodableTemporalUnitsInfo with
    | none => exact .quiet rfl ⟨rfl, rfl, .inr (.inl rfl)⟩
    | some info =>
      dsimp only
      split_ifs with hempty
      · exact .quiet rfl ⟨rfl, rfl, .inr (.inl rfl)⟩
      · obtain ⟨frame, frames, hframes⟩ :=
          List.exists_cons_of_ne_nil fun hnil => hempty (List.isEmpty_iff.mpr hnil)
        refine .fired frame ?_ (by simp [hscheduled]) (onFrameReady_state _ _).2.1
          (onFrameReady_scheduled _ _)
        rw [hframes]
        exact released_onFrameReady _ (frame :: frames)

end BufferController

open BufferController

/-! ## The invariant -/

def DecoderTask.isDecode : DecoderTask → Bool
  | .decode _ => true
  | _ => false

/-- The readiness of the buffer controller, the frames in the decode queue and the results. -/
def ReceiveStream.tokens (s : ReceiveStream H) : ℕ :=
  s.buffer.decoderReadyForNewFrame.toNat + s.decodeQueue.countP DecoderTask.isDecode +
    s.workerQueue.length

/-- Whether the decoder is stopped after these tasks. -/
def stoppedAfter : Bool → List DecoderTask → Bool
  | stopped, [] => stopped
  | _, .start :: tasks => stoppedAfter false tasks
  | _, .stop :: tasks => stoppedAfter true tasks
  | stopped, .setRecordingState _ :: tasks => stoppedAfter stopped tasks
  | stopped, .decode _ :: tasks => stoppedAfter stopped tasks

/-- No frame of these tasks meets a stopped decoder. -/
def AllRun : Bool → List DecoderTask → Prop
  | _, [] => True
  | _, .start :: tasks => AllRun false tasks
  | _, .stop :: tasks => AllRun true tasks
  | stopped, .setRecordingState _ :: tasks => AllRun stopped tasks
  | stopped, .decode _ :: tasks => stopped = false ∧ AllRun stopped tasks

/-- Whether the last of these frames was decoded. -/
def lastDecoded (log : List Decoded) : Bool := log.getLast?.any fun d => decide (d.code ≠ .other)

/-- The stream after `n` starts, in which these frames were handed to the decoder. -/
structure InFlight (n : ℕ) (log : List Decoded) (s : ReceiveStream H) : Prop where
  tokens : s.tokens ≤ n
  scheduled : s.buffer.scheduledRtpTimestamp ≠ none →
    s.buffer.decoderReadyForNewFrame = true ∧ s.buffer.keyframeRequired = false
  agree : s.buffer.decoderReadyForNewFrame = true → s.buffer.keyframeRequired = s.keyframeRequired
  required : s.buffer.decoderReadyForNewFrame = true → s.keyframeRequired = !lastDecoded log
  tasks : ∀ task, .decode task ∈ s.decodeQueue → task.keyframeRequired = !lastDecoded log ∧
    (task.frame.isKeyframe = true ∨ lastDecoded log = true)
  results : ∀ r ∈ s.workerQueue, r.result.keyframeRequired = !lastDecoded log
  decoded : s.frameDecoded = log.any fun d => decide (d.code ≠ .other)
  fresh : n = 0 → s.keyframeRequired = true ∧ s.decoderRunning = false ∧ log = []
  running : s.decoderRunning = true → .stop ∉ s.decodeQueue → s.tokens = 1 ∧
    stoppedAfter s.decoderStopped s.decodeQueue = false ∧ AllRun s.decoderStopped s.decodeQueue

theorem stoppedAfter_append (tasks tasks' : List DecoderTask) : ∀ stopped,
    stoppedAfter stopped (tasks ++ tasks') = stoppedAfter (stoppedAfter stopped tasks) tasks' := by
  induction tasks with
  | nil => exact fun stopped => rfl
  | cons task tasks ih => cases task <;> exact fun stopped => ih _

theorem allRun_append (tasks tasks' : List DecoderTask) : ∀ stopped,
    AllRun stopped (tasks ++ tasks') ↔
      AllRun stopped tasks ∧ AllRun (stoppedAfter stopped tasks) tasks' := by
  induction tasks with
  | nil => exact fun stopped => (and_iff_right trivial).symm
  | cons task tasks ih =>
    intro stopped
    cases task with
    | start => exact ih false
    | stop => exact ih true
    | setRecordingState callback => exact ih stopped
    | decode task => exact (and_congr_right fun _ => ih stopped).trans and_assoc.symm

theorem allRun_of_none {tasks : List DecoderTask} (h : tasks.countP DecoderTask.isDecode = 0) :
    ∀ stopped, AllRun stopped tasks := by
  induction tasks with
  | nil => exact fun stopped => trivial
  | cons task tasks ih =>
    rw [List.countP_eq_zero] at h
    have hrest := ih (List.countP_eq_zero.mpr fun t ht => h t (List.mem_cons_of_mem _ ht))
    cases task with
    | decode task => exact absurd rfl (h _ List.mem_cons_self)
    | start => exact fun stopped => hrest false
    | stop => exact fun stopped => hrest true
    | setRecordingState callback => exact hrest

section Steps
variable {n : ℕ} {log : List Decoded} {s : ReceiveStream H} {now : ℤ}

/-- A frame that is posted takes the readiness with it. -/
theorem InFlight.posted (h : InFlight n log s) {c : BufferController H} {frame : EncodedFrame}
    (hready : s.buffer.decoderReadyForNewFrame = true) (hbusy : c.decoderReadyForNewFrame = false)
    (hscheduled : c.scheduledRtpTimestamp = none)
    (hframe : frame.isKeyframe = true ∨ s.buffer.keyframeRequired = false) :
    InFlight n log ({ s with buffer := c }.onEncodedFrame now frame) := by
  have htokens : ({ s with buffer := c }.onEncodedFrame now frame).tokens = s.tokens := by
    simp only [ReceiveStream.tokens, onEncodedFrame, hready, hbusy, List.countP_append,
      List.countP_singleton, DecoderTask.isDecode, Bool.toNat_true, Bool.toNat_false, if_true]
    omega
  refine
    { tokens := htokens ▸ h.tokens
      scheduled := fun hno => absurd hscheduled hno
      agree := fun hr => absurd (hbusy.symm.trans hr) Bool.false_ne_true
      required := fun hr => absurd (hbusy.symm.trans hr) Bool.false_ne_true
      tasks := fun task htask => ?_
      results := h.results
      decoded := h.decoded
      fresh := h.fresh
      running := fun hrunning hstop => ?_ }
  · obtain htask | htask := List.mem_append.mp htask
    · exact h.tasks task htask
    · obtain rfl := DecoderTask.decode.inj (List.mem_singleton.mp htask)
      refine ⟨h.required hready, hframe.imp_right fun hno => ?_⟩
      have hrequired := h.required hready
      rw [← h.agree hready, hno] at hrequired
      simpa using hrequired.symm
  · obtain ⟨hone, hstopped, hall⟩ := h.running hrunning fun hmem => hstop (List.mem_append_left _ hmem)
    refine ⟨htokens.trans hone, ?_, ?_⟩
    · exact (stoppedAfter_append _ _ _).trans hstopped
    · exact (allRun_append _ _ _).mpr ⟨hall, hstopped, trivial⟩

theorem InFlight.afterBuffer (h : InFlight n log s) {out : Outcome H} (hdoes : Does s.buffer out) :
    InFlight n log (s.afterBuffer now out).state := by
  unfold ReceiveStream.afterBuffer
  cases hdoes with
  | quiet nothing same =>
    rw [nothing]
    have htokens : ({ s with buffer := out.state } : ReceiveStream H).tokens = s.tokens := by
      simp only [ReceiveStream.tokens, same.ready]
    have hscheduled : out.state.scheduledRtpTimestamp ≠ none →
        s.buffer.decoderReadyForNewFrame = true ∧ s.buffer.keyframeRequired = false := by
      intro hno
      obtain heq | heq | hfree := same.scheduled
      · exact h.scheduled (heq ▸ hno)
      · exact absurd heq hno
      · exact hfree
    exact
      { h with
        tokens := htokens ▸ h.tokens
        scheduled := fun hno => same.ready.symm ▸ same.required.symm ▸ hscheduled hno
        agree := fun hr => same.required.trans (h.agree (same.ready ▸ hr))
        required := fun hr => h.required (same.ready ▸ hr)
        running := fun hrunning hstop => htokens.symm ▸ h.running hrunning hstop }
  | forced frame one key ready required busy scheduled =>
    rw [one]
    refine h.posted ready busy ?_ (.inl key)
    by_contra hno
    rw [scheduled] at hno
    exact absurd ((h.scheduled hno).2.symm.trans required) Bool.false_ne_true
  | fired frame one waits busy scheduled =>
    rw [one]
    obtain ⟨hready, hrequired⟩ := h.scheduled waits
    exact h.posted hready busy scheduled (.inr hrequired)

/-- The next decode starts with nothing on its way. -/
theorem startNextDecode_inFlight (hn : 1 ≤ n) (hqueue : s.decodeQueue.countP DecoderTask.isDecode = 0)
    (hresults : s.workerQueue = []) (hkeyframe : s.keyframeRequired = !lastDecoded log)
    (hscheduled : s.buffer.scheduledRtpTimestamp ≠ none → s.keyframeRequired = false)
    (hdecoded : s.frameDecoded = log.any fun d => decide (d.code ≠ .other))
    (hstopped : s.decoderRunning = true → .stop ∉ s.decodeQueue →
      stoppedAfter s.decoderStopped s.decodeQueue = false) (timing : DecodeTiming) :
    InFlight n log (s.startNextDecode U now s.keyframeRequired timing).state := by
  let c := { s.buffer with keyframeRequired := s.keyframeRequired, decoderReadyForNewFrame := true }
  have htokens : ({ s with buffer := c } : ReceiveStream H).tokens = 1 := by
    simp only [ReceiveStream.tokens, c, hqueue, hresults, Bool.toNat_true, List.length_nil]
  have hready : InFlight n log { s with buffer := c } :=
    { tokens := htokens.le.trans hn
      scheduled := fun hno => ⟨rfl, hscheduled hno⟩
      agree := fun _ => rfl
      required := fun _ => hkeyframe
      tasks := fun task htask => absurd rfl (List.countP_eq_zero.mp hqueue _ htask)
      results := fun r hr => by
        rw [show ({ s with buffer := c } : ReceiveStream H).workerQueue = [] from hresults] at hr
        cases hr
      decoded := hdecoded
      fresh := fun h0 => absurd h0 (Nat.pos_iff_ne_zero.mp hn)
      running := fun hrunning hstop => ⟨htokens, hstopped hrunning hstop, allRun_of_none hqueue _⟩ }
  exact hready.afterBuffer (maybeSchedule_does c timing)

/-! ## The operations -/

theorem afterBuffer_running (s : ReceiveStream H) (now : ℤ) (out : Outcome H) (running : Bool) :
    ({ s with decoderRunning := running }.afterBuffer now out).state =
      { (s.afterBuffer now out).state with decoderRunning := running } := by
  have hfold : ∀ (frames : List EncodedFrame) (t : ReceiveStream H),
      frames.foldl (fun s frame => s.onEncodedFrame now frame) { t with decoderRunning := running } =
        { frames.foldl (fun s frame => s.onEncodedFrame now frame) t with decoderRunning := running } := by
    intro frames
    induction frames with
    | nil => exact fun t => rfl
    | cons frame frames ih => exact fun t => ih (t.onEncodedFrame now frame)
  exact hfold _ { s with buffer := out.state }

theorem tokens_zero (h : s.tokens = 0) : s.buffer.decoderReadyForNewFrame = false ∧
    s.decodeQueue.countP DecoderTask.isDecode = 0 ∧ s.workerQueue = [] := by
  simp only [ReceiveStream.tokens, Nat.add_eq_zero_iff, Bool.toNat_eq_zero, List.length_eq_zero_iff] at h
  exact ⟨h.1.1, h.1.2, h.2⟩

theorem InFlight.start (h : InFlight n log s) (hn : n ≤ 1)
    (hstarts : s.decoderRunning = false → n = 0) (timing : DecodeTiming) :
    InFlight (if s.decoderRunning then n else 1) log (s.start U now timing).state := by
  unfold ReceiveStream.start
  by_cases hrunning : s.decoderRunning = true
  · rw [if_pos hrunning, if_pos hrunning]
    exact h
  · rw [if_neg hrunning, if_neg hrunning]
    obtain rfl := hstarts (Bool.eq_false_iff.mpr hrunning)
    obtain ⟨hrequired, _, rfl⟩ := h.fresh rfl
    obtain ⟨hbusy, hqueue, hresults⟩ := tokens_zero (Nat.le_zero.mp h.tokens)
    let posted : ReceiveStream H :=
      { s with decodeQueue := s.decodeQueue ++ [.start], decoderRunning := true }
    have hstarted : InFlight 1 [] (posted.startNextDecode U now posted.keyframeRequired timing).state := by
      have hkeyframe : posted.keyframeRequired = !lastDecoded [] := hrequired
      refine startNextDecode_inFlight (s := posted) le_rfl ?_ hresults hkeyframe (fun hno => ?_) h.decoded
        (fun _ _ => ?_) timing
      · simp only [posted, List.countP_append, hqueue]
        rfl
      · exact absurd (hbusy.symm.trans (h.scheduled hno).1) Bool.false_ne_true
      · rw [show posted.decodeQueue = s.decodeQueue ++ [.start] from rfl, stoppedAfter_append]
        rfl
    have hcommutes := afterBuffer_running { s with decodeQueue := s.decodeQueue ++ [.start] } now
      (s.buffer.startNextDecode U true timing) true
    rw [show posted.keyframeRequired = true from hrequired] at hstarted
    exact Eq.mp (congrArg (InFlight 1 []) hcommutes) hstarted

theorem InFlight.stop (h : InFlight n log s) : InFlight n log s.stop.state := by
  have htokens : ∀ q : List DecoderTask,
      q.countP DecoderTask.isDecode = s.decodeQueue.countP DecoderTask.isDecode →
      ∀ t : ReceiveStream H, t.buffer = s.buffer.stop → t.decodeQueue = q →
        t.workerQueue = s.workerQueue → t.tokens ≤ n := by
    intro q hq t hb hqueue hw
    have := h.tokens
    simp only [ReceiveStream.tokens, hb, hqueue, hw, hq, BufferController.stop, Bool.toNat_false] at this ⊢
    omega
  unfold ReceiveStream.stop
  by_cases hrunning : s.decoderRunning = true
  · rw [if_pos hrunning]
    refine
      { h with
        tokens := htokens _ ?_ _ rfl rfl rfl
        scheduled := fun hno => absurd rfl hno
        agree := fun hr => by cases hr
        required := fun hr => by cases hr
        tasks := fun task htask => ?_
        running := fun _ hstop => ?_ }
    · rw [List.countP_append]
      rfl
    · obtain htask | htask := List.mem_append.mp htask
      · exact h.tasks task htask
      · cases List.mem_singleton.mp htask
    · exact absurd (List.mem_append_right _ (List.mem_singleton_self _)) hstop
  · rw [if_neg hrunning]
    exact
      { h with
        tokens := htokens _ rfl _ rfl rfl rfl
        scheduled := fun hno => absurd rfl hno
        agree := fun hr => by cases hr
        required := fun hr => by cases hr
        running := fun hr => absurd hr hrunning }

/-- The members that the requests and the settings change do not matter. -/
theorem InFlight.congr {t : ReceiveStream H} (h : InFlight n log s) (hbuffer : t.buffer = s.buffer)
    (hrunning : t.decoderRunning = s.decoderRunning) (hrequired : t.keyframeRequired = s.keyframeRequired)
    (hstopped : t.decoderStopped = s.decoderStopped) (hdecoded : t.frameDecoded = s.frameDecoded)
    (hqueue : t.decodeQueue = s.decodeQueue) (hresults : t.workerQueue = s.workerQueue) :
    InFlight n log t := by
  have htokens : t.tokens = s.tokens := by
    simp only [ReceiveStream.tokens, hbuffer, hqueue, hresults]
  exact
    { tokens := htokens ▸ h.tokens
      scheduled := hbuffer ▸ h.scheduled
      agree := hbuffer ▸ hrequired ▸ h.agree
      required := hbuffer ▸ hrequired ▸ h.required
      tasks := hqueue ▸ h.tasks
      results := hresults ▸ h.results
      decoded := hdecoded ▸ h.decoded
      fresh := hrequired ▸ hrunning ▸ h.fresh
      running := htokens ▸ hrunning ▸ hstopped ▸ hqueue ▸ h.running }

theorem InFlight.requestKeyFrame (h : InFlight n log s) : InFlight n log (s.requestKeyFrame now).state :=
  h.congr rfl rfl rfl rfl rfl rfl rfl

theorem InFlight.onTimeout (h : InFlight n log s) (hn : n ≤ 1) (config : StreamConfig)
    (clock : ℤ) (reception : Reception) (timing : DecodeTiming) :
    InFlight n log (s.onTimeout U config now clock reception timing).state := by
  unfold ReceiveStream.onTimeout BufferController.onTimeout
  by_cases hready : s.buffer.decoderReadyForNewFrame = true
  · have htokens := h.tokens
    simp only [ReceiveStream.tokens, hready, Bool.toNat_true] at htokens
    have hstart : ∀ t : ReceiveStream H, t.buffer = { s.buffer with decoderReadyForNewFrame := false } →
        t.decoderRunning = s.decoderRunning → t.keyframeRequired = s.keyframeRequired →
        t.decoderStopped = s.decoderStopped → t.frameDecoded = s.frameDecoded →
        t.decodeQueue = s.decodeQueue → t.workerQueue = s.workerQueue →
        InFlight n log (t.startNextDecode U clock t.keyframeRequired timing).state := by
      intro t hbuffer hrunning hrequired hstopped hdecoded hqueue hresults
      refine startNextDecode_inFlight (by omega) ?_ ?_ ?_ (fun hno => ?_) ?_ (fun hr hstop => ?_) timing
      · rw [hqueue]
        omega
      · exact List.length_eq_zero_iff.mp (by rw [hresults]; omega)
      · rw [hrequired]
        exact h.required hready
      · rw [hbuffer] at hno
        rw [hrequired, ← h.agree hready]
        exact (h.scheduled hno).2
      · rw [hdecoded]
        exact h.decoded
      · rw [hstopped, hqueue]
        exact (h.running (hrunning ▸ hr) (hqueue ▸ hstop)).2.1
    rw [if_pos hready, if_neg (List.cons_ne_nil _ _)]
    unfold onDecodableFrameTimeout
    dsimp only
    split_ifs <;> exact hstart _ rfl rfl rfl rfl rfl rfl rfl
  · rw [if_neg hready, if_pos rfl]
    exact h

theorem handleKeyFrameGeneration_frame (s : ReceiveStream H) (reception : Reception) (key : Bool)
    (always due : Bool) : ∃ last requested,
      (s.handleKeyFrameGeneration reception key now always due).state =
        { s with lastKeyframeRequest := last, keyframeGenerationRequested := requested } := by
  unfold handleKeyFrameGeneration ReceiveStream.requestKeyFrame
  dsimp only
  split_ifs <;> exact ⟨_, _, rfl⟩

theorem InFlight.handleResult (h : InFlight n log s) (hn : n ≤ 1) (clock : ℤ) (reception : Reception)
    (timing : DecodeTiming) : InFlight n log (s.handleResult U clock reception timing).state := by
  unfold ReceiveStream.handleResult
  cases hresults : s.workerQueue with
  | nil => exact h
  | cons r results =>
    have htokens := h.tokens
    simp only [ReceiveStream.tokens, hresults, List.length_cons] at htokens
    have hpos : 1 ≤ n := by omega
    have hready : s.buffer.decoderReadyForNewFrame.toNat = 0 := by omega
    have hbusy : s.buffer.decoderReadyForNewFrame = false := Bool.toNat_eq_zero.mp hready
    dsimp only
    obtain ⟨last, requested, heq⟩ := handleKeyFrameGeneration_frame
      { s with
        workerQueue := results
        keyframeRequired := r.result.keyframeRequired
        lastDecodedRtpTimestamp := some r.task.frame.rtpTimestamp }
      reception r.task.frame.isKeyframe r.result.forceRequestKeyFrame r.task.keyframeRequestIsDue
    rw [heq]
    refine startNextDecode_inFlight hpos ?_ ?_ ?_ (fun hno => ?_) ?_ (fun hr hstop => ?_) timing
    · show s.decodeQueue.countP DecoderTask.isDecode = 0
      omega
    · exact List.length_eq_zero_iff.mp (show results.length = 0 by omega)
    · exact h.results r (hresults ▸ List.mem_cons_self)
    · exact absurd (hbusy.symm.trans (h.scheduled hno).1) Bool.false_ne_true
    · exact h.decoded
    · exact (h.running hr hstop).2.1

/-! ## The decode queue -/

theorem InFlight.skip (h : InFlight n log s) {task : DecoderTask} {tasks : List DecoderTask}
    (hqueue : s.decodeQueue = task :: tasks) (hdecode : task.isDecode = false)
    (hstop : task ≠ .stop) {t : ReceiveStream H} (hbuffer : t.buffer = s.buffer)
    (hrunning : t.decoderRunning = s.decoderRunning) (hrequired : t.keyframeRequired = s.keyframeRequired)
    (hstopped : t.decoderStopped = stoppedAfter s.decoderStopped [task])
    (hdecoded : t.frameDecoded = s.frameDecoded) (htasks : t.decodeQueue = tasks)
    (hresults : t.workerQueue = s.workerQueue) : InFlight n log t := by
  have htokens : t.tokens = s.tokens := by
    simp only [ReceiveStream.tokens, hbuffer, hqueue, htasks, hresults, List.countP_cons, hdecode,
      Bool.false_eq_true, if_false, Nat.add_zero]
  refine
    { tokens := htokens ▸ h.tokens
      scheduled := hbuffer ▸ h.scheduled
      agree := hbuffer ▸ hrequired ▸ h.agree
      required := hbuffer ▸ hrequired ▸ h.required
      tasks := fun task' htask' => h.tasks task' ?_
      results := hresults ▸ h.results
      decoded := hdecoded ▸ h.decoded
      fresh := hrequired ▸ hrunning ▸ h.fresh
      running := fun hr hno => ?_ }
  · rw [hqueue]
    exact List.mem_cons_of_mem _ (htasks ▸ htask')
  · have hmem : .stop ∉ s.decodeQueue := by
      rw [hqueue, List.mem_cons, not_or]
      exact ⟨fun heq => hstop heq.symm, htasks ▸ hno⟩
    obtain ⟨hone, hafter, hall⟩ := h.running (hrunning ▸ hr) hmem
    rw [hqueue, ← List.singleton_append] at hafter hall
    rw [stoppedAfter_append] at hafter
    rw [allRun_append] at hall
    rw [htokens, hstopped, htasks]
    exact ⟨hone, hafter, hall.2⟩

theorem lastDecoded_snoc (log : List Decoded) (d : Decoded) :
    lastDecoded (log ++ [d]) = decide (d.code ≠ .other) := by
  rw [lastDecoded, List.getLast?_concat, Option.any_some]

/-- The result of a frame asks for a keyframe exactly when the frame was not decoded. -/
theorem handleEncodedFrame_required (s : ReceiveStream H) (task : DecodeTask) (code : DecodeCode) :
    (s.handleEncodedFrameOnDecodeQueue task code).1.keyframeRequired = !decide (code ≠ .other) := by
  unfold handleEncodedFrameOnDecodeQueue
  cases code with
  | ok => rfl
  | okRequestKeyframe => rfl
  | other =>
    dsimp only
    split_ifs with hforce
    · rfl
    · simp only [not_or, Bool.not_eq_false] at hforce
      exact hforce.2.1

theorem handleEncodedFrame_frame (s : ReceiveStream H) (task : DecodeTask) (code : DecodeCode) :
    (s.handleEncodedFrameOnDecodeQueue task code).2 =
      { s with frameDecoded := s.frameDecoded || decide (code ≠ .other) } := by
  unfold handleEncodedFrameOnDecodeQueue
  cases code with
  | ok => simp
  | okRequestKeyframe => simp
  | other =>
    dsimp only
    split_ifs <;> simp

/-- A frame is handed to the decoder: nothing else is on its way. -/
theorem InFlight.decode (h : InFlight n log s) (hn : n ≤ 1) {task : DecodeTask}
    {tasks : List DecoderTask} (hqueue : s.decodeQueue = .decode task :: tasks) (code : DecodeCode)
    (forced : Bool) (output : EncodedFrameOutput) :
    InFlight n (log ++ [⟨task, code, forced⟩])
      { (s.handleEncodedFrameOnDecodeQueue task code).2 with
        decodeQueue := tasks
        output := output
        workerQueue := s.workerQueue ++
          [⟨task, (s.handleEncodedFrameOnDecodeQueue task code).1⟩] } := by
  have htokens := h.tokens
  simp only [ReceiveStream.tokens, hqueue, List.countP_cons, DecoderTask.isDecode, if_true] at htokens
  have hready : s.buffer.decoderReadyForNewFrame.toNat = 0 := by omega
  have hbusy : s.buffer.decoderReadyForNewFrame = false := Bool.toNat_eq_zero.mp hready
  have hnone : tasks.countP DecoderTask.isDecode = 0 := by omega
  have hresults : s.workerQueue = [] := List.length_eq_zero_iff.mp (by omega)
  have hrequired := handleEncodedFrame_required s task code
  rw [handleEncodedFrame_frame]
  refine
    { tokens := ?_
      scheduled := h.scheduled
      agree := h.agree
      required := fun hr => absurd (hbusy.symm.trans hr) Bool.false_ne_true
      tasks := fun task' htask' => absurd rfl (List.countP_eq_zero.mp hnone _ htask')
      results := fun r hr => ?_
      decoded := ?_
      fresh := fun h0 => ?_
      running := fun hr hno => ?_ }
  · simp only [ReceiveStream.tokens, hready, hnone, hresults, List.nil_append, List.length_singleton]
    omega
  · rw [show ({ s with workerQueue := s.workerQueue ++
        [⟨task, (s.handleEncodedFrameOnDecodeQueue task code).1⟩] } : ReceiveStream H).workerQueue =
      [⟨task, (s.handleEncodedFrameOnDecodeQueue task code).1⟩] by rw [hresults]; rfl] at hr
    rw [List.mem_singleton.mp hr, lastDecoded_snoc]
    exact hrequired
  · rw [List.any_append, ← h.decoded]
    simp
  · omega
  · have hmem : .stop ∉ s.decodeQueue := by
      rw [hqueue, List.mem_cons, not_or]
      exact ⟨nofun, hno⟩
    obtain ⟨hone, hafter, hall⟩ := h.running hr hmem
    rw [hqueue] at hafter hall
    refine ⟨?_, hafter, hall.2⟩
    simp only [ReceiveStream.tokens, hready, hnone, hresults, List.nil_append, List.length_singleton]

end Steps

/-! ## Runs -/

variable {config : StreamConfig} {res : Resolutions} {n : ℕ} {log : List Decoded} {s : ReceiveStream H}

theorem decodedOf_append (events events' : List StreamEvent) :
    decodedOf (events ++ events') = decodedOf events ++ decodedOf events' := List.filterMap_append

/-- Only a task of the decode queue hands a frame to the decoder. -/
theorem decodedOf_none {events : List StreamEvent} (h : ∀ e ∈ events, ∀ d, e ≠ .decoded d) :
    decodedOf events = [] := by
  rw [decodedOf, List.filterMap_eq_nil_iff]
  intro e he
  cases e with
  | decoded d => exact absurd rfl (h _ he d)
  | buffer | requestKeyFrame | frameDecoded | streamInactive | dispatched => rfl

theorem decodedOf_dispatched (ds : List Dispatched) :
    decodedOf (ds.map StreamEvent.dispatched) = [] :=
  decodedOf_none fun e he d => by
    obtain ⟨_, _, rfl⟩ := List.mem_map.mp he
    exact nofun

theorem streamEvents_snoc (tr : List (ReceiveStream H × StreamOp)) (s : ReceiveStream H)
    (op : StreamOp) : streamEvents U config res (tr ++ [(s, op)]) =
      streamEvents U config res tr ++ (s.perform U config res op).events := by
  rw [streamEvents, List.flatMap_append, List.flatMap_singleton]
  rfl

theorem decodedFrames_snoc (tr : List (ReceiveStream H × StreamOp)) (s : ReceiveStream H)
    (op : StreamOp) : decodedFrames U config res (tr ++ [(s, op)]) =
      decodedFrames U config res tr ++ decodedOf (s.perform U config res op).events := by
  rw [decodedFrames, streamEvents_snoc, decodedOf_append]
  rfl

theorem afterBuffer_events (s : ReceiveStream H) (now : ℤ) (out : Outcome H) :
    ∀ e ∈ (s.afterBuffer now out).events, e.ofDecodeQueue = false := by
  intro e he
  obtain ⟨e', _, rfl⟩ := List.mem_map.mp he
  rfl

theorem handleKeyFrameGeneration_events (s : ReceiveStream H) (reception : Reception) (key : Bool)
    (now : ℤ) (always due : Bool) :
    ∀ e ∈ (s.handleKeyFrameGeneration reception key now always due).events,
      e.ofDecodeQueue = false := by
  unfold handleKeyFrameGeneration ReceiveStream.requestKeyFrame
  dsimp only
  split_ifs
  · intro e he
    rw [List.mem_singleton.mp he]
    rfl
  · exact fun e he => absurd he List.not_mem_nil

/-- The worker neither decodes nor dispatches. -/
theorem perform_events (s : ReceiveStream H) {op : StreamOp}
    (hop : ∀ code delivered, op ≠ .decodeNext code delivered) :
    ∀ e ∈ (s.perform U config res op).events, e.ofDecodeQueue = false := by
  intro e he
  cases op with
  | decodeNext code delivered => exact absurd rfl (hop code delivered)
  | stop =>
    simp only [ReceiveStream.perform, ReceiveStream.stop] at he
    split_ifs at he <;> cases he
  | setNackHistory => cases he
  | onFrame => cases he
  | generateKeyFrame now =>
    rw [List.mem_singleton.mp he]
    rfl
  | setAndGetRecordingState callback last generate now =>
    simp only [ReceiveStream.perform, ReceiveStream.setAndGetRecordingState] at he
    split_ifs at he
    · rw [List.mem_singleton.mp he]
      rfl
    · cases he
  | onCompleteFrame now frame timing => exact afterBuffer_events s now _ e he
  | schedulerFires now => exact afterBuffer_events s now _ e he
  | start now timing =>
    simp only [ReceiveStream.perform, ReceiveStream.start] at he
    split_ifs at he
    · cases he
    · exact afterBuffer_events { s with decodeQueue := s.decodeQueue ++ [.start] } now _ e he
  | onTimeout now clock reception timing =>
    simp only [ReceiveStream.perform, ReceiveStream.onTimeout] at he
    split_ifs at he
    · cases he
    · simp only [onDecodableFrameTimeout, List.mem_append] at he
      obtain (he | he) | he := he
      · split_ifs at he
        · cases he
        · rw [List.mem_singleton.mp he]
          rfl
      · split_ifs at he
        · rw [List.mem_singleton.mp he]
          rfl
        · cases he
      · exact afterBuffer_events _ clock _ e he
  | handleResult clock reception timing =>
    simp only [ReceiveStream.perform, ReceiveStream.handleResult] at he
    split at he
    · cases he
    · simp only [List.mem_append] at he
      obtain (he | he) | he := he
      · obtain ⟨id, _, rfl⟩ := List.mem_map.mp he
        rfl
      · exact handleKeyFrameGeneration_events _ reception _ _ _ _ e he
      · exact afterBuffer_events _ clock _ e he

theorem perform_decoded (s : ReceiveStream H) {op : StreamOp}
    (hop : ∀ code delivered, op ≠ .decodeNext code delivered) :
    decodedOf (s.perform U config res op).events = [] :=
  decodedOf_none fun e he d heq => by
    have hworker := perform_events s hop e he
    rw [heq] at hworker
    cases hworker

theorem InFlight.step (h : InFlight n log s) {op : StreamOp} (hn : n + (op.starts s).toNat ≤ 1)
    {t : ReceiveStream H} (ht : t = (s.perform U config res op).state) :
    InFlight (n + (op.starts s).toNat) (log ++ decodedOf (s.perform U config res op).events) t := by
  subst ht
  have hother : (∀ code delivered, op ≠ .decodeNext code delivered) → op.starts s = false →
      InFlight n log (s.perform U config res op).state →
      InFlight (n + (op.starts s).toNat) (log ++ decodedOf (s.perform U config res op).events)
        (s.perform U config res op).state := by
    intro hop hstarts hs
    rw [perform_decoded s hop, hstarts, List.append_nil]
    exact hs
  cases op with
  | start now timing =>
    have hnone : decodedOf (s.perform U config res (.start now timing)).events = [] :=
      perform_decoded s fun _ _ => nofun
    rw [hnone, List.append_nil]
    cases hrunning : s.decoderRunning with
    | true =>
      have hs : InFlight _ log (s.start U now timing).state :=
        h.start (by omega) (by simp [hrunning]) timing
      simpa [StreamOp.starts, hrunning, ReceiveStream.perform] using hs
    | false =>
      simp only [StreamOp.starts, hrunning, Bool.not_false, Bool.toNat_true] at hn ⊢
      obtain rfl : n = 0 := by omega
      have hs : InFlight _ log (s.start U now timing).state :=
        h.start (by omega) (fun _ => rfl) timing
      simpa [hrunning, ReceiveStream.perform] using hs
  | stop => exact hother (fun _ _ => nofun) rfl h.stop
  | onCompleteFrame now frame timing =>
    exact hother (fun _ _ => nofun) rfl (h.afterBuffer (insertFrame_does s.buffer frame timing))
  | schedulerFires now => exact hother (fun _ _ => nofun) rfl (h.afterBuffer (schedulerFires_does s.buffer))
  | onTimeout now clock reception timing =>
    exact hother (fun _ _ => nofun) rfl (h.onTimeout (by omega) config clock reception timing)
  | handleResult clock reception timing =>
    exact hother (fun _ _ => nofun) rfl (h.handleResult (by omega) clock reception timing)
  | setNackHistory historyMs =>
    refine hother (fun _ _ => nofun) rfl ?_
    simp only [ReceiveStream.perform, ReceiveStream.setNackHistory]
    split_ifs
    · exact h
    · exact h.congr rfl rfl rfl rfl rfl rfl rfl
  | generateKeyFrame now => exact hother (fun _ _ => nofun) rfl (h.congr rfl rfl rfl rfl rfl rfl rfl)
  | onFrame resolution => exact hother (fun _ _ => nofun) rfl (h.congr rfl rfl rfl rfl rfl rfl rfl)
  | setAndGetRecordingState callback last generate now =>
    refine hother (fun _ _ => nofun) rfl ?_
    have htokens : (s.decodeQueue ++ [DecoderTask.setRecordingState callback]).countP DecoderTask.isDecode =
        s.decodeQueue.countP DecoderTask.isDecode := by
      rw [List.countP_append]
      rfl
    refine
      { h with
        tokens := ?_
        tasks := fun task htask => ?_
        running := fun hr hno => ?_ }
    · have := h.tokens
      simpa only [ReceiveStream.tokens, ReceiveStream.perform, ReceiveStream.setAndGetRecordingState,
        htokens] using this
    · obtain htask | htask := List.mem_append.mp htask
      · exact h.tasks task htask
      · cases List.mem_singleton.mp htask
    · obtain ⟨hone, hafter, hall⟩ := h.running hr fun hmem => hno (List.mem_append_left _ hmem)
      refine ⟨?_, (stoppedAfter_append _ _ _).trans hafter, (allRun_append _ _ _).mpr ⟨hall, trivial⟩⟩
      simpa only [ReceiveStream.tokens, ReceiveStream.perform, ReceiveStream.setAndGetRecordingState,
        htokens] using hone
  | decodeNext code delivered =>
    simp only [StreamOp.starts, Bool.toNat_false, Nat.add_zero] at hn ⊢
    simp only [ReceiveStream.perform, ReceiveStream.decodeNext]
    split
    · simpa [decodedOf] using h
    · rename_i tasks hqueue
      rw [show decodedOf ([] : List StreamEvent) = [] from rfl, List.append_nil]
      exact h.skip hqueue rfl nofun rfl rfl rfl rfl rfl rfl rfl
    · rename_i tasks hqueue
      rw [show decodedOf ([] : List StreamEvent) = [] from rfl, List.append_nil]
      have htokens := h.tokens
      simp only [ReceiveStream.tokens, hqueue, List.countP_cons, DecoderTask.isDecode,
        Bool.false_eq_true, if_false, Nat.add_zero] at htokens
      exact
        { h with
          tokens := htokens
          tasks := fun task htask => h.tasks task (hqueue ▸ List.mem_cons_of_mem _ htask)
          fresh := fun h0 => ⟨(h.fresh h0).1, rfl, (h.fresh h0).2.2⟩
          running := fun hr => absurd hr Bool.false_ne_true }
    · rename_i callback tasks hqueue
      rw [show decodedOf ([] : List StreamEvent) = [] from rfl, List.append_nil]
      exact h.skip hqueue rfl nofun rfl rfl rfl rfl rfl rfl rfl
    · rename_i task tasks hqueue
      split_ifs with hstopped
      · rw [show decodedOf ([] : List StreamEvent) = [] from rfl, List.append_nil]
        have htokens := h.tokens
        simp only [ReceiveStream.tokens, hqueue, List.countP_cons, DecoderTask.isDecode, if_true] at htokens
        refine
          { h with
            tokens := by simp only [ReceiveStream.tokens]; omega
            tasks := fun task htask => h.tasks task (hqueue ▸ List.mem_cons_of_mem _ htask)
            running := fun hr hno => ?_ }
        have hmem : .stop ∉ s.decodeQueue := by
          rw [hqueue, List.mem_cons, not_or]
          exact ⟨nofun, hno⟩
        have hall := (h.running hr hmem).2.2
        rw [hqueue] at hall
        exact absurd (hall.1.symm.trans hstopped) Bool.false_ne_true
      · have hdispatched := decodedOf_dispatched (s.output.perform res (.decode task.frame delivered)).2
        rw [show decodedOf (.decoded ⟨task, code,
            (s.handleEncodedFrameOnDecodeQueue task code).1.forceRequestKeyFrame⟩ ::
            (s.output.perform res (.decode task.frame delivered)).2.map StreamEvent.dispatched) =
          [⟨task, code, (s.handleEncodedFrameOnDecodeQueue task code).1.forceRequestKeyFrame⟩] from
            congrArg _ hdispatched]
        exact h.decode hn hqueue code _ _

/-- What the header gives the members. -/
def StreamMembers.Initial (members : StreamMembers) : Prop :=
  members.keyframeRequired = true ∧ members.frameDecoded = false

theorem inFlight_run {members : StreamMembers} (hmembers : members.Initial) {legacy : Bool}
    {maxDecodeQueueSize : ℕ} {rtpHistoryMs : ℤ} {tr : List (ReceiveStream H × StreamOp)}
    (h : StreamRun U config res members legacy maxDecodeQueueSize rtpHistoryMs tr s)
    (honce : startCount tr ≤ 1) :
    InFlight (startCount tr) (decodedFrames U config res tr) s := by
  have hrun := h.history (I := fun tr s => startCount tr ≤ 1 →
    InFlight (startCount tr) (decodedFrames U config res tr) s) (fun _ => ?_) ?_
  · exact hrun honce
  · exact
      { tokens := le_rfl
        scheduled := fun hno => absurd rfl hno
        agree := fun hr => by cases hr
        required := fun hr => by cases hr
        tasks := fun task htask => absurd htask List.not_mem_nil
        results := fun r hr => absurd hr List.not_mem_nil
        decoded := hmembers.2
        fresh := fun _ => ⟨hmembers.1, rfl, rfl⟩
        running := fun hr => by cases hr }
  · rintro tr s op t ih ⟨_, ht⟩ hcount
    have hsplit : startCount (tr ++ [(s, op)]) = startCount tr + (op.starts s).toNat := by
      rw [startCount, List.countP_append, List.countP_singleton]
      cases op.starts s <;> rfl
    rw [hsplit] at hcount ⊢
    rw [decodedFrames_snoc]
    exact (ih (by omega)).step hcount ht

/-- **One frame at a time, and never none.** In every run of a stream that is started once, in whatever
order the worker and the decode queue take their tasks: the buffer controller being ready, the frames on
the decode queue and the results on the worker are one at most together; and from the start until a stop
is posted they are exactly one. -/
theorem one_frame_in_flight {members : StreamMembers} (hmembers : members.Initial) (legacy : Bool)
    (maxDecodeQueueSize : ℕ) (rtpHistoryMs : ℤ) (tr : List (ReceiveStream H × StreamOp))
    (s : ReceiveStream H)
    (h : StreamRun U config res members legacy maxDecodeQueueSize rtpHistoryMs tr s)
    (honce : startCount tr ≤ 1) :
    s.tokens ≤ 1 ∧ (s.decoderRunning = true → .stop ∉ s.decodeQueue → s.tokens = 1) := by
  have hs := inFlight_run hmembers h honce
  exact ⟨hs.tokens.trans honce, fun hr hstop => (hs.running hr hstop).1⟩

/-- No frame carries its resolution. -/
def unspecified : Resolutions := fun _ => ⟨0, 0⟩

def headerMembers : StreamMembers := ⟨true, true, false, false⟩

def defaultStream : StreamConfig := ⟨200000, 3000000, false⟩

/-- The keyframe that is inserted goes to the decode queue at once; its result comes back. -/
def keyframeOps : List StreamOp :=
  [.start 0 inTime, .onCompleteFrame 1000 ⟨1, 10, [], true, true⟩ inTime, .decodeNext .ok [],
    .decodeNext .ok []]

/-- A new stream with an unbounded decode history. -/
def newStream : ReceiveStream (List (ℤ × UInt32)) :=
  .create .unbounded defaultStream headerMembers true 8 0

theorem one_frame_in_flight_keyframe :
    ∃ tr s, StreamRun .unbounded defaultStream unspecified headerMembers true 8 0 tr s ∧
      s.workerQueue.length = 1 ∧ s.tokens = 1 := by
  obtain ⟨tr, s, hexecute⟩ : ∃ tr s, Runs.execute
      (ReceiveStream.next .unbounded defaultStream unspecified) newStream keyframeOps = some (tr, s) :=
    ⟨_, _, rfl⟩
  have hrun : StreamRun .unbounded defaultStream unspecified headerMembers true 8 0 tr s :=
    (Run.execute hexecute).mono fun _ _ _ ht => step_of_next _ _ _ ht
  obtain ⟨rfl, rfl⟩ := Prod.mk.inj (Option.some.inj hexecute)
  refine ⟨_, _, hrun, by decide +kernel, ?_⟩
  exact (one_frame_in_flight ⟨rfl, rfl⟩ true 8 0 _ _ hrun (by decide +kernel)).2 (by decide +kernel)
    (by decide +kernel)

end WebrtcTrace.Video
