import WebrtcTrace.Sending.VideoSendStream
import Mathlib.Data.List.Chain
import Mathlib.Data.List.Sublists

/-! # Throttled bitrate allocations

`OnBitrateAllocationUpdated` sends an allocation, or keeps it until an encoded image finds it old enough.
The context of the last one sent says how the allocations handed in and the ones sent are related
(`Throttled`); every task of the worker keeps that, so no run loses the last allocation or sends similar
ones too fast (`allocations_throttled`).
-/

namespace WebrtcTrace.Sending
open Runs VideoSendStream
set_option autoImplicit false

variable {config : SendConfig}

/-- The allocations that were sent, with their times. -/
def allocationsOf (events : List SendEvent) : List (VideoBitrateAllocation × ℤ) :=
  events.filterMap fun e =>
    match e with
    | .allocation allocation nowMs => some (allocation, nowMs)
    | _ => none

/-- The allocation that reaches the worker with a step. -/
def arriving (s : VideoSendStream) : SendOp → Option VideoBitrateAllocation
  | .onBitrateAllocationUpdated allocation true _ => some allocation
  | .runTask _ =>
    match s.workerQueue with
    | .bitrateAllocationUpdated allocation :: _ => some allocation
    | _ => none
  | _ => none

/-- The allocations that reach the worker while the encoder has a target. -/
def handedIn (tr : List (VideoSendStream × SendOp)) : List VideoBitrateAllocation :=
  tr.flatMap fun e => if e.1.encoderTargetRate = 0 then [] else (arriving e.1 e.2).toList

/-- Two allocations sent one after the other. -/
def Spaced (config : SendConfig) (a b : VideoBitrateAllocation × ℤ) : Prop :=
  isSimilar config b.1 a.1 = true → a.2 + kMaxVbaThrottleTimeMs ≤ b.2

/-! ## One step -/

section Steps
variable {s : VideoSendStream}

/-- What handing in an allocation does. -/
inductive Updates (config : SendConfig) (s : VideoSendStream) (allocation : VideoBitrateAllocation)
    (nowMs : ℤ) : SendOutcome → Prop
  | paused (h : s.encoderTargetRate = 0) : Updates config s allocation nowMs ⟨s, []⟩
  | sent (h : s.encoderTargetRate ≠ 0)
      (hspaced : ∀ c ∈ s.videoBitrateAllocationContext,
        Spaced config (c.lastSentAllocation, c.lastSendTimeMs) (allocation, nowMs)) :
      Updates config s allocation nowMs
        ⟨{ s with videoBitrateAllocationContext := some ⟨allocation, none, nowMs⟩ },
          [.allocation allocation nowMs]⟩
  | throttled (h : s.encoderTargetRate ≠ 0) {c : VbaSendContext}
      (hcontext : s.videoBitrateAllocationContext = some c)
      (hrecent : nowMs < c.lastSendTimeMs + kMaxVbaThrottleTimeMs) :
      Updates config s allocation nowMs
        ⟨{ s with
            videoBitrateAllocationContext :=
              some ⟨c.lastSentAllocation, some allocation, c.lastSendTimeMs⟩ }, []⟩

theorem updateAllocation_updates (s : VideoSendStream) (allocation : VideoBitrateAllocation)
    (nowMs : ℤ) : Updates config s allocation nowMs (s.updateAllocation config allocation nowMs) := by
  unfold updateAllocation
  split_ifs with htarget
  · exact .paused htarget
  · cases hcontext : s.videoBitrateAllocationContext with
    | none => exact .sent htarget fun c hc => by rw [hcontext] at hc; cases hc
    | some c =>
      dsimp only
      split_ifs with hthrottle
      · exact .throttled htarget hcontext (by omega)
      · refine .sent htarget fun c' hc' hsimilar => ?_
        obtain rfl : c = c' := Option.some.inj (hcontext.symm.trans hc')
        have hlate := not_and.mp hthrottle hsimilar
        dsimp only
        omega

/-- How the allocations handed in and sent are related to the context. -/
structure Throttled (config : SendConfig) (handed : List VideoBitrateAllocation)
    (sent : List (VideoBitrateAllocation × ℤ)) (context : Option VbaSendContext) : Prop where
  fresh : context = none → handed = [] ∧ sent = []
  last : ∀ c ∈ context, sent.getLast? = some (c.lastSentAllocation, c.lastSendTimeMs)
  inOrder : ∀ c ∈ context, (sent.map Prod.fst ++ c.throttledAllocation.toList).Sublist handed
  latest : ∀ c ∈ context, handed.getLast? = some (c.throttledAllocation.getD c.lastSentAllocation)
  spaced : sent.IsChain (Spaced config)

variable {handed : List VideoBitrateAllocation} {sent : List (VideoBitrateAllocation × ℤ)}

/-- Sending an allocation that was just handed in, or that waited. -/
theorem Throttled.send (h : Throttled config handed sent s.videoBitrateAllocationContext)
    {allocation : VideoBitrateAllocation} {nowMs : ℤ} {handed' : List VideoBitrateAllocation}
    (hspaced : ∀ c ∈ s.videoBitrateAllocationContext,
      Spaced config (c.lastSentAllocation, c.lastSendTimeMs) (allocation, nowMs))
    (horder : (sent.map Prod.fst ++ [allocation]).Sublist handed')
    (hlatest : handed'.getLast? = some allocation) :
    Throttled config handed' (sent ++ [(allocation, nowMs)]) (some ⟨allocation, none, nowMs⟩) where
  fresh := nofun
  last c hc := by
    obtain rfl := Option.some.inj hc
    exact List.getLast?_concat
  inOrder c hc := by
    obtain rfl := Option.some.inj hc
    simpa using horder
  latest c hc := by
    obtain rfl := Option.some.inj hc
    exact hlatest
  spaced := by
    refine List.isChain_append.mpr ⟨h.spaced, .singleton _, fun a ha b hb => ?_⟩
    obtain rfl : (allocation, nowMs) = b := Option.some.inj hb
    cases hcontext : s.videoBitrateAllocationContext with
    | none =>
      rw [(h.fresh hcontext).2] at ha
      cases ha
    | some c =>
      obtain rfl := Option.some.inj ((h.last c hcontext).symm.trans ha)
      exact hspaced c hcontext

/-- Keeping an allocation for later. -/
theorem Throttled.keep (h : Throttled config handed sent s.videoBitrateAllocationContext)
    {c : VbaSendContext} (hcontext : s.videoBitrateAllocationContext = some c)
    {allocation : VideoBitrateAllocation} {handed' : List VideoBitrateAllocation}
    (horder : (sent.map Prod.fst ++ [allocation]).Sublist handed')
    (hlatest : handed'.getLast? = some allocation) :
    Throttled config handed' sent
      (some ⟨c.lastSentAllocation, some allocation, c.lastSendTimeMs⟩) where
  fresh := nofun
  last c' hc' := by
    obtain rfl := Option.some.inj hc'
    exact h.last c hcontext
  inOrder c' hc' := by
    obtain rfl := Option.some.inj hc'
    exact horder
  latest c' hc' := by
    obtain rfl := Option.some.inj hc'
    exact hlatest
  spaced := h.spaced

/-- What was sent is a part of what was handed in. -/
theorem Throttled.sublist (h : Throttled config handed sent s.videoBitrateAllocationContext) :
    (sent.map Prod.fst).Sublist handed := by
  cases hcontext : s.videoBitrateAllocationContext with
  | none =>
    rw [(h.fresh hcontext).2]
    exact List.nil_sublist _
  | some c => exact (List.sublist_append_left _ _).trans (h.inOrder c hcontext)

/-- An allocation that arrives. -/
theorem Throttled.arrive (h : Throttled config handed sent s.videoBitrateAllocationContext)
    {allocation : VideoBitrateAllocation} {nowMs : ℤ} {out : SendOutcome}
    (hout : Updates config s allocation nowMs out) :
    Throttled config (handed ++ if s.encoderTargetRate = 0 then [] else [allocation])
      (sent ++ allocationsOf out.events) out.state.videoBitrateAllocationContext := by
  have horder : (sent.map Prod.fst ++ [allocation]).Sublist (handed ++ [allocation]) :=
    h.sublist.append_right _
  cases hout with
  | paused htarget =>
    rw [if_pos htarget, List.append_nil]
    exact (List.append_nil sent).symm ▸ h
  | sent htarget hspaced =>
    rw [if_neg htarget]
    exact h.send hspaced horder List.getLast?_concat
  | throttled htarget hcontext hrecent =>
    rw [if_neg htarget]
    exact (List.append_nil sent).symm ▸ h.keep hcontext horder List.getLast?_concat

/-- The allocation that waits is handed in once more. -/
theorem Throttled.retry (h : Throttled config handed sent s.videoBitrateAllocationContext)
    {c : VbaSendContext} (hcontext : s.videoBitrateAllocationContext = some c)
    {allocation : VideoBitrateAllocation} (hwaiting : c.throttledAllocation = some allocation)
    {nowMs : ℤ} {out : SendOutcome} (hout : Updates config s allocation nowMs out) :
    Throttled config handed (sent ++ allocationsOf out.events)
      out.state.videoBitrateAllocationContext := by
  have horder := h.inOrder c hcontext
  have hlatest := h.latest c hcontext
  rw [hwaiting] at horder hlatest
  cases hout with
  | paused htarget => exact (List.append_nil sent).symm ▸ h
  | sent htarget hspaced => exact h.send hspaced horder hlatest
  | throttled htarget hcontext' hrecent =>
    obtain rfl := Option.some.inj (hcontext.symm.trans hcontext')
    exact (List.append_nil sent).symm ▸ h.keep hcontext horder hlatest

/-- An outcome that has nothing to do with allocations. -/
def Quiet (s : VideoSendStream) (out : SendOutcome) : Prop :=
  out.state.videoBitrateAllocationContext = s.videoBitrateAllocationContext ∧
    allocationsOf out.events = []

theorem allocationsOf_append (events events' : List SendEvent) :
    allocationsOf (events ++ events') = allocationsOf events ++ allocationsOf events' :=
  List.filterMap_append

theorem quiet_stop (s : VideoSendStream) : Quiet s s.stop := by
  unfold VideoSendStream.stop stopVideoSendStream
  dsimp only
  split_ifs <;> exact ⟨rfl, rfl⟩

theorem quiet_reconfigure (s : VideoSendStream) (encoderConfig : VideoEncoderConfig) :
    Quiet s (s.reconfigureVideoEncoder config encoderConfig) := by
  unfold reconfigureVideoEncoder startupVideoSendStream stopVideoSendStream
  dsimp only
  split_ifs <;> exact ⟨rfl, rfl⟩

theorem quiet_check (s : VideoSendStream) : Quiet s (s.checkEncoderActivity config) := by
  unfold checkEncoderActivity signalEncoderActive
  dsimp only
  split_ifs <;> exact ⟨rfl, rfl⟩

theorem quiet_change (s : VideoSendStream) (streams : List VideoStream) (isSvc : Bool)
    (contentType : ContentType) (minTransmitBitrateBps : ℤ) :
    Quiet s (s.changeEncoderConfiguration config streams isSvc contentType minTransmitBitrateBps) := by
  unfold changeEncoderConfiguration signalEncoderActive
  cases streams with
  | nil => exact ⟨rfl, rfl⟩
  | cons first others =>
    dsimp only
    split_ifs <;> exact ⟨rfl, rfl⟩

/-- A step nothing arrives with, other than an encoded image. -/
theorem Throttled.quiet (h : Throttled config handed sent s.videoBitrateAllocationContext)
    {op : SendOp} {out : SendOutcome} (harriving : arriving s op = none) (hquiet : Quiet s out) :
    Throttled config (handed ++ if s.encoderTargetRate = 0 then [] else (arriving s op).toList)
      (sent ++ allocationsOf out.events) out.state.videoBitrateAllocationContext := by
  rw [harriving, hquiet.1, hquiet.2, Option.toList_none, ite_self, List.append_nil, List.append_nil]
  exact h

/-- An encoded image. -/
theorem Throttled.imageEncoded (h : Throttled config handed sent s.videoBitrateAllocationContext)
    (nowMs : ℤ) : Throttled config handed (sent ++ allocationsOf (s.imageEncoded config nowMs).events)
      (s.imageEncoded config nowMs).state.videoBitrateAllocationContext := by
  unfold VideoSendStream.imageEncoded
  extract_lets enabled
  obtain ⟨hcontext, hevents⟩ : Quiet s enabled := by
    simp only [enabled, signalEncoderActive]
    split_ifs <;> exact ⟨rfl, rfl⟩
  cases hwaiting : enabled.state.videoBitrateAllocationContext.bind
      VbaSendContext.throttledAllocation with
  | none =>
    dsimp only
    rw [hevents, List.append_nil, hcontext]
    exact h
  | some allocation =>
    obtain ⟨c, hc, hthrottled⟩ := Option.bind_eq_some_iff.mp hwaiting
    dsimp only
    rw [allocationsOf_append, hevents, List.nil_append]
    rw [← hcontext] at h
    exact h.retry hc hthrottled (updateAllocation_updates enabled.state allocation nowMs)

theorem Throttled.perform (h : Throttled config handed sent s.videoBitrateAllocationContext)
    (op : SendOp) :
    Throttled config (handed ++ if s.encoderTargetRate = 0 then [] else (arriving s op).toList)
      (sent ++ allocationsOf (s.perform config op).events)
      (s.perform config op).state.videoBitrateAllocationContext := by
  cases op with
  | start =>
    refine h.quiet rfl ?_
    simp only [VideoSendStream.perform, VideoSendStream.start, startupVideoSendStream]
    split_ifs <;> exact ⟨rfl, rfl⟩
  | stop => exact h.quiet rfl (quiet_stop s)
  | stopPermanently => exact h.quiet rfl (quiet_stop s)
  | reconfigureVideoEncoder encoderConfig => exact h.quiet rfl (quiet_reconfigure s encoderConfig)
  | checkEncoderActivity => exact h.quiet rfl (quiet_check s)
  | onBitrateUpdated | onEncoderConfigurationChanged | onEncodedImage | onFrameDropped =>
    exact h.quiet rfl ⟨rfl, rfl⟩
  | onBitrateAllocationUpdated allocation isCurrent nowMs =>
    cases isCurrent with
    | false => exact h.quiet rfl ⟨rfl, rfl⟩
    | true => exact h.arrive (updateAllocation_updates s allocation nowMs)
  | runTask nowMs =>
    simp only [VideoSendStream.perform, VideoSendStream.runTask]
    cases hqueue : s.workerQueue with
    | nil => exact h.quiet (by simp only [arriving, hqueue]) ⟨rfl, rfl⟩
    | cons task tasks =>
      cases task with
      | encoderConfigurationChanged streams isSvc contentType minTransmitBitrateBps =>
        exact h.quiet (by simp only [arriving, hqueue])
          (quiet_change { s with workerQueue := tasks } streams isSvc contentType minTransmitBitrateBps)
      | bitrateAllocationUpdated allocation =>
        simp only [arriving, hqueue]
        exact Throttled.arrive (s := { s with workerQueue := tasks }) h
          (updateAllocation_updates { s with workerQueue := tasks } allocation nowMs)
      | imageEncoded =>
        simp only [arriving, hqueue, Option.toList_none, ite_self, List.append_nil]
        exact Throttled.imageEncoded (s := { s with workerQueue := tasks }) h nowMs

end Steps

/-! ## Runs -/

theorem throttled_run {encoderConfig : VideoEncoderConfig} {tr : List (VideoSendStream × SendOp)}
    {s : VideoSendStream} (h : SendRun config encoderConfig tr s) :
    Throttled config (handedIn tr) (allocationsOf (sendEvents config tr))
      s.videoBitrateAllocationContext := by
  refine h.history (I := fun tr s => Throttled config (handedIn tr)
    (allocationsOf (sendEvents config tr)) s.videoBitrateAllocationContext) ?_ ?_
  · exact ⟨fun _ => ⟨rfl, rfl⟩, nofun, nofun, nofun, .nil⟩
  · rintro tr s op t hs rfl
    have hhanded : handedIn (tr ++ [(s, op)]) =
        handedIn tr ++ if s.encoderTargetRate = 0 then [] else (arriving s op).toList := by
      rw [handedIn, List.flatMap_append, List.flatMap_singleton]
      rfl
    rw [hhanded, sendEvents_snoc, allocationsOf_append]
    exact hs.perform op

/-- An encoded image half a second after the last send leaves nothing waiting. -/
theorem imageEncoded_flushes {s : VideoSendStream} (nowMs : ℤ) (htarget : s.encoderTargetRate ≠ 0)
    (hlate : ∀ c ∈ s.videoBitrateAllocationContext,
      c.lastSendTimeMs + kMaxVbaThrottleTimeMs ≤ nowMs) :
    ∀ c ∈ (s.imageEncoded config nowMs).state.videoBitrateAllocationContext,
      c.throttledAllocation = none := by
  unfold VideoSendStream.imageEncoded
  extract_lets enabled
  obtain ⟨hcontext, hrate⟩ : enabled.state.videoBitrateAllocationContext =
      s.videoBitrateAllocationContext ∧ enabled.state.encoderTargetRate = s.encoderTargetRate := by
    simp only [enabled, signalEncoderActive]
    split_ifs <;> exact ⟨rfl, rfl⟩
  cases hwaiting : enabled.state.videoBitrateAllocationContext.bind
      VbaSendContext.throttledAllocation with
  | none =>
    intro c hc
    rw [Option.mem_def.mp hc] at hwaiting
    exact hwaiting
  | some allocation =>
    have hout := @updateAllocation_updates config enabled.state allocation nowMs
    dsimp only
    generalize enabled.state.updateAllocation config allocation nowMs = out at hout
    cases hout with
    | paused h => exact absurd (hrate.symm.trans h) htarget
    | sent =>
      intro c hc
      obtain rfl := Option.some.inj hc
      rfl
    | throttled h hc hrecent =>
      have hlate := hlate _ (hcontext ▸ hc)
      omega

/-- **Allocations are throttled, and the last one is never lost.** In every run, whatever the threads of
the encoder do meanwhile: the allocations sent are some of those that reached the worker while the
encoder had a target, in order; the last of these is the one that was sent last or the one that waits;
two sent one after the other are at least half a second apart if they are similar; and an encoded image
that the worker handles half a second or more after the last send, while the encoder has a target, leaves
none waiting. -/
theorem allocations_throttled (encoderConfig : VideoEncoderConfig)
    (tr : List (VideoSendStream × SendOp)) (s : VideoSendStream)
    (h : SendRun config encoderConfig tr s) :
    ((allocationsOf (sendEvents config tr)).map Prod.fst).Sublist (handedIn tr) ∧
      s.videoBitrateAllocationContext.map (fun c => (c.lastSentAllocation, c.lastSendTimeMs)) =
        (allocationsOf (sendEvents config tr)).getLast? ∧
      s.videoBitrateAllocationContext.map
        (fun c => c.throttledAllocation.getD c.lastSentAllocation) = (handedIn tr).getLast? ∧
      (allocationsOf (sendEvents config tr)).IsChain (Spaced config) ∧
      ∀ nowMs tasks, s.workerQueue = .imageEncoded :: tasks → s.encoderTargetRate ≠ 0 →
        (∀ last ∈ (allocationsOf (sendEvents config tr)).getLast?,
          last.2 + kMaxVbaThrottleTimeMs ≤ nowMs) →
        (allocationsOf (sendEvents config (tr ++ [(s, .runTask nowMs)]))).getLast?.map Prod.fst =
            (handedIn tr).getLast? ∧
          ∀ c ∈ (s.next config (.runTask nowMs)).videoBitrateAllocationContext,
            c.throttledAllocation = none := by
  have hs := throttled_run h
  refine ⟨hs.sublist, ?_, ?_, hs.spaced, fun nowMs tasks hqueue htarget hlate => ?_⟩
  · cases hcontext : s.videoBitrateAllocationContext with
    | none =>
      rw [(hs.fresh hcontext).2]
      rfl
    | some c => exact (hs.last c hcontext).symm
  · cases hcontext : s.videoBitrateAllocationContext with
    | none =>
      rw [(hs.fresh hcontext).1]
      rfl
    | some c => exact (hs.latest c hcontext).symm
  · have hnext := throttled_run (h.snoc (a := .runTask nowMs) rfl)
    have hstate : s.next config (.runTask nowMs) =
        (({ s with workerQueue := tasks } : VideoSendStream).imageEncoded config nowMs).state := by
      simp only [VideoSendStream.next, VideoSendStream.perform, VideoSendStream.runTask, hqueue]
    have hflushed : ∀ c ∈ (s.next config (.runTask nowMs)).videoBitrateAllocationContext,
        c.throttledAllocation = none := by
      rw [hstate]
      exact imageEncoded_flushes nowMs htarget fun c hc => hlate _ (hs.last c hc)
    have hhanded : handedIn (tr ++ [(s, .runTask nowMs)]) = handedIn tr := by
      simp [handedIn, arriving, hqueue]
    rw [hhanded] at hnext
    refine ⟨?_, hflushed⟩
    cases hcontext : (s.next config (.runTask nowMs)).videoBitrateAllocationContext with
    | none =>
      rw [(hnext.fresh hcontext).1, (hnext.fresh hcontext).2]
      rfl
    | some c =>
      rw [hnext.last c hcontext, hnext.latest c hcontext, hflushed c hcontext]
      rfl

def oneLayer (bps : UInt32) : VideoBitrateAllocation := ⟨[[some bps]]⟩

def frame : EncodedImage := ⟨90000, 0, 0, 640, 480, 1000, 3, none, none, 20⟩

/-- The second allocation is similar to the first and waits for the encoded image. -/
def throttledOps : List SendOp :=
  [.start, .onBitrateUpdated ⟨0, 50, 0⟩ 500000 0, .onBitrateAllocationUpdated (oneLayer 500000) false 0,
    .runTask 1000, .onBitrateAllocationUpdated (oneLayer 510000) true 1100, .onEncodedImage frame 1400]

theorem allocations_throttled_waiting :
    ∃ tr s, SendRun realtime oneStream tr s ∧ s.workerQueue = [.imageEncoded] ∧
      (allocationsOf (sendEvents realtime tr)) = [(oneLayer 500000, 1000)] ∧
      (allocationsOf (sendEvents realtime (tr ++ [(s, .runTask 1500)]))).getLast?.map Prod.fst =
        some (oneLayer 510000) ∧
      ∀ c ∈ (s.next realtime (.runTask 1500)).videoBitrateAllocationContext,
        c.throttledAllocation = none := by
  refine ⟨_, _, Run.of_next (VideoSendStream.next realtime) _ throttledOps, by decide +kernel,
    by decide +kernel, ?_⟩
  obtain ⟨_, _, _, _, hflushes⟩ := @allocations_throttled realtime oneStream _ _
    (Run.of_next (VideoSendStream.next realtime) (.create oneStream) throttledOps)
  obtain ⟨hlast, hnone⟩ := hflushes 1500 [] (by decide +kernel) (by decide +kernel) (by decide +kernel)
  exact ⟨hlast.trans (by decide +kernel), hnone⟩

end WebrtcTrace.Sending
