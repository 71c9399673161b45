import WebrtcTrace.Pacing.PacingController
import Mathlib.Logic.Relation

/-! # What the pacer does, one change at a time

`Feed` has the changes that come with a packet put into the queue, `Micro` these and the changes of
`ProcessPackets`, each with what was checked before it. Every program is a sequence of such changes
(`enqueuePacket_fed`, `processPackets_reached`), so an invariant is proved for a change, not for a program.
-/

namespace WebrtcTrace.Pacing
open StatePrograms Relation
set_option autoImplicit false

variable {Q W : Type} (o : Outside Q W)

/-- The controller with its budgets drained until a time. -/
def PacingController.drainedUntil (c : PacingController) (time : ℤ) : PacingController :=
  (c.updateTimeAndGetElapsed time).2.updateBudgetWithElapsedTime o (c.updateTimeAndGetElapsed time).1

/-- A change that puts no packet in. -/
inductive Idle : Session Q W → Session Q W → Prop
  | clock (s : Session Q W) (w : W) (t : ℤ) (later : s.pacer.lastTimestamp ≤ t) :
      Idle s { s with world := w, pacer := { s.pacer with lastTimestamp := t } }
  | world (s : Session Q W) (w : W) : Idle s { s with world := w }
  | drain (s : Session Q W) (time : ℤ) (past : time ≤ s.pacer.lastTimestamp) :
      Idle s { s with pacer := s.pacer.drainedUntil o time }
  | rate (s : Session Q W) (r : ℤ) (atLeast : s.pacer.pacingRate ≤ r)
      (undrained : s.pacer.drainLargeQueues = false → r = s.pacer.pacingRate) :
      Idle s { s with pacer := { s.pacer with adjustedMediaRate := r } }
  | average (s : Session Q W) (now : ℤ) :
      Idle s { s with queue := o.updateAverageQueueTime now s.queue }
  | remove (s : Session Q W) (ssrc : UInt32) :
      Idle s { s with
        queue := o.removePacketsForSsrc ssrc s.queue
        calls := s.calls ++ [(s.pacer, s.queue, .removePacketsForSsrc ssrc)] }

abbrev Idles : Session Q W → Session Q W → Prop := ReflTransGen (Idle o)

def Session.afterPush (s : Session Q W) (now : ℤ) (packet : RtpPacketToSend) : Session Q W :=
  { s with
    pacer := { s.pacer with seenFirstPacket := true }
    queue := o.push now packet s.queue
    calls := s.calls ++ [(s.pacer, s.queue, .push packet)] }

inductive Feed : Session Q W → Session Q W → Prop
  | idle {s t : Session Q W} : Idle o s t → Feed s t
  | push (s : Session Q W) (now : ℤ) (packet : RtpPacketToSend) : Feed s (s.afterPush o now packet)

abbrev Fed : Session Q W → Session Q W → Prop := ReflTransGen (Feed o)

/-- The state after a packet was sent. -/
def Session.afterSend (s : Session Q W) (packet : RtpPacketToSend) (info : PacedPacketInfo) :
    Session Q W :=
  { s with
    world := o.sendPacket packet info s.world
    calls := s.calls ++ [(s.pacer, s.queue, .sendPacket packet info)] }

def Session.afterPop (s : Session Q W) (packet : RtpPacketToSend) (q : Q) : Session Q W :=
  { s with queue := q, calls := s.calls ++ [(s.pacer, s.queue, .pop packet)] }

def Session.afterGenerate (s : Session Q W) (size : ℤ) (packets : List RtpPacketToSend) (w : W) :
    Session Q W :=
  { s with world := w, calls := s.calls ++ [(s.pacer, s.queue, .generatePadding size packets)] }

def Session.afterSent (s : Session Q W) (packetType : RtpPacketMediaType) (size : ℤ)
    (time : ℤ) : Session Q W :=
  { s with
    pacer := s.pacer.onPacketSent o packetType size time
    calls := s.calls ++ [(s.pacer, s.queue, .onPacketSent packetType size time)] }

/-- A packet was taken from the queue, or a probe was sent. -/
def Session.SendsQueued (s : Session Q W) : Prop :=
  (∃ e ∈ s.calls, ∃ packet, e.2.2 = .pop packet) ∨ ∃ w, o.isProbing w = true

/-- A probe has a cluster only if the prober was probing. -/
def MayProbe (info : PacedPacketInfo) : Prop :=
  info.probeClusterId.isSome = true → ∃ w, o.isProbing w = true

inductive Micro : Session Q W → Session Q W → Prop
  | feed {s t : Session Q W} : Feed o s t → Micro s t
  | drainEarly (s : Session Q W) (time : ℤ)
      (past : time ≤ s.pacer.lastTimestamp + kMaxEarlyProbeProcessing) :
      Micro s { s with pacer := s.pacer.drainedUntil o time }
  | replay (s : Session Q W) (time : ℤ) (past : time ≤ s.pacer.lastTimestamp) :
      Micro s { s with pacer := { s.pacer with lastProcessTime := max s.pacer.lastProcessTime time } }
  | generate (s : Session Q W) (size : ℤ) (packets : List RtpPacketToSend) (w : W)
      (wanted : size = 1 ∨ s.pacer.congested = false) : Micro s (s.afterGenerate size packets w)
  | fetch (s : Session Q W) (packets : List RtpPacketToSend) (w : W) :
      Micro s { s with world := w, calls := s.calls ++ [(s.pacer, s.queue, .fetchFec packets)] }
  /-- A keepalive packet is sent past the queue. -/
  | keepalive (s : Session Q W) (size : ℤ) (packets : List RtpPacketToSend)
      (packet : RtpPacketToSend) (quiet : ∃ now, now ≤ s.pacer.lastTimestamp ∧
        kCongestedPacketInterval ≤ now - s.pacer.lastSendTime)
      (generated : ∃ e ∈ s.calls, e.2.2 = .generatePadding size packets) (mem : packet ∈ packets) :
      Micro s (s.afterSend o packet {})
  | keptAlive (s : Session Q W) (size : ℤ) (now : ℤ)
      (past : now ≤ s.pacer.lastTimestamp)
      (quiet : kCongestedPacketInterval ≤ now - s.pacer.lastSendTime) :
      Micro s (s.afterSent o .padding size now)
  /-- A packet of the queue is sent. -/
  | popSend (s : Session Q W) (packet : RtpPacketToSend) (q : Q) (info : PacedPacketInfo)
      (target now : ℤ) (waits : o.isEmpty s.queue = false)
      (pops : o.pop s.queue = (some packet, q)) (mayProbe : MayProbe o info)
      (goes : s.pacer.holdsBack o s.queue info target now = false) :
      Micro s ((s.afterPop packet q).afterSend o packet info)
  | popNothing (s : Session Q W) (q : Q) (waits : o.isEmpty s.queue = false)
      (pops : o.pop s.queue = (none, q)) : Micro s { s with queue := q }
  /-- A probe begins with generated padding. -/
  | probeSend (s : Session Q W) (packets : List RtpPacketToSend) (w : W) (packet : RtpPacketToSend)
      (info : PacedPacketInfo) (first : packets.head? = some packet)
      (probe : info.probeClusterId.isSome = true) (mayProbe : MayProbe o info) :
      Micro s ((s.afterGenerate 1 packets w).afterSend o packet info)
  | sent (s : Session Q W) (packetType : RtpPacketMediaType) (size : ℤ) (now : ℤ)
      (past : now ≤ s.pacer.lastTimestamp) (follows : s.SendsQueued o) :
      Micro s (s.afterSent o packetType size now)
  | padding (s : Session Q W) (size : ℤ) (positive : 0 < size) :
      Micro s { s with pacer := s.pacer.updatePaddingBudgetWithSentData o size }
  | failure (s : Session Q W) (failed : Bool) :
      Micro s { s with pacer := { s.pacer with probingSendFailure := failed } }
  | log (s : Session Q W) (row : PacerRow) :
      Micro s { s with calls := s.calls ++ [(s.pacer, s.queue, .log row)] }
  | breaker (s : Session Q W) (now : ℤ) (past : now ≤ s.pacer.lastTimestamp) :
      Micro s { s with pacer := { s.pacer with lastSendTime := now, lastProcessTime := now } }

variable {o} {s t : Session Q W}

/-! ## One update of the controller -/

/-- A drain moves the process time forward, if at all, and takes what some elapsed time allows. -/
theorem drained_eq (c : PacingController) (time : ℤ) :
    ∃ elapsed process, 0 ≤ elapsed ∧ (process = c.lastProcessTime ∨ process = time) ∧
      c.drainedUntil o time = { c with
        lastProcessTime := process
        mediaDebt := c.mediaDebt - min c.mediaDebt (o.times c.adjustedMediaRate elapsed)
        paddingDebt := c.paddingDebt - min c.paddingDebt (o.times c.paddingRate elapsed) } := by
  unfold PacingController.drainedUntil PacingController.updateTimeAndGetElapsed
  split_ifs with hpast
  · exact ⟨0, c.lastProcessTime, le_rfl, .inl rfl, rfl⟩
  · exact ⟨_, time, le_min (by omega) (by decide), .inr rfl, rfl⟩

/-- What `OnPacketSent` notes beside the budgets. -/
theorem onPacketSent_eq (c : PacingController) (packetType : RtpPacketMediaType) (size time : ℤ) :
    ∃ first, (first = c.firstSentPacketTime ∨ first = some time) ∧
      (c.onPacketSent o packetType size time =
          { c with firstSentPacketTime := first, lastSendTime := time } ∨
        0 < size ∧ c.onPacketSent o packetType size time =
          { c.updateBudgetWithSentData o size with
            firstSentPacketTime := first, lastSendTime := time }) := by
  unfold PacingController.onPacketSent
  by_cases hfirst : c.firstSentPacketTime = none ∧ packetType ≠ .padding
  · refine ⟨some time, .inr rfl, ?_⟩
    simp only [if_pos hfirst]
    split_ifs with hbudget
    · exact .inr ⟨hbudget.2, rfl⟩
    · exact .inl rfl
  · refine ⟨c.firstSentPacketTime, .inl rfl, ?_⟩
    simp only [if_neg hfirst]
    split_ifs with hbudget
    · exact .inr ⟨hbudget.2, rfl⟩
    · exact .inl rfl

/-! ## A packet comes in -/

theorem Idle.lastTimestamp_le (h : Idle o s t) : s.pacer.lastTimestamp ≤ t.pacer.lastTimestamp := by
  cases h with
  | clock w t later => exact later
  | drain time past =>
    unfold PacingController.drainedUntil PacingController.updateTimeAndGetElapsed
    split <;> exact le_rfl
  | world | rate | average | remove => exact le_rfl

theorem Idles.lastTimestamp_le (h : Idles o s t) : s.pacer.lastTimestamp ≤ t.pacer.lastTimestamp := by
  induction h with
  | refl => exact le_rfl
  | tail _ ht ih => exact ih.trans ht.lastTimestamp_le

theorem Idles.fed (h : Idles o s t) : Fed o s t := h.lift id fun _ _ hab => .idle hab

theorem Fed.lastTimestamp_le (h : Fed o s t) : s.pacer.lastTimestamp ≤ t.pacer.lastTimestamp := by
  induction h with
  | refl => exact le_rfl
  | tail _ ht ih =>
    cases ht with
    | idle ht => exact ih.trans ht.lastTimestamp_le
    | push => exact ih

/-- Idle since a state, and the clock has shown `now`. -/
def IdleAt (o : Outside Q W) (s₀ : Session Q W) (now : ℤ) (s : Session Q W) : Prop :=
  Idles o s₀ s ∧ now ≤ s.pacer.lastTimestamp

variable {s₀ : Session Q W} {now : ℤ}

theorem IdleAt.idle (h : IdleAt o s₀ now s) (ht : Idle o s t) : IdleAt o s₀ now t :=
  ⟨h.1.tail ht, h.2.trans ht.lastTimestamp_le⟩

theorem IdleAt.idles (h : IdleAt o s₀ now s) (ht : Idles o s t) : IdleAt o s₀ now t :=
  ⟨h.1.trans ht, h.2.trans ht.lastTimestamp_le⟩

theorem currentTime_idles (s : Session Q W) :
    Idles o s (currentTime o s).2 ∧ (currentTime o s).1 = (currentTime o s).2.pacer.lastTimestamp :=
  ⟨.single (.clock s _ _ (le_max_right _ _)), rfl⟩

theorem nextSendTime_idles (s : Session Q W) : Idles o s (nextSendTime o s).2 :=
  (currentTime_idles s).1

theorem maybeUpdate_idleAt (time : ℤ) :
    Keeps (IdleAt o s₀ now) (maybeUpdateMediaRateDueToLongQueue o time) := by
  unfold maybeUpdateMediaRateDueToLongQueue
  refine Ensures.bind (R := fun _ s => IdleAt o s₀ now s) ?_ fun _ => ?_
  · exact fun s hs => hs.idle (.rate s _ le_rfl fun _ => rfl)
  refine Ensures.bind (R := fun a s => a = s ∧ IdleAt o s₀ now s) ?_ fun a => ?_
  · exact fun s hs => ⟨rfl, hs⟩
  refine Ensures.when (fun hlarge => ?_) fun _ s hs => hs.2
  refine Ensures.bind (R := fun _ s => a.pacer = s.pacer ∧ IdleAt o s₀ now s) ?_ fun _ => ?_
  · rintro s ⟨rfl, hs⟩
    exact ⟨rfl, hs.idle (.average _ time)⟩
  refine Ensures.bind (R := fun _ s => a.pacer = s.pacer ∧ IdleAt o s₀ now s) ?_ fun q => ?_
  · exact fun s hs => hs
  refine Ensures.when (fun hmore => ?_) fun _ s hs => hs.2
  rintro s ⟨hpacer, hs⟩
  refine hs.idle (.rate s _ ?_ fun hno => ?_)
  · rw [← hpacer]
    exact hmore.le
  · rw [← hpacer, hlarge.1] at hno
    cases hno

theorem maybeUpdate_idles (time : ℤ) (s : Session Q W) :
    Idles o s (maybeUpdateMediaRateDueToLongQueue o time s).2 :=
  (@maybeUpdate_idleAt _ _ o s s.pacer.lastTimestamp time s ⟨.refl, le_rfl⟩).1

theorem flushForKeyframe_idles (packet : RtpPacketToSend) (s : Session Q W) :
    Idles o s (flushForKeyframe o packet s).2 := by
  have hkeeps : Ensures (fun t => t = s) (flushForKeyframe o packet) fun _ => Idles o s := by
    unfold flushForKeyframe
    refine Ensures.bind (R := fun _ t => Idles o s t) ?_ fun a => ?_
    · rintro t rfl
      exact .refl
    refine Keeps.when fun _ => Keeps.bind (fun t ht => ht.tail (.remove t _)) fun _ => ?_
    cases o.getRtxSsrcForMedia packet.ssrc a.world with
    | none => exact Ensures.pure fun t ht => ht
    | some rtxSsrc => exact fun t ht => ht.tail (.remove t _)
  exact hkeeps s rfl

theorem fastForward_idles (time : ℤ) (h : time ≤ s.pacer.lastTimestamp) :
    Idles o s (fastForward o time s).2 := by
  have hidles := nextSendTime_idles (o := o) s
  exact hidles.tail (.drain _ _ ((min_le_left _ _).trans (h.trans hidles.lastTimestamp_le)))

/-- Around the push of its packet `EnqueuePacket` is idle. -/
theorem enqueuePacket_pushes (packet : RtpPacketToSend) (s : Session Q W) :
    ∃ u now, Idles o s u ∧ Idles o (u.afterPush o now packet) (enqueuePacket o packet s).2 := by
  have hkeeps : Ensures (fun t => t = s) (enqueuePacket o packet) fun _ t =>
      ∃ u now, Idles o s u ∧ Idles o (u.afterPush o now packet) t := by
    unfold enqueuePacket
    refine Ensures.bind (R := fun _ => Idles o s) ?_ fun _ => ?_
    · rintro t rfl
      exact flushForKeyframe_idles packet t
    refine Ensures.bind (R := fun _ => Idles o s) (fun t ht => ht.tail (.world t _)) fun _ => ?_
    refine Ensures.bind (R := fun now => IdleAt o s now) (fun t ht => ?_) fun now => ?_
    · obtain ⟨hidles, hnow⟩ := currentTime_idles (o := o) t
      exact ⟨ht.trans hidles, hnow.le⟩
    refine Keeps.bind (fun t ht => ht) fun a => ?_
    refine Keeps.bind (Keeps.when fun _ t ht => ?_) fun _ => ?_
    · exact ht.idles (fastForward_idles now ht.2)
    -- the packet is noted, put into the queue and seen in one change
    exact fun t ht => ⟨t, now, ht.1, maybeUpdate_idles now (t.afterPush o now packet)⟩
  exact hkeeps s rfl

theorem enqueuePacket_fed (packet : RtpPacketToSend) (s : Session Q W) :
    Fed o s (enqueuePacket o packet s).2 := by
  obtain ⟨u, now, hbefore, hafter⟩ := enqueuePacket_pushes (o := o) packet s
  exact (hbefore.fed.tail (.push u now packet)).trans hafter.fed

/-! ## A call of `ProcessPackets` -/

theorem Micro.lastTimestamp_le (h : Micro o s t) : s.pacer.lastTimestamp ≤ t.pacer.lastTimestamp := by
  cases h with
  | feed h => exact Fed.lastTimestamp_le (.single h)
  | drainEarly time past =>
    unfold PacingController.drainedUntil PacingController.updateTimeAndGetElapsed
    split <;> exact le_rfl
  | keptAlive | sent =>
    simp only [Session.afterSent, PacingController.onPacketSent]
    split_ifs <;> exact le_rfl
  | replay | generate | fetch | keepalive | popSend | popNothing | probeSend | padding | failure | log |
      breaker => exact le_rfl

/-- Reached by such changes, in a state in which the clock has shown `now`. -/
def ReachedAt (o : Outside Q W) (s₀ : Session Q W) (now : ℤ) (s : Session Q W) : Prop :=
  ReflTransGen (Micro o) s₀ s ∧ now ≤ s.pacer.lastTimestamp

theorem ReachedAt.micro (h : ReachedAt o s₀ now s) (ht : Micro o s t) : ReachedAt o s₀ now t :=
  ⟨h.1.tail ht, h.2.trans ht.lastTimestamp_le⟩

theorem ReachedAt.fed (h : ReachedAt o s₀ now s) (ht : Fed o s t) : ReachedAt o s₀ now t :=
  ⟨h.1.trans (ht.lift id fun _ _ hab => .feed hab), h.2.trans ht.lastTimestamp_le⟩

theorem forM_fed (packets : List RtpPacketToSend) :
    ∀ s : Session Q W, Fed o s (packets.forM (enqueuePacket o) s).2 := by
  intro s
  have h : Keeps (Fed o s) (packets.forM (enqueuePacket o)) :=
    Keeps.forM fun packet _ t ht => ht.trans (enqueuePacket_fed packet t)
  exact h s .refl

/-- Nothing was sent for the keepalive interval. -/
def Quiet (now : ℤ) (s : Session Q W) : Prop :=
  kCongestedPacketInterval ≤ now - s.pacer.lastSendTime

theorem Idle.lastSendTime (h : Idle o s t) : t.pacer.lastSendTime = s.pacer.lastSendTime := by
  cases h with
  | drain time past =>
    unfold PacingController.drainedUntil PacingController.updateTimeAndGetElapsed
    split <;> rfl
  | clock | world | rate | average | remove => rfl

theorem Fed.lastSendTime (h : Fed o s t) : t.pacer.lastSendTime = s.pacer.lastSendTime := by
  induction h with
  | refl => rfl
  | tail _ ht ih =>
    rw [← ih]
    cases ht with
    | idle ht => exact ht.lastSendTime
    | push => rfl

theorem Feed.calls_prefix (h : Feed o s t) : s.calls <+: t.calls := by
  cases h with
  | push => exact List.prefix_append _ _
  | idle h =>
    cases h with
    | remove => exact List.prefix_append _ _
    | clock | world | drain | rate | average => exact List.prefix_rfl

theorem Fed.calls_prefix (h : Fed o s t) : s.calls <+: t.calls := by
  induction h with
  | refl => exact List.prefix_rfl
  | tail _ ht ih => exact ih.trans ht.calls_prefix

/-- Reached in a keepalive that has generated `packets`. -/
def KeepingAlive (o : Outside Q W) (s₀ : Session Q W) (now : ℤ)
    (packets : List RtpPacketToSend) (s : Session Q W) : Prop :=
  ReachedAt o s₀ now s ∧ Quiet now s ∧
    (packets ≠ [] → ∃ e ∈ s.calls, e.2.2 = .generatePadding 1 packets)

theorem KeepingAlive.fed {packets : List RtpPacketToSend} (h : KeepingAlive o s₀ now packets s)
    (ht : Fed o s t) : KeepingAlive o s₀ now packets t := by
  refine ⟨h.1.fed ht, ?_, fun hne => ?_⟩
  · rw [Quiet, ht.lastSendTime]
    exact h.2.1
  · obtain ⟨e, he, hgen⟩ := h.2.2 hne
    exact ⟨e, ht.calls_prefix.subset he, hgen⟩

theorem sendKeepalivePackets_reached (packets : List RtpPacketToSend) :
    ∀ rest ⊆ packets, Keeps (KeepingAlive o s₀ now packets) (sendKeepalivePackets o rest) := by
  intro rest
  induction rest with
  | nil => exact fun _ => Ensures.pure fun s hs => hs
  | cons packet rest ih =>
    intro hsub
    obtain ⟨hmem, hrest⟩ := List.cons_subset.mp hsub
    rw [sendKeepalivePackets]
    refine Keeps.bind (fun s hs => ?_) fun _ => Keeps.bind (fun s hs => ?_) fun fec => ?_
    · obtain ⟨hr, hq, hgen⟩ := hs
      obtain ⟨e, he, hcall⟩ := hgen (List.ne_nil_of_mem hmem)
      refine ⟨hr.micro (.keepalive s 1 packets packet ⟨now, hr.2, hq⟩ ⟨e, he, hcall⟩ hmem), hq, fun _ => ?_⟩
      exact ⟨e, List.mem_append_left _ he, hcall⟩
    · refine ⟨hs.1.micro (.fetch s _ _), hs.2.1, fun hne => ?_⟩
      obtain ⟨e, he, hcall⟩ := hs.2.2 hne
      exact ⟨e, List.mem_append_left _ he, hcall⟩
    · refine Keeps.bind (fun s hs => hs.fed (forM_fed fec s)) fun _ => ?_
      exact Keeps.bind (ih hrest) fun _ => Ensures.pure fun s hs => hs

theorem sendKeepalive_reached :
    Ensures (fun s => ReachedAt o s₀ now s ∧ Quiet now s) (sendKeepalive o now)
      fun _ => ReachedAt o s₀ now := by
  unfold sendKeepalive
  refine Ensures.bind (R := fun packets => KeepingAlive o s₀ now packets) ?_ fun packets => ?_
  · refine Keeps.bind (fun s hs => hs) fun a => ?_
    refine Ensures.ite (fun _ s hs => ?_) fun _ s hs => ⟨hs.1, hs.2, fun hne => absurd rfl hne⟩
    refine ⟨hs.1.micro (.generate s 1 _ _ (.inl rfl)), hs.2, fun _ => ?_⟩
    exact ⟨_, List.mem_append_right _ (List.mem_singleton_self _), rfl⟩
  refine Keeps.bind (sendKeepalivePackets_reached packets packets (List.Subset.refl _)) fun size => ?_
  exact fun s hs => hs.1.micro (.keptAlive s size now hs.1.2 hs.2.1)

theorem popPacket_nothing {a : Session Q W} {q : Q} (hpop : o.pop a.queue = (none, q)) :
    popPacket o a = (none, { a with queue := q }) := by
  rw [popPacket, run_get, hpop]
  rfl

theorem popPacket_some {a : Session Q W} {packet : RtpPacketToSend} {q : Q}
    (hpop : o.pop a.queue = (some packet, q)) :
    popPacket o a = (some packet, a.afterPop packet q) := by
  rw [popPacket, run_get, hpop]
  rfl

/-- After `GetPendingPacket` the packet is ready to be sent. -/
theorem getPendingPacket_reached {info : PacedPacketInfo} (hinfo : MayProbe o info)
    (target : ℤ) :
    Ensures (ReachedAt o s₀ now) (getPendingPacket o info target now) fun r s =>
      match r with
      | none => ReachedAt o s₀ now s
      | some packet => ReachedAt o s₀ now (s.afterSend o packet info) ∧ s.SendsQueued o := by
  unfold getPendingPacket
  refine Ensures.bind (R := fun r s =>
      match r with
      | none => ReachedAt o s₀ now s
      | some packet => ReachedAt o s₀ now (s.afterSend o packet info) ∧ s.SendsQueued o) ?_ fun r => ?_
  · refine Ensures.ite (fun hprobe s hs => ?_) fun _ s hs => hs
    cases hhead : (o.generatePadding 1 s.world).1.head? with
    | none =>
      have hres : (((generatePadding o 1 >>= fun padding => pure padding.head?) :
          Program Q W (Option RtpPacketToSend)) s).1 = none := hhead
      rw [hres]
      exact hs.micro (.generate s 1 _ _ (.inl rfl))
    | some packet =>
      have hres : (((generatePadding o 1 >>= fun padding => pure padding.head?) :
          Program Q W (Option RtpPacketToSend)) s).1 = some packet := hhead
      rw [hres]
      exact ⟨hs.micro (.probeSend s _ _ packet info hhead hprobe.1 hinfo), .inr (hinfo hprobe.1)⟩
  · cases r with
    | some packet => exact Ensures.pure fun s hs => hs
    | none =>
      refine Ensures.bind (R := fun a s => a = s ∧ ReachedAt o s₀ now s) (fun s hs => ⟨rfl, hs⟩) fun a => ?_
      refine Ensures.ite (fun _ => Ensures.pure fun s hs => hs.2) fun hgo => ?_
      rintro s ⟨rfl, hs⟩
      simp only [not_or, Bool.not_eq_true] at hgo
      cases hpop : o.pop a.queue with
      | mk r q =>
        cases r with
        | none =>
          rw [popPacket_nothing hpop]
          exact hs.micro (.popNothing a q hgo.1 hpop)
        | some packet =>
          rw [popPacket_some hpop]
          refine ⟨hs.micro (.popSend a packet q info target now hgo.1 hpop hinfo hgo.2), .inl ?_⟩
          exact ⟨_, List.mem_append_right _ (List.mem_singleton_self _), packet, rfl⟩

theorem Session.SendsQueued.grow (h : s.SendsQueued o) (hcalls : s.calls <+: t.calls) :
    t.SendsQueued o :=
  h.imp_left fun ⟨e, he, hpop⟩ => ⟨e, hcalls.subset he, hpop⟩

/-- What a round of the send loop ends in. -/
def RoundEnds (o : Outside Q W) (s₀ : Session Q W) (now : ℤ) (r : SendLoop × Bool)
    (s : Session Q W) : Prop :=
  MayProbe o r.1.pacingInfo ∧ ReachedAt o s₀ now s

variable {b : Batch} {l : SendLoop}

theorem paddingToAdd_uncongested {c : PacingController} {q : Q} {recommended dataSent : ℤ}
    (h : 0 < c.paddingToAdd o q recommended dataSent) : c.congested = false := by
  cases hcongested : c.congested with
  | false => rfl
  | true =>
    rw [PacingController.paddingToAdd, if_pos hcongested] at h
    split at h <;> omega

theorem padRound_reached (hl : MayProbe o l.pacingInfo) :
    Ensures (ReachedAt o s₀ b.now) (padRound o b l) (RoundEnds o s₀ b.now) := by
  unfold padRound
  refine Keeps.bind (Keeps.when fun hlate s hs => ?_) fun _ => ?_
  · refine hs.micro (.replay s _ ?_)
    have := hs.2
    rw [max_eq_right hlate.le, kMaxPaddingReplayDuration]
    omega
  refine Ensures.bind (R := fun a s => a = s ∧ ReachedAt o s₀ b.now s) (fun s hs => ⟨rfl, hs⟩) fun a => ?_
  refine Ensures.ite (fun hpos => ?_) fun _ => Ensures.pure fun s hs => ⟨hl, hs.2⟩
  refine Ensures.bind (R := fun _ => ReachedAt o s₀ b.now) (fun s hs => ?_) fun packets => ?_
  · refine hs.2.micro (.generate s _ _ _ (.inr ?_))
    rw [← hs.1]
    exact paddingToAdd_uncongested hpos
  refine Ensures.ite (fun _ s hs => ⟨hl, hs.micro (.padding s _ hpos)⟩) fun _ => ?_
  exact Keeps.bind (fun s hs => hs.fed (forM_fed packets s)) fun _ => Ensures.pure fun s hs => ⟨hl, hs⟩

theorem sent_mayProbe (hl : MayProbe o l.pacingInfo) (size : ℤ) :
    MayProbe o (l.sent b size).pacingInfo := by
  unfold SendLoop.sent
  split_ifs <;> exact hl

theorem packetRound_reached (hl : MayProbe o l.pacingInfo) (packet : RtpPacketToSend) :
    Ensures (fun s => ReachedAt o s₀ b.now (s.afterSend o packet l.pacingInfo) ∧ s.SendsQueued o)
      (packetRound o b packet l) (RoundEnds o s₀ b.now) := by
  unfold packetRound
  refine Keeps.bind (fun s hs => hs) fun a => ?_
  refine Ensures.bind (R := fun _ s => ReachedAt o s₀ b.now s ∧ s.SendsQueued o) ?_ fun _ => ?_
  · exact fun s hs => ⟨hs.1, hs.2.grow (List.prefix_append _ _)⟩
  refine Keeps.bind (fun s hs => ?_) fun fec => ?_
  · exact ⟨hs.1.micro (.fetch s _ _), hs.2.grow (List.prefix_append _ _)⟩
  refine Keeps.bind (fun s hs => ?_) fun _ => ?_
  · have hfed := forM_fed (o := o) fec s
    exact ⟨hs.1.fed hfed, hs.2.grow hfed.calls_prefix⟩
  refine Ensures.bind (R := fun _ => ReachedAt o s₀ b.now) ?_ fun _ => ?_
  · exact fun s hs => hs.1.micro (.sent s _ _ _ hs.1.2 hs.2)
  have hsent := sent_mayProbe (b := b) hl (a.pacer.packetSize packet)
  refine Ensures.ite (fun _ => Ensures.pure fun s hs => ⟨hsent, hs⟩) fun _ => ?_
  refine Keeps.bind (fun s hs => hs.fed (nextSendTime_idles s).fed) fun target => ?_
  refine Ensures.ite (fun _ => Ensures.pure fun s hs => ⟨hsent, hs⟩) fun _ => ?_
  refine Keeps.bind (fun s hs => ?_) fun _ => Ensures.pure fun s hs => ⟨hsent, hs⟩
  exact hs.fed (.single (.idle (.drain s _ ((min_le_right _ _).trans hs.2))))

theorem sendRound_reached (hl : MayProbe o l.pacingInfo) :
    Ensures (ReachedAt o s₀ b.now) (sendRound o b l) (RoundEnds o s₀ b.now) := by
  unfold sendRound
  refine Ensures.bind (getPendingPacket_reached hl l.targetSendTime) fun r => ?_
  cases r with
  | none => exact padRound_reached hl
  | some packet => exact packetRound_reached hl packet

theorem sendLoop_reached (iterations : ℕ) : ∀ l : SendLoop, MayProbe o l.pacingInfo →
    Keeps (ReachedAt o s₀ b.now) (sendLoop o b iterations l) := by
  induction iterations with
  | zero => exact fun l _ => Ensures.pure fun s hs => hs
  | succ iterations ih =>
    intro l hl
    rw [sendLoop]
    refine Ensures.bind (sendRound_reached hl) fun r => ?_
    refine Ensures.ite (fun _ => Ensures.given fun hr => ih r.1 hr) fun _ => ?_
    exact Ensures.pure fun s hs => hs.2

theorem beginProbe_reached :
    Ensures (ReachedAt o s₀ now) (beginProbe o now) fun r s =>
      (r.2.now = now ∧ MayProbe o r.1) ∧ ReachedAt o s₀ now s := by
  unfold beginProbe
  refine Ensures.bind (R := fun a s => a = s ∧ ReachedAt o s₀ now s) (fun s hs => ⟨rfl, hs⟩) fun a => ?_
  refine Ensures.ite (fun hprobing => ?_) fun _ => Ensures.pure fun s hs => ⟨⟨rfl, nofun⟩, hs.2⟩
  refine Ensures.bind (R := fun _ => ReachedAt o s₀ now) ?_ fun cluster => ?_
  · exact fun s hs => hs.2.fed (.single (.idle (.world s _)))
  refine Keeps.bind (fun s hs => hs) fun _ => ?_
  refine Ensures.ite (fun _ => ?_) fun _ => ?_ <;>
    exact Ensures.pure fun s hs => ⟨⟨rfl, fun _ => ⟨a.world, hprobing⟩⟩, hs⟩

theorem maybeUpdate_reached (time : ℤ) :
    Keeps (ReachedAt o s₀ now) (maybeUpdateMediaRateDueToLongQueue o time) :=
  fun s hs => hs.fed (maybeUpdate_idles time s).fed

theorem logBatch_reached : Keeps (ReachedAt o s₀ now) (logBatch o b l) := by
  unfold logBatch
  exact Keeps.bind (fun s hs => hs) fun _ => Keeps.when fun _ s hs => hs.micro (.log s _)

theorem endBatch_reached : Keeps (ReachedAt o s₀ now) (endBatch o b l) := by
  unfold endBatch
  refine Keeps.bind (Keeps.when fun _ => ?_) fun _ => Keeps.bind logBatch_reached fun _ => ?_
  · refine Keeps.bind (fun s hs => hs.micro (.failure s _)) fun _ => Keeps.when fun _ => ?_
    refine Keeps.bind (fun s hs => hs.fed (currentTime_idles s).1.fed) fun _ => ?_
    exact fun s hs => hs.fed (.single (.idle (.world s _)))
  · exact Keeps.bind (fun s hs => hs.fed (currentTime_idles s).1.fed) fun time => maybeUpdate_reached time

/-- No time has passed: nothing changes. -/
theorem updateTime_idle {c : PacingController} {time : ℤ}
    (h : ¬ 0 < (c.updateTimeAndGetElapsed time).1) : (c.updateTimeAndGetElapsed time).2 = c := by
  unfold PacingController.updateTimeAndGetElapsed at h ⊢
  split_ifs at h ⊢ with hpast
  · rfl
  · have : time = c.lastProcessTime := by
      simp only [kMaxElapsedTime] at h
      omega
    rw [this]

theorem sendBatch_reached {target : ℤ} (htarget : target ≤ now + kMaxEarlyProbeProcessing) :
    Keeps (ReachedAt o s₀ now) (sendBatch o now target) := by
  unfold sendBatch
  refine Ensures.bind (R := fun elapsed s => if 0 < elapsed
      then ReachedAt o s₀ now { s with pacer := s.pacer.updateBudgetWithElapsedTime o elapsed }
      else ReachedAt o s₀ now s) ?_ fun elapsed => ?_
  · intro s hs
    change if 0 < (s.pacer.updateTimeAndGetElapsed target).1 then _ else _
    split_ifs with hpos
    · refine hs.micro (.drainEarly s target ?_)
      have := hs.2
      omega
    · change ReachedAt o s₀ now { s with pacer := (s.pacer.updateTimeAndGetElapsed target).2 }
      rw [updateTime_idle hpos]
      exact hs
  refine Ensures.bind (R := fun _ => ReachedAt o s₀ now) ?_ fun _ => ?_
  · refine Ensures.when (fun hpos s hs => ?_) fun hpos s hs => ?_
    · rwa [if_pos hpos] at hs
    · rwa [if_neg hpos] at hs
  refine Ensures.bind beginProbe_reached fun r => Ensures.given fun hr => ?_
  obtain ⟨info, b⟩ := r
  obtain ⟨rfl, hinfo⟩ := hr
  refine Keeps.bind (fun s hs => hs) fun a => ?_
  refine Keeps.bind (sendLoop_reached _ _ hinfo) fun r => ?_
  exact Ensures.ite (fun _ s hs => hs.micro (.breaker s _ hs.2)) fun _ => endBatch_reached

theorem quiet_of_keepalive {c : PacingController} (h : c.shouldSendKeepalive now = true) :
    kCongestedPacketInterval ≤ now - c.lastSendTime := by
  rw [PacingController.shouldSendKeepalive, Bool.and_eq_true, decide_eq_true_eq] at h
  exact h.2

/-- A call of `ProcessPackets` is a sequence of changes. -/
theorem processPackets_reached (s : Session Q W) :
    ReflTransGen (Micro o) s (processPackets o s).2 := by
  have hkeeps : Ensures (fun t => t = s) (processPackets o) fun _ => ReflTransGen (Micro o) s := by
    unfold processPackets
    refine Ensures.bind (R := fun now => ReachedAt o s now) ?_ fun now => ?_
    · rintro t rfl
      obtain ⟨hidles, hnow⟩ := currentTime_idles (o := o) t
      exact ⟨hidles.lift id fun _ _ hab => .feed (.idle hab), hnow.le⟩
    refine Ensures.post (R := fun _ => ReachedAt o s now) ?_ fun _ _ ht => ht.1
    refine Ensures.bind (R := fun a t => a = t ∧ ReachedAt o s now t) (fun t ht => ⟨rfl, ht⟩) fun a => ?_
    refine Ensures.bind (R := fun _ => ReachedAt o s now) ?_ fun _ => ?_
    · refine Ensures.when (fun hsilent => ?_) fun _ t ht => ht.2
      refine sendKeepalive_reached.pre fun t ht => ⟨ht.2, ?_⟩
      rw [Quiet, ← ht.1]
      exact quiet_of_keepalive hsilent
    refine Keeps.bind (fun t ht => ht) fun a => ?_
    refine Keeps.bind (Keeps.when fun _ => ?_) fun _ t ht => ht.fed (.single (.idle (.world t _)))
    refine Keeps.bind (fun t ht => ht.fed (nextSendTime_idles t).fed) fun target => ?_
    refine Ensures.ite (fun _ t ht => ht.fed (.single (.idle (.drain t now ht.2)))) fun hdue => ?_
    refine sendBatch_reached ?_
    unfold kMaxEarlyProbeProcessing at hdue ⊢
    split_ifs at hdue <;> omega
  exact hkeeps s rfl

/-! ## An operation -/

/-- Some flags and limits may differ, budgets, rates and times may not. -/
structure SameBudgets (c c' : PacingController) : Prop where
  lastTimestamp : c'.lastTimestamp = c.lastTimestamp
  mediaDebt : c'.mediaDebt = c.mediaDebt
  paddingDebt : c'.paddingDebt = c.paddingDebt
  pacingRate : c'.pacingRate = c.pacingRate
  adjustedMediaRate : c'.adjustedMediaRate = c.adjustedMediaRate
  paddingRate : c'.paddingRate = c.paddingRate
  lastProcessTime : c'.lastProcessTime = c.lastProcessTime
  lastSendTime : c'.lastSendTime = c.lastSendTime
  firstSentPacketTime : c'.firstSentPacketTime = c.firstSentPacketTime
  drainLargeQueues : c'.drainLargeQueues = c.drainLargeQueues
  paceAudio : c'.paceAudio = c.paceAudio
  fastRetransmissions : c'.fastRetransmissions = c.fastRetransmissions

variable (o) in
/-- What an operation does that sets neither rates nor the congestion. -/
inductive Change : Session Q W → Session Q W → Prop
  | micro {s t : Session Q W} : Micro o s t → Change s t
  | setting (s : Session Q W) (c : PacingController) (same : SameBudgets s.pacer c)
      (congested : c.congested = s.pacer.congested) : Change s { s with pacer := c }
  | pauseState (s : Session Q W) (paused : Bool) (now : ℤ) :
      Change s { s with queue := o.setPauseState paused now s.queue }

/-- The configuration an operation sets. -/
def PacerOp.config (o : Outside Q W) (s : Session Q W) : PacerOp W → Option PacerConfig
  | .setPacerConfig config => some config
  | .setPacingRates pacingRate paddingRate =>
    some (o.createPacerConfig pacingRate paddingRate s.pacer.sendBurstInterval)
  | _ => none

/-- The congestion an operation sets. -/
def PacerOp.congestion : PacerOp W → Option Bool
  | .setCongested congested => some congested
  | _ => none

theorem Fed.change (h : Fed o s t) : ReflTransGen (Change o) s t :=
  h.lift id fun _ _ hab => .micro (.feed hab)

theorem setPaused_changes (paused : Bool) (s : Session Q W) :
    ReflTransGen (Change o) s (setPaused o paused s).2 := by
  have hset : ReflTransGen (Change o) s { s with pacer := { s.pacer with paused := paused } } :=
    .single (.setting s _ ⟨rfl, rfl, rfl, rfl, rfl, rfl, rfl, rfl, rfl, rfl, rfl, rfl⟩ rfl)
  exact (hset.trans (currentTime_idles _).1.fed.change).tail (.pauseState _ paused _)

/-- The budgets are drained before the congestion changes. -/
theorem setCongested_changes (congested : Bool) (s : Session Q W) :
    ∃ u, Fed o s u ∧
      (setCongested o congested s).2 = { u with pacer := { u.pacer with congested := congested } } := by
  refine ⟨((when (s.pacer.congested = true ∧ congested = false)
    (currentTime o >>= drainUntil o) : Program Q W PUnit) s).2, ?_, rfl⟩
  have hkeeps : Keeps (Fed o s) (when (s.pacer.congested = true ∧ congested = false)
      (currentTime o >>= drainUntil o) : Program Q W PUnit) := by
    refine Keeps.when fun _ t ht => ?_
    obtain ⟨hidles, hnow⟩ := currentTime_idles (o := o) t
    exact (ht.trans hidles.fed).tail (.idle (.drain _ _ hnow.le))
  exact hkeeps s .refl

theorem next_changes {op : PacerOp W} (hop : op.config o s = none) (hgate : op.congestion = none) :
    ReflTransGen (Change o) s (next o s op) := by
  cases op with
  | setPacerConfig config => cases hop
  | setPacingRates pacingRate paddingRate => cases hop
  | pause => exact setPaused_changes true s
  | resume => exact setPaused_changes false s
  | setCongested congested => cases hgate
  | removePacketsForSsrc ssrc => exact .single (.micro (.feed (.idle (.remove s ssrc))))
  | enqueuePacket packet => exact (enqueuePacket_fed packet s).change
  | processPackets => exact (processPackets_reached s).lift id fun _ _ hab => .micro hab
  | nextSendTime => exact (nextSendTime_idles s).fed.change
  | outside world => exact .single (.micro (.feed (.idle (.world s world))))
  | setTransportOverhead overheadPerPacket =>
    refine .single (.setting s (if s.pacer.ignoreTransportOverhead then s.pacer else
      { s.pacer with transportOverheadPerPacket := overheadPerPacket }) ?_ ?_) <;> split
    exacts [⟨rfl, rfl, rfl, rfl, rfl, rfl, rfl, rfl, rfl, rfl, rfl, rfl⟩,
      ⟨rfl, rfl, rfl, rfl, rfl, rfl, rfl, rfl, rfl, rfl, rfl, rfl⟩, rfl, rfl]
  | setCircuitBreakerThreshold numIterations =>
    exact .single (.setting s { s.pacer with circuitBreakerThreshold := numIterations }
      ⟨rfl, rfl, rfl, rfl, rfl, rfl, rfl, rfl, rfl, rfl, rfl, rfl⟩ rfl)
  | setAccountForAudioPackets accountForAudio =>
    exact .single (.setting s { s.pacer with accountForAudio := accountForAudio }
      ⟨rfl, rfl, rfl, rfl, rfl, rfl, rfl, rfl, rfl, rfl, rfl, rfl⟩ rfl)
  | setIncludeOverhead =>
    exact .single (.setting s { s.pacer with includeOverhead := true }
      ⟨rfl, rfl, rfl, rfl, rfl, rfl, rfl, rfl, rfl, rfl, rfl, rfl⟩ rfl)
  | setSendBurstInterval burstInterval =>
    exact .single (.setting s { s.pacer with sendBurstInterval := burstInterval }
      ⟨rfl, rfl, rfl, rfl, rfl, rfl, rfl, rfl, rfl, rfl, rfl, rfl⟩ rfl)
  | setQueueTimeLimit limit =>
    exact .single (.setting s { s.pacer with queueTimeLimit := limit }
      ⟨rfl, rfl, rfl, rfl, rfl, rfl, rfl, rfl, rfl, rfl, rfl, rfl⟩ rfl)

/-- The controller with the rates of a configuration and no queue to drain. -/
def Session.configured (s : Session Q W) (config : PacerConfig) : Session Q W :=
  { s with pacer := { s.pacer with
      paddingRate := if config.dataRate < config.padRate then config.dataRate else config.padRate
      pacingRate := config.dataRate
      adjustedMediaRate := config.dataRate
      sendBurstInterval := config.timeWindow } }

/-- The media rate is set from the pacing rate before anything reads it. -/
theorem next_configures {op : PacerOp W} {config : PacerConfig} (hop : op.config o s = some config) :
    Fed o (s.configured config) (next o s op) := by
  have hset : Fed o (s.configured config) (setPacerConfig o config s).2 := by
    have hclock := (currentTime_idles (o := o) (s.configured config)).1
    exact hclock.fed.trans (maybeUpdate_idles _ _).fed
  cases op <;> cases hop <;> exact hset

end WebrtcTrace.Pacing
