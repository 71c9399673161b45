import WebrtcTrace.Pacing.Steps
import Mathlib.Algebra.Order.Ring.Int

/-! # The budgets of the pacer

What holds of the rates, debts and times of the controller whenever it calls outside and after every
operation (`Budgeted`), and how far a debt can grow (`Capped`). A change keeps both; only a new
configuration touches the rates themselves.
-/

namespace WebrtcTrace.Pacing
open StatePrograms Relation Runs
set_option autoImplicit false

variable {Q W : Type} (o : Outside Q W)

/-- What `api/units` promises of `DataRate * TimeDelta`. -/
structure Outside.Sound : Prop where
  times_nonneg : ∀ rate time, 0 ≤ rate → 0 ≤ time → 0 ≤ o.times rate time
  times_mono : ∀ rate rate' time, 0 ≤ rate → rate ≤ rate' → 0 ≤ time →
    o.times rate time ≤ o.times rate' time

/-- `createdAt` is the reading of the clock the constructor sets the process time to. -/
structure Budgeted (createdAt : ℤ) (c : PacingController) : Prop where
  mediaDebt : 0 ≤ c.mediaDebt
  paddingDebt : 0 ≤ c.paddingDebt
  paddingRate : 0 ≤ c.paddingRate
  padded : c.paddingRate ≤ c.pacingRate
  adjusted : c.pacingRate ≤ c.adjustedMediaRate
  sendTime : c.lastSendTime ≤ max createdAt c.lastTimestamp
  processTime : c.lastProcessTime ≤ max createdAt c.lastTimestamp + kMaxEarlyProbeProcessing
  firstSent : ∀ time ∈ c.firstSentPacketTime, time ≤ c.lastTimestamp

/-- No debt is above what the highest rate sends in the maximum debt time. -/
structure Capped (bound : ℤ) (c : PacingController) : Prop where
  undrained : c.drainLargeQueues = false
  rate : c.adjustedMediaRate ≤ bound
  mediaDebt : c.mediaDebt ≤ o.times bound kMaxDebtInTime
  paddingDebt : c.paddingDebt ≤ o.times bound kMaxDebtInTime

variable {o} {createdAt bound : ℤ} {c : PacingController} {s t : Session Q W}

/-! ## One update of the controller -/

theorem Budgeted.media_nonneg (h : Budgeted createdAt c) : 0 ≤ c.adjustedMediaRate :=
  h.paddingRate.trans (h.padded.trans h.adjusted)

theorem Budgeted.drained (h : Budgeted createdAt c) {time : ℤ}
    (htime : time ≤ max createdAt c.lastTimestamp + kMaxEarlyProbeProcessing) :
    Budgeted createdAt (c.drainedUntil o time) := by
  obtain ⟨elapsed, process, _, hprocess, heq⟩ := drained_eq (o := o) c time
  rw [heq]
  refine { h with
    mediaDebt := sub_nonneg.mpr (min_le_left _ _)
    paddingDebt := sub_nonneg.mpr (min_le_left _ _)
    processTime := ?_ }
  obtain rfl | rfl := hprocess
  · exact h.processTime
  · exact htime

theorem Capped.drained (ho : o.Sound) (hb : Budgeted createdAt c) (h : Capped o bound c) (time : ℤ) :
    Capped o bound (c.drainedUntil o time) := by
  obtain ⟨elapsed, process, helapsed, _, heq⟩ := drained_eq (o := o) c time
  have hmedia := le_min hb.mediaDebt (ho.times_nonneg c.adjustedMediaRate _ hb.media_nonneg helapsed)
  have hpadding := le_min hb.paddingDebt (ho.times_nonneg c.paddingRate _ hb.paddingRate helapsed)
  rw [heq]
  exact { h with
    mediaDebt := (sub_le_self _ hmedia).trans h.mediaDebt
    paddingDebt := (sub_le_self _ hpadding).trans h.paddingDebt }

theorem Budgeted.padding (ho : o.Sound) (h : Budgeted createdAt c) {size : ℤ} (hsize : 0 < size) :
    Budgeted createdAt (c.updatePaddingBudgetWithSentData o size) :=
  { h with
    paddingDebt := le_min (add_nonneg h.paddingDebt hsize.le)
      (ho.times_nonneg _ _ h.paddingRate (by decide)) }

theorem Capped.padding (ho : o.Sound) (hb : Budgeted createdAt c) (h : Capped o bound c) (size : ℤ) :
    Capped o bound (c.updatePaddingBudgetWithSentData o size) :=
  { h with
    paddingDebt := (min_le_right _ _).trans (ho.times_mono _ _ _ hb.paddingRate
      (hb.padded.trans (hb.adjusted.trans h.rate)) (by decide)) }

theorem Budgeted.sent (ho : o.Sound) (h : Budgeted createdAt c) (packetType : RtpPacketMediaType)
    (size : ℤ) {time : ℤ} (htime : time ≤ c.lastTimestamp) :
    Budgeted createdAt (c.onPacketSent o packetType size time) := by
  obtain ⟨first, hfirst, heq⟩ := onPacketSent_eq (o := o) c packetType size time
  have hfirstSent : ∀ time' ∈ first, time' ≤ c.lastTimestamp := by
    obtain rfl | rfl := hfirst
    · exact h.firstSent
    · intro time' htime'
      rwa [← Option.some.inj htime']
  have hsend : time ≤ max createdAt c.lastTimestamp := htime.trans (le_max_right _ _)
  obtain heq | ⟨hsize, heq⟩ := heq <;> rw [heq]
  · exact { h with firstSent := hfirstSent, sendTime := hsend }
  · have hpadding := h.padding ho hsize
    exact { h with
      mediaDebt := le_min (add_nonneg h.mediaDebt hsize.le)
        (ho.times_nonneg _ _ h.media_nonneg (by decide))
      paddingDebt := hpadding.paddingDebt
      firstSent := hfirstSent
      sendTime := hsend }

theorem Capped.sent (ho : o.Sound) (hb : Budgeted createdAt c) (h : Capped o bound c)
    (packetType : RtpPacketMediaType) (size time : ℤ) :
    Capped o bound (c.onPacketSent o packetType size time) := by
  obtain ⟨first, _, heq | ⟨_, heq⟩⟩ := onPacketSent_eq (o := o) c packetType size time <;> rw [heq]
  · exact { h with }
  · exact { h with
      mediaDebt := (min_le_right _ _).trans
        (ho.times_mono _ _ _ hb.media_nonneg h.rate (by decide))
      paddingDebt := (h.padding ho hb size).paddingDebt }

/-! ## One change of a session -/

/-- The controller is within its budgets, now and in every call made so far. -/
structure Kept (o : Outside Q W) (createdAt bound : ℤ) (s : Session Q W) : Prop where
  budgeted : Budgeted createdAt s.pacer
  capped : s.pacer.drainLargeQueues = false → Capped o bound s.pacer
  calls : ∀ e ∈ s.calls, Budgeted createdAt e.1 ∧
    (e.1.drainLargeQueues = false → Capped o bound e.1)

theorem Kept.noted (h : Kept o createdAt bound s) (q : Q) (call : Call) :
    ∀ e ∈ s.calls ++ [(s.pacer, q, call)], Budgeted createdAt e.1 ∧
      (e.1.drainLargeQueues = false → Capped o bound e.1) := by
  intro e he
  obtain he | he := List.mem_append.mp he
  · exact h.calls e he
  · rw [List.mem_singleton.mp he]
    exact ⟨h.budgeted, h.capped⟩

theorem Kept.drained (ho : o.Sound) (h : Kept o createdAt bound s) {time : ℤ}
    (htime : time ≤ s.pacer.lastTimestamp + kMaxEarlyProbeProcessing) :
    Kept o createdAt bound { s with pacer := s.pacer.drainedUntil o time } where
  budgeted := h.budgeted.drained (htime.trans (by simp))
  capped hno := by
    refine (h.capped ?_).drained ho h.budgeted time
    obtain ⟨_, _, _, _, heq⟩ := drained_eq (o := o) s.pacer time
    rw [heq] at hno
    exact hno
  calls := h.calls

theorem Kept.idle (ho : o.Sound) (h : Kept o createdAt bound s) (ht : Idle o s t) :
    Kept o createdAt bound t := by
  cases ht with
  | clock w now later =>
    have hclock : max createdAt s.pacer.lastTimestamp ≤ max createdAt now := max_le_max le_rfl later
    have hprocess : s.pacer.lastProcessTime ≤ max createdAt now + kMaxEarlyProbeProcessing := by
      have := h.budgeted.processTime
      omega
    exact { h with
      budgeted := { h.budgeted with
        sendTime := h.budgeted.sendTime.trans hclock
        processTime := hprocess
        firstSent := fun time htime => (h.budgeted.firstSent time htime).trans later }
      capped := fun hno => { h.capped hno with } }
  | world | average => exact { h with }
  | drain time past => exact h.drained ho (past.trans (by simp [kMaxEarlyProbeProcessing]))
  | rate r atLeast undrained =>
    exact { h with
      budgeted := { h.budgeted with adjusted := atLeast }
      capped := fun hno => { h.capped hno with
        rate := (undrained hno).le.trans (h.budgeted.adjusted.trans (h.capped hno).rate) } }
  | remove ssrc => exact { h with calls := h.noted _ _ }

theorem Kept.feed (ho : o.Sound) (h : Kept o createdAt bound s) (ht : Feed o s t) :
    Kept o createdAt bound t := by
  cases ht with
  | idle ht => exact h.idle ho ht
  | push now packet =>
    exact ⟨{ h.budgeted with }, fun hno => { h.capped hno with }, h.noted _ _⟩

theorem Kept.fed (ho : o.Sound) (h : Kept o createdAt bound s) (ht : Fed o s t) :
    Kept o createdAt bound t := by
  induction ht with
  | refl => exact h
  | tail _ ht ih => exact ih.feed ho ht

theorem Kept.sent (ho : o.Sound) (h : Kept o createdAt bound s) (packetType : RtpPacketMediaType)
    (size : ℤ) {time : ℤ} (htime : time ≤ s.pacer.lastTimestamp) :
    Kept o createdAt bound (s.afterSent o packetType size time) where
  budgeted := h.budgeted.sent ho packetType size htime
  capped hno := by
    refine (h.capped ?_).sent ho h.budgeted packetType size time
    obtain ⟨_, _, heq | ⟨_, heq⟩⟩ := onPacketSent_eq (o := o) s.pacer packetType size time <;>
      rw [Session.afterSent, heq] at hno <;> exact hno
  calls := h.noted _ _

theorem Kept.micro (ho : o.Sound) (h : Kept o createdAt bound s) (ht : Micro o s t) :
    Kept o createdAt bound t := by
  cases ht with
  | feed ht => exact h.feed ho ht
  | drainEarly time past => exact h.drained ho past
  | replay time past =>
    exact { h with
      budgeted := { h.budgeted with
        processTime := max_le h.budgeted.processTime (by
          have := le_max_right createdAt s.pacer.lastTimestamp
          simp only [kMaxEarlyProbeProcessing]
          omega) }
      capped := fun hno => { h.capped hno with } }
  | generate | fetch | keepalive | log => exact { h with calls := h.noted _ _ }
  | popNothing => exact { h with }
  | keptAlive size now past _ => exact h.sent ho _ _ past
  | sent packetType size now past _ => exact h.sent ho _ _ past
  | popSend packet q info =>
    have hpop : Kept o createdAt bound (s.afterPop packet q) := { h with calls := h.noted _ _ }
    exact { hpop with calls := hpop.noted _ _ }
  | probeSend packets w packet info =>
    have hgen : Kept o createdAt bound (s.afterGenerate 1 packets w) :=
      { h with calls := h.noted _ _ }
    exact { hgen with calls := hgen.noted _ _ }
  | padding size positive =>
    exact { h with
      budgeted := h.budgeted.padding ho positive
      capped := fun hno => (h.capped hno).padding ho h.budgeted size }
  | failure failed =>
    exact { h with
      budgeted := { h.budgeted with }
      capped := fun hno => { h.capped hno with } }
  | breaker now past =>
    have hnow := past.trans (le_max_right createdAt _)
    exact { h with
      budgeted := { h.budgeted with
        sendTime := hnow
        processTime := hnow.trans (by simp [kMaxEarlyProbeProcessing]) }
      capped := fun hno => { h.capped hno with } }

/-! ## One operation -/

/-- Rates that are not negative and not above the bound. -/
def Within (bound : ℤ) (config : PacerConfig) : Prop :=
  0 ≤ config.dataRate ∧ 0 ≤ config.padRate ∧ config.dataRate ≤ bound

instance (config : PacerConfig) : Decidable (Within bound config) :=
  inferInstanceAs (Decidable (_ ∧ _ ∧ _))

theorem Kept.configured (h : Kept o createdAt bound s) {config : PacerConfig}
    (hconfig : Within bound config) : Kept o createdAt bound (s.configured config) := by
  obtain ⟨hdata, hpad, hbound⟩ := hconfig
  exact { h with
    budgeted := { h.budgeted with
      paddingRate := by
        simp only [Session.configured]
        split_ifs <;> assumption
      padded := by
        simp only [Session.configured]
        split_ifs <;> omega
      adjusted := le_rfl }
    capped := fun hno => { h.capped hno with rate := hbound } }

theorem Budgeted.congr {c' : PacingController} (h : Budgeted createdAt c) (hsame : SameBudgets c c') :
    Budgeted createdAt c' where
  mediaDebt := hsame.mediaDebt ▸ h.mediaDebt
  paddingDebt := hsame.paddingDebt ▸ h.paddingDebt
  paddingRate := hsame.paddingRate ▸ h.paddingRate
  padded := hsame.paddingRate ▸ hsame.pacingRate ▸ h.padded
  adjusted := hsame.pacingRate ▸ hsame.adjustedMediaRate ▸ h.adjusted
  sendTime := hsame.lastSendTime ▸ hsame.lastTimestamp ▸ h.sendTime
  processTime := hsame.lastProcessTime ▸ hsame.lastTimestamp ▸ h.processTime
  firstSent := hsame.firstSentPacketTime ▸ hsame.lastTimestamp ▸ h.firstSent

theorem Capped.congr {c' : PacingController} (h : Capped o bound c) (hsame : SameBudgets c c') :
    Capped o bound c' where
  undrained := hsame.drainLargeQueues ▸ h.undrained
  rate := hsame.adjustedMediaRate ▸ h.rate
  mediaDebt := hsame.mediaDebt ▸ h.mediaDebt
  paddingDebt := hsame.paddingDebt ▸ h.paddingDebt

theorem Kept.change (ho : o.Sound) (h : Kept o createdAt bound s) (ht : Change o s t) :
    Kept o createdAt bound t := by
  cases ht with
  | micro ht => exact h.micro ho ht
  | setting c same _ =>
    exact ⟨h.budgeted.congr same, fun hno => (h.capped (same.drainLargeQueues ▸ hno)).congr same,
      h.calls⟩
  | pauseState => exact { h with }

theorem Kept.changes (ho : o.Sound) (h : Kept o createdAt bound s)
    (ht : ReflTransGen (Change o) s t) : Kept o createdAt bound t := by
  induction ht with
  | refl => exact h
  | tail _ ht ih => exact ih.change ho ht

theorem Kept.next (ho : o.Sound) (h : Kept o createdAt bound s) {op : PacerOp W}
    (hconfig : ∀ config ∈ op.config o s, Within bound config) :
    Kept o createdAt bound (next o s op) := by
  cases hop : op.config o s with
  | none =>
    cases hgate : op.congestion with
    | none => exact h.changes ho (next_changes hop hgate)
    | some congested =>
      cases op <;> cases hgate
      obtain ⟨u, hu, heq⟩ := setCongested_changes (o := o) congested s
      have hfed := h.fed ho hu
      change Kept o createdAt bound (setCongested o congested s).2
      rw [heq]
      exact { hfed with
        budgeted := { hfed.budgeted with }
        capped := fun hno => { hfed.capped hno with } }
  | some config => exact (h.configured (hconfig config hop)).fed ho (next_configures hop)

theorem budgeted_create (settings : Settings) (firstReading secondReading : ℤ) :
    Budgeted secondReading (.create settings firstReading secondReading) where
  mediaDebt := le_refl 0
  paddingDebt := le_refl 0
  paddingRate := le_refl 0
  padded := le_refl 0
  adjusted := le_refl 0
  sendTime := le_max_left secondReading firstReading
  processTime := by
    have := le_max_left secondReading firstReading
    simp only [PacingController.create, kMaxEarlyProbeProcessing]
    omega
  firstSent time htime := by cases htime

theorem kept_create (ho : o.Sound) (hbound : 0 ≤ bound) (settings : Settings)
    (firstReading secondReading : ℤ) (q : Q) (w : W) :
    Kept o secondReading bound (.create settings firstReading secondReading q w) where
  budgeted := budgeted_create settings firstReading secondReading
  capped hno :=
    { undrained := hno
      rate := hbound
      mediaDebt := ho.times_nonneg _ _ hbound (by decide)
      paddingDebt := ho.times_nonneg _ _ hbound (by decide) }
  calls e he := absurd he List.not_mem_nil

/-- **The pacer keeps its budgets.** In every run, after every operation and at every call recorded on
the way: the debts are not negative, the padding rate is at most the pacing rate and this at most the media
rate, no time noted is ahead of the clock by more than the early margin of a probe; and if large queues
are not drained, no debt exceeds half a second of the highest rate configured. -/
theorem budgets_kept (ho : o.Sound) (hbound : 0 ≤ bound) (settings : Settings)
    (firstReading secondReading : ℤ) (q : Q) (w : W) (tr : List (Session Q W × PacerOp W))
    (s : Session Q W) (h : PacerRun o (.create settings firstReading secondReading q w) tr s)
    (hconfig : ∀ e ∈ tr, ∀ config ∈ e.2.config o e.1, Within bound config) :
    Kept o secondReading bound s := by
  refine h.invariant_of (I := Kept o secondReading bound)
    (P := fun s op => ∀ config ∈ op.config o s, Within bound config)
    (kept_create ho hbound settings firstReading secondReading q w) ?_ hconfig
  rintro s op t hs hop rfl
  exact hs.next ho hop

theorem fifo_sound : (Outside.fifo).Sound where
  times_nonneg rate time hrate htime := by
    have := mul_nonneg hrate htime
    simp only [Outside.fifo]
    omega
  times_mono rate rate' time _ hle htime := by
    have := mul_le_mul_of_nonneg_right hle htime
    simp only [Outside.fifo]
    omega

/-- Two packets at 800 kbit/s: the second one waits for the debt of the first. -/
def pacedOps : List (PacerOp ℤ) :=
  [.setPacerConfig ⟨800000, 900000, 5000⟩, .enqueuePacket videoPacket, .enqueuePacket videoPacket,
    .outside 1000, .processPackets]

theorem budgets_kept_paced :
    (fifoAfter pacedOps).pacer.mediaDebt = 1000 ∧ (fifoAfter pacedOps).queue.length = 1 ∧
      0 ≤ (fifoAfter pacedOps).pacer.mediaDebt := by
  refine ⟨by decide +kernel, by decide +kernel, ?_⟩
  exact (@budgets_kept _ _ _ 800000 fifo_sound (by decide) .default 0 0 [] 0 (fifoHistory pacedOps)
    (fifoAfter pacedOps) (fifoAfter_run pacedOps) (by decide +kernel)).budgeted.mediaDebt

end WebrtcTrace.Pacing
