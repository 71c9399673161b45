import WebrtcTrace.Pacing.Steps

/-! # A congested pacer

While the controller is congested and no probe is under way, what leaves the queue is not paced, padding
is generated one byte at a time and, until a packet has left the queue, what is noted as sent is a
keepalive. A session here is recorded from a moment at which it is congested.
-/

namespace WebrtcTrace.Pacing
open StatePrograms Relation Runs
set_option autoImplicit false

variable {Q W : Type} (o : Outside Q W)

/-- A call, with the controller and the queue it was made from. -/
abbrev Recorded (Q : Type) := PacingController × Q × Call

/-- What a call must be like to pass the gate after these. -/
def Passes (before : List (Recorded Q)) (e : Recorded Q) : Prop :=
  match e.2.2 with
  | .pop _ => (e.1.nextUnpacedSendTime o e.2.1).isSome = true
  | .generatePadding size _ => size = 1
  | .onPacketSent packetType _ time =>
    (∃ e' ∈ before, ∃ packet, e'.2.2 = .pop packet) ∨
      packetType = .padding ∧ kCongestedPacketInterval ≤ time - e.1.lastSendTime
  | _ => True

structure Gated (s : Session Q W) : Prop where
  congested : s.pacer.congested = true
  passes : ∀ before e after, s.calls = before ++ e :: after → Passes o before e

variable {o} {s t : Session Q W}

/-- A call is added; the controller stays congested. -/
theorem Gated.noted (h : Gated o s) (call : Call) (hpass : Passes o s.calls (s.pacer, s.queue, call))
    (hcongested : t.pacer.congested = s.pacer.congested)
    (hcalls : t.calls = s.calls ++ [(s.pacer, s.queue, call)]) : Gated o t := by
  refine ⟨hcongested.trans h.congested, ?_⟩
  rw [hcalls]
  exact splits_snoc h.passes hpass

theorem Gated.same (h : Gated o s) (hcongested : t.pacer.congested = s.pacer.congested)
    (hcalls : t.calls = s.calls) : Gated o t :=
  ⟨hcongested.trans h.congested, hcalls ▸ h.passes⟩

theorem drainedUntil_congested (c : PacingController) (time : ℤ) :
    (c.drainedUntil o time).congested = c.congested := by
  unfold PacingController.drainedUntil PacingController.updateTimeAndGetElapsed
  split <;> rfl

theorem onPacketSent_congested (c : PacingController) (packetType : RtpPacketMediaType)
    (size time : ℤ) : (c.onPacketSent o packetType size time).congested = c.congested := by
  obtain ⟨_, _, heq | ⟨_, heq⟩⟩ := onPacketSent_eq (o := o) c packetType size time
  · rw [heq]
  · rw [heq]
    rfl

theorem Gated.feed (h : Gated o s) (ht : Feed o s t) : Gated o t := by
  cases ht with
  | push now packet => exact h.noted (.push packet) trivial rfl rfl
  | idle ht =>
    cases ht with
    | drain time _ => exact h.same (drainedUntil_congested _ time) rfl
    | remove ssrc => exact h.noted (.removePacketsForSsrc ssrc) trivial rfl rfl
    | clock | world | rate | average => exact h.same rfl rfl

theorem Gated.fed (h : Gated o s) (ht : Fed o s t) : Gated o t := by
  induction ht with
  | refl => exact h
  | tail _ ht ih => exact ih.feed ht

/-- A packet that is not held back is not paced. -/
theorem unpaced_of_goes (hprobing : ∀ w, o.isProbing w = false) {c : PacingController}
    (hcongested : c.congested = true) {q : Q} {info : PacedPacketInfo} (hinfo : MayProbe o info)
    {target now : ℤ} (hgoes : c.holdsBack o q info target now = false) :
    (c.nextUnpacedSendTime o q).isSome = true := by
  have hno : info.probeClusterId.isSome = false := by
    by_contra hsome
    obtain ⟨w, hw⟩ := hinfo (Bool.not_eq_false _ ▸ hsome)
    rw [hprobing w] at hw
    cases hw
  cases hunpaced : c.nextUnpacedSendTime o q with
  | some time => rfl
  | none =>
    have hcluster := Option.isNone_iff_eq_none.mp (Option.isSome_eq_false_iff.mp hno)
    simp [PacingController.holdsBack, hunpaced, hcluster, hcongested] at hgoes

theorem Gated.micro (hprobing : ∀ w, o.isProbing w = false) (h : Gated o s) (ht : Micro o s t) :
    Gated o t := by
  cases ht with
  | feed ht => exact h.feed ht
  | drainEarly time _ => exact h.same (drainedUntil_congested _ time) rfl
  | replay | popNothing | padding | failure | breaker => exact h.same rfl rfl
  | fetch packets w => exact h.noted (.fetchFec packets) trivial rfl rfl
  | keepalive size packets packet => exact h.noted (.sendPacket packet {}) trivial rfl rfl
  | log row => exact h.noted (.log row) trivial rfl rfl
  | generate size packets w wanted =>
    refine h.noted (.generatePadding size packets) ?_ rfl rfl
    exact wanted.resolve_right (by simp [h.congested])
  | keptAlive size now _ quiet =>
    exact h.noted (.onPacketSent .padding size now) (.inr ⟨rfl, quiet⟩)
      (onPacketSent_congested _ _ _ _) rfl
  | sent packetType size now _ follows =>
    refine h.noted (.onPacketSent packetType size now) (.inl ?_)
      (onPacketSent_congested _ _ _ _) rfl
    obtain hpopped | ⟨w, hw⟩ := follows
    · exact hpopped
    · rw [hprobing w] at hw
      cases hw
  | popSend packet q info target now _ _ mayProbe goes =>
    have hpop : Gated o (s.afterPop packet q) :=
      h.noted (.pop packet) (unpaced_of_goes hprobing h.congested mayProbe goes) rfl rfl
    exact hpop.noted (.sendPacket packet info) trivial rfl rfl
  | probeSend packets w packet info =>
    have hgen : Gated o (s.afterGenerate 1 packets w) :=
      h.noted (.generatePadding 1 packets) rfl rfl rfl
    exact hgen.noted (.sendPacket packet info) trivial rfl rfl

theorem Gated.changes (hprobing : ∀ w, o.isProbing w = false) (h : Gated o s)
    (ht : ReflTransGen (Change o) s t) : Gated o t := by
  induction ht with
  | refl => exact h
  | tail _ ht ih =>
    cases ht with
    | micro ht => exact ih.micro hprobing ht
    | setting c _ congested => exact ih.same congested rfl
    | pauseState => exact ih.same rfl rfl

theorem Gated.next (hprobing : ∀ w, o.isProbing w = false) (h : Gated o s) {op : PacerOp W}
    (hop : op.congestion ≠ some false) : Gated o (next o s op) := by
  cases hconfig : op.config o s with
  | some config =>
    have hconfigured : Gated o (s.configured config) := h.same rfl rfl
    exact hconfigured.fed (next_configures hconfig)
  | none =>
    cases hgate : op.congestion with
    | none => exact h.changes hprobing (next_changes hconfig hgate)
    | some congested =>
      cases op <;> cases hgate
      obtain ⟨u, hu, heq⟩ := setCongested_changes (o := o) congested s
      rw [Pacing.next, perform, heq]
      have hcongested : congested = true := by simpa [PacerOp.congestion] using hop
      exact (h.fed hu).same (hcongested.trans (h.fed hu).congested.symm) rfl

/-- **Congestion closes the pacer.** From a congested moment on, through every run that does not lift the
congestion and without probes: a packet is taken from the queue only while it holds packets that are not
paced, padding is generated one byte at a time, and until a packet is taken only padding is noted as
sent, each time when nothing was sent for the keepalive interval, also by the call that then takes one. -/
theorem congestion_gates (hprobing : ∀ w, o.isProbing w = false) {s₀ : Session Q W}
    (hcongested : s₀.pacer.congested = true) (hcalls : s₀.calls = [])
    {tr : List (Session Q W × PacerOp W)} (h : PacerRun o s₀ tr s)
    (hops : ∀ e ∈ tr, e.2.congestion ≠ some false) : Gated o s := by
  refine h.invariant_of (I := Gated o) (P := fun _ op => op.congestion ≠ some false) ?_ ?_ hops
  · refine ⟨hcongested, fun before e after heq => ?_⟩
    rw [hcalls] at heq
    exact absurd heq (List.append_ne_nil_of_right_ne_nil _ (List.cons_ne_nil _ _)).symm
  · rintro s op t hs hop rfl
    exact hs.next hprobing hop

/-- A congested controller at the start of its record. -/
def congestedStart : Session (List (ℤ × RtpPacketToSend)) ℤ :=
  { fifoStart with pacer := { fifoStart.pacer with congested := true } }

/-- Two packets come in; the call two seconds later sends none of them. -/
def heldOps : List (PacerOp ℤ) :=
  [.setPacerConfig ⟨800000, 900000, 5000⟩, .enqueuePacket videoPacket, .enqueuePacket videoPacket,
    .outside 2000000, .processPackets]

theorem congestion_gates_held :
    (heldOps.foldl (next .fifo) congestedStart).queue.length = 2 ∧
      (heldOps.foldl (next .fifo) congestedStart).calls.length = 4 ∧
      Gated .fifo (heldOps.foldl (next .fifo) congestedStart) := by
  refine ⟨by decide +kernel, by decide +kernel, ?_⟩
  exact congestion_gates (fun _ => rfl) rfl rfl (Run.of_next _ congestedStart heldOps) (by decide +kernel)

end WebrtcTrace.Pacing
