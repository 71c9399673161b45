import WebrtcTrace.Pacing.Budgets
import Mathlib.Algebra.BigOperators.Group.List.Basic
import Mathlib.Data.Multiset.Filter

/-! # Every packet of the pacer is accounted for

Two ledgers of the calls, for one packet `x`: what a program still owes to the queue or the sender
(`Owes`), and what was put into the queue and not taken out of it (`Stocked`). The first is followed through
the programs, the second through their changes; together they say where every packet is.
-/

namespace WebrtcTrace.Pacing
open StatePrograms Relation Runs
set_option autoImplicit false

variable {Q W : Type}

/-- What `PrioritizedPacketQueue` promises without a time to live; `contents q` are the packets in `q`. -/
structure Outside.Holds (o : Outside Q W) (contents : Q → Multiset RtpPacketToSend) : Prop where
  push : ∀ now packet q, contents (o.push now packet q) = packet ::ₘ contents q
  pop : ∀ q packet q', o.pop q = (some packet, q') → contents q = packet ::ₘ contents q'
  popNothing : ∀ q q', o.pop q = (none, q') → contents q' = contents q
  remove : ∀ ssrc q, contents (o.removePacketsForSsrc ssrc q) = (contents q).filter (·.ssrc ≠ ssrc)
  average : ∀ now q, contents (o.updateAverageQueueTime now q) = contents q
  pauseState : ∀ paused now q, contents (o.setPauseState paused now q) = contents q

/-! ## The entries -/

/-- What a call adds to the packets that must still be put into the queue or sent. -/
def owed (x : RtpPacketToSend) : Call → ℤ
  | .push packet => if packet = x then -1 else 0
  | .pop packet => if packet = x then 1 else 0
  | .removePacketsForSsrc _ => 0
  | .generatePadding _ packets => packets.count x
  | .fetchFec packets => packets.count x
  | .sendPacket packet _ => if packet = x then -1 else 0
  | .onPacketSent _ _ _ => 0
  | .log _ => 0

/-- What a call adds to the queue. -/
def stocked (x : RtpPacketToSend) : Call → ℤ
  | .push packet => if packet = x then 1 else 0
  | .pop packet => if packet = x then -1 else 0
  | .removePacketsForSsrc _ => 0
  | .generatePadding _ _ => 0
  | .fetchFec _ => 0
  | .sendPacket _ _ => 0
  | .onPacketSent _ _ _ => 0
  | .log _ => 0

def sent (x : RtpPacketToSend) : Call → ℤ
  | .sendPacket packet _ => if packet = x then 1 else 0
  | _ => 0

/-- The FEC and padding packets the packet sender made. -/
def supplied (x : RtpPacketToSend) : Call → ℤ
  | .generatePadding _ packets => packets.count x
  | .fetchFec packets => packets.count x
  | _ => 0

def total (f : Call → ℤ) (calls : List (PacingController × Q × Call)) : ℤ :=
  (calls.map fun e => f e.2.2).sum

theorem total_append (f : Call → ℤ) (calls : List (PacingController × Q × Call))
    (e : PacingController × Q × Call) : total f (calls ++ [e]) = total f calls + f e.2.2 := by
  simp [total]

/-- The ledgers are made of the same calls. -/
theorem owed_add_stocked (x : RtpPacketToSend) (calls : List (PacingController × Q × Call)) :
    total (owed x) calls + total (stocked x) calls =
      total (supplied x) calls - total (sent x) calls := by
  have hcall : ∀ call, owed x call + stocked x call = supplied x call - sent x call := by
    intro call
    cases call <;> simp only [owed, stocked, supplied, sent] <;> (try split_ifs) <;> omega
  induction calls with
  | nil => rfl
  | cons e calls ih =>
    have := hcall e.2.2
    simp only [total, List.map_cons, List.sum_cons] at ih ⊢
    omega

/-! ## What is owed -/

/-- Of the packets handed in and supplied, those in flight are neither in the queue nor sent. -/
def Owes (handed inFlight : List RtpPacketToSend) (s : Session Q W) : Prop :=
  ∀ x, (handed.count x : ℤ) + total (owed x) s.calls = inFlight.count x

variable {o : Outside Q W} {handed inFlight : List RtpPacketToSend} {s t : Session Q W}

theorem count_cons_cast (x packet : RtpPacketToSend) (packets : List RtpPacketToSend) :
    ((packet :: packets).count x : ℤ) = packets.count x + if packet = x then 1 else 0 := by
  rw [List.count_cons]
  by_cases hx : packet = x <;> simp [hx]

theorem Owes.idle (h : Owes handed inFlight s) (ht : Idle o s t) : Owes handed inFlight t := by
  cases ht with
  | remove ssrc =>
    intro x
    rw [total_append]
    simpa only [owed, add_zero] using h x
  | clock | world | drain | rate | average => exact h

theorem Owes.idles (h : Owes handed inFlight s) (ht : Idles o s t) : Owes handed inFlight t := by
  induction ht with
  | refl => exact h
  | tail _ ht ih => exact ih.idle ht

/-- A packet in flight is settled by putting it into the queue or sending it. -/
theorem Owes.settle {packet : RtpPacketToSend} (h : Owes handed (packet :: inFlight) s) {call : Call}
    (hcall : call = .push packet ∨ ∃ info, call = .sendPacket packet info)
    (hcalls : t.calls = s.calls ++ [(s.pacer, s.queue, call)]) : Owes handed inFlight t := by
  intro x
  have hx := h x
  rw [count_cons_cast] at hx
  have howed : owed x call = -(if packet = x then 1 else 0) := by
    obtain rfl | ⟨info, rfl⟩ := hcall <;> simp only [owed] <;> split_ifs <;> rfl
  rw [hcalls, total_append, howed]
  omega

/-- What the packet sender supplies and what leaves the queue is in flight. -/
theorem Owes.supply (h : Owes handed inFlight s) (call : Call) (packets : List RtpPacketToSend)
    (hcall : ∀ x, owed x call = packets.count x)
    (hcalls : t.calls = s.calls ++ [(s.pacer, s.queue, call)]) : Owes handed (packets ++ inFlight) t := by
  intro x
  have hx := h x
  rw [hcalls, total_append, hcall, List.count_append]
  push_cast
  omega

/-- A call that moves no packet. -/
theorem Owes.neutral (h : Owes handed inFlight s) (call : Call) (hcall : ∀ x, owed x call = 0)
    (hcalls : t.calls = s.calls ++ [(s.pacer, s.queue, call)]) : Owes handed inFlight t :=
  h.supply _ [] hcall hcalls

theorem enqueuePacket_owes (packet : RtpPacketToSend) :
    Ensures (Owes handed (packet :: inFlight)) (enqueuePacket o packet) fun _ =>
      Owes handed inFlight := by
  intro s hs
  obtain ⟨u, now, hbefore, hafter⟩ := enqueuePacket_pushes (o := o) packet s
  exact ((hs.idles hbefore).settle (.inl rfl) rfl).idles hafter

theorem forM_owes (packets : List RtpPacketToSend) :
    Ensures (Owes handed (packets ++ inFlight)) (packets.forM (enqueuePacket o)) fun _ =>
      Owes handed inFlight := by
  induction packets with
  | nil => exact fun s hs => hs
  | cons packet packets ih => exact Ensures.bind (enqueuePacket_owes packet) fun _ => ih

theorem fetchFec_owes :
    Ensures (Owes handed inFlight) (fetchFec o) fun fec => Owes handed (fec ++ inFlight) :=
  fun s hs => hs.supply (s := s) (.fetchFec _) _ (fun _ => rfl) rfl

theorem generatePadding_owes (size : ℤ) :
    Ensures (Owes handed inFlight) (generatePadding o size) fun packets =>
      Owes handed (packets ++ inFlight) :=
  fun s hs => hs.supply (s := s) (.generatePadding size _) _ (fun _ => rfl) rfl

theorem sendPacket_owes (packet : RtpPacketToSend) (info : PacedPacketInfo) :
    Ensures (Owes handed (packet :: inFlight)) (sendPacket o packet info) fun _ =>
      Owes handed inFlight :=
  fun s hs => hs.settle (s := s) (.inr ⟨info, rfl⟩) rfl

theorem onPacketSent_owes (packetType : RtpPacketMediaType) (size time : ℤ) :
    Keeps (Owes handed inFlight) (onPacketSent o packetType size time) :=
  fun s hs => hs.neutral (s := s) (.onPacketSent packetType size time) (fun _ => rfl) rfl

theorem popPacket_owes :
    Ensures (Owes handed inFlight) (popPacket o) fun r => Owes handed (r.toList ++ inFlight) := by
  unfold popPacket
  refine Ensures.bind (R := fun a s => a = s ∧ Owes handed inFlight s) (fun s hs => ⟨rfl, hs⟩) fun a => ?_
  rintro s ⟨rfl, hs⟩
  cases hpop : o.pop a.queue with
  | mk r q =>
    cases r with
    | none => exact hs
    | some packet =>
      refine hs.supply (s := a) (.pop packet) [packet] (fun x => ?_) rfl
      rw [count_cons_cast]
      simp [owed]

/-! ## A call of `ProcessPackets` owes nothing -/

theorem getPendingPacket_owes (hone : ∀ w, (o.generatePadding 1 w).1.length ≤ 1)
    (info : PacedPacketInfo) (target now : ℤ) :
    Ensures (Owes handed []) (getPendingPacket o info target now) fun r =>
      Owes handed r.toList := by
  unfold getPendingPacket
  refine Ensures.bind (R := fun r => Owes handed r.toList) ?_ fun r => ?_
  · refine Ensures.ite (fun _ s hs => ?_) fun _ s hs => hs
    have hgen : Owes handed ((o.generatePadding 1 s.world).1 ++ []) (generatePadding o 1 s).2 :=
      generatePadding_owes 1 s hs
    -- one byte of padding is one packet at most
    have hlist : (o.generatePadding 1 s.world).1 = (o.generatePadding 1 s.world).1.head?.toList := by
      match hl : (o.generatePadding 1 s.world).1 with
      | [] => rfl
      | [_] => rfl
      | _ :: _ :: _ =>
        have := hone s.world
        rw [hl] at this
        simp at this
    rw [List.append_nil, hlist] at hgen
    exact hgen
  · cases r with
    | some packet => exact Ensures.pure fun s hs => hs
    | none =>
      refine Keeps.bind (fun s hs => hs) fun a => ?_
      refine Ensures.ite (fun _ => Ensures.pure fun s hs => hs) fun _ => ?_
      refine popPacket_owes.post fun r s hs => ?_
      rwa [Option.toList_none, List.append_nil] at hs

variable {b : Batch} {l : SendLoop}

theorem padRound_owes :
    Keeps (Owes handed []) (padRound o b l) := by
  unfold padRound
  refine Keeps.bind (Keeps.when fun _ s hs => hs) fun _ => Keeps.bind (fun s hs => hs) fun a => ?_
  refine Ensures.ite (fun _ => ?_) fun _ => Ensures.pure fun s hs => hs
  refine Ensures.bind (generatePadding_owes _) fun packets => ?_
  refine Ensures.ite (fun hempty s hs => ?_) fun _ => ?_
  · rw [List.isEmpty_iff.mp hempty] at hs
    exact hs
  · exact Ensures.bind (forM_owes packets) fun _ => Ensures.pure fun s hs => hs

theorem packetRound_owes (packet : RtpPacketToSend) :
    Ensures (Owes handed [packet]) (packetRound o b packet l) fun _ => Owes handed [] := by
  unfold packetRound
  refine Ensures.bind (R := fun _ => Owes handed [packet]) (fun s hs => hs) fun a => ?_
  refine Ensures.bind (sendPacket_owes packet _) fun _ => ?_
  refine Ensures.bind fetchFec_owes fun fec => Ensures.bind (forM_owes fec) fun _ => ?_
  refine Keeps.bind (onPacketSent_owes _ _ _) fun _ => ?_
  refine Ensures.ite (fun _ => Ensures.pure fun s hs => hs) fun _ => ?_
  refine Keeps.bind (fun s hs => hs.idles (nextSendTime_idles s)) fun target => ?_
  refine Ensures.ite (fun _ => Ensures.pure fun s hs => hs) fun _ => ?_
  exact Keeps.bind (fun s hs => hs) fun _ => Ensures.pure fun s hs => hs

theorem sendLoop_owes (hone : ∀ w, (o.generatePadding 1 w).1.length ≤ 1) (iterations : ℕ) :
    ∀ l : SendLoop, Keeps (Owes handed []) (sendLoop o b iterations l) := by
  induction iterations with
  | zero => exact fun l => Ensures.pure fun s hs => hs
  | succ iterations ih =>
    intro l
    rw [sendLoop, sendRound]
    refine Keeps.bind (Ensures.bind (getPendingPacket_owes hone _ _ _) fun r => ?_) fun r => ?_
    · cases r with
      | none => exact padRound_owes
      | some packet => exact packetRound_owes packet
    · exact Ensures.ite (fun _ => ih r.1) fun _ => Ensures.pure fun s hs => hs

theorem sendKeepalivePackets_owes (packets : List RtpPacketToSend) :
    Ensures (Owes handed packets) (sendKeepalivePackets o packets) fun _ => Owes handed [] := by
  induction packets with
  | nil => exact Ensures.pure fun s hs => hs
  | cons packet packets ih =>
    rw [sendKeepalivePackets]
    refine Ensures.bind (sendPacket_owes packet _) fun _ => Ensures.bind fetchFec_owes fun fec => ?_
    refine Ensures.bind (forM_owes fec) fun _ => Ensures.bind ih fun _ => Ensures.pure fun s hs => hs

theorem sendKeepalive_owes (now : ℤ) : Keeps (Owes handed []) (sendKeepalive o now) := by
  unfold sendKeepalive generateKeepalive
  refine Ensures.bind (R := fun packets => Owes handed packets) ?_ fun packets => ?_
  · refine Keeps.bind (fun s hs => hs) fun a => Ensures.ite (fun _ => ?_) fun _ => ?_
    · refine (generatePadding_owes 1).post fun packets s hs => ?_
      rwa [List.append_nil] at hs
    · exact Ensures.pure fun s hs => hs
  · exact Ensures.bind (sendKeepalivePackets_owes packets) fun size => onPacketSent_owes _ _ _

theorem sendBatch_owes (hone : ∀ w, (o.generatePadding 1 w).1.length ≤ 1) (now target : ℤ) :
    Keeps (Owes handed []) (sendBatch o now target) := by
  unfold sendBatch
  refine Keeps.bind (fun s hs => hs) fun elapsed => Keeps.bind (Keeps.when fun _ s hs => hs) fun _ => ?_
  refine Keeps.bind ?_ fun r => Keeps.bind (fun s hs => hs) fun a => ?_
  · unfold beginProbe
    refine Keeps.bind (fun s hs => hs) fun w => Ensures.ite (fun _ => ?_) fun _ => ?_
    · refine Keeps.bind (fun s hs => hs) fun cluster => Keeps.bind (fun s hs => hs) fun w => ?_
      exact Ensures.ite (fun _ => Ensures.pure fun s hs => hs) fun _ => Ensures.pure fun s hs => hs
    · exact Ensures.pure fun s hs => hs
  refine Keeps.bind (sendLoop_owes hone _ _) fun r => Ensures.ite (fun _ s hs => hs) fun _ => ?_
  unfold endBatch logBatch
  refine Keeps.bind (Keeps.when fun _ => ?_) fun _ => Keeps.bind ?_ fun _ => ?_
  · refine Keeps.bind (fun s hs => hs) fun _ => Keeps.when fun _ => ?_
    exact Keeps.bind (fun s hs => hs.idles (currentTime_idles s).1) fun _ s hs => hs
  · refine Keeps.bind (fun s hs => hs) fun a => Keeps.when fun _ s hs => ?_
    exact hs.neutral (s := s) (.log _) (fun _ => rfl) rfl
  · refine Keeps.bind (fun s hs => hs.idles (currentTime_idles s).1) fun time s hs => ?_
    exact hs.idles (maybeUpdate_idles time s)

theorem processPackets_owes (hone : ∀ w, (o.generatePadding 1 w).1.length ≤ 1) :
    Keeps (Owes handed []) (processPackets o) := by
  unfold processPackets
  refine Keeps.bind (fun s hs => hs.idles (currentTime_idles s).1) fun now => ?_
  refine Keeps.bind (fun s hs => hs) fun a => ?_
  refine Keeps.bind (Keeps.when fun _ => sendKeepalive_owes now) fun _ => ?_
  refine Keeps.bind (fun s hs => hs) fun a => Keeps.bind (Keeps.when fun _ => ?_) fun _ s hs => hs
  refine Keeps.bind (fun s hs => hs.idles (nextSendTime_idles s)) fun target => ?_
  exact Ensures.ite (fun _ s hs => hs) fun _ => sendBatch_owes hone now target

/-! ## The queue -/

/-- The queue holds what was put in and not taken out, less what was removed with its stream. -/
structure Stocked (contents : Q → Multiset RtpPacketToSend) (x : RtpPacketToSend) (s : Session Q W) :
    Prop where
  atMost : ((contents s.queue).count x : ℤ) ≤ total (stocked x) s.calls
  exact : (∀ e ∈ s.calls, e.2.2 ≠ .removePacketsForSsrc x.ssrc) →
    ((contents s.queue).count x : ℤ) = total (stocked x) s.calls

variable {contents : Q → Multiset RtpPacketToSend} {x : RtpPacketToSend}

theorem multiset_count_cons_cast (packet : RtpPacketToSend) (m : Multiset RtpPacketToSend) :
    ((packet ::ₘ m).count x : ℤ) = m.count x + if packet = x then 1 else 0 := by
  rw [Multiset.count_cons]
  by_cases hx : packet = x
  · simp [hx]
  · simp [hx, Ne.symm hx]

/-- One call that changes the queue by what it says. -/
theorem Stocked.note (h : Stocked contents x s) {q : Q} (call : Call)
    (hq : ((contents q).count x : ℤ) = (contents s.queue).count x + stocked x call)
    (hs : t.queue = q) (hcalls : t.calls = s.calls ++ [(s.pacer, s.queue, call)]) :
    Stocked contents x t := by
  have hsum := total_append (stocked x) s.calls (s.pacer, s.queue, call)
  refine ⟨?_, fun hno => ?_⟩ <;> rw [hs, hcalls, hq, hsum]
  · exact add_le_add h.atMost le_rfl
  · rw [h.exact fun e he => hno e (hcalls ▸ List.mem_append_left _ he)]

theorem Stocked.same (h : Stocked contents x s) (hq : contents t.queue = contents s.queue)
    (hcalls : t.calls = s.calls) : Stocked contents x t := by
  refine ⟨?_, fun hno => ?_⟩ <;> rw [hq, hcalls]
  · exact h.atMost
  · exact h.exact fun e he => hno e (hcalls ▸ he)

theorem Stocked.quiet (h : Stocked contents x s) (call : Call) (hcall : stocked x call = 0)
    (hq : t.queue = s.queue) (hcalls : t.calls = s.calls ++ [(s.pacer, s.queue, call)]) :
    Stocked contents x t :=
  h.note call (by rw [hcall, add_zero]) hq hcalls

variable (ho : o.Holds contents)
include ho

theorem Stocked.feed (h : Stocked contents x s) (ht : Feed o s t) : Stocked contents x t := by
  cases ht with
  | push now packet =>
    refine h.note (q := o.push now packet s.queue) (.push packet) ?_ rfl rfl
    rw [ho.push, multiset_count_cons_cast, stocked]
  | idle ht =>
    cases ht with
    | average now => exact h.same (ho.average now _) rfl
    | clock | world | drain | rate => exact h.same rfl rfl
    | remove ssrc =>
      by_cases hssrc : x.ssrc = ssrc
      · refine ⟨?_, fun hno => absurd (congrArg Call.removePacketsForSsrc hssrc.symm) ?_⟩
        · have hnone : (contents (o.removePacketsForSsrc ssrc s.queue)).count x = 0 := by
            rw [ho.remove, Multiset.count_eq_zero, Multiset.mem_filter]
            simp [hssrc]
          have hle := h.atMost
          simp only [total_append, stocked, hnone]
          omega
        · exact hno _ (List.mem_append_right _ (List.mem_singleton_self _))
      · refine h.note (.removePacketsForSsrc ssrc) ?_ rfl rfl
        rw [ho.remove, Multiset.count_filter_of_pos (by simpa using hssrc), stocked, add_zero]

theorem Stocked.popped (h : Stocked contents x s) {packet : RtpPacketToSend} {q : Q}
    (hpop : o.pop s.queue = (some packet, q)) : Stocked contents x (s.afterPop packet q) := by
  refine h.note (q := q) (.pop packet) ?_ rfl rfl
  rw [ho.pop _ _ _ hpop, multiset_count_cons_cast, stocked]
  split_ifs <;> omega

theorem Stocked.micro (h : Stocked contents x s) (ht : Micro o s t) : Stocked contents x t := by
  cases ht with
  | feed ht => exact h.feed ho ht
  | drainEarly | replay | padding | failure | breaker => exact h.same rfl rfl
  | popNothing q _ hpop => exact h.same (ho.popNothing _ _ hpop) rfl
  | popSend packet q info _ _ _ hpop _ _ =>
    exact (h.popped ho hpop).quiet (.sendPacket packet info) rfl rfl rfl
  | probeSend packets w packet info =>
    have hgen : Stocked contents x (s.afterGenerate 1 packets w) :=
      h.quiet (.generatePadding 1 packets) rfl rfl rfl
    exact hgen.quiet (.sendPacket packet info) rfl rfl rfl
  | generate size packets w => exact h.quiet (.generatePadding size packets) rfl rfl rfl
  | fetch packets w => exact h.quiet (.fetchFec packets) rfl rfl rfl
  | keepalive _ _ packet => exact h.quiet (.sendPacket packet {}) rfl rfl rfl
  | keptAlive size now => exact h.quiet (.onPacketSent .padding size now) rfl rfl rfl
  | sent packetType size now => exact h.quiet (.onPacketSent packetType size now) rfl rfl rfl
  | log row => exact h.quiet (.log row) rfl rfl rfl

theorem Stocked.change (h : Stocked contents x s) (ht : Change o s t) : Stocked contents x t := by
  cases ht with
  | micro ht => exact h.micro ho ht
  | setting => exact h.same rfl rfl
  | pauseState paused now => exact h.same (ho.pauseState paused now _) rfl

theorem Stocked.fed (h : Stocked contents x s) (ht : Fed o s t) : Stocked contents x t := by
  induction ht with
  | refl => exact h
  | tail _ ht ih => exact ih.feed ho ht

theorem Stocked.changes (h : Stocked contents x s) (ht : ReflTransGen (Change o) s t) :
    Stocked contents x t := by
  induction ht with
  | refl => exact h
  | tail _ ht ih => exact ih.change ho ht

theorem Stocked.next (h : Stocked contents x s) (op : PacerOp W) :
    Stocked contents x (next o s op) := by
  cases hop : op.config o s with
  | none =>
    cases hgate : op.congestion with
    | none => exact h.changes ho (next_changes hop hgate)
    | some congested =>
      cases op <;> cases hgate
      obtain ⟨u, hu, heq⟩ := setCongested_changes (o := o) congested s
      rw [Pacing.next, perform, heq]
      exact (h.fed ho hu).same rfl rfl
  | some config =>
    have hconfigured : Stocked contents x (s.configured config) := h.same rfl rfl
    exact hconfigured.fed ho (next_configures hop)

omit ho

/-! ## Runs -/

/-- The packets an operation hands to the controller. -/
def PacerOp.handsIn : PacerOp W → List RtpPacketToSend
  | .enqueuePacket packet => [packet]
  | _ => []

def handedIn (tr : List (Session Q W × PacerOp W)) : List RtpPacketToSend :=
  tr.flatMap fun e => e.2.handsIn

/-- An operation owes nothing when it is done. -/
theorem next_owes (hone : ∀ w, (o.generatePadding 1 w).1.length ≤ 1) (h : Owes handed [] s)
    (op : PacerOp W) : Owes (handed ++ op.handsIn) [] (next o s op) := by
  have hset : ∀ config, Owes handed [] (setPacerConfig o config s).2 := fun config =>
    ((show Owes handed [] (s.configured config) from h).idles (currentTime_idles _).1).idles
      (maybeUpdate_idles _ _)
  have hnone : ∀ {op : PacerOp W}, op.handsIn = [] → Owes handed [] (next o s op) →
      Owes (handed ++ op.handsIn) [] (next o s op) := by
    intro op hop h'
    rwa [hop, List.append_nil]
  cases op with
  | enqueuePacket packet =>
    refine enqueuePacket_owes packet s fun x => ?_
    have hx := h x
    rw [List.count_append, count_cons_cast]
    simp only [PacerOp.handsIn, List.count_nil, Nat.cast_add, count_cons_cast] at hx ⊢
    omega
  | processPackets => exact hnone rfl (processPackets_owes hone s h)
  | setCongested congested =>
    have hkeeps : Keeps (Owes handed []) (setCongested o congested) := by
      unfold setCongested
      refine Keeps.bind (fun s hs => hs) fun a => ?_
      exact Keeps.bind (Keeps.when fun _ s hs => hs) fun _ s hs => hs
    exact hnone rfl (hkeeps s h)
  | nextSendTime => exact hnone rfl (h.idles (nextSendTime_idles s))
  | removePacketsForSsrc ssrc => exact hnone rfl (h.idle (.remove s ssrc))
  | setPacerConfig config => exact hnone rfl (hset config)
  | setPacingRates pacingRate paddingRate => exact hnone rfl (hset _)
  | pause | resume | setCircuitBreakerThreshold | setAccountForAudioPackets | setIncludeOverhead |
      setTransportOverhead | setSendBurstInterval | setQueueTimeLimit | outside =>
    exact hnone rfl h

/-- **No packet is lost or sent twice.** In every run of a pacer with a queue that holds what is put into
it: the packets in the queue and the packets sent are among those handed in and those the packet sender
supplied, each as often; and all of these are in the queue or sent, unless the packets of their stream
were removed. -/
theorem paced_packets_conserved (ho : o.Holds contents)
    (hone : ∀ w, (o.generatePadding 1 w).1.length ≤ 1)
    (settings : Settings) (firstReading secondReading : ℤ) (q : Q) (w : W) (hempty : contents q = 0)
    (tr : List (Session Q W × PacerOp W)) (s : Session Q W)
    (h : PacerRun o (.create settings firstReading secondReading q w) tr s) (x : RtpPacketToSend) :
    ((contents s.queue).count x : ℤ) + total (sent x) s.calls ≤
        (handedIn tr).count x + total (supplied x) s.calls ∧
      ((∀ e ∈ s.calls, e.2.2 ≠ .removePacketsForSsrc x.ssrc) →
        ((contents s.queue).count x : ℤ) + total (sent x) s.calls =
          (handedIn tr).count x + total (supplied x) s.calls) := by
  have hledger := h.history (I := fun tr s => Owes (handedIn tr) [] s ∧ Stocked contents x s)
    ⟨fun x => rfl, ?_, ?_⟩ ?_
  · obtain ⟨howes, hle, heq⟩ := hledger
    have hx := howes x
    have hsum := owed_add_stocked x s.calls
    rw [List.count_nil] at hx
    refine ⟨by omega, fun hno => ?_⟩
    have := heq hno
    omega
  · rw [Session.create, hempty]
    exact le_rfl
  · intro _
    rw [Session.create, hempty]
    rfl
  · rintro tr s op t ⟨howes, hstock⟩ rfl
    refine ⟨?_, hstock.next ho op⟩
    have hhanded : handedIn (tr ++ [(s, op)]) = handedIn tr ++ op.handsIn := by
      simp [handedIn]
    rw [hhanded]
    exact next_owes hone howes op

/-- The packets of the queue in order of arrival. -/
def fifoContents (q : List (ℤ × RtpPacketToSend)) : Multiset RtpPacketToSend := ↑(q.map (·.2))

theorem fifo_holds : (Outside.fifo).Holds fifoContents where
  push now packet q := by
    simp only [Outside.fifo, fifoContents, List.map_append, List.map_cons, List.map_nil]
    rw [← Multiset.coe_add, Multiset.coe_singleton, Multiset.add_comm, Multiset.singleton_add]
  pop q packet q' h := by
    cases q with
    | nil => cases h
    | cons e q =>
      obtain ⟨hpacket, rfl⟩ := Prod.mk.inj h
      simp only [List.head?_cons, Option.map_some, Option.some.injEq] at hpacket
      simp only [fifoContents, List.map_cons, hpacket, List.tail_cons, Multiset.cons_coe]
  popNothing q q' h := by
    cases q with
    | nil =>
      obtain ⟨-, rfl⟩ := Prod.mk.inj h
      rfl
    | cons e q => cases (Prod.mk.inj h).1
  remove ssrc q := by
    simp only [Outside.fifo, fifoContents, Multiset.filter_coe, List.filter_map]
    rfl
  average now q := rfl
  pauseState paused now q := rfl

/-- One of the two packets is sent, the other one still waits. -/
theorem paced_packets_conserved_fifo :
    total (sent videoPacket) (fifoAfter pacedOps).calls = 1 ∧
      ((fifoContents (fifoAfter pacedOps).queue).count videoPacket : ℤ) +
          total (sent videoPacket) (fifoAfter pacedOps).calls =
        (handedIn (fifoHistory pacedOps)).count videoPacket +
          total (supplied videoPacket) (fifoAfter pacedOps).calls := by
  refine ⟨by decide +kernel, ?_⟩
  exact (paced_packets_conserved fifo_holds (fun _ => Nat.zero_le 1) .default 0 0 [] 0 rfl
    (fifoHistory pacedOps) (fifoAfter pacedOps) (fifoAfter_run pacedOps) videoPacket).2 (by decide +kernel)

end WebrtcTrace.Pacing
