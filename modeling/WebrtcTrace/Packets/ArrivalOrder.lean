import WebrtcTrace.Packets.Assembly

/-! # Frames do not depend on the order of arrival

A packet of the window joins an `Assembled` buffer (`insertPacket_assembled`): it is accepted without
clearing, its slot is free, and `FindFrames` closes the set of packets that are done. At the end of a
run the frames returned are the whole segments of the set of packets (`assembled_frames`), which no
permutation of them changes.
-/

namespace WebrtcTrace.Packets
open Runs
set_option autoImplicit false

namespace PacketBuffer
variable {S : SeqNumOps} {a b : ℕ} {base : UInt16} {W : ℕ} {P : Set Packet}
  {C : List (List Packet)} {R : List (List Moved)} {s t : PacketBuffer} {x : Packet}

/-! ## One packet -/

theorem Calm.accept (hS : S.CountsSteps) (hmax : 2 * W < 2 ^ b) (h : Calm a b base W s) {n : UInt16}
    (hn : (n - base).toNat < W) :
    ∃ t, s.accept S n = some t ∧ Calm a b base W t ∧ t.slot = s.slot := by
  unfold PacketBuffer.accept
  cases hfirst : s.firstPacketReceived with
  | false => exact ⟨_, rfl, ⟨h.size, h.maxSize, h.notCleared, fun _ => hn, h.receivedPadding⟩, rfl⟩
  | true =>
    -- no jump within the window is as long as half the largest buffer
    have hjump : ¬(s.maxSize ≤ S.forwardDiff s.firstSeqNum n ∧
        s.maxSize / 2 ≤ S.forwardDiff n s.firstSeqNum) := by
      rw [hS, hS, h.maxSize]
      have hstep := SeqNums.window_step hn (h.firstSeqNum hfirst)
      omega
    rw [h.notCleared, if_neg hjump, Bool.not_true, if_neg Bool.false_ne_true,
      if_neg Bool.false_ne_true]
    split_ifs
    · exact ⟨_, rfl, ⟨h.size, h.maxSize, h.notCleared, fun _ => hn, h.receivedPadding⟩, rfl⟩
    · exact ⟨s, rfl, h, rfl⟩

theorem arrived_eq (s : PacketBuffer) (x : Packet) : ∃ newest missing, s.arrived S x =
    { s.store x with
      newestInsertedSeqNum := newest
      missingPackets := missing
      receivedPadding := OrderedKeys.fromLower S.descending
        (x.seqNum - UInt16.ofNat (s.size / 4)) s.receivedPadding } := by
  unfold arrived updateMissingPackets
  dsimp only
  split_ifs <;> exact ⟨_, _, rfl⟩

/-- A new packet waits in its slot, and nothing is done by it. -/
theorem Assembled.arrive {u : PacketBuffer} (hw : Windowed a base W (insert x P)) (hx : x ∉ P)
    (hsize : s.size = 2 ^ a) (h : Assembled a P C R s) (hu : u.size = s.size)
    (hslot : ∀ i, u.slot i =
      if i = s.index x.seqNum then some { x with continuous := false } else s.slot i) :
    Assembled a (insert x P) C R u ∧ done (insert x P) C u = done P C s := by
  have hsub : P ⊆ insert x P := Set.subset_insert x P
  have hxP : x ∈ insert x P := Set.mem_insert x P
  have hindex := index_congr hu
  have hold : ∀ q ∈ P, ∀ d, u.Holds q d ↔ s.Holds q d := by
    intro q hq d
    rw [Holds, hindex, hslot, if_neg fun hi => ?_]
    · rfl
    · exact hx (hw.index_inj hsize (hsub hq) hxP hi ▸ hq)
  have hnew : u.Holds x false := by rw [Holds, hindex, hslot, if_pos rfl]
  have hnot : ¬u.Holds x true := fun hyes => absurd (holds_unique hyes hnew) (by decide)
  have hgone : x ∉ C.flatten := by
    intro hmem
    obtain ⟨c, hc, hxc⟩ := List.mem_flatten.mp hmem
    exact hx ((h.whole c hc).segment.subset x hxc)
  have hdone : done (insert x P) C u = done P C s := by
    ext q
    refine ⟨?_, ?_⟩
    · rintro ⟨rfl | hq, hqd⟩
      · exact absurd hqd (not_or.mpr ⟨hgone, hnot⟩)
      · exact ⟨hq, hqd.imp_right (hold q hq true).mp⟩
    · rintro ⟨hq, hqd⟩
      exact ⟨hsub hq, hqd.imp_right (hold q hq true).mpr⟩
  -- a frame whose last packet is done is one of the packets that were there
  have hwhole : ∀ e es, (frames (2 ^ a)).Whole (insert x P) (e :: es) → e ∈ done P C s →
      (frames (2 ^ a)).Whole P (e :: es) := by
    intro e es he hed
    obtain ⟨es', hes'⟩ := h.segment_of_done hed
    obtain rfl := he.segment.unique (hw.lawful _) (hes'.mono hsub)
    exact ⟨hes', he.final⟩
  refine ⟨⟨⟨fun i r hr => ?_, fun q hq hqg => ?_, fun c hc => (h.whole c hc).mono hsub,
    fun q hq hqh => ?_⟩, fun f hf => ?_, fun e es he hed => ?_, fun e es he heh => ?_⟩, hdone⟩
  · rw [hslot] at hr
    split_ifs at hr with hi
    · obtain rfl := Option.some.inj hr
      exact ⟨x, hxP, hgone, (hindex _).trans hi.symm, rfl⟩
    · obtain ⟨p, hp, hpg, hpi, hrp⟩ := h.slots i r hr
      exact ⟨p, hsub hp, hpg, (hindex _).trans hpi, hrp⟩
  · obtain rfl | hq := hq
    · exact ⟨false, hnew⟩
    · obtain ⟨d, hd⟩ := h.held q hq hqg
      exact ⟨d, (hold q hq d).mpr hd⟩
  · obtain rfl | hq := hq
    · exact absurd hqh hnot
    · obtain ⟨qs, hqs⟩ := h.opened q hq ((hold q hq true).mp hqh)
      exact ⟨qs, hqs.mono hsub⟩
  · obtain ⟨c, hc, hfc⟩ := h.sound f hf
    exact ⟨c, hc.mono hsub, hfc⟩
  · rw [hdone] at hed
    exact h.complete e es (hwhole e es he hed) hed
  · obtain rfl | heP := he.segment.subset e List.mem_cons_self
    · exact absurd heh hnot
    · have hes := (hold e heP true).mp heh
      exact h.full e es (hwhole e es he ⟨heP, .inr hes⟩) hes

/-- **`InsertPacket`** of a packet of the window. -/
theorem insertPacket_assembled (hS : S.CountsSteps) (hmax : 2 * W < 2 ^ b)
    (hw : Windowed a base W (insert x P)) (hx : x ∉ P) (hcalm : Calm a b base W s)
    (h : Assembled a P C R s) (hclosed : (frames (2 ^ a)).ClosedBut P ∅ (done P C s)) :
    ∃ C', Calm a b base W (s.next S (.insertPacket x)) ∧
      Assembled a (insert x P) C' (R ++ (s.perform S (.insertPacket x)).1)
        (s.next S (.insertPacket x)) ∧
      (frames (2 ^ a)).ClosedBut (insert x P) ∅
        (done (insert x P) C' (s.next S (.insertPacket x))) := by
  have hxP : x ∈ insert x P := Set.mem_insert x P
  obtain ⟨t, ht, hcalmt, htslot⟩ := hcalm.accept hS hmax (hw.within x hxP)
  have hsame : t.size = s.size := hcalmt.size.trans hcalm.size.symm
  have hindex := index_congr hsame
  have hfree : t.makeRoom x.seqNum = .free t := by
    have hempty : t.slot (t.index x.seqNum) = none := by
      rw [htslot, hindex]
      cases hslot : s.slot (s.index x.seqNum) with
      | none => rfl
      | some r =>
        obtain ⟨p, hp, _, hi, _⟩ := h.slots _ r hslot
        obtain rfl := hw.index_inj hcalm.size (Set.mem_insert_of_mem x hp) hxP hi
        exact absurd hp hx
    rw [makeRoom, hempty]
  have hperform : s.perform S (.insertPacket x) = (t.arrived S x).findFrames S x.seqNum := by
    simp only [perform, insertPacket, ht, hfree]
    rfl
  obtain ⟨newest, missing, harrived⟩ := arrived_eq (S := S) t x
  obtain ⟨harrive, hdone⟩ := h.arrive (u := t.arrived S x) hw hx hcalm.size
    (by rw [harrived]; exact hsame) (fun i => by
      rw [harrived, ← htslot, ← hindex]
      exact setSlot_slot t _ _ i)
  have hcalmed : Calm a b base W (t.arrived S x) := by
    rw [harrived]
    refine ⟨hcalmt.size, hcalmt.maxSize, hcalmt.notCleared, hcalmt.firstSeqNum, ?_⟩
    rw [hcalmt.receivedPadding, OrderedKeys.fromLower_nil]
  rw [next, hperform]
  refine findFrames_assembled hw hcalmed harrive (fun p hp hpn hfrom => ?_) rfl
  rw [hdone] at hfrom ⊢
  obtain rfl | hpP := hp
  · exact absurd rfl hpn
  · refine hclosed p hpP (Set.notMem_empty p) (hfrom.imp_right ?_)
    rintro ⟨q, _, hl, hqd⟩
    exact ⟨q, hqd.1, hl, hqd⟩

/-! ## A run -/

variable (S) in
/-- The frames returned while these packets are inserted, in this order. -/
def framesReturned (s : PacketBuffer) (packets : List Packet) : List (List Moved) :=
  (Runs.history (next S) s (packets.map .insertPacket)).flatMap fun e => (e.1.perform S e.2).1

theorem framesReturned_cons (s : PacketBuffer) (x : Packet) (packets : List Packet) :
    s.framesReturned S (x :: packets) = (s.perform S (.insertPacket x)).1 ++
      (s.next S (.insertPacket x)).framesReturned S packets := rfl

theorem run_assembled (hS : S.CountsSteps) (hmax : 2 * W < 2 ^ b) (packets : List Packet) :
    ∀ {P : Set Packet} {C : List (List Packet)} {R : List (List Moved)} {s : PacketBuffer},
      Windowed a base W (P ∪ {p | p ∈ packets}) → packets.Nodup → (∀ p ∈ packets, p ∉ P) →
      Calm a b base W s → Assembled a P C R s →
      (frames (2 ^ a)).ClosedBut P ∅ (done P C s) →
      ∃ C' t, Assembled a (P ∪ {p | p ∈ packets}) C' (R ++ s.framesReturned S packets) t ∧
        (frames (2 ^ a)).ClosedBut (P ∪ {p | p ∈ packets}) ∅
          (done (P ∪ {p | p ∈ packets}) C' t) := by
  induction packets with
  | nil =>
    intro P C R s _ _ _ _ h hclosed
    have hsame : P ∪ {p | p ∈ ([] : List Packet)} = P := by simp
    rw [hsame]
    refine ⟨C, s, ?_, hclosed⟩
    rw [show s.framesReturned S [] = [] from rfl, List.append_nil]
    exact h
  | cons x packets ih =>
    intro P C R s hw hnodup hnew hcalm h hclosed
    obtain ⟨hxp, hnodup⟩ := List.nodup_cons.mp hnodup
    have hsame : P ∪ {p | p ∈ x :: packets} = insert x P ∪ {p | p ∈ packets} := by
      ext p
      simp only [Set.mem_union, Set.mem_ofPred_eq, List.mem_cons, Set.mem_insert_iff]
      exact or_left_comm.trans or_assoc.symm
    rw [hsame] at hw ⊢
    obtain ⟨C₁, hcalm₁, h₁, hclosed₁⟩ := insertPacket_assembled hS hmax
      (hw.mono Set.subset_union_left) (hnew x List.mem_cons_self) hcalm h hclosed
    rw [framesReturned_cons, ← List.append_assoc]
    refine ih hw hnodup (fun p hp hpP => ?_) hcalm₁ h₁ hclosed₁
    obtain rfl | hpP := hpP
    · exact hxp hp
    · exact hnew p (List.mem_cons_of_mem x hp) hpP

/-- **The frames returned** are the whole segments, when nothing would go on. -/
theorem assembled_frames (h : Assembled a P C R s)
    (hclosed : (frames (2 ^ a)).ClosedBut P ∅ (done P C s)) (frame : List Moved) :
    frame ∈ R ↔ ∃ c, (frames (2 ^ a)).Whole P c ∧ frame = frameOf c := by
  refine ⟨h.sound frame, ?_⟩
  rintro ⟨c, hc, rfl⟩
  obtain ⟨e, es, rfl, _⟩ := hc.final
  exact h.complete e es hc (hc.segment.closed hclosed (fun p _ => Set.notMem_empty p) e
    List.mem_cons_self)

theorem assembled_create (a b : ℕ) : Assembled a ∅ [] [] (.create (2 ^ a) (2 ^ b)) where
  slots _ _ h := by cases h
  held _ h := absurd h (Set.notMem_empty _)
  whole _ h := absurd h List.not_mem_nil
  opened _ h := absurd h (Set.notMem_empty _)
  sound _ h := absurd h List.not_mem_nil
  complete _ _ _ h := absurd h.1 (Set.notMem_empty _)
  full _ _ h := absurd (h.segment.subset _ List.mem_cons_self) (Set.notMem_empty _)

theorem framesReturned_iff (hS : S.CountsSteps) (hmax : 2 * W < 2 ^ b) {packets : List Packet}
    (hw : Windowed a base W {p | p ∈ packets}) (hnodup : packets.Nodup) (frame : List Moved) :
    frame ∈ (create (2 ^ a) (2 ^ b)).framesReturned S packets ↔
      ∃ c, (frames (2 ^ a)).Whole {p | p ∈ packets} c ∧ frame = frameOf c := by
  have hsame : (∅ : Set Packet) ∪ {p | p ∈ packets} = {p | p ∈ packets} := Set.empty_union _
  obtain ⟨C', t, h, hclosed⟩ := run_assembled hS hmax packets (C := []) (R := [])
    (by rwa [hsame]) hnodup (fun p _ => Set.notMem_empty p)
    ⟨rfl, rfl, rfl, fun hno => (by cases hno), rfl⟩ (assembled_create a b)
    (fun p hp => absurd hp (Set.notMem_empty p))
  rw [hsame] at h hclosed
  exact assembled_frames h hclosed frame

end PacketBuffer
open PacketBuffer

/-- **The frames do not depend on the order of arrival**, for packets of a window that the buffer has
room for. -/
theorem frames_any_order (S : SeqNumOps) (hS : S.CountsSteps) (a b : ℕ)
    (packets packets' : List Packet) (hperm : packets.Perm packets')
    (hgeneric : ∀ p ∈ packets, ¬(p.isH264 = true ∧ p.isGeneric = false))
    (hdistinct : (packets.map Packet.seqNum).Nodup) (base : UInt16) (W : ℕ)
    (hwindow : ∀ p ∈ packets, (p.seqNum - base).toNat < W) (hstart : W ≤ 2 ^ a)
    (hmax : 2 * W < 2 ^ b) (frame : List Moved) :
    frame ∈ (create (2 ^ a) (2 ^ b)).framesReturned S packets ↔
      frame ∈ (create (2 ^ a) (2 ^ b)).framesReturned S packets' := by
  have hw : Windowed a base W {p | p ∈ packets} :=
    ⟨hwindow, fun p hp q hq => List.inj_on_of_nodup_map hdistinct hp hq,
      fun p hp => by simpa using hgeneric p hp, hstart⟩
  have hsame : {p | p ∈ packets} = {p | p ∈ packets'} := Set.ext fun _ => hperm.mem_iff
  have hnodup := hdistinct.of_map
  rw [framesReturned_iff hS hmax hw hnodup, hsame,
    framesReturned_iff hS hmax (hsame ▸ hw) (hperm.nodup_iff.mp hnodup)]

theorem frames_any_order_wrapped :
    [⟨65535, some { vp8Packet 65535 100 true false with continuous := true }⟩,
      ⟨0, some { vp8Packet 0 100 false true with continuous := true }⟩] ∈
    (create 16 64).framesReturned .halfRing
      [vp8Packet 0 100 false true, vp8Packet 65535 100 true false] :=
  (frames_any_order .halfRing (fun _ _ => rfl) 4 6
    [vp8Packet 65535 100 true false, vp8Packet 0 100 false true]
    [vp8Packet 0 100 false true, vp8Packet 65535 100 true false] (.swap _ _ _) (by decide)
    (by decide) 65535 2 (by decide) (by decide) (by decide) _).mp (by decide +kernel)

end WebrtcTrace.Packets
