import WebrtcTrace.Packets.FrameSegments

/-! # The buffer finds the frames of its packets

Packets of a window arrive in a buffer that never has to clear or expand. `Assembled` relates the
buffer to the set of packets that have arrived: each one is in its slot or in a frame moved out, a
continuous one has a segment, and the frames returned are those whose last packet is done. The loop of
`FindFrames` closes the set of packets that are done, one number after the other
(`findFramesLoop_assembled`).
-/

namespace WebrtcTrace.Packets
set_option autoImplicit false

namespace PacketBuffer
variable {S : SeqNumOps} {a b : ℕ} {base : UInt16} {W : ℕ} {P : Set Packet}
  {C : List (List Packet)} {R : List (List Moved)} {s t : PacketBuffer} {p q : Packet}
  {ps : List Packet} {n : UInt16}

/-- The packet is in its slot, with this continuity flag. -/
def Holds (s : PacketBuffer) (p : Packet) (cont : Bool) : Prop :=
  s.slot (s.index p.seqNum) = some { p with continuous := cont }

/-- The buffer has its first size and no padding, and its first number is one of the window. -/
structure Calm (a b : ℕ) (base : UInt16) (W : ℕ) (s : PacketBuffer) : Prop where
  size : s.size = 2 ^ a
  maxSize : s.maxSize = 2 ^ b
  notCleared : s.isClearedToFirstSeqNum = false
  firstSeqNum : s.firstPacketReceived = true → (s.firstSeqNum - base).toNat < W
  receivedPadding : s.receivedPadding = []

/-- The packets of `P` are in their slots, but for those of the segments `C`. -/
structure Holding (a : ℕ) (P : Set Packet) (C : List (List Packet)) (s : PacketBuffer) : Prop where
  slots : ∀ i q, s.slot i = some q → ∃ p ∈ P, p ∉ C.flatten ∧ s.index p.seqNum = i ∧
    q = { p with continuous := q.continuous }
  held : ∀ p ∈ P, p ∉ C.flatten → ∃ cont, s.Holds p cont
  whole : ∀ c ∈ C, (frames (2 ^ a)).Whole P c
  opened : ∀ p ∈ P, s.Holds p true → ∃ ps, (frames (2 ^ a)).Segment P (p :: ps)

/-- The packets that are continuous or have left in a frame. -/
def done (P : Set Packet) (C : List (List Packet)) (s : PacketBuffer) : Set Packet :=
  {p | p ∈ P ∧ (p ∈ C.flatten ∨ s.Holds p true)}

/-- `R` is what has been returned. A frame of 2^16 packets stays in the buffer. -/
structure Assembled (a : ℕ) (P : Set Packet) (C : List (List Packet)) (R : List (List Moved))
    (s : PacketBuffer) : Prop extends Holding a P C s where
  sound : ∀ f ∈ R, ∃ c, (frames (2 ^ a)).Whole P c ∧ f = frameOf c
  complete : ∀ e ps, (frames (2 ^ a)).Whole P (e :: ps) → e ∈ done P C s → frameOf (e :: ps) ∈ R
  full : ∀ e ps, (frames (2 ^ a)).Whole P (e :: ps) → s.Holds e true → (e :: ps).length = 65536

/-! ## What a slot holds -/

theorem holds_unique {c d : Bool} (h : s.Holds p c) (h' : s.Holds p d) : c = d := by
  have hsame := Option.some.inj (h.symm.trans h')
  exact congrArg Packet.continuous hsame

theorem holds_setSlot (hw : Windowed a base W P) (hsize : s.size = 2 ^ a) (hp : p ∈ P) (hq : q ∈ P)
    {e : Option Packet} {c : Bool} : (s.setSlot (s.index p.seqNum) e).Holds q c ↔
      if q = p then e = some { q with continuous := c } else s.Holds q c := by
  rw [Holds, setSlot_index, setSlot_slot]
  by_cases hqp : q = p
  · rw [if_pos hqp, if_pos (by rw [hqp])]
  · rw [if_neg hqp, if_neg fun hi => hqp (hw.index_inj hsize hq hp hi)]
    rfl

namespace Holding
variable (hw : Windowed a base W P) (hsize : s.size = 2 ^ a) (h : Holding a P C s)
include hw h

theorem gone_link (hp : p ∈ P) (hq : q ∈ P) (hl : Continues (2 ^ a) p q) :
    p ∈ C.flatten ↔ q ∈ C.flatten := by
  rw [List.mem_flatten, List.mem_flatten]
  refine exists_congr fun c => and_congr_right fun hc => ?_
  exact (h.whole c hc).link_iff (hw.lawful _) hp hq hl

omit hw in
theorem segment_of_done (hp : p ∈ done P C s) : ∃ ps, (frames (2 ^ a)).Segment P (p :: ps) := by
  obtain ⟨hpP, hgone | hheld⟩ := hp
  · obtain ⟨c, hc, hpc⟩ := List.mem_flatten.mp hgone
    obtain ⟨ps, hps, _⟩ := (h.whole c hc).segment.suffix hpc
    exact ⟨ps, hps⟩
  · exact h.opened p hpP hheld

/-- Below a packet that is still here, its segment is done already, and none of it has left. -/
theorem segment_held (hp : p ∈ P) (hgone : p ∉ C.flatten)
    (hseg : (frames (2 ^ a)).Segment P (p :: ps))
    (hclosed : (frames (2 ^ a)).ClosedBut P {q | q.seqNum = p.seqNum} (done P C s)) :
    ∀ q ∈ p :: ps, q ≠ p → s.Holds q true := by
  have hL := hw.lawful (2 ^ a)
  intro q hq hqp
  obtain ⟨_, hqgone | hqh⟩ :=
    hseg.closed_below hL hclosed (fun x hx => hw.distinct x hx p hp) q hq hqp
  · obtain ⟨d, hd, hqd⟩ := List.mem_flatten.mp hqgone
    have hpd : p ∉ d := fun hpd => hgone (List.mem_flatten.mpr ⟨d, hd, hpd⟩)
    exact absurd hqd (hseg.avoids hL (h.whole d hd) hpd q hq)
  · exact hqh

include hsize

/-- Where the loop stops, nothing would have to go on. -/
theorem blocked (hn : s.potentialNewFrame n = false) (hp : p ∈ P) (hpn : p.seqNum = n)
    (hfrom : p.isFirstPacketInFrame = true ∨ ∃ q ∈ P, Continues (2 ^ a) q p ∧ q ∈ done P C s) :
    p ∈ done P C s := by
  refine ⟨hp, ?_⟩
  by_contra hnot
  obtain ⟨hgone, hcont⟩ := not_or.mp hnot
  obtain ⟨c, hc⟩ := h.held p hp hgone
  refine Bool.eq_false_iff.mp hn (potentialNewFrame_iff.mpr
    ⟨{ p with continuous := c }, hpn ▸ hc, hpn, ?_⟩)
  refine hfrom.imp_right ?_
  rintro ⟨q, hq, hl, _, hqgone | hqheld⟩
  · exact absurd ((h.gone_link hw hq hp hl).mp hqgone) hgone
  · refine ⟨{ q with continuous := true }, ?_, ?_, hl.timestamp, rfl⟩
    · rw [← hpn, hl.slot s hsize]
      exact hqheld
    · rw [← hpn, hl.seqNum]

end Holding

/-- Where the loop goes on, there is a packet with a segment. -/
theorem Assembled.opens (hw : Windowed a base W P) (hsize : s.size = 2 ^ a)
    (h : Assembled a P C R s) (hn : s.potentialNewFrame n = true) :
    ∃ p ∈ P, p.seqNum = n ∧ p ∉ C.flatten ∧ ∃ ps, (frames (2 ^ a)).Segment P (p :: ps) := by
  have hL := hw.lawful (2 ^ a)
  obtain ⟨p', hp', hpn, hfrom⟩ := potentialNewFrame_iff.mp hn
  obtain ⟨p, hp, hgone, _, hpp⟩ := h.slots _ _ hp'
  have hseq : p'.seqNum = p.seqNum := by rw [hpp]
  have hfirst : p'.isFirstPacketInFrame = p.isFirstPacketInFrame := by rw [hpp]
  have htime : p'.timestamp = p.timestamp := by rw [hpp]
  rw [hseq] at hpn
  rw [hfirst, htime] at hfrom
  refine ⟨p, hp, hpn, hgone, ?_⟩
  cases hf : p.isFirstPacketInFrame with
  | true => exact ⟨[], .root hp hf⟩
  | false =>
    obtain hyes | ⟨q', hq', hqn, hqt, hqc⟩ := hfrom
    · exact absurd (hf.symm.trans hyes) (by decide)
    obtain ⟨q, hq, _, hqi, hqq⟩ := h.slots _ _ hq'
    have hqseq : q'.seqNum = q.seqNum := by rw [hqq]
    have hqtime : q'.timestamp = q.timestamp := by rw [hqq]
    have hheld : s.Holds q true := by
      rw [Holds, hqi, hq', hqq, hqc]
    obtain ⟨qs, hqs⟩ := h.opened q hq hheld
    rw [hqseq] at hqn
    rw [hqtime] at hqt
    have hl : q.isLastPacketInFrame = false → Continues (2 ^ a) q p := by
      intro hlast
      refine ⟨hpn.trans hqn.symm, hqt, hlast, hf, fun u hu => ?_⟩
      have hsame : u.size = s.size := hu.trans hsize.symm
      rw [prevIndex_congr hsame, index_congr hsame, index_congr hsame]
      exact hpn ▸ hqi.symm
    cases hlast : q.isLastPacketInFrame with
    | false => exact ⟨q :: qs, .link hqs hp (hl hlast)⟩
    | true =>
      -- the frame of `q` fills the ring, so the packet after `q` is its first
      have hlen := h.full q qs ⟨hqs, q, qs, rfl, hlast⟩ hheld
      obtain ⟨x, hx, hxp⟩ := segment_fills hqs hlen p.seqNum
      obtain rfl := hw.distinct x (hqs.subset x hx) p hp hxp
      obtain hroot | ⟨y, hy, hyx⟩ := hqs.root_or_link hx
      · exact absurd (hf.symm.trans hroot) (by decide)
      · have hyq : y = q := by
          refine hw.distinct y (hqs.subset y hy) q hq ?_
          have hstep := hyx.seqNum
          grind
        rw [hyq] at hyx
        exact absurd (hlast.symm.trans hyx.inner) (by decide)

/-! ## A packet becomes continuous -/

theorem setContinuous_eq {c : Bool} (h : s.Holds p c) :
    s.setContinuous p.seqNum =
      s.setSlot (s.index p.seqNum) (some { p with continuous := true }) := by
  rw [setContinuous, h]
  rfl

theorem holds_setContinuous (hw : Windowed a base W P) (hsize : s.size = 2 ^ a) (hp : p ∈ P)
    (hq : q ∈ P) {c d : Bool} (h : s.Holds p c) :
    (s.setContinuous p.seqNum).Holds q d ↔ if q = p then d = true else s.Holds q d := by
  rw [setContinuous_eq h, holds_setSlot hw hsize hp hq]
  by_cases hqp : q = p
  · rw [if_pos hqp, if_pos hqp, hqp]
    refine ⟨fun heq => ?_, fun hd => by rw [hd]⟩
    exact (congrArg Packet.continuous (Option.some.inj heq)).symm
  · rw [if_neg hqp, if_neg hqp]

theorem Holding.setContinuous (hw : Windowed a base W P) (hsize : s.size = 2 ^ a)
    (h : Holding a P C s) (hp : p ∈ P) (hgone : p ∉ C.flatten)
    (hseg : (frames (2 ^ a)).Segment P (p :: ps)) :
    Holding a P C (s.setContinuous p.seqNum) ∧
      done P C (s.setContinuous p.seqNum) = insert p (done P C s) := by
  obtain ⟨c, hc⟩ := h.held p hp hgone
  have hholds := fun {q} (hq : q ∈ P) {d} =>
    holds_setContinuous hw hsize hp hq hc (d := d)
  refine ⟨⟨fun i r hr => ?_, fun q hq hqg => ?_, h.whole, fun q hq hqh => ?_⟩, ?_⟩
  · rw [setContinuous_eq hc, setSlot_slot] at hr
    split_ifs at hr with hi
    · obtain rfl := Option.some.inj hr
      exact ⟨p, hp, hgone, hi.symm, rfl⟩
    · exact h.slots i r hr
  · by_cases hqp : q = p
    · exact ⟨true, (hholds hq).mpr (by rw [if_pos hqp])⟩
    · obtain ⟨d, hd⟩ := h.held q hq hqg
      exact ⟨d, (hholds hq).mpr (by rwa [if_neg hqp])⟩
  · by_cases hqp : q = p
    · exact ⟨ps, hqp ▸ hseg⟩
    · have hold := (hholds hq).mp hqh
      rw [if_neg hqp] at hold
      exact h.opened q hq hold
  · ext q
    by_cases hqp : q = p
    · rw [hqp]
      exact ⟨fun _ => Set.mem_insert p _, fun _ => ⟨hp, .inr ((hholds hp).mpr (by rw [if_pos rfl]))⟩⟩
    · rw [Set.mem_insert_iff, or_iff_right hqp]
      refine and_congr_right fun hq => or_congr_right ?_
      rw [hholds hq, if_neg hqp]

/-! ## The last packet of a frame -/

/-- In generic mode the search finds the root of the segment. -/
theorem searchBack_segment (hsize : s.size = 2 ^ a) (frameTimestamp : UInt32) (k : ℕ) :
    ∀ {p : Packet} {ps : List Packet} {b : BackwardSearch}, (frames (2 ^ a)).Segment P (p :: ps) →
      (∀ q ∈ p :: ps, s.Holds q true) → (p :: ps).length ≤ k → b.isH264Descriptor = false →
      s.searchBack frameTimestamp k (s.index p.seqNum) b =
        some { b with
          startSeqNum := b.startSeqNum - UInt16.ofNat ps.length
          fullFrameFound := true } := by
  induction k with
  | zero =>
    intro p ps b _ _ hk _
    exact absurd hk (by simp)
  | succ k ih =>
    intro p ps b hseg hheld hk hb
    have hslot := hheld p List.mem_cons_self
    have hask : askGeneric (s.slot (s.index p.seqNum)) b = b := by
      rw [askGeneric, hb, Bool.false_and, ← hb]
    rw [searchBack, hask, hb, hslot]
    cases hseg with
    | root _ hr =>
      have hfirst : p.isFirstPacketInFrame = true := hr
      simp [hfirst]
    | link hs _ hl =>
      have hfirst : p.isFirstPacketInFrame = false := hl.later
      have hk0 : k ≠ 0 := by
        rintro rfl
        simp at hk
      have hread : ∀ entry, s.readHeader entry b = some b := by
        intro entry
        rw [readHeader, hb]
        rfl
      have hback := ih (b := { b with startSeqNum := b.startSeqNum - 1 }) hs
        (fun q hq => hheld q (List.mem_cons_of_mem p hq)) (Nat.le_of_succ_le_succ hk) hb
      simp only [hfirst, hread, hb, Bool.not_false, Bool.true_and, Option.all_some, Bool.false_and,
        Bool.false_eq_true, if_false, Option.bind_some, hk0, hl.slot s hsize]
      have hstart : ∀ k, b.startSeqNum - 1 - UInt16.ofNat k = b.startSeqNum - UInt16.ofNat (k + 1) := by
        intro k
        rw [SeqNums.ofNat_succ]
        grind
      rw [hstart] at hback
      simpa only [hb, List.length_cons] using hback

theorem moveOut_state (first last : UInt16) (k : ℕ) : ∀ (j : UInt16) (s : PacketBuffer),
    (moveOut first last k j s).2 = { s with slot := (moveOut first last k j s).2.slot } := by
  induction k with
  | zero => exact fun _ _ => rfl
  | succ k ih =>
    intro j s
    rw [moveOut]
    exact ih (j + 1) (s.setSlot (s.index j) none)

/-- Packets in a row are moved out of their slots, and nothing else is. -/
theorem moveOut_numbered (hw : Windowed a base W P) (first last : UInt16) {l : List Packet} :
    ∀ {j : UInt16} {s : PacketBuffer}, s.size = 2 ^ a → Numbered j l → (∀ p ∈ l, p ∈ P) → l.Nodup →
      (∀ p ∈ l, s.Holds p true ∧ p.isFirstPacketInFrame = (p.seqNum == first) ∧
        p.isLastPacketInFrame = (p.seqNum == last)) →
      (moveOut first last l.length j s).1 =
          (l.map fun p => ⟨p.seqNum, some { p with continuous := true }⟩) ∧
        ∀ i q, (moveOut first last l.length j s).2.slot i = some q ↔
          s.slot i = some q ∧ ∀ p ∈ l, s.index p.seqNum ≠ i := by
  induction l with
  | nil =>
    intro j s _ _ _ _ _
    refine ⟨rfl, fun i q => ?_⟩
    simp [moveOut]
  | cons p l ih =>
    intro j s hsize hnum hP hnodup hheld
    obtain ⟨rfl, hrest⟩ := hnum
    obtain ⟨hpl, hl⟩ := List.nodup_cons.mp hnodup
    obtain ⟨hp, hfirst, hlast⟩ := hheld p List.mem_cons_self
    have hpP := hP p List.mem_cons_self
    obtain ⟨hframe, hslots⟩ := ih (s := s.setSlot (s.index p.seqNum) none) hsize hrest
      (fun q hq => hP q (List.mem_cons_of_mem p hq)) hl (fun q hq => by
        have hqp : q ≠ p := fun h => hpl (h ▸ hq)
        obtain ⟨hqh, hqflags⟩ := hheld q (List.mem_cons_of_mem p hq)
        refine ⟨(holds_setSlot hw hsize hpP (hP q (List.mem_cons_of_mem p hq))).mpr ?_, hqflags⟩
        rwa [if_neg hqp])
    rw [List.length_cons, moveOut]
    refine ⟨?_, fun i q => ?_⟩
    · simp only [hframe, List.map_cons, List.cons.injEq, and_true]
      rw [hp, Option.map_some, ← hfirst, ← hlast]
    · simp only [hslots, setSlot_slot, setSlot_index, List.forall_mem_cons]
      by_cases hi : i = s.index p.seqNum
      · simp [hi]
      · rw [if_neg hi]
        exact and_congr_right fun _ => (and_iff_right fun h => hi h.symm).symm

/-- A segment leaves the buffer. -/
theorem Holding.leave {u : PacketBuffer} {c : List Packet} (hw : Windowed a base W P)
    (hsize : s.size = 2 ^ a) (h : Holding a P C s) (hc : (frames (2 ^ a)).Whole P c)
    (hheld : ∀ q ∈ c, s.Holds q true) (hu : u.size = s.size)
    (hslot : ∀ i q, u.slot i = some q ↔ s.slot i = some q ∧ ∀ p ∈ c, s.index p.seqNum ≠ i) :
    Holding a P (C ++ [c]) u ∧ done P (C ++ [c]) u = done P C s ∧
      ∀ q ∈ P, ∀ d, u.Holds q d ↔ s.Holds q d ∧ q ∉ c := by
  have hindex := index_congr hu
  have hholds : ∀ q ∈ P, ∀ d, u.Holds q d ↔ s.Holds q d ∧ q ∉ c := by
    intro q hq d
    rw [Holds, hindex, hslot]
    refine and_congr_right fun _ => ⟨fun hne hqc => hne q hqc rfl, fun hqc p hp hi => hqc ?_⟩
    rwa [← hw.index_inj hsize (hc.segment.subset p hp) hq hi]
  have hflat : (C ++ [c]).flatten = C.flatten ++ c := by
    rw [List.flatten_append, List.flatten_singleton]
  refine ⟨⟨fun i q hq => ?_, fun q hq hgone => ?_, fun d hd => ?_, fun q hq hqh => ?_⟩, ?_, hholds⟩
  · obtain ⟨hqs, hne⟩ := (hslot i q).mp hq
    obtain ⟨p, hp, hgone, hi, hqp⟩ := h.slots i q hqs
    refine ⟨p, hp, ?_, by rw [hindex, hi], hqp⟩
    rw [hflat, List.mem_append]
    exact not_or.mpr ⟨hgone, fun hpc => hne p hpc hi⟩
  · rw [hflat, List.mem_append] at hgone
    obtain ⟨hgone, hqc⟩ := not_or.mp hgone
    obtain ⟨d, hd⟩ := h.held q hq hgone
    exact ⟨d, (hholds q hq d).mpr ⟨hd, hqc⟩⟩
  · obtain hd | hd := List.mem_append.mp hd
    · exact h.whole d hd
    · rw [List.mem_singleton.mp hd]
      exact hc
  · exact h.opened q hq ((hholds q hq true).mp hqh).1
  · ext q
    refine and_congr_right fun hq => ?_
    rw [hflat, List.mem_append, hholds q hq]
    refine ⟨?_, ?_⟩
    · rintro ((hgone | hqc) | ⟨hqh, _⟩)
      · exact .inl hgone
      · exact .inr (hheld q hqc)
      · exact .inr hqh
    · rintro (hgone | hqh)
      · exact .inl (.inl hgone)
      · by_cases hqc : q ∈ c
        · exact .inl (.inr hqc)
        · exact .inr ⟨hqh, hqc⟩

/-- What the search found in generic mode is moved out. -/
theorem completeFrame_found (entry : Packet) (start : UInt16) {b : BackwardSearch}
    (hb : s.searchBack entry.timestamp s.size (s.index n)
      { startSeqNum := n, isH264Descriptor := entry.isH264 && !entry.isGeneric } = some b)
    (hdesc : b.isH264Descriptor = false) (hfull : b.fullFrameFound = true) :
    s.completeFrame S start n entry =
      let moved := moveOut b.startSeqNum n (n + 1 - b.startSeqNum).toNat b.startSeqNum s
      { state := { moved.2 with
          missingPackets := OrderedKeys.fromUpper S.descending n moved.2.missingPackets
          receivedPadding := OrderedKeys.eraseRange S.descending start n moved.2.receivedPadding }
        frame := some moved.1
        returns := false } := by
  simp only [completeFrame, hb, hdesc, hfull]
  rfl

/-- The frame is moved out and its packets leave, unless it has 2^16 of them. -/
theorem moveOut_whole (hw : Windowed a base W P) (hsize : s.size = 2 ^ a) (h : Holding a P C s)
    (hc : (frames (2 ^ a)).Whole P (p :: ps)) (hheld : ∀ q ∈ p :: ps, s.Holds q true)
    {first : UInt16} (hfirst : first = p.seqNum - UInt16.ofNat ps.length)
    {moved : List Moved × PacketBuffer}
    (hmoved : moved = moveOut first p.seqNum ((p :: ps).length % 65536) first s) :
    moved.1 = frameOf (p :: ps) ∧ ∃ C', Holding a P C' moved.2 ∧ done P C' moved.2 = done P C s ∧
      ∀ e ∈ P, moved.2.Holds e true → s.Holds e true ∧ (e = p → (p :: ps).length = 65536) := by
  obtain ⟨_, hlen⟩ := hw.length_le hc.segment
  obtain hlt | heq := Nat.lt_or_eq_of_le hlen
  · rw [Nat.mod_eq_of_lt hlt, ← List.length_reverse] at hmoved
    obtain ⟨hframe, hslots⟩ := moveOut_numbered hw first p.seqNum (s := s) hsize
      (hfirst ▸ numbered_segment hc.segment)
      (fun q hq => hc.segment.subset q (List.mem_reverse.mp hq))
      (List.nodup_reverse.mpr (hc.segment.nodup (hw.lawful _)))
      (fun q hq => by
        rw [hfirst]
        exact ⟨hheld q (List.mem_reverse.mp hq), hw.flags hc q (List.mem_reverse.mp hq)⟩)
    rw [← hmoved] at hframe hslots
    have hsame : moved.2.size = s.size := by rw [hmoved, moveOut_state]
    obtain ⟨hholding, hdone, hholds⟩ := h.leave hw hsize hc hheld hsame (by
      simpa only [List.mem_reverse] using hslots)
    refine ⟨?_, C ++ [p :: ps], hholding, hdone, fun e he heh => ?_⟩
    · rw [hframe, frameOf, Nat.mod_eq_of_lt hlt, List.take_of_length_le (by simp)]
    · obtain ⟨hes, hec⟩ := (hholds e he true).mp heh
      exact ⟨hes, fun hep => absurd (hep ▸ List.mem_cons_self) hec⟩
  · rw [heq] at hmoved
    rw [hmoved]
    refine ⟨?_, C, h, rfl, fun e _ heh => ⟨heh, fun _ => heq⟩⟩
    rw [frameOf, heq]
    rfl

/-- **The last packet of a frame** leads to its frame, and changes nothing about what is done. -/
theorem completeFrame_whole (hw : Windowed a base W P) (hcalm : Calm a b base W s)
    (h : Holding a P C s) (start : UInt16) (hc : (frames (2 ^ a)).Whole P (p :: ps))
    (hheld : ∀ q ∈ p :: ps, s.Holds q true) :
    ∃ u C', s.completeFrame S start p.seqNum { p with continuous := true } =
        ⟨u, some (frameOf (p :: ps)), false⟩ ∧ Calm a b base W u ∧ Holding a P C' u ∧
      done P C' u = done P C s ∧
      ∀ e ∈ P, u.Holds e true → s.Holds e true ∧ (e = p → (p :: ps).length = 65536) := by
  have hgeneric := hw.generic p (hc.segment.subset p List.mem_cons_self)
  have hsearch := searchBack_segment hcalm.size p.timestamp s.size hc.segment hheld
    (by rw [hcalm.size]; exact (hw.length_le hc.segment).1.trans hw.room)
    (b := { startSeqNum := p.seqNum, isH264Descriptor := p.isH264 && !p.isGeneric }) hgeneric
  have hcount : (p.seqNum + 1 - (p.seqNum - UInt16.ofNat ps.length)).toNat =
      (p :: ps).length % 65536 := by
    have hsum : p.seqNum + 1 - (p.seqNum - UInt16.ofNat ps.length) =
        UInt16.ofNat (ps.length + 1) := by
      rw [SeqNums.ofNat_succ]
      grind
    rw [hsum, List.length_cons]
    simp
  have hfound := completeFrame_found (S := S) { p with continuous := true } start hsearch hgeneric
    rfl
  dsimp only at hfound
  rw [hcount] at hfound
  have hstate := moveOut_state (p.seqNum - UInt16.ofNat ps.length) p.seqNum
    ((p :: ps).length % 65536) (p.seqNum - UInt16.ofNat ps.length) s
  generalize hmoved : moveOut (p.seqNum - UInt16.ofNat ps.length) p.seqNum
    ((p :: ps).length % 65536) (p.seqNum - UInt16.ofNat ps.length) s = moved at hfound hstate
  obtain ⟨hframe, C', hholding, hdone, hlast⟩ :=
    moveOut_whole hw hcalm.size h hc hheld rfl hmoved.symm
  rw [hframe] at hfound
  refine ⟨_, C', hfound, ?_, ⟨hholding.slots, hholding.held, hholding.whole, hholding.opened⟩,
    hdone, hlast⟩
  rw [hstate]
  refine ⟨hcalm.size, hcalm.maxSize, hcalm.notCleared, hcalm.firstSeqNum, ?_⟩
  rw [hcalm.receivedPadding, OrderedKeys.eraseRange_nil]

/-! ## The loop -/

theorem findFramesLoop_blocked (hcalm : Calm a b base W s) (hn : s.potentialNewFrame n = false)
    (start : UInt16) (k : ℕ) : findFramesLoop S start (k + 1) n s = ([], s) := by
  rw [findFramesLoop, hcalm.receivedPadding, OrderedKeys.contains_nil, if_neg Bool.false_ne_true, hn]
  rfl

theorem findFramesLoop_inner (hcalm : Calm a b base W s) (hn : s.potentialNewFrame n = true)
    {entry : Packet} (hslot : (s.setContinuous n).slot ((s.setContinuous n).index n) = some entry)
    (hlast : entry.isLastPacketInFrame = false) (start : UInt16) (k : ℕ) :
    findFramesLoop S start (k + 1) n s =
      findFramesLoop S start k (n + 1) (s.setContinuous n) := by
  rw [findFramesLoop, hcalm.receivedPadding, OrderedKeys.contains_nil, if_neg Bool.false_ne_true, hn]
  simp only [Bool.not_true, Bool.false_eq_true, if_false, hslot, Option.filter_some, hlast]

theorem findFramesLoop_last (hcalm : Calm a b base W s) (hn : s.potentialNewFrame n = true)
    {entry : Packet} (hslot : (s.setContinuous n).slot ((s.setContinuous n).index n) = some entry)
    (hlast : entry.isLastPacketInFrame = true) {start : UInt16} {u : PacketBuffer}
    {frame : List Moved}
    (hframe : (s.setContinuous n).completeFrame S start n entry = ⟨u, some frame, false⟩) (k : ℕ) :
    findFramesLoop S start (k + 1) n s =
      (frame :: (findFramesLoop S start k (n + 1) u).1, (findFramesLoop S start k (n + 1) u).2) := by
  rw [findFramesLoop, hcalm.receivedPadding, OrderedKeys.contains_nil, if_neg Bool.false_ne_true, hn]
  simp only [Bool.not_true, Bool.false_eq_true, if_false, hslot, Option.filter_some, hlast, if_true,
    hframe, Option.toList_some, List.singleton_append]

/-- **One round of the loop** makes the packet of its number done, and returns its frame if it is the
last one of it. -/
theorem Assembled.round (hw : Windowed a base W P) (hcalm : Calm a b base W s)
    (h : Assembled a P C R s)
    (hclosed : (frames (2 ^ a)).ClosedBut P {p | p.seqNum = n} (done P C s))
    (hn : s.potentialNewFrame n = true) (start : UInt16) :
    ∃ p ∈ P, p.seqNum = n ∧ ∃ u C' F, Calm a b base W u ∧ Assembled a P C' (R ++ F) u ∧
      done P C' u = insert p (done P C s) ∧
      ∀ k, findFramesLoop S start (k + 1) n s =
        (F ++ (findFramesLoop S start k (n + 1) u).1, (findFramesLoop S start k (n + 1) u).2) := by
  have hL := hw.lawful (2 ^ a)
  obtain ⟨p, hp, rfl, hgone, ps, hseg⟩ := h.opens hw hcalm.size hn
  obtain ⟨c, hc⟩ := h.held p hp hgone
  obtain ⟨hholding, hdone⟩ := h.toHolding.setContinuous hw hcalm.size hp hgone hseg
  have hholds := fun {q} (hq : q ∈ P) {d} =>
    holds_setContinuous hw hcalm.size hp hq hc (d := d)
  have hslot : (s.setContinuous p.seqNum).Holds p true := (hholds hp).mpr (by rw [if_pos rfl])
  have hcalm' : Calm a b base W (s.setContinuous p.seqNum) :=
    ⟨hcalm.size, hcalm.maxSize, hcalm.notCleared, hcalm.firstSeqNum, hcalm.receivedPadding⟩
  refine ⟨p, hp, rfl, ?_⟩
  cases hlast : p.isLastPacketInFrame with
  | false =>
    have hno : ∀ {qs}, ¬(frames (2 ^ a)).Whole P (p :: qs) := by
      rintro qs ⟨_, _, _, heq, hf⟩
      obtain ⟨rfl, _⟩ := List.cons.inj heq
      exact absurd (hlast.symm.trans hf) (by decide)
    refine ⟨_, C, [], hcalm', ⟨hholding, ?_, fun e es he hed => ?_, fun e es he heh => ?_⟩, hdone,
      findFramesLoop_inner hcalm hn hslot hlast start⟩
    · rw [List.append_nil]
      exact h.sound
    · rw [List.append_nil]
      rw [hdone] at hed
      obtain rfl | hed := hed
      · exact absurd he hno
      · exact h.complete e es he hed
    · by_cases hep : e = p
      · exact absurd (hep ▸ he) hno
      · have hold := (hholds (he.segment.subset e List.mem_cons_self)).mp heh
        rw [if_neg hep] at hold
        exact h.full e es he hold
  | true =>
    have hwhole : (frames (2 ^ a)).Whole P (p :: ps) := ⟨hseg, p, ps, rfl, hlast⟩
    have hheld : ∀ q ∈ p :: ps, (s.setContinuous p.seqNum).Holds q true := by
      intro q hq
      rw [hholds (hseg.subset q hq)]
      split_ifs with hqp
      · rfl
      · exact h.toHolding.segment_held hw hp hgone hseg hclosed q hq hqp
    have hsame : ∀ {qs}, (frames (2 ^ a)).Whole P (p :: qs) → qs = ps :=
      fun hqs => hqs.segment.unique hL hseg
    obtain ⟨u, C', hcomplete, hcalmu, hholdingu, hdoneu, hlastu⟩ :=
      completeFrame_whole (S := S) hw hcalm' hholding start hwhole hheld
    refine ⟨u, C', [frameOf (p :: ps)], hcalmu,
      ⟨hholdingu, fun f hf => ?_, fun e es he hed => ?_, fun e es he heh => ?_⟩, hdoneu.trans hdone,
      findFramesLoop_last hcalm hn hslot hlast hcomplete⟩
    · obtain hf | hf := List.mem_append.mp hf
      · exact h.sound f hf
      · exact ⟨p :: ps, hwhole, List.mem_singleton.mp hf⟩
    · rw [hdoneu, hdone] at hed
      obtain rfl | hed := hed
      · rw [hsame he]
        exact List.mem_append_right _ List.mem_cons_self
      · exact List.mem_append_left _ (h.complete e es he hed)
    · have heP := he.segment.subset e List.mem_cons_self
      obtain ⟨hes, hlen⟩ := hlastu e heP heh
      by_cases hep : e = p
      · subst hep
        rw [hsame he]
        exact hlen rfl
      · rw [hholds heP, if_neg hep] at hes
        exact h.full e es he hes

/-- The loop closes the set of the packets that are done, but for the number it has come to when it has
used all its rounds. -/
theorem findFramesLoop_assembled (hw : Windowed a base W P) (start : UInt16) (k : ℕ) :
    ∀ {n : UInt16} {s : PacketBuffer} {C : List (List Packet)} {R : List (List Moved)}
      {out : List (List Moved) × PacketBuffer}, Calm a b base W s → Assembled a P C R s →
      (frames (2 ^ a)).ClosedBut P {p | p.seqNum = n} (done P C s) →
      out = findFramesLoop S start k n s →
      ∃ C', Calm a b base W out.2 ∧ Assembled a P C' (R ++ out.1) out.2 ∧
        done P C s ⊆ done P C' out.2 ∧
        ((frames (2 ^ a)).ClosedBut P ∅ (done P C' out.2) ∨
          (frames (2 ^ a)).ClosedBut P {p | p.seqNum = n + UInt16.ofNat k} (done P C' out.2) ∧
            ∀ i < k, ∃ p ∈ done P C' out.2, p.seqNum = n + UInt16.ofNat i) := by
  induction k with
  | zero =>
    rintro n s C R _ hcalm h hclosed rfl
    refine ⟨C, hcalm, ?_, subset_rfl, .inr ⟨?_, fun i hi => (by cases hi)⟩⟩
    · rw [findFramesLoop, List.append_nil]
      exact h
    · rw [SeqNums.add_zero]
      exact hclosed
  | succ k ih =>
    rintro n s C R _ hcalm h hclosed rfl
    cases hn : s.potentialNewFrame n with
    | false =>
      rw [findFramesLoop_blocked hcalm hn]
      refine ⟨C, hcalm, ?_, subset_rfl, .inl fun p hp _ hfrom => ?_⟩
      · rw [List.append_nil]
        exact h
      · by_cases hpn : p.seqNum = n
        · exact h.toHolding.blocked hw hcalm.size hn hp hpn hfrom
        · exact hclosed p hp hpn hfrom
    | true =>
      obtain ⟨p, hp, hpn, u, C₁, F, hcalmu, hu, hdone, hloop⟩ :=
        h.round (S := S) hw hcalm hclosed hn start
      have hnext : (frames (2 ^ a)).ClosedBut P {q | q.seqNum = n + 1} (done P C₁ u) := by
        rw [hdone]
        refine hclosed.advance (fun q hq hqn => hw.distinct q hq p hp (hqn.trans hpn.symm))
          fun q _ hl => ?_
        rw [← hpn]
        exact hl.seqNum
      obtain ⟨C₂, hcalm₂, h₂, hsub, hend⟩ := ih hcalmu hu hnext rfl
      rw [hloop k]
      have hgrow : done P C s ⊆ done P C₂ _ := fun q hq =>
        hsub (by rw [hdone]; exact Set.mem_insert_of_mem p hq)
      refine ⟨C₂, hcalm₂, by rwa [← List.append_assoc], hgrow, hend.imp_right ?_⟩
      rintro ⟨hclosed₂, hrow⟩
      refine ⟨by rwa [SeqNums.add_succ], fun i hi => ?_⟩
      cases i with
      | zero =>
        refine ⟨p, hsub (by rw [hdone]; exact Set.mem_insert p _), ?_⟩
        rw [hpn, SeqNums.add_zero]
      | succ i =>
        rw [SeqNums.add_succ]
        exact hrow i (Nat.lt_of_succ_lt_succ hi)

/-- **`FindFrames`** has rounds enough: it ends when nothing would go on, or has gone through the whole
window. -/
theorem findFrames_assembled (hw : Windowed a base W P) (hcalm : Calm a b base W s)
    (h : Assembled a P C R s)
    (hclosed : (frames (2 ^ a)).ClosedBut P {p | p.seqNum = n} (done P C s))
    {out : List (List Moved) × PacketBuffer} (hout : out = s.findFrames S n) :
    ∃ C', Calm a b base W out.2 ∧ Assembled a P C' (R ++ out.1) out.2 ∧
      (frames (2 ^ a)).ClosedBut P ∅ (done P C' out.2) := by
  obtain ⟨C', hcalm', h', _, hend⟩ := findFramesLoop_assembled hw n s.size hcalm h hclosed hout
  refine ⟨C', hcalm', h', hend.elim id ?_⟩
  rintro ⟨hclosed', hrow⟩ p hp _ hfrom
  by_cases hpn : p.seqNum = n + UInt16.ofNat s.size
  · have hroom : W ≤ s.size := by
      rw [hcalm.size]
      exact hw.room
    obtain ⟨i, hi, hturn⟩ | hout := SeqNums.row_ends hroom fun i hi => by
      obtain ⟨q, hq, hqn⟩ := hrow i hi
      rw [← hqn]
      exact hw.within q hq.1
    · obtain ⟨q, hq, hqn⟩ := hrow i hi
      obtain rfl := hw.distinct p hp q hq.1 (hpn.trans (hturn.trans hqn.symm))
      exact hq
    · have hwithin := hw.within p hp
      rw [hpn] at hwithin
      omega
  · exact hclosed' p hp hpn hfrom

end PacketBuffer
end WebrtcTrace.Packets
