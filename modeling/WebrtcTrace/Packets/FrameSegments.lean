import WebrtcTrace.Foundations.Segments
import WebrtcTrace.Packets.Placement

/-! # The frames of a set of packets

A packet continues the frame of the packet before it when the flags and timestamps say so. The frames
of a set are its whole segments: from a first packet through a last one. No order of arrival enters
here; `Packets.Assembly` shows that the buffer finds these frames.
-/

namespace WebrtcTrace.Packets
set_option autoImplicit false

/-- `q` continues the frame of `p`. In a buffer larger than the ring of numbers, the slot before that
of number 0 is not the slot of 65535. -/
structure Continues (size : ℕ) (p q : Packet) : Prop where
  seqNum : q.seqNum = p.seqNum + 1
  timestamp : p.timestamp = q.timestamp
  inner : p.isLastPacketInFrame = false
  later : q.isFirstPacketInFrame = false
  slot : ∀ s : PacketBuffer, s.size = size → s.prevIndex (s.index q.seqNum) = s.index p.seqNum

def frames (size : ℕ) : Linking Packet where
  root p := p.isFirstPacketInFrame = true
  link := Continues size
  final p := p.isLastPacketInFrame = true

/-- What is moved out for a segment. `num_packets` has 16 bits: nothing, for 2^16 packets. -/
def frameOf (c : List Packet) : List Moved :=
  (c.reverse.map fun p => ⟨p.seqNum, some { p with continuous := true }⟩).take (c.length % 65536)

/-- Packets in a window of `W` numbers, which a buffer of size `2 ^ a` has room for, and no two of one
number. None is an H.264 packet without a generic descriptor. -/
structure Windowed (a : ℕ) (base : UInt16) (W : ℕ) (P : Set Packet) : Prop where
  within : ∀ p ∈ P, (p.seqNum - base).toNat < W
  distinct : ∀ p ∈ P, ∀ q ∈ P, p.seqNum = q.seqNum → p = q
  generic : ∀ p ∈ P, (p.isH264 && !p.isGeneric) = false
  room : W ≤ 2 ^ a

namespace Windowed
variable {a : ℕ} {base : UInt16} {W : ℕ} {P Q : Set Packet} {p q : Packet} {c ps : List Packet}

theorem mono (h : Windowed a base W Q) (hPQ : P ⊆ Q) : Windowed a base W P where
  within p hp := h.within p (hPQ hp)
  distinct p hp q hq := h.distinct p (hPQ hp) q (hPQ hq)
  generic p hp := h.generic p (hPQ hp)
  room := h.room

theorem lawful (h : Windowed a base W P) (size : ℕ) : (frames size).Lawful P where
  branch hy hz hxy hxz := h.distinct _ hy _ hz (hxy.seqNum.trans hxz.seqNum.symm)
  join hx hy hxz hyz := by
    refine h.distinct _ hx _ hy ?_
    have hsame := hxz.seqNum.symm.trans hyz.seqNum
    grind
  root hxy := ne_true_of_eq_false hxy.later
  final hxy := ne_true_of_eq_false hxy.inner

theorem index_inj (h : Windowed a base W P) {s : PacketBuffer} (hsize : s.size = 2 ^ a) (hp : p ∈ P)
    (hq : q ∈ P) (hi : s.index p.seqNum = s.index q.seqNum) : p = q := by
  rw [PacketBuffer.index, PacketBuffer.index, hsize] at hi
  exact h.distinct p hp q hq
    (SeqNums.eq_of_mod h.room (h.within p hp) (h.within q hq) hi)

/-- A segment is no longer than its window, nor than the ring. -/
theorem length_le (h : Windowed a base W P) {size : ℕ} (hc : (frames size).Segment P c) :
    c.length ≤ W ∧ c.length ≤ 65536 := by
  have hnodup : (c.map fun p => (p.seqNum - base).toNat).Nodup := by
    refine List.Nodup.map_on (fun p hp q hq hoff => ?_) (hc.nodup (h.lawful size))
    refine h.distinct p (hc.subset p hp) q (hc.subset q hq) ?_
    have hsub := UInt16.toNat_inj.mp hoff
    grind
  have hbound : ∀ n, (∀ p ∈ c, (p.seqNum - base).toNat < n) → c.length ≤ n := by
    intro n hn
    have hsub : (c.map fun p => (p.seqNum - base).toNat) ⊆ List.range n := by
      intro k hk
      obtain ⟨p, hp, rfl⟩ := List.mem_map.mp hk
      exact List.mem_range.mpr (hn p hp)
    simpa using (hnodup.subperm hsub).length_le
  exact ⟨hbound W fun p hp => h.within p (hc.subset p hp), hbound 65536 fun p _ => UInt16.toNat_lt _⟩

end Windowed

/-! ## The numbers of a segment -/

/-- Packets numbered from `j` on. -/
def Numbered : UInt16 → List Packet → Prop
  | _, [] => True
  | j, p :: l => p.seqNum = j ∧ Numbered (j + 1) l

theorem Numbered.snoc {q : Packet} {l : List Packet} :
    ∀ {j : UInt16}, Numbered j l → q.seqNum = j + UInt16.ofNat l.length → Numbered j (l ++ [q]) := by
  induction l with
  | nil =>
    intro j _ hq
    exact ⟨hq.trans (SeqNums.add_zero j), trivial⟩
  | cons p l ih =>
    intro j h hq
    refine ⟨h.1, ih h.2 ?_⟩
    rw [hq, List.length_cons, SeqNums.add_succ]

theorem Numbered.get {l : List Packet} :
    ∀ {j : UInt16}, Numbered j l → ∀ i < l.length, ∃ p ∈ l, p.seqNum = j + UInt16.ofNat i := by
  induction l with
  | nil =>
    intro _ _ i hi
    cases hi
  | cons p l ih =>
    intro j h i hi
    cases i with
    | zero => exact ⟨p, List.mem_cons_self, h.1.trans (SeqNums.add_zero j).symm⟩
    | succ i =>
      obtain ⟨q, hq, hqi⟩ := ih h.2 i (by simpa using hi)
      exact ⟨q, List.mem_cons_of_mem p hq, by rw [hqi, SeqNums.add_succ]⟩

section
variable {size : ℕ} {P : Set Packet} {p : Packet} {ps : List Packet}

theorem numbered_segment (h : (frames size).Segment P (p :: ps)) :
    Numbered (p.seqNum - UInt16.ofNat ps.length) (p :: ps).reverse := by
  induction ps generalizing p with
  | nil =>
    refine ⟨?_, trivial⟩
    rw [List.length_nil]
    grind
  | cons q ps ih =>
    cases h with
    | link hs _ hl =>
      rw [List.reverse_cons]
      have hstart : p.seqNum - UInt16.ofNat (q :: ps).length = q.seqNum - UInt16.ofNat ps.length := by
        rw [hl.seqNum, List.length_cons, SeqNums.ofNat_succ]
        grind
      rw [hstart]
      refine (ih hs).snoc ?_
      rw [hl.seqNum, List.length_reverse, List.length_cons, SeqNums.ofNat_succ]
      grind

/-- A segment of 2^16 packets has a packet of every number. -/
theorem segment_fills (h : (frames size).Segment P (p :: ps)) (hlen : (p :: ps).length = 65536)
    (n : UInt16) : ∃ q ∈ p :: ps, q.seqNum = n := by
  have hnumbered := numbered_segment h
  obtain ⟨q, hq, hqn⟩ := hnumbered.get (n - (p.seqNum - UInt16.ofNat ps.length)).toNat (by
    rw [List.length_reverse, hlen]
    exact UInt16.toNat_lt _)
  refine ⟨q, List.mem_reverse.mp hq, ?_⟩
  rw [hqn, UInt16.ofNat_toNat]
  grind

end

/-- The flags of the packets of a frame are what they are set to when it is moved out. -/
theorem Windowed.flags {a : ℕ} {base : UInt16} {W size : ℕ} {P : Set Packet} {e : Packet}
    {ps : List Packet} (h : Windowed a base W P) (hc : (frames size).Whole P (e :: ps)) :
    ∀ p ∈ e :: ps,
      p.isFirstPacketInFrame = (p.seqNum == e.seqNum - UInt16.ofNat ps.length) ∧
        p.isLastPacketInFrame = (p.seqNum == e.seqNum) := by
  have hL := h.lawful size
  have hsame : ∀ {p q}, p ∈ e :: ps → q ∈ e :: ps → p.seqNum = q.seqNum → p = q :=
    fun hp hq => h.distinct _ (hc.segment.subset _ hp) _ (hc.segment.subset _ hq)
  obtain ⟨_, _, heq, hfinal⟩ := hc.final
  obtain ⟨rfl, rfl⟩ := List.cons.inj heq
  obtain ⟨init, r, hr, hroot⟩ := hc.segment.root_last
  have hrmem : r ∈ e :: ps := by
    rw [hr]
    exact List.mem_append_right _ List.mem_cons_self
  have hstart : r.seqNum = e.seqNum - UInt16.ofNat ps.length := by
    have hnumbered := numbered_segment hc.segment
    rw [hr, List.reverse_concat] at hnumbered
    exact hnumbered.1
  intro p hp
  refine ⟨?_, ?_⟩
  · rw [← hstart, Bool.eq_iff_iff, beq_iff_eq]
    refine ⟨fun hf => ?_, fun hn => ?_⟩
    · have hsegment := hc.segment
      rw [hr] at hsegment hp
      rw [hsegment.root_eq hL hp hf]
    · rw [hsame hp hrmem hn]
      exact hroot
  · rw [Bool.eq_iff_iff, beq_iff_eq]
    refine ⟨fun hf => ?_, fun hn => ?_⟩
    · rw [hc.segment.final_eq hL hp hf]
    · rw [hsame hp List.mem_cons_self hn]
      exact hfinal

end WebrtcTrace.Packets
