import WebrtcTrace.Foundations.Ledgers
import WebrtcTrace.Packets.Placement
import Mathlib.Algebra.Order.Sub.Basic
import Mathlib.Data.Multiset.OrderedMonoid

/-! # No packet is lost

A packet enters the buffer when `InsertPacket` stores it and leaves it in a returned frame or with
something that is cleared; in between it changes slots with every expansion. The books are kept in
packets without the fields the buffer itself writes (`Packet.body`), as multisets, so that an accepted
packet is in one place only.
-/

namespace WebrtcTrace.Packets
open Runs SlotTables
set_option autoImplicit false

/-- A packet without what the buffer writes: the boundary and continuity flags, and what the search
learns about a frame. -/
def Packet.body (p : Packet) : Packet := { p with
  isFirstPacketInFrame := false
  isLastPacketInFrame := false
  continuous := false
  width := 0
  height := 0
  frameType := .empty }

/-- The packets of a moved range. -/
def bodiesOf (range : List Moved) : Multiset Packet :=
  (range.filterMap fun m => m.packet.map Packet.body : List Packet)

theorem bodiesOf_append (r r' : List Moved) : bodiesOf (r ++ r') = bodiesOf r + bodiesOf r' := by
  rw [bodiesOf, List.filterMap_append, ← Multiset.coe_add]
  rfl

theorem bodiesOf_cons (m : Moved) (r : List Moved) :
    bodiesOf (m :: r) = ofSlot (m.packet.map Packet.body) + bodiesOf r := by
  rw [← List.singleton_append, bodiesOf_append]
  cases h : m.packet <;> simp [bodiesOf, h]

variable {S : SeqNumOps}

namespace PacketBuffer
variable {s t : PacketBuffer} {lo hi : ℕ}

def packets (s : PacketBuffer) : Multiset Packet := contents s.size s.slot

/-- The same without what the buffer writes. -/
def bodies (s : PacketBuffer) : Multiset Packet := contents s.size fun i => (s.slot i).map Packet.body

theorem bodies_eq (s : PacketBuffer) : s.bodies = s.packets.map Packet.body := by
  rw [bodies, packets, contents, contents]
  exact (Finset.sum_congr rfl fun i _ => ofSlot_map _ _).trans
    (map_sum (Multiset.mapAddMonoidHom Packet.body) _ _).symm

theorem bodies_congr (hsize : t.size = s.size) (hslot : t.slot = s.slot) : t.bodies = s.bodies := by
  rw [bodies, bodies, hsize, hslot]

theorem index_lt (hpos : 0 < s.size) (n : UInt16) : s.index n < s.size := Nat.mod_lt _ hpos

theorem bodies_setSlot {i : ℕ} (hi : i < s.size) (e : Option Packet) :
    (s.setSlot i e).bodies + ofSlot ((s.slot i).map Packet.body) =
      s.bodies + ofSlot (e.map Packet.body) := by
  rw [bodies, bodies, ← contents_update _ hi]
  refine congrArg (· + _) (contents_congr fun j _ => ?_)
  rw [setSlot_slot, Function.update_apply]
  split_ifs <;> rfl

/-- A slot may be written with what the buffer writes. -/
theorem bodies_setSlot_same {i : ℕ} (hi : i < s.size) {e : Option Packet}
    (he : e.map Packet.body = (s.slot i).map Packet.body) : (s.setSlot i e).bodies = s.bodies := by
  have hset := bodies_setSlot hi e
  rw [he] at hset
  exact add_right_cancel hset

theorem mem_bodies {b : Packet} : b ∈ s.bodies ↔ ∃ i < s.size, ∃ p, s.slot i = some p ∧ p.body = b := by
  rw [bodies, mem_contents]
  simp only [Option.map_eq_some_iff]

theorem bodies_clearInternal (s : PacketBuffer) : s.clearInternal.bodies = 0 := contents_empty

/-! ## Frames -/

theorem setContinuous_bodies (hpos : 0 < s.size) (n : UInt16) : (s.setContinuous n).bodies = s.bodies := by
  refine bodies_setSlot_same (index_lt hpos n) ?_
  rw [Option.map_map]
  rfl

theorem describeFirst_bodies (hpos : 0 < s.size) (b : BackwardSearch) :
    (s.describeFirst b).bodies = s.bodies := by
  refine bodies_setSlot_same (index_lt hpos b.startSeqNum) ?_
  rw [Option.map_map]
  refine Option.map_congr fun p _ => ?_
  simp only [Function.comp_apply]
  split_ifs <;> rfl

/-- What is moved out is what is missing. -/
theorem moveOut_bodies (first last : UInt16) (n : ℕ) :
    ∀ (j : UInt16) (s : PacketBuffer), 0 < s.size →
      s.bodies = bodiesOf (moveOut first last n j s).1 + (moveOut first last n j s).2.bodies := by
  induction n with
  | zero => exact fun _ s _ => (zero_add _).symm
  | succ n ih =>
    intro j s hpos
    have hset := bodies_setSlot (index_lt hpos j) none
    rw [Option.map_none, ofSlot_none, add_zero] at hset
    simp only [moveOut, bodiesOf_cons, Option.map_map]
    rw [add_assoc, ← ih (j + 1) (s.setSlot (s.index j) none) hpos, ← hset, add_comm]
    rfl

theorem completeFrame_bodies (hpos : 0 < s.size) (start seqNum : UInt16) (entry : Packet) :
    s.bodies = bodiesOf (s.completeFrame S start seqNum entry).frame.toList.flatten +
      (s.completeFrame S start seqNum entry).state.bodies := by
  unfold completeFrame
  split
  · exact (zero_add _).symm
  · next b _ =>
    have hb : (if b.isH264Descriptor then s.describeFirst b else s).bodies = s.bodies ∧
        0 < (if b.isH264Descriptor then s.describeFirst b else s).size := by
      split_ifs
      · exact ⟨describeFirst_bodies hpos b, hpos⟩
      · exact ⟨rfl, hpos⟩
    dsimp only
    generalize (if b.isH264Descriptor then s.describeFirst b else s) = s' at hb
    rw [← hb.1]
    split_ifs
    · exact (zero_add _).symm
    · rw [Option.toList_some, List.flatten_singleton]
      exact moveOut_bodies _ _ _ _ s' hb.2
    · exact (zero_add _).symm

/-- `FindFrames` only returns early where no frame is moved out. -/
theorem completeFrame_returns {start seqNum : UInt16} {entry : Packet}
    (h : (s.completeFrame S start seqNum entry).returns = true) :
    (s.completeFrame S start seqNum entry).frame = none := by
  unfold completeFrame at h ⊢
  split
  · rfl
  · next b hb =>
    simp only [hb] at h
    dsimp only
    generalize (if b.isH264Descriptor then s.describeFirst b else s) = s' at h ⊢
    split_ifs at h ⊢
    rfl

theorem setContinuous_housed (h : Housed lo hi s) (n : UInt16) : Housed lo hi (s.setContinuous n) where
  sized := ⟨h.sized.size, h.sized.maxSize, h.sized.le⟩
  grown := h.grown
  limit := h.limit
  placed i p hp := by
    rw [setContinuous, setSlot_slot] at hp
    split_ifs at hp with hi
    · obtain ⟨q, hq, rfl⟩ := Option.map_eq_some_iff.mp hp
      exact (h.placed _ q hq).trans hi.symm
    · exact h.placed i p hp

/-- **Looking for frames loses no packet**, and leaves the others in their slots. -/
theorem findFramesLoop_bodies (start : UInt16) (n : ℕ) :
    ∀ (seqNum : UInt16) {s : PacketBuffer}, Housed lo hi s →
      Housed lo hi (findFramesLoop S start n seqNum s).2 ∧
      s.bodies = bodiesOf (findFramesLoop S start n seqNum s).1.flatten +
        (findFramesLoop S start n seqNum s).2.bodies := by
  induction n with
  | zero => exact fun _ s h => ⟨h, (zero_add _).symm⟩
  | succ n ih =>
    intro seqNum s h
    rw [findFramesLoop]
    split_ifs with hpadding hnew
    · exact ih (seqNum + 1) h
    · exact ⟨h, (zero_add _).symm⟩
    · have hmarked := setContinuous_housed h seqNum
      rw [← setContinuous_bodies h.sized.pos seqNum]
      dsimp only
      split
      · exact ih (seqNum + 1) hmarked
      · next entry _ =>
        have hframe := completeFrame_bodies (S := S) hmarked.sized.pos start seqNum entry
        have hafter := hmarked.thins (thins_completeFrame (S := S) _ start seqNum entry)
        split_ifs with hreturns
        · rw [completeFrame_returns hreturns] at hframe
          exact ⟨hafter, hframe⟩
        · obtain ⟨hlast, hrest⟩ := ih (seqNum + 1) hafter
          refine ⟨hlast, ?_⟩
          dsimp only
          rw [hframe, hrest, List.flatten_append, bodiesOf_append, add_assoc]

/-! ## The slots -/

/-- The loop of `ClearTo` comes to slot `i` in its first `k` rounds. -/
def visits (s : PacketBuffer) (k i : ℕ) : Bool :=
  (List.range k).any fun j => s.index (s.firstSeqNum + UInt16.ofNat j) = i

theorem visits_succ (s : PacketBuffer) (k i : ℕ) : s.visits (k + 1) i =
    (decide (s.index s.firstSeqNum = i) ||
      visits { s with firstSeqNum := s.firstSeqNum + 1 } k i) := by
  rw [visits, visits, List.range_succ_eq_map, List.any_cons, List.any_map, SeqNums.add_zero]
  simp only [Function.comp_def, SeqNums.add_succ]
  rfl

/-- **The loop of `ClearTo`** takes the packets behind `n` out of the slots it visits. -/
theorem clearToLoop_slot (n : UInt16) (k i : ℕ) : ∀ s : PacketBuffer, (clearToLoop S n k s).slot i =
    (s.slot i).filter fun p => !(s.visits k i && S.aheadOf n p.seqNum) := by
  induction k with
  | zero =>
    intro s
    cases h : s.slot i <;> simp [clearToLoop, visits, h, Option.filter]
  | succ k ih =>
    intro s
    rw [clearToLoop, ih, visits_succ]
    by_cases hi : s.index s.firstSeqNum = i
    · subst hi
      cases hp : s.slot (s.index s.firstSeqNum) with
      | none => simp [hp]
      | some p => cases hahead : S.aheadOf n p.seqNum <;> simp [hp, hahead, Option.filter, visits]
    · rw [decide_eq_false hi, Bool.false_or]
      split_ifs
      · exact congrArg (Option.filter _) (Function.update_of_ne (Ne.symm hi) _ _)
      · rfl

variable (S) in
/-- The packets up to `seqNum` in the slots of the numbers from `first_seq_num_` to there. -/
def packetsUpTo (s : PacketBuffer) (seqNum : UInt16) : Multiset Packet :=
  contents s.size fun i => ((s.slot i).filter fun p =>
    s.visits (min (S.forwardDiff s.firstSeqNum (seqNum + 1)) s.size) i &&
      S.aheadOf (seqNum + 1) p.seqNum).map Packet.body

variable (S) in
/-- What `ClearTo` clears, with its two early exits. -/
def clearedTo (s : PacketBuffer) (seqNum : UInt16) : Multiset Packet :=
  if S.aheadOf s.firstSeqNum seqNum = true ∨ s.firstPacketReceived = false then 0
  else s.packetsUpTo S seqNum

/-- **`ClearTo` clears the packets up to its number**, and no others. -/
theorem clearTo_balances (s : PacketBuffer) (seqNum : UInt16) :
    s.clearedTo S seqNum + (s.clearTo S seqNum).bodies = s.bodies := by
  unfold clearedTo clearTo
  by_cases hahead : S.aheadOf s.firstSeqNum seqNum = true
  · rw [if_pos (.inl hahead), if_pos hahead, zero_add]
  rw [if_neg hahead]
  by_cases hreceived : s.firstPacketReceived = false
  · rw [if_pos (.inr hreceived), if_pos (by simpa using hreceived), zero_add]
  rw [if_neg (not_or.mpr ⟨hahead, hreceived⟩), if_neg (by simpa using hreceived)]
  have hrest := (thins_clearToLoop (S := S) (seqNum + 1)
    (min (S.forwardDiff s.firstSeqNum (seqNum + 1)) s.size) s).size
  refine Eq.trans (congrArg _ ?_) (contents_split _ Packet.body)
  rw [bodies]
  dsimp only
  rw [hrest]
  simp only [clearToLoop_slot]

theorem clearTo_bodies (s : PacketBuffer) (seqNum : UInt16) :
    (s.clearTo S seqNum).bodies ≤ s.bodies := by
  rw [← clearTo_balances (S := S) s seqNum]
  exact Multiset.le_add_left _ _

/-- **An expansion keeps exactly the stored packets**: two of them have different numbers modulo the old
size, so they have different ones modulo twice that size. -/
theorem expand_packets (h : Housed lo hi s) (he : s.expandBufferSize = some t) :
    t.packets = s.packets := by
  obtain ⟨_, rfl⟩ := expandBufferSize_some h.sized he
  have hpos := h.sized.pos
  rw [packets, packets, rehash_eq]
  refine contents_placeAll (fun _ _ p _ => Nat.mod_lt _ (by omega)) fun i _ j _ p q hp hq heq => ?_
  rw [← h.placed i p hp, ← h.placed j q hq, index, index, ← Nat.mod_mul_left_mod p.seqNum.toNat 2,
    ← Nat.mod_mul_left_mod q.seqNum.toNat 2, heq]

theorem expand_bodies (h : Housed lo hi s) (he : s.expandBufferSize = some t) : t.bodies = s.bodies := by
  rw [bodies_eq, bodies_eq, expand_packets h he]

/-- What every expansion keeps while room is made in `t`. -/
theorem roomier (t : PacketBuffer) : ∀ u v : PacketBuffer, Housed lo hi u ∧ u.bodies = t.bodies →
    u.expandBufferSize = some v → Housed lo hi v ∧ v.bodies = t.bodies :=
  fun _ _ hu he => ⟨hu.1.expand he, (expand_bodies hu.1 he).trans hu.2⟩

theorem store_bodies (h : Housed lo hi s) {packet : Packet}
    (hfree : s.slot (s.index packet.seqNum) = none) :
    (s.store packet).bodies = s.bodies + {packet.body} := by
  have hset := bodies_setSlot (index_lt h.sized.pos packet.seqNum) (some { packet with continuous := false })
  rwa [hfree, Option.map_none, ofSlot_none, add_zero] at hset

theorem updateMissingPackets_bodies (s : PacketBuffer) (seqNum : UInt16) :
    (s.updateMissingPackets S seqNum).bodies = s.bodies := by
  unfold updateMissingPackets
  dsimp only
  split_ifs <;> exact bodies_congr rfl rfl

theorem arrived_bodies (s : PacketBuffer) (packet : Packet) :
    (s.arrived S packet).bodies = (s.store packet).bodies :=
  (bodies_congr rfl rfl).trans (updateMissingPackets_bodies (s.store packet) packet.seqNum)

/-! ## Accepting a packet -/

variable (S) in
/-- A number so far from the first one, both ways, that the stream must have begun anew. -/
def JumpsBack (s : PacketBuffer) (n : UInt16) : Prop :=
  s.maxSize ≤ S.forwardDiff s.firstSeqNum n ∧ s.maxSize / 2 ≤ S.forwardDiff n s.firstSeqNum

instance (s : PacketBuffer) (n : UInt16) : Decidable (JumpsBack S s n) :=
  inferInstanceAs (Decidable (_ ∧ _))

variable (S) in
/-- `InsertPacket` clears the buffer because of a large jump back. -/
def JumpClears (s : PacketBuffer) (n : UInt16) : Prop :=
  s.firstPacketReceived = true ∧ S.aheadOf s.firstSeqNum n = true ∧
    s.isClearedToFirstSeqNum = false ∧ JumpsBack S s n

instance (s : PacketBuffer) (n : UInt16) : Decidable (JumpClears S s n) :=
  inferInstanceAs (Decidable (_ ∧ _ ∧ _ ∧ _))

/-- **The ways to accept a packet**: as the first one, behind the first one, after a jump back, and
otherwise. -/
theorem accept_cases {n : UInt16} (ha : s.accept S n = some t) :
    (s.firstPacketReceived = false ∧ t = { s with firstSeqNum := n, firstPacketReceived := true }) ∨
      (s.firstPacketReceived = true ∧ S.aheadOf s.firstSeqNum n = true ∧
        s.isClearedToFirstSeqNum = false ∧
        ((¬ JumpsBack S s n ∧ t = { s with firstSeqNum := n }) ∨ JumpsBack S s n ∧
          t = { s.clearInternal with firstPacketReceived := true, firstSeqNum := n })) ∨
      (s.firstPacketReceived = true ∧ S.aheadOf s.firstSeqNum n = false ∧ t = s) := by
  unfold accept at ha
  split_ifs at ha with hfirst hahead hcleared hjump <;> obtain rfl := Option.some.inj ha
  · exact .inl ⟨by simpa using hfirst, rfl⟩
  · exact .inr (.inl ⟨by simpa using hfirst, hahead, by simpa using hcleared, .inr ⟨hjump, rfl⟩⟩)
  · exact .inr (.inl ⟨by simpa using hfirst, hahead, by simpa using hcleared, .inl ⟨hjump, rfl⟩⟩)
  · exact .inr (.inr ⟨by simpa using hfirst, by simpa using hahead, rfl⟩)

variable (S) in
/-- `InsertPacket` ignores a packet: the buffer has been cleared past it. -/
def Ignores (s : PacketBuffer) (n : UInt16) : Prop :=
  s.firstPacketReceived = true ∧ S.aheadOf s.firstSeqNum n = true ∧ s.isClearedToFirstSeqNum = true

instance (s : PacketBuffer) (n : UInt16) : Decidable (Ignores S s n) :=
  inferInstanceAs (Decidable (_ ∧ _ ∧ _))

theorem accept_eq_none {n : UInt16} : s.accept S n = none ↔ Ignores S s n := by
  unfold accept Ignores
  cases s.firstPacketReceived <;> cases S.aheadOf s.firstSeqNum n <;>
    cases s.isClearedToFirstSeqNum <;> simp

/-- An accepted packet finds the buffer as it was, or cleared after a jump back. -/
theorem accept_slots {n : UInt16} (ha : s.accept S n = some t) :
    t.size = s.size ∧ t.maxSize = s.maxSize ∧
      t.slot = if JumpClears S s n then fun _ => none else s.slot := by
  obtain ⟨hnot, rfl⟩ | ⟨hyes, hahead, hcleared, ⟨hjump, rfl⟩ | ⟨hjump, rfl⟩⟩ | ⟨_, hbehind, rfl⟩ :=
    accept_cases ha
  · exact ⟨rfl, rfl, (if_neg fun h => Bool.false_ne_true (hnot.symm.trans h.1)).symm⟩
  · exact ⟨rfl, rfl, (if_neg fun h => hjump h.2.2.2).symm⟩
  · exact ⟨rfl, rfl, (if_pos ⟨hyes, hahead, hcleared, hjump⟩).symm⟩
  · exact ⟨rfl, rfl, (if_neg fun h => Bool.false_ne_true (hbehind.symm.trans h.2.1)).symm⟩

theorem accept_bodies {n : UInt16} (ha : s.accept S n = some t) :
    t.bodies = if JumpClears S s n then 0 else s.bodies := by
  obtain ⟨hsize, _, hslot⟩ := accept_slots ha
  rw [bodies, hsize, hslot]
  split_ifs
  · exact contents_empty
  · rfl

/-- Another packet has the slot of the number in a buffer of the largest size. -/
def FullFor (s : PacketBuffer) (n : UInt16) : Prop :=
  ∃ i < s.size, ∃ p ∈ s.slot i, p.seqNum ≠ n ∧ p.seqNum.toNat % s.maxSize = n.toNat % s.maxSize

instance (s : PacketBuffer) (n : UInt16) : Decidable (s.FullFor n) :=
  inferInstanceAs (Decidable (∃ i < s.size, ∃ p ∈ s.slot i, _))

/-- A buffer that has been expanded until a slot is free, and where it is not, has its largest size. -/
theorem expandUntilFree_size (n : UInt16) (fuel : ℕ) : ∀ {s : PacketBuffer}, Sized s →
    s.maxSize ≤ s.size * 2 ^ fuel →
    ((expandUntilFree n fuel s).slot ((expandUntilFree n fuel s).index n)).isSome = true →
      (expandUntilFree n fuel s).size = s.maxSize := by
  induction fuel with
  | zero =>
    intro s h hfuel _
    rw [Nat.pow_zero, Nat.mul_one] at hfuel
    exact le_antisymm h.le hfuel
  | succ fuel ih =>
    intro s h hfuel hsome
    unfold expandUntilFree at hsome ⊢
    cases he : s.expandBufferSize with
    | none =>
      unfold expandBufferSize at he
      split_ifs at he with hsize
      simp only [hsize]
    | some t =>
      simp only [he] at hsome ⊢
      obtain ⟨hdouble, rfl⟩ := expandBufferSize_some h he
      have hsized : Sized { s with size := 2 * s.size, slot := s.rehash (2 * s.size) } := by
        obtain ⟨a, ha⟩ := h.size
        exact ⟨⟨a + 1, by rw [Nat.pow_succ', ← ha]⟩, h.maxSize, hdouble⟩
      split_ifs at hsome ⊢ with htaken
      · refine ih hsized ?_ hsome
        rw [Nat.pow_succ', ← Nat.mul_assoc, Nat.mul_comm s.size] at hfuel
        exact hfuel
      · exact absurd hsome htaken

/-- **The buffer is full for a packet** exactly when it finds no room. -/
theorem makeRoom_full_iff (h : Housed lo hi s) (n : UInt16) :
    (∃ u, s.makeRoom n = .full u) ↔ s.FullFor n := by
  have hexpand : ∀ v w : PacketBuffer, Housed lo hi v ∧ v.packets = s.packets →
      v.expandBufferSize = some w → Housed lo hi w ∧ w.packets = s.packets :=
    fun v w hv he => ⟨hv.1.expand he, (expand_packets hv.1 he).trans hv.2⟩
  obtain ⟨hgrown, hkept⟩ := expandUntilFree_keeps (I := fun v => Housed lo hi v ∧ v.packets = s.packets)
    hexpand n s.maxSize ⟨h, rfl⟩
  have hfuel : s.maxSize ≤ s.size * 2 ^ s.maxSize :=
    Nat.lt_two_pow_self.le.trans (Nat.le_mul_of_pos_left _ h.sized.pos)
  constructor
  · rintro ⟨u, hr⟩
    unfold makeRoom at hr
    cases hq : s.slot (s.index n) with
    | none =>
      rw [hq] at hr
      cases hr
    | some q =>
      simp only [hq] at hr
      split_ifs at hr with hduplicate htaken
      have hsize := expandUntilFree_size n s.maxSize h.sized hfuel htaken
      obtain ⟨p, hp⟩ := Option.isSome_iff_exists.mp htaken
      obtain ⟨i, hi, hpi⟩ : ∃ i < s.size, s.slot i = some p := by
        rw [← mem_contents, ← packets, ← hkept]
        exact mem_contents.mpr ⟨_, index_lt hgrown.sized.pos n, hp⟩
      have hplace := hgrown.placed _ p hp
      rw [index, index, hsize] at hplace
      refine ⟨i, hi, p, hpi, fun hsame => hduplicate ?_, hplace⟩
      have hhome := h.placed i p hpi
      rw [hsame] at hhome
      rw [← hhome, hq] at hpi
      rw [Option.some.inj hpi, hsame]
  · rintro ⟨i, hin, p, hp, hne, hmod⟩
    -- the number and the packet share a slot at every size
    have hshared : ∀ v, Housed lo hi v → v.index p.seqNum = v.index n := by
      intro v hv
      obtain ⟨a, ha⟩ := hv.sized.size
      obtain ⟨b, hb⟩ := hv.sized.maxSize
      have hdvd : v.size ∣ s.maxSize := by
        rw [h.limit, ← hv.limit, ha, hb]
        exact pow_dvd_pow 2 ((Nat.pow_le_pow_iff_right (by omega)).mp (ha ▸ hb ▸ hv.sized.le))
      exact Nat.ModEq.of_dvd hdvd hmod
    have hslot : s.slot (s.index n) = some p := by rw [← hshared s h, h.placed i p hp, hp]
    have hlast : (expandUntilFree n s.maxSize s).slot ((expandUntilFree n s.maxSize s).index n) =
        some p := by
      obtain ⟨j, _, hj⟩ : ∃ j < (expandUntilFree n s.maxSize s).size,
          (expandUntilFree n s.maxSize s).slot j = some p := by
        rw [← mem_contents, ← packets, hkept]
        exact mem_contents.mpr ⟨i, hin, hp⟩
      rw [← hshared _ hgrown, hgrown.placed j p hj, hj]
    refine ⟨expandUntilFree n s.maxSize s, ?_⟩
    unfold makeRoom
    simp only [hslot]
    rw [if_neg hne, if_pos (by rw [hlast]; rfl)]

/-- A packet of the number lies in its slot. -/
def HasStored (s : PacketBuffer) (n : UInt16) : Prop := ∃ p ∈ s.slot (s.index n), p.seqNum = n

instance (s : PacketBuffer) (n : UInt16) : Decidable (s.HasStored n) :=
  inferInstanceAs (Decidable (∃ p ∈ s.slot (s.index n), p.seqNum = n))

theorem makeRoom_duplicate_iff (n : UInt16) : s.makeRoom n = .duplicate ↔ s.HasStored n := by
  unfold makeRoom HasStored
  cases s.slot (s.index n) with
  | none => simp
  | some q =>
    simp only [Option.mem_def, Option.some.injEq, exists_eq_left']
    split_ifs with hsame htaken
    · exact iff_of_true rfl hsame
    · exact iff_of_false (fun h => by cases h) hsame
    · exact iff_of_false (fun h => by cases h) hsame

/-! ## The operations -/

variable (S)

/-- The packet an operation puts into a slot. -/
def acceptedBy (s : PacketBuffer) : Op → Multiset Packet
  | .insertPacket packet =>
    match s.accept S packet.seqNum with
    | none => 0
    | some t =>
      match t.makeRoom packet.seqNum with
      | .free _ => {packet.body}
      | .duplicate => 0
      | .full _ => 0
  | .insertPadding _ => 0
  | .clearTo _ => 0
  | .clear => 0
  | .forceSpsPpsIdrIsH264Keyframe => 0
  | .resetSpsPpsIdrIsH264Keyframe => 0

/-- An insertion is to put its packet into a slot: the buffer has not been cleared past the number, and it
was cleared for the packet or has no packet of that number yet and room for it. -/
def Accepts (s : PacketBuffer) (n : UInt16) : Prop :=
  ¬ Ignores S s n ∧ (JumpClears S s n ∨ ¬ s.HasStored n ∧ ¬ s.FullFor n)

instance (s : PacketBuffer) (n : UInt16) : Decidable (Accepts S s n) :=
  inferInstanceAs (Decidable (_ ∧ (_ ∨ _ ∧ _)))

/-- The packets of the result an operation returns. -/
def returnedBy (s : PacketBuffer) (op : Op) : Multiset Packet := bodiesOf (s.perform S op).1.flatten

/-- The packets an operation clears: all of them with `Clear`, with a large jump back and where the
buffer is full for a packet, and with `ClearTo` those up to its number. -/
def removedBy (s : PacketBuffer) : Op → Multiset Packet
  | .insertPacket packet =>
    if ¬ Ignores S s packet.seqNum ∧ (JumpClears S s packet.seqNum ∨ s.FullFor packet.seqNum) then
      s.bodies
    else 0
  | .insertPadding _ => 0
  | .clearTo seqNum => s.clearedTo S seqNum
  | .clear => s.bodies
  | .forceSpsPpsIdrIsH264Keyframe => 0
  | .resetSpsPpsIdrIsH264Keyframe => 0

variable {S}

/-- **The packets that are accepted.** -/
theorem acceptedBy_insertPacket (h : Housed lo hi s) (packet : Packet) :
    acceptedBy S s (.insertPacket packet) = if Accepts S s packet.seqNum then {packet.body} else 0 := by
  have hiff : Accepts S s packet.seqNum ↔ ¬ Ignores S s packet.seqNum ∧
      (JumpClears S s packet.seqNum ∨ ¬ s.HasStored packet.seqNum ∧ ¬ s.FullFor packet.seqNum) := Iff.rfl
  cases ha : s.accept S packet.seqNum with
  | none =>
    rw [if_neg fun h => (hiff.mp h).1 (accept_eq_none.mp ha)]
    simp only [acceptedBy, ha]
  | some t =>
    have hknown : ¬ Ignores S s packet.seqNum := fun h => by
      rw [accept_eq_none.mpr h] at ha
      cases ha
    rw [and_iff_right hknown] at hiff
    obtain ⟨hsize, hmax, hslot⟩ := accept_slots ha
    have hfull := makeRoom_full_iff (h.thins (thins_accept ha)) packet.seqNum
    have hduplicate := makeRoom_duplicate_iff (s := t) packet.seqNum
    rw [FullFor, hsize, hmax, hslot] at hfull
    rw [HasStored, index, hsize, hslot] at hduplicate
    simp only [acceptedBy, ha]
    by_cases hjump : JumpClears S s packet.seqNum
    · rw [if_pos hjump] at hfull hduplicate
      rw [if_pos (hiff.mpr (.inl hjump))]
      cases hr : t.makeRoom packet.seqNum with
      | free => rfl
      | duplicate => simp [hr] at hduplicate
      | full u => exact absurd (hfull.mp ⟨u, hr⟩) (by simp)
    · rw [if_neg hjump] at hfull hduplicate
      rw [or_iff_right hjump] at hiff
      cases hr : t.makeRoom packet.seqNum with
      | free u =>
        refine (if_pos (hiff.mpr ⟨fun hstored => ?_, fun hfor => ?_⟩)).symm
        · cases hr.symm.trans (hduplicate.mpr hstored)
        · obtain ⟨u', hu'⟩ := hfull.mpr hfor
          cases hr.symm.trans hu'
      | duplicate => exact (if_neg fun h => (hiff.mp h).1 (hduplicate.mp hr)).symm
      | full u => exact (if_neg fun h => (hiff.mp h).2 (hfull.mp ⟨u, hr⟩)).symm

/-- What was cleared for an accepted packet: everything if there is no room for it, and else what is not
there any more when it is put in. -/
theorem removedBy_accept (h : Housed lo hi s) {packet : Packet} (ha : s.accept S packet.seqNum = some t) :
    (∀ u, t.makeRoom packet.seqNum = .full u → removedBy S s (.insertPacket packet) = s.bodies) ∧
      ((∀ u, t.makeRoom packet.seqNum ≠ .full u) →
        removedBy S s (.insertPacket packet) + t.bodies = s.bodies) := by
  have hknown : ¬ Ignores S s packet.seqNum := fun h => by
    rw [accept_eq_none.mpr h] at ha
    cases ha
  obtain ⟨hsize, hmax, hslot⟩ := accept_slots ha
  have hbodies := accept_bodies ha
  have hfull := makeRoom_full_iff (h.thins (thins_accept ha)) packet.seqNum
  simp only [removedBy]
  by_cases hjump : JumpClears S s packet.seqNum
  · rw [if_pos hjump] at hbodies
    rw [if_pos ⟨hknown, .inl hjump⟩, hbodies, add_zero]
    exact ⟨fun _ _ => rfl, fun _ => rfl⟩
  · rw [if_neg hjump] at hbodies hslot
    rw [FullFor, hsize, hmax, hslot] at hfull
    refine ⟨fun u hu => if_pos ⟨hknown, .inr (hfull.mp ⟨u, hu⟩)⟩, fun hroom => ?_⟩
    rw [if_neg fun h => h.2.elim hjump fun hfor => (hfull.mpr hfor).elim hroom, hbodies, zero_add]

theorem insertPacket_balances (h : Housed lo hi s) (packet : Packet) :
    Housed lo hi (s.next S (.insertPacket packet)) ∧
      s.bodies + acceptedBy S s (.insertPacket packet) =
        returnedBy S s (.insertPacket packet) + removedBy S s (.insertPacket packet) +
          (s.next S (.insertPacket packet)).bodies := by
  rw [next, returnedBy]
  obtain ⟨ha, hres⟩ | ⟨t, ha, hcases⟩ := insertPacket_cases (S := S) s packet
  · rw [hres]
    simp only [acceptedBy, removedBy, ha, accept_eq_none.mp ha, not_true, false_and, if_false]
    exact ⟨h, by simp [bodiesOf]⟩
  · have hkept := h.thins (thins_accept ha)
    obtain ⟨hall, hleft⟩ := removedBy_accept h ha
    obtain ⟨hr, hres⟩ | ⟨u, hr, hres⟩ | ⟨u, hr, hres⟩ := hcases <;> rw [hres]
    · have hleft := hleft fun u hu => by rw [hr] at hu; cases hu
      simp only [acceptedBy, ha, hr]
      exact ⟨hkept, by simp [bodiesOf, hleft]⟩
    · obtain ⟨hhoused, _⟩ := makeRoom_full (roomier t) ⟨hkept, rfl⟩ hr
      simp only [acceptedBy, ha, hr, hall u hr]
      refine ⟨hhoused.thins (thins_clearInternal u), ?_⟩
      rw [bodies_clearInternal]
      simp [bodiesOf]
    · have hleft := hleft fun u hu => by rw [hr] at hu; cases hu
      obtain ⟨⟨hhoused, hbodies⟩, hfree⟩ := makeRoom_free (roomier t) ⟨hkept, rfl⟩ hr
      have harrived := (hhoused.store packet).thins (thins_arrived (S := S) u packet)
      obtain ⟨hlast, hframes⟩ := findFramesLoop_bodies (S := S) packet.seqNum _ packet.seqNum harrived
      rw [arrived_bodies, store_bodies hhoused hfree, hbodies] at hframes
      simp only [acceptedBy, ha, hr]
      refine ⟨hlast, ?_⟩
      rw [← hleft, add_assoc, hframes, add_left_comm, ← add_assoc]
      rfl

theorem insertPadding_balances (h : Housed lo hi s) (seqNum : UInt16) :
    Housed lo hi (s.next S (.insertPadding seqNum)) ∧
      s.bodies = returnedBy S s (.insertPadding seqNum) + (s.next S (.insertPadding seqNum)).bodies := by
  have hupdate := h.thins (thins_updateMissingPackets (S := S) s seqNum)
  rw [← updateMissingPackets_bodies (S := S) s seqNum]
  exact findFramesLoop_bodies _ _ _ (hupdate.thins (.of_slot rfl rfl rfl))

/-- **Each operation balances.** -/
theorem perform_balances (h : Housed lo hi s) (op : Op) :
    Housed lo hi (s.next S op) ∧
      s.bodies + acceptedBy S s op = returnedBy S s op + removedBy S s op + (s.next S op).bodies := by
  have hnothing : bodiesOf ([] : List (List Moved)).flatten = 0 := rfl
  cases op with
  | insertPacket packet => exact insertPacket_balances h packet
  | insertPadding seqNum =>
    obtain ⟨hlast, hframes⟩ := insertPadding_balances (S := S) h seqNum
    refine ⟨hlast, ?_⟩
    simp only [acceptedBy, removedBy, add_zero]
    exact hframes
  | clearTo seqNum =>
    refine ⟨h.thins (thins_clearTo s seqNum), ?_⟩
    simp only [next, returnedBy, perform, acceptedBy, removedBy, hnothing, zero_add, add_zero]
    exact (clearTo_balances s seqNum).symm
  | clear =>
    refine ⟨h.thins (thins_clearInternal s), ?_⟩
    simp only [next, returnedBy, perform, acceptedBy, removedBy, hnothing, zero_add, add_zero]
    exact (add_zero _).symm.trans (congrArg _ (bodies_clearInternal s).symm)
  | forceSpsPpsIdrIsH264Keyframe =>
    refine ⟨h.thins (.of_slot rfl rfl rfl), ?_⟩
    simp only [next, returnedBy, perform, acceptedBy, removedBy, hnothing, zero_add, add_zero]
    exact (bodies_congr rfl rfl).symm
  | resetSpsPpsIdrIsH264Keyframe =>
    refine ⟨h.thins (.of_slot rfl rfl rfl), ?_⟩
    simp only [next, returnedBy, perform, acceptedBy, removedBy, hnothing, zero_add, add_zero]
    exact (bodies_congr rfl rfl).symm

theorem housed_create {a b : ℕ} (hab : a ≤ b) : Housed (2 ^ a) (2 ^ b) (.create (2 ^ a) (2 ^ b)) where
  sized := ⟨⟨a, rfl⟩, ⟨b, rfl⟩, Nat.pow_le_pow_right (by omega) hab⟩
  grown := le_rfl
  limit := rfl
  placed _ _ h := by cases h

theorem housed_run {a b : ℕ} (hab : a ≤ b) {tr : List (PacketBuffer × Op)}
    (h : PacketRun S (2 ^ a) (2 ^ b) tr s) : Housed (2 ^ a) (2 ^ b) s := by
  refine h.invariant (housed_create hab) ?_
  rintro s op t hs rfl
  exact (perform_balances hs op).1

end PacketBuffer
open PacketBuffer

/-- **The slots are consistent and no packet is lost.** In every state of every run the size is a power
of two within its bounds and a packet lies in the slot of its number modulo the size; an expansion, of
that state or another with its packets in their slots, keeps them so and keeps exactly the packets; an
insertion accepts its packet exactly if it is to (`Accepts`); and the packets accepted so far are those
in the slots, those returned and those cleared (`removedBy`), each in one of them. -/
theorem packets_conserved (S : SeqNumOps) {a b : ℕ} (hab : a ≤ b) {tr : List (PacketBuffer × Op)}
    {s : PacketBuffer} (h : PacketRun S (2 ^ a) (2 ^ b) tr s) :
    (∃ k, s.size = 2 ^ k) ∧ 2 ^ a ≤ s.size ∧ s.size ≤ 2 ^ b ∧
    (∀ i p, s.slot i = some p → i < s.size ∧ p.seqNum.toNat % s.size = i) ∧
    Housed (2 ^ a) (2 ^ b) s ∧
    (∀ t u, Housed (2 ^ a) (2 ^ b) t → t.expandBufferSize = some u →
      Housed (2 ^ a) (2 ^ b) u ∧ u.packets = t.packets) ∧
    (∀ e ∈ tr, ∀ packet, e.2 = .insertPacket packet →
      acceptedBy S e.1 e.2 = if Accepts S e.1 packet.seqNum then {packet.body} else 0) ∧
    total (acceptedBy S) tr = total (returnedBy S) tr + total (removedBy S) tr + s.bodies := by
  have hs := housed_run hab h
  refine ⟨hs.sized.size, hs.grown, hs.limit ▸ hs.sized.le, fun i p hp => ?_, hs,
    fun t u ht he => ⟨ht.expand he, expand_packets ht he⟩, fun e he packet hop => ?_, ?_⟩
  · have hi := hs.placed i p hp
    exact ⟨hi ▸ index_lt hs.sized.pos p.seqNum, hi⟩
  · obtain ⟨pre, post, rfl⟩ := List.append_of_mem he
    rw [hop]
    exact acceptedBy_insertPacket (housed_run hab (h.before rfl)) packet
  · rw [← total_add, ← h.balance bodies (acceptedBy S) (fun s op => returnedBy S s op + removedBy S s op) ?_]
    · have hnew : (PacketBuffer.create (2 ^ a) (2 ^ b)).bodies = 0 := contents_empty
      rw [hnew, zero_add]
    · rintro tr s op t hr rfl
      exact (perform_balances (housed_run hab hr) op).2

/-- The second packet makes the buffer grow and is a frame of its own; the first is cleared. -/
def expandedOps : List Op :=
  [.insertPacket (vp8Packet 1 100 true false), .insertPacket (vp8Packet 3 200 true true), .clearTo 1,
    .insertPacket (vp8Packet 5 300 true false)]

def expandedRun : List (PacketBuffer × Op) :=
  Runs.history (PacketBuffer.next .halfRing) (.create (2 ^ 1) (2 ^ 3)) expandedOps

theorem packets_conserved_expanded :
    (expandedOps.foldl (PacketBuffer.next .halfRing) (.create (2 ^ 1) (2 ^ 3))).size = 4 ∧
    (total (acceptedBy .halfRing) expandedRun).card = 1 + 1 + 1 := by
  obtain ⟨_, _, _, _, _, _, _, hbooks⟩ := packets_conserved .halfRing (a := 1) (b := 3) (by decide)
    (Run.of_next (PacketBuffer.next .halfRing) (.create (2 ^ 1) (2 ^ 3)) expandedOps)
  refine ⟨by decide, ?_⟩
  rw [expandedRun, hbooks]
  decide

end WebrtcTrace.Packets
