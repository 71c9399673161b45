import WebrtcTrace.Foundations.SeqNums
import WebrtcTrace.Foundations.SlotTables
import WebrtcTrace.Packets.PacketBuffer

/-! # Where packets lie, and which neighbours the backward search trusts

`Housed` is the invariant of every run: the size is a power of two within its bounds and a packet lies
in the slot of its number. `Linked` asks more of the neighbours: the entry before a continuous packet
that does not start a frame is the packet before it, and an H.264 packet without a descriptor has its
predecessor before it wherever the timestamps agree. Whatever only takes packets out keeps both
(`Housed.thins`, `Linked.thins`), and so does an expansion (`Housed.expand`, `Linked.expand`).
-/

namespace WebrtcTrace.Packets
open SlotTables
set_option autoImplicit false

/-- The search goes back from this packet by timestamp alone. -/
def Packet.Bare (p : Packet) : Prop := p.isGeneric = false ∧ p.nalus.isSome = true

/-- The fields the search and the continuity test read. -/
structure Packet.Alike (p q : Packet) : Prop where
  seqNum : q.seqNum = p.seqNum
  timestamp : q.timestamp = p.timestamp
  first : q.isFirstPacketInFrame = p.isFirstPacketInFrame
  last : q.isLastPacketInFrame = p.isLastPacketInFrame
  continuous : q.continuous = p.continuous
  generic : q.isGeneric = p.isGeneric
  nalus : q.nalus = p.nalus

theorem Packet.Alike.refl (p : Packet) : p.Alike p := ⟨rfl, rfl, rfl, rfl, rfl, rfl, rfl⟩

theorem Packet.Alike.trans {p q r : Packet} (h : p.Alike q) (h' : q.Alike r) : p.Alike r where
  seqNum := h'.seqNum.trans h.seqNum
  timestamp := h'.timestamp.trans h.timestamp
  first := h'.first.trans h.first
  last := h'.last.trans h.last
  continuous := h'.continuous.trans h.continuous
  generic := h'.generic.trans h.generic
  nalus := h'.nalus.trans h.nalus

theorem Packet.Alike.bare {p q : Packet} (h : p.Alike q) : q.Bare ↔ p.Bare := by
  rw [Packet.Bare, Packet.Bare, h.generic, h.nalus]

variable {S : SeqNumOps}

namespace PacketBuffer
variable {s t u : PacketBuffer} {i j : ℕ} {p q : Packet}

/-! ## Slots -/

@[simp] theorem setSlot_slot (s : PacketBuffer) (i : ℕ) (e : Option Packet) (j : ℕ) :
    (s.setSlot i e).slot j = if j = i then e else s.slot j := by
  rw [setSlot]
  exact Function.update_apply s.slot i e j

@[simp] theorem setSlot_index (s : PacketBuffer) (i : ℕ) (e : Option Packet) (n : UInt16) :
    (s.setSlot i e).index n = s.index n := rfl

@[simp] theorem setSlot_prevIndex (s : PacketBuffer) (i : ℕ) (e : Option Packet) (j : ℕ) :
    (s.setSlot i e).prevIndex j = s.prevIndex j := rfl

/-- The sizes the constructor asks for. -/
structure Sized (s : PacketBuffer) : Prop where
  size : ∃ a, s.size = 2 ^ a
  maxSize : ∃ b, s.maxSize = 2 ^ b
  le : s.size ≤ s.maxSize

theorem Sized.pos (h : Sized s) : 0 < s.size := by
  obtain ⟨a, ha⟩ := h.size
  rw [ha]
  exact Nat.two_pow_pos a

/-- Below the maximum there is room for a buffer of twice the size. -/
theorem Sized.double (h : Sized s) (hne : s.size ≠ s.maxSize) : 2 * s.size ≤ s.maxSize := by
  obtain ⟨a, ha⟩ := h.size
  obtain ⟨b, hb⟩ := h.maxSize
  have hle := h.le
  rw [ha, hb] at hle hne ⊢
  have hab : a ≤ b := (Nat.pow_le_pow_iff_right (by omega)).mp hle
  have hlt : a + 1 ≤ b := by
    obtain rfl | hlt := Nat.eq_or_lt_of_le hab
    · exact absurd rfl hne
    · exact hlt
  rw [← Nat.pow_succ']
  exact Nat.pow_le_pow_right (by omega) hlt

theorem index_congr (h : t.size = s.size) (n : UInt16) : t.index n = s.index n := by
  rw [index, index, h]

theorem prevIndex_congr (h : t.size = s.size) (i : ℕ) : t.prevIndex i = s.prevIndex i := by
  rw [prevIndex, prevIndex, h]

theorem prevIndex_ne (h : 1 < s.size) : s.prevIndex i ≠ i := by
  unfold prevIndex
  split_ifs <;> omega

/-- Every packet lies in the slot of its number. -/
def Placed (s : PacketBuffer) : Prop := ∀ i p, s.slot i = some p → s.index p.seqNum = i

/-- The packets lie in their slots, in a buffer that has grown from `lo` and may grow up to `hi`. -/
structure Housed (lo hi : ℕ) (s : PacketBuffer) : Prop where
  sized : Sized s
  grown : lo ≤ s.size
  limit : s.maxSize = hi
  placed : Placed s

/-- The packet of this number is in the buffer. -/
def Stored (s : PacketBuffer) (n : UInt16) : Prop := ∃ p, s.slot (s.index n) = some p ∧ p.seqNum = n

/-- What the entry `q` before the entry `p` must be for the search to go on from `p` to `q`. -/
structure Trusts (p q : Packet) : Prop where
  continued : p.continuous = true → p.isFirstPacketInFrame = false →
    q.seqNum + 1 = p.seqNum ∧ (q.continuous = true ∨ q.isFirstPacketInFrame = true)
  bare : p.Bare → q.timestamp = p.timestamp →
    q.seqNum + 1 = p.seqNum ∧
      (q.isGeneric = true → q.continuous = true ∨ q.isFirstPacketInFrame = true)

structure Linked (s : PacketBuffer) : Prop where
  sized : Sized s
  placed : Placed s
  trusts : ∀ i p q, s.slot i = some p → s.slot (s.prevIndex i) = some q → s.prevIndex i ≠ i →
    Trusts p q

variable {lo hi : ℕ}

theorem Linked.housed (h : Linked s) : Housed s.size s.maxSize s := ⟨h.sized, le_rfl, rfl, h.placed⟩

/-! ## Taking packets out -/

/-- `t` has no packets but those of `s`, in their slots. -/
structure Thins (s t : PacketBuffer) : Prop where
  size : t.size = s.size
  maxSize : t.maxSize = s.maxSize
  slot : ∀ i q, t.slot i = some q → ∃ p, s.slot i = some p ∧ p.Alike q

theorem Thins.refl (s : PacketBuffer) : Thins s s := ⟨rfl, rfl, fun _ q h => ⟨q, h, .refl q⟩⟩

theorem Thins.of_slot (hsize : t.size = s.size) (hmax : t.maxSize = s.maxSize)
    (hslot : t.slot = s.slot) : Thins s t :=
  ⟨hsize, hmax, fun i q h => ⟨q, by rwa [hslot] at h, .refl q⟩⟩

theorem Thins.trans (h : Thins s t) (h' : Thins t u) : Thins s u where
  size := h'.size.trans h.size
  maxSize := h'.maxSize.trans h.maxSize
  slot i r hr := by
    obtain ⟨q, hq, hqr⟩ := h'.slot i r hr
    obtain ⟨p, hp, hpq⟩ := h.slot i q hq
    exact ⟨p, hp, hpq.trans hqr⟩

theorem Trusts.alike {p' q' : Packet} (h : Trusts p q) (hp : p.Alike p') (hq : q.Alike q') :
    Trusts p' q' where
  continued hc hf := by
    rw [hp.continuous] at hc
    rw [hp.first] at hf
    rw [hq.seqNum, hp.seqNum, hq.continuous, hq.first]
    exact h.continued hc hf
  bare hb ht := by
    rw [hq.timestamp, hp.timestamp] at ht
    rw [hq.seqNum, hp.seqNum, hq.continuous, hq.first, hq.generic]
    exact h.bare (hp.bare.mp hb) ht

theorem Housed.thins (h : Housed lo hi s) (ht : Thins s t) : Housed lo hi t where
  sized := by
    refine ⟨?_, ?_, ?_⟩
    · rw [ht.size]
      exact h.sized.size
    · rw [ht.maxSize]
      exact h.sized.maxSize
    · rw [ht.size, ht.maxSize]
      exact h.sized.le
  grown := h.grown.trans_eq ht.size.symm
  limit := ht.maxSize.trans h.limit
  placed i q hq := by
    obtain ⟨p, hp, hpq⟩ := ht.slot i q hq
    rw [index_congr ht.size, hpq.seqNum]
    exact h.placed i p hp

theorem Linked.thins (h : Linked s) (ht : Thins s t) : Linked t where
  sized := (h.housed.thins ht).sized
  placed := (h.housed.thins ht).placed
  trusts i p' q' hp' hq' hne := by
    rw [prevIndex_congr ht.size] at hq' hne
    obtain ⟨p, hp, hpp⟩ := ht.slot i p' hp'
    obtain ⟨q, hq, hqq⟩ := ht.slot _ q' hq'
    exact (h.trusts i p q hp hq hne).alike hpp hqq

theorem thins_setSlot_none (s : PacketBuffer) (i : ℕ) : Thins s (s.setSlot i none) := by
  refine ⟨rfl, rfl, fun j q hq => ?_⟩
  rw [setSlot_slot] at hq
  split_ifs at hq
  exact ⟨q, hq, .refl q⟩

theorem thins_clearInternal (s : PacketBuffer) : Thins s s.clearInternal :=
  ⟨rfl, rfl, fun _ _ h => by cases h⟩

theorem thins_clearToLoop (seqNum : UInt16) (n : ℕ) :
    ∀ s : PacketBuffer, Thins s (clearToLoop S seqNum n s) := by
  induction n with
  | zero => exact fun s => .refl s
  | succ n ih =>
    intro s
    refine Thins.trans ?_ (ih _)
    split_ifs
    · exact (thins_setSlot_none s _).trans (.of_slot rfl rfl rfl)
    · exact .of_slot rfl rfl rfl

theorem thins_clearTo (s : PacketBuffer) (seqNum : UInt16) : Thins s (s.clearTo S seqNum) := by
  unfold clearTo
  split_ifs
  · exact .refl s
  · exact .refl s
  · exact (thins_clearToLoop _ _ s).trans (.of_slot rfl rfl rfl)

theorem thins_updateMissingPackets (s : PacketBuffer) (seqNum : UInt16) :
    Thins s (s.updateMissingPackets S seqNum) := by
  unfold updateMissingPackets
  dsimp only
  split_ifs <;> exact .of_slot rfl rfl rfl

theorem thins_describeFirst (s : PacketBuffer) (b : BackwardSearch) :
    Thins s (s.describeFirst b) := by
  refine ⟨rfl, rfl, fun j q hq => ?_⟩
  rw [describeFirst, setSlot_slot] at hq
  by_cases hj : j = s.index b.startSeqNum
  · rw [if_pos hj] at hq
    obtain ⟨p, hp, rfl⟩ := Option.map_eq_some_iff.mp hq
    refine ⟨p, by rw [hj]; exact hp, ?_⟩
    split_ifs <;> exact ⟨rfl, rfl, rfl, rfl, rfl, rfl, rfl⟩
  · rw [if_neg hj] at hq
    exact ⟨q, hq, .refl q⟩

theorem thins_moveOut (first last : UInt16) (n : ℕ) :
    ∀ (j : UInt16) (s : PacketBuffer), Thins s (moveOut first last n j s).2 := by
  induction n with
  | zero => exact fun _ s => .refl s
  | succ n ih => exact fun j s => (thins_setSlot_none s _).trans (ih _ _)

theorem thins_completeFrame (s : PacketBuffer) (start seqNum : UInt16) (entry : Packet) :
    Thins s (s.completeFrame S start seqNum entry).state := by
  unfold completeFrame
  split
  · exact .refl s
  · next b _ =>
    have hb : Thins s (if b.isH264Descriptor then s.describeFirst b else s) := by
      split_ifs
      · exact thins_describeFirst s b
      · exact .refl s
    dsimp only
    generalize (if b.isH264Descriptor then s.describeFirst b else s) = s' at hb
    split_ifs
    · exact hb
    · exact (hb.trans (thins_moveOut _ _ _ _ _)).trans (.of_slot rfl rfl rfl)
    · exact hb

/-! ## Expanding -/

theorem rehash_eq (s : PacketBuffer) (newSize : ℕ) :
    s.rehash newSize = placeAll (fun p : Packet => p.seqNum.toNat % newSize) s.size s.slot := by
  have hentry : s.moveEntry newSize = fun slots i =>
      place (fun p : Packet => p.seqNum.toNat % newSize) slots (s.slot i) := by
    funext slots i
    unfold moveEntry
    cases s.slot i <;> rfl
  rw [rehash, hentry, placeAll]

/-- A packet of the larger buffer was in the slot that its new slot comes from. -/
theorem rehash_some (h : Placed s) (hp : s.rehash (2 * s.size) i = some p) :
    s.slot (i % s.size) = some p ∧ p.seqNum.toNat % (2 * s.size) = i := by
  rw [rehash_eq] at hp
  obtain ⟨⟨j, _, hj⟩, hi⟩ := placeAll_some hp
  have hplace := h j p hj
  rw [index] at hplace
  refine ⟨?_, hi⟩
  rw [← hi, Nat.mod_mul_left_mod, hplace]
  exact hj

theorem expandBufferSize_some (h : Sized s) (he : s.expandBufferSize = some t) :
    2 * s.size ≤ s.maxSize ∧ t = { s with size := 2 * s.size, slot := s.rehash (2 * s.size) } := by
  unfold expandBufferSize at he
  split_ifs at he with hne
  have hdouble := h.double hne
  rw [min_eq_right hdouble] at he
  exact ⟨hdouble, (Option.some.inj he).symm⟩

theorem Housed.expand (h : Housed lo hi s) (he : s.expandBufferSize = some t) : Housed lo hi t := by
  obtain ⟨hdouble, rfl⟩ := expandBufferSize_some h.sized he
  have hgrown := h.grown
  refine ⟨⟨?_, h.sized.maxSize, hdouble⟩, ?_, h.limit, fun i p hp => (rehash_some h.placed hp).2⟩
  · obtain ⟨a, ha⟩ := h.sized.size
    exact ⟨a + 1, by rw [Nat.pow_succ', ← ha]⟩
  · dsimp only
    omega

theorem prevIndex_mod {m : ℕ} (hm : 0 < m) (hs : s.size = m) (ht : t.size = 2 * m)
    (hi : i < 2 * m) : t.prevIndex i % m = s.prevIndex (i % m) := by
  unfold prevIndex
  rw [hs, ht]
  obtain hlt | hge := Nat.lt_or_ge i m
  · rw [Nat.mod_eq_of_lt hlt]
    split_ifs
    · exact Nat.mod_eq_of_lt (by omega)
    · rw [show 2 * m - 1 = m - 1 + m by omega, Nat.add_mod_right, Nat.mod_eq_of_lt (by omega)]
  · obtain ⟨k, rfl⟩ := Nat.exists_eq_add_of_le hge
    rw [Nat.add_mod_left, Nat.mod_eq_of_lt (by omega : k < m), if_pos (by omega)]
    split_ifs
    · rw [show m + k - 1 = m + (k - 1) by omega, Nat.add_mod_left, Nat.mod_eq_of_lt (by omega)]
    · rw [show m + k - 1 = m - 1 by omega, Nat.mod_eq_of_lt (by omega)]

/-- Neighbours in the larger buffer were neighbours before. -/
theorem Linked.expand (h : Linked s) (he : s.expandBufferSize = some t) : Linked t := by
  have hhoused := h.housed.expand he
  refine ⟨hhoused.sized, hhoused.placed, fun i p q hp hq hne => ?_⟩
  obtain ⟨_, rfl⟩ := expandBufferSize_some h.sized he
  obtain ⟨hps, hpi⟩ := rehash_some h.placed hp
  obtain ⟨hqs, hqi⟩ := rehash_some h.placed hq
  have hpos := h.sized.pos
  have hi : i < 2 * s.size := hpi ▸ Nat.mod_lt _ (by omega)
  have hprev := prevIndex_mod hpos rfl rfl hi (s := s)
    (t := { s with size := 2 * s.size, slot := s.rehash (2 * s.size) })
  rw [hprev] at hqs
  refine h.trusts (i % s.size) p q hps hqs fun hsame => hne ?_
  -- one packet cannot be its own neighbour
  rw [hsame, hps] at hqs
  obtain rfl := Option.some.inj hqs
  rw [← hqi, hpi]

/-- What one expansion keeps is kept by expanding until a slot is free. -/
theorem expandUntilFree_keeps {I : PacketBuffer → Prop}
    (hI : ∀ s t, I s → s.expandBufferSize = some t → I t) (seqNum : UInt16) (fuel : ℕ) :
    ∀ {s : PacketBuffer}, I s → I (expandUntilFree seqNum fuel s) := by
  induction fuel with
  | zero => exact fun h => h
  | succ fuel ih =>
    intro s h
    unfold expandUntilFree
    cases he : s.expandBufferSize with
    | none => exact h
    | some t =>
      dsimp only
      split_ifs
      · exact ih (hI s t h he)
      · exact hI s t h he

/-! ## Making room and storing -/

theorem thins_accept {seqNum : UInt16} (ha : s.accept S seqNum = some t) : Thins s t := by
  unfold PacketBuffer.accept at ha
  split_ifs at ha <;> obtain rfl := Option.some.inj ha
  · exact .of_slot rfl rfl rfl
  · exact (thins_clearInternal s).trans (.of_slot rfl rfl rfl)
  · exact .of_slot rfl rfl rfl
  · exact .refl s

theorem makeRoom_free {I : PacketBuffer → Prop}
    (hI : ∀ s t, I s → s.expandBufferSize = some t → I t) {seqNum : UInt16} (h : I s)
    (hr : s.makeRoom seqNum = .free t) : I t ∧ t.slot (t.index seqNum) = none := by
  unfold makeRoom at hr
  cases hs : s.slot (s.index seqNum) with
  | none =>
    rw [hs] at hr
    obtain rfl := Room.free.inj hr
    exact ⟨h, hs⟩
  | some q =>
    simp only [hs] at hr
    split_ifs at hr with _ hfull
    obtain rfl := Room.free.inj hr
    exact ⟨expandUntilFree_keeps hI seqNum s.maxSize h, by simpa using hfull⟩

theorem makeRoom_full {I : PacketBuffer → Prop}
    (hI : ∀ s t, I s → s.expandBufferSize = some t → I t) {seqNum : UInt16} (h : I s)
    (hr : s.makeRoom seqNum = .full t) : I t := by
  unfold makeRoom at hr
  cases hs : s.slot (s.index seqNum) with
  | none =>
    rw [hs] at hr
    cases hr
  | some q =>
    simp only [hs] at hr
    split_ifs at hr
    obtain rfl := Room.full.inj hr
    exact expandUntilFree_keeps hI seqNum s.maxSize h

variable (S) in
/-- The buffer in which `InsertPacket` looks for frames. -/
def arrived (s : PacketBuffer) (packet : Packet) : PacketBuffer :=
  let t := (s.store packet).updateMissingPackets S packet.seqNum
  let oldest := packet.seqNum - UInt16.ofNat (t.size / 4)
  { t with receivedPadding := OrderedKeys.fromLower S.descending oldest t.receivedPadding }

/-- **What `InsertPacket` does.** -/
theorem insertPacket_cases (s : PacketBuffer) (packet : Packet) :
    (s.accept S packet.seqNum = none ∧ s.perform S (.insertPacket packet) = ([], s)) ∨
      ∃ t, s.accept S packet.seqNum = some t ∧
      ((t.makeRoom packet.seqNum = .duplicate ∧ s.perform S (.insertPacket packet) = ([], t)) ∨
        (∃ u, t.makeRoom packet.seqNum = .full u ∧
          s.perform S (.insertPacket packet) = ([], u.clearInternal)) ∨
        ∃ u, t.makeRoom packet.seqNum = .free u ∧
          s.perform S (.insertPacket packet) = (u.arrived S packet).findFrames S packet.seqNum) := by
  simp only [perform, insertPacket]
  cases ha : s.accept S packet.seqNum with
  | none => exact .inl ⟨rfl, rfl⟩
  | some t =>
    refine .inr ⟨t, rfl, ?_⟩
    cases hr : t.makeRoom packet.seqNum with
    | duplicate => exact .inl ⟨rfl, by simp only [hr]⟩
    | full u => exact .inr (.inl ⟨u, rfl, by simp only [hr]⟩)
    | free u => exact .inr (.inr ⟨u, rfl, by simp only [hr]; rfl⟩)

/-- A packet put into this buffer would lie between neighbours the search may trust. -/
structure Fits (s : PacketBuffer) (packet : Packet) : Prop where
  before : ∀ q, s.slot (s.prevIndex (s.index packet.seqNum)) = some q →
    Trusts { packet with continuous := false } q
  after : ∀ i r, s.slot i = some r → s.prevIndex i = s.index packet.seqNum →
    Trusts r { packet with continuous := false }

theorem thins_arrived (s : PacketBuffer) (packet : Packet) :
    Thins (s.store packet) (s.arrived S packet) :=
  (thins_updateMissingPackets _ packet.seqNum).trans (.of_slot rfl rfl rfl)

theorem Housed.store (h : Housed lo hi s) (packet : Packet) : Housed lo hi (s.store packet) where
  sized := ⟨h.sized.size, h.sized.maxSize, h.sized.le⟩
  grown := h.grown
  limit := h.limit
  placed i p hp := by
    rw [PacketBuffer.store, setSlot_slot] at hp
    split_ifs at hp with hi
    · obtain rfl := Option.some.inj hp
      exact hi.symm
    · exact h.placed i p hp

theorem Linked.store {packet : Packet} (h : Linked s) (hfits : Fits s packet) :
    Linked (s.store packet) where
  sized := (h.housed.store packet).sized
  placed := (h.housed.store packet).placed
  trusts i p q hp hq hne := by
    rw [PacketBuffer.store, setSlot_slot] at hp hq
    rw [setSlot_prevIndex] at hq
    rw [PacketBuffer.store, setSlot_prevIndex] at hne
    split_ifs at hp hq with hi hprev hprev
    · exact absurd (hprev.trans hi.symm) hne
    · obtain rfl := Option.some.inj hp
      exact hfits.before q (hi ▸ hq)
    · obtain rfl := Option.some.inj hq
      exact hfits.after i p hp hprev
    · exact h.trusts i p q hp hq hne

/-! ## The continuity flag -/

theorem potentialNewFrame_iff {n : UInt16} : s.potentialNewFrame n = true ↔
    ∃ p, s.slot (s.index n) = some p ∧ p.seqNum = n ∧ (p.isFirstPacketInFrame = true ∨
      ∃ q, s.slot (s.prevIndex (s.index n)) = some q ∧ q.seqNum + 1 = n ∧
        q.timestamp = p.timestamp ∧ q.continuous = true) := by
  unfold potentialNewFrame
  dsimp only
  cases hp : s.slot (s.index n) with
  | none => simp
  | some p =>
    simp only [Option.some.injEq, exists_eq_left']
    by_cases hn : p.seqNum = n
    · rw [if_neg (not_not.mpr hn)]
      simp only [hn, true_and]
      cases hf : p.isFirstPacketInFrame with
      | true => simp
      | false =>
        simp only [Bool.false_eq_true, if_false, false_or]
        cases hq : s.slot (s.prevIndex (s.index n)) with
        | none => simp
        | some q =>
          have hstep : q.seqNum + 1 = n ↔ q.seqNum = n - 1 := by
            constructor <;> intro h <;> grind
          simp only [Option.some.injEq, exists_eq_left', hstep]
          split_ifs <;> simp_all
    · rw [if_pos hn]
      simp [hn]

theorem Linked.setContinuous {n : UInt16} (h : Linked s) (hn : s.potentialNewFrame n = true) :
    Linked (s.setContinuous n) := by
  obtain ⟨e, he, hen, hcont⟩ := potentialNewFrame_iff.mp hn
  have hset : s.setContinuous n = s.setSlot (s.index n) (some { e with continuous := true }) := by
    rw [PacketBuffer.setContinuous, he]
    rfl
  rw [hset]
  refine ⟨⟨h.sized.size, h.sized.maxSize, h.sized.le⟩, fun i p hp => ?_, fun i p q hp hq hne => ?_⟩
  · rw [setSlot_slot] at hp
    split_ifs at hp with hi
    · obtain rfl := Option.some.inj hp
      rw [hi, ← hen]
      rfl
    · exact h.placed i p hp
  · rw [setSlot_slot] at hp hq
    rw [setSlot_prevIndex] at hq hne
    split_ifs at hp hq with hi hprev hprev
    · exact absurd (hprev.trans hi.symm) hne
    · obtain rfl := Option.some.inj hp
      subst hi
      have htrust := h.trusts _ e q he hq hne
      refine ⟨fun _ hf => ?_, htrust.bare⟩
      obtain hfirst | ⟨q', hq', hseq, _, hqc⟩ := hcont
      · exact absurd hfirst (by simpa using hf)
      · obtain rfl := Option.some.inj (hq.symm.trans hq')
        exact ⟨hseq.trans hen.symm, .inl hqc⟩
    · obtain rfl := Option.some.inj hq
      rw [← hprev] at he
      have htrust := h.trusts i p e hp he hne
      exact ⟨fun hc hf => ⟨(htrust.continued hc hf).1, .inl rfl⟩,
        fun hb ht => ⟨(htrust.bare hb ht).1, fun _ => .inl rfl⟩⟩
    · exact h.trusts i p q hp hq hne

end PacketBuffer
end WebrtcTrace.Packets
