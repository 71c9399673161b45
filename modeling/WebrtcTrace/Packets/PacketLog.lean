import WebrtcTrace.Packets.NumberWindow
import Mathlib.Data.List.Forall2

/-! # `packet_buffer_inserts.csv` and `packet_buffer_events.csv`

`InsertPacket` writes a row for each packet it stores, and one for the packets it returns.
`InsertPadding` returns packets too and writes nothing, so the counts of `frame_assembled` add up to the
packets returned as long as no padding number completes a frame. Whether one does shows in the state
before (`PaddingCompletes`): a walk from the next number on, over padding and over packets that continue
each other, gets to the last packet of a frame whose start the search finds (`findFramesLoop_finds`).
-/

namespace WebrtcTrace.Packets
open OrderedKeys Runs SeqNums
set_option autoImplicit false

/-! ## What the walk reads -/

/-- A packet without the mark of `FindFrames`. -/
def Packet.unmarked (p : Packet) : Packet := { p with continuous := false }

namespace PacketBuffer
variable {S : SeqNumOps} {s t : PacketBuffer} {lo hi : ℕ} {m n : UInt16}

variable (S) in
/-- The number is in `received_padding_`. -/
def IsPadding (s : PacketBuffer) (n : UInt16) : Prop :=
  OrderedKeys.contains S.descending n s.receivedPadding = true

/-- The packet continues the frame of the one before it. -/
def Follows (s : PacketBuffer) (n : UInt16) : Prop :=
  ∃ p q, s.slot (s.index n) = some p ∧ p.seqNum = n ∧
    s.slot (s.prevIndex (s.index n)) = some q ∧ q.seqNum + 1 = n ∧ q.timestamp = p.timestamp

/-- The backward search from a packet. -/
def searchFrom (s : PacketBuffer) (n : UInt16) (p : Packet) : Option BackwardSearch :=
  s.searchBack p.timestamp s.size (s.index n)
    { startSeqNum := n, isH264Descriptor := p.isH264 && !p.isGeneric }

variable (S) in
/-- A delta frame of H.264 waits for the numbers that are missing before it. -/
def withheld (s : PacketBuffer) (b : BackwardSearch) : Bool :=
  b.isH264Descriptor && !b.isH264Keyframe &&
    OrderedKeys.someUpTo S.descending b.startSeqNum s.missingPackets

variable (S) in
/-- The search from the last packet of a frame finds where it starts, and nothing holds it back. -/
def Whole (s : PacketBuffer) (n : UInt16) : Prop :=
  ∃ p, s.slot (s.index n) = some p ∧ p.isLastPacketInFrame = true ∧
    ∃ b, s.searchFrom n p = some b ∧ s.withheld S b = false ∧
      (b.isH264Descriptor || b.fullFrameFound) = true

variable (S) in
/-- `FindFrames` goes no further than this last packet of a frame. -/
def GivesUp (s : PacketBuffer) (n : UInt16) : Prop :=
  ∃ p, s.slot (s.index n) = some p ∧ p.isLastPacketInFrame = true ∧
    ∀ b, s.searchFrom n p = some b → s.withheld S b = true

variable (S) in
/-- The walk from `n` passes the number `j` steps on: it is padding, its packet starts a frame or
continues one marked before, or it continues the packet that the walk has just passed. -/
def Passes (s : PacketBuffer) (n : UInt16) (j : ℕ) : Prop :=
  IsPadding S s (n + UInt16.ofNat j) ∨ s.potentialNewFrame (n + UInt16.ofNat j) = true ∨
    ∃ i, j = i + 1 ∧ ¬ IsPadding S s (n + UInt16.ofNat i) ∧ Follows s (n + UInt16.ofNat j)

variable (S) in
/-- The walk from `n` completes a frame `k` steps on. -/
structure CompletesAt (s : PacketBuffer) (n : UInt16) (k : ℕ) : Prop where
  passes : ∀ j ≤ k, Passes S s n j
  goesOn : ∀ j < k, IsPadding S s (n + UInt16.ofNat j) ∨ ¬ GivesUp S s (n + UInt16.ofNat j)
  notPadding : ¬ IsPadding S s (n + UInt16.ofNat k)
  whole : Whole S s (n + UInt16.ofNat k)

/-! ## The marks do not matter to the search -/

/-- The buffer with its packets unmarked. -/
def unmarked (s : PacketBuffer) : PacketBuffer :=
  { s with slot := fun i => (s.slot i).map Packet.unmarked }

theorem askGeneric_unmarked (e : Option Packet) (b : BackwardSearch) :
    askGeneric (e.map Packet.unmarked) b = askGeneric e b := by
  cases e <;> rfl

theorem readHeader_unmarked (e : Option Packet) (b : BackwardSearch) :
    s.unmarked.readHeader (e.map Packet.unmarked) b = s.readHeader e b := by
  cases e <;> rfl

theorem searchBack_unmarked (frameTimestamp : UInt32) (k : ℕ) : ∀ (i : ℕ) (b : BackwardSearch),
    s.unmarked.searchBack frameTimestamp k i b = s.searchBack frameTimestamp k i b := by
  induction k with
  | zero => exact fun _ _ => rfl
  | succ k ih =>
    intro i b
    have hslot : ∀ i, s.unmarked.slot i = (s.slot i).map Packet.unmarked := fun _ => rfl
    have hfirst : ∀ e : Option Packet, ((e.map Packet.unmarked).all (·.isFirstPacketInFrame)) =
        e.all (·.isFirstPacketInFrame) := by
      intro e
      cases e <;> rfl
    have htime : ∀ e : Option Packet, ((e.map Packet.unmarked).any (·.timestamp == frameTimestamp)) =
        e.any (·.timestamp == frameTimestamp) := by
      intro e
      cases e <;> rfl
    have hprev : s.unmarked.prevIndex i = s.prevIndex i := rfl
    simp only [searchBack, hslot, hprev, askGeneric_unmarked, readHeader_unmarked, hfirst, htime,
      Option.isSome_map, ih]

theorem searchFrom_unmarked (n : UInt16) (p : Packet) :
    s.unmarked.searchFrom n p.unmarked = s.searchFrom n p := searchBack_unmarked _ _ _ _

theorem slot_of_unmarked (h : s.unmarked = t.unmarked) {i : ℕ} {p : Packet} (hp : s.slot i = some p) :
    ∃ q, t.slot i = some q ∧ p.unmarked = q.unmarked := by
  have hslot : (s.slot i).map Packet.unmarked = (t.slot i).map Packet.unmarked :=
    congrArg (fun u => u.slot i) h
  rw [hp] at hslot
  obtain ⟨q, hq, hpq⟩ := Option.map_eq_some_iff.mp hslot.symm
  exact ⟨q, hq, hpq.symm⟩

theorem searchFrom_congr (h : s.unmarked = t.unmarked) {p q : Packet} (hpq : p.unmarked = q.unmarked)
    (n : UInt16) : s.searchFrom n p = t.searchFrom n q := by
  rw [← searchFrom_unmarked, h, hpq, searchFrom_unmarked]

theorem withheld_congr (h : s.unmarked = t.unmarked) (b : BackwardSearch) :
    s.withheld S b = t.withheld S b := by
  have hmissing : s.missingPackets = t.missingPackets := congrArg (fun u => u.missingPackets) h
  rw [withheld, withheld, hmissing]

theorem index_unmarked (h : s.unmarked = t.unmarked) (n : UInt16) : s.index n = t.index n :=
  congrArg (fun u => u.index n) h

theorem isPadding_congr (h : s.unmarked = t.unmarked) : IsPadding S s n ↔ IsPadding S t n := by
  have hpadding : s.receivedPadding = t.receivedPadding := congrArg (fun u => u.receivedPadding) h
  rw [IsPadding, IsPadding, hpadding]

theorem Whole.of_unmarked (h : s.unmarked = t.unmarked) (hw : Whole S s n) : Whole S t n := by
  obtain ⟨p, hp, hlast, b, hb, hfree, hfound⟩ := hw
  obtain ⟨q, hq, hpq⟩ := slot_of_unmarked h hp
  have hlast' : p.isLastPacketInFrame = q.isLastPacketInFrame :=
    congrArg (fun r => r.isLastPacketInFrame) hpq
  refine ⟨q, index_unmarked h n ▸ hq, hlast' ▸ hlast, b, ?_, ?_, hfound⟩
  · rw [← searchFrom_congr h hpq, hb]
  · rw [← withheld_congr h, hfree]

theorem whole_iff {p : Packet} (hp : s.slot (s.index n) = some p) :
    Whole S s n ↔ p.isLastPacketInFrame = true ∧ ∃ b, s.searchFrom n p = some b ∧
      s.withheld S b = false ∧ (b.isH264Descriptor || b.fullFrameFound) = true := by
  simp only [Whole, hp, Option.some.injEq, exists_eq_left']

theorem givesUp_iff {p : Packet} (hp : s.slot (s.index n) = some p) :
    GivesUp S s n ↔ p.isLastPacketInFrame = true ∧
      ∀ b, s.searchFrom n p = some b → s.withheld S b = true := by
  simp only [GivesUp, hp, Option.some.injEq, exists_eq_left']

theorem GivesUp.of_unmarked (h : s.unmarked = t.unmarked) (hg : GivesUp S s n) : GivesUp S t n := by
  obtain ⟨p, hp, hlast, hstop⟩ := hg
  obtain ⟨q, hq, hpq⟩ := slot_of_unmarked h hp
  have hlast' : p.isLastPacketInFrame = q.isLastPacketInFrame :=
    congrArg (fun r => r.isLastPacketInFrame) hpq
  refine ⟨q, index_unmarked h n ▸ hq, hlast' ▸ hlast, fun b hb => ?_⟩
  rw [← searchFrom_congr h hpq] at hb
  rw [← withheld_congr h, hstop b hb]

theorem Follows.of_unmarked (h : s.unmarked = t.unmarked) (hf : Follows s n) : Follows t n := by
  obtain ⟨p, q, hp, hpn, hq, hqn, htime⟩ := hf
  obtain ⟨p', hp', hpp⟩ := slot_of_unmarked h hp
  obtain ⟨q', hq', hqq⟩ := slot_of_unmarked h hq
  have hprev : s.prevIndex (s.index n) = t.prevIndex (t.index n) :=
    congrArg (fun u => u.prevIndex (u.index n)) h
  have hp_num : p.seqNum = p'.seqNum := congrArg (fun r => r.seqNum) hpp
  have hq_num : q.seqNum = q'.seqNum := congrArg (fun r => r.seqNum) hqq
  have hp_time : p.timestamp = p'.timestamp := congrArg (fun r => r.timestamp) hpp
  have hq_time : q.timestamp = q'.timestamp := congrArg (fun r => r.timestamp) hqq
  exact ⟨p', q', index_unmarked h n ▸ hp', hp_num ▸ hpn, hprev ▸ hq', hq_num ▸ hqn,
    hq_time.symm.trans (htime.trans hp_time)⟩

theorem setContinuous_unmarked (s : PacketBuffer) (n : UInt16) :
    (s.setContinuous n).unmarked = s.unmarked := by
  have hslot : (fun i => ((s.setContinuous n).slot i).map Packet.unmarked) =
      fun i => (s.slot i).map Packet.unmarked := by
    funext i
    rw [setContinuous, setSlot_slot]
    split_ifs with hi
    · rw [hi, Option.map_map]
      rfl
    · rfl
  rw [unmarked, hslot]
  rfl

/-! ## The walk -/

theorem setContinuous_slot (s : PacketBuffer) (n : UInt16) (i : ℕ) :
    (s.setContinuous n).slot i =
      (s.slot i).map fun p => { p with continuous := p.continuous || i == s.index n } := by
  rw [setContinuous, setSlot_slot]
  split_ifs with hi
  · rw [hi, beq_self_eq_true]
    simp only [Bool.or_true]
  · rw [beq_false_of_ne hi]
    simp only [Bool.or_false]
    exact Option.map_id'.symm

/-- **A mark lets the next packet continue the frame**, and no other. -/
theorem potentialNewFrame_setContinuous (hs : Placed s) (hn : s.potentialNewFrame n = true) :
    (s.setContinuous n).potentialNewFrame m = true ↔
      s.potentialNewFrame m = true ∨ m = n + 1 ∧ Follows s m := by
  have hindex : (s.setContinuous n).index m = s.index m := rfl
  have hprev : ∀ i, (s.setContinuous n).prevIndex i = s.prevIndex i := fun _ => rfl
  have hmarked : ∀ {i : ℕ} {p : Packet}, s.slot i = some p → (s.setContinuous n).slot i =
      some { p with continuous := p.continuous || i == s.index n } := by
    intro i p hp
    rw [setContinuous_slot, hp, Option.map_some]
  rw [potentialNewFrame_iff, potentialNewFrame_iff, hindex, hprev]
  constructor
  · rintro ⟨_, hp', hpm, hcont⟩
    rw [setContinuous_slot] at hp'
    obtain ⟨p, hp, rfl⟩ := Option.map_eq_some_iff.mp hp'
    obtain hfirst | ⟨_, hq', hqm, htime, hmark⟩ := hcont
    · exact .inl ⟨p, hp, hpm, .inl hfirst⟩
    · rw [setContinuous_slot] at hq'
      obtain ⟨q, hq, rfl⟩ := Option.map_eq_some_iff.mp hq'
      obtain hcont | hi := (Bool.or_eq_true _ _).mp hmark
      · exact .inl ⟨p, hp, hpm, .inr ⟨q, hq, hqm, htime, hcont⟩⟩
      · -- the packet before is the one that has just been marked
        obtain ⟨e, he, hen, _⟩ := potentialNewFrame_iff.mp hn
        have hqe := hq
        rw [beq_iff_eq.mp hi, he] at hqe
        obtain rfl := Option.some.inj hqe
        exact .inr ⟨by rw [← hqm, ← hen], p, e, hp, hpm, hq, hqm, htime⟩
  · rintro (⟨p, hp, hpm, hfirst | ⟨q, hq, hqm, htime, hcont⟩⟩ | ⟨rfl, p, q, hp, hpm, hq, hqm, htime⟩)
    · exact ⟨_, hmarked hp, hpm, .inl hfirst⟩
    · exact ⟨_, hmarked hp, hpm, .inr ⟨_, hmarked hq, hqm, htime, by rw [hcont]; rfl⟩⟩
    · have hqn : q.seqNum = n := by grind
      have hi := hs _ q hq
      rw [hqn] at hi
      exact ⟨_, hmarked hp, hpm, .inr ⟨_, hmarked hq, hqm, htime, by simp [hi]⟩⟩

theorem passes_zero : Passes S s n 0 ↔ IsPadding S s n ∨ s.potentialNewFrame n = true := by
  rw [Passes, SeqNums.add_zero]
  refine or_congr_right (or_iff_left ?_)
  rintro ⟨i, hi, _⟩
  cases hi

theorem passes_succ (j : ℕ) : Passes S s n (j + 1) ↔ IsPadding S s (n + 1 + UInt16.ofNat j) ∨
    s.potentialNewFrame (n + 1 + UInt16.ofNat j) = true ∨
      ¬ IsPadding S s (n + UInt16.ofNat j) ∧ Follows s (n + 1 + UInt16.ofNat j) := by
  rw [Passes, SeqNums.add_succ]
  refine or_congr_right (or_congr_right ⟨?_, fun h => ⟨j, rfl, h⟩⟩)
  rintro ⟨i, hi, h⟩
  obtain rfl := Nat.succ.inj hi
  exact h

/-- The walk passes padding. -/
theorem passes_padding (hn : IsPadding S s n) (j : ℕ) :
    Passes S s n (j + 1) ↔ Passes S s (n + 1) j := by
  rw [passes_succ]
  cases j with
  | zero =>
    rw [passes_zero, SeqNums.add_zero, SeqNums.add_zero]
    exact or_congr_right (or_iff_left fun h => h.1 hn)
  | succ j =>
    rw [passes_succ, SeqNums.add_succ (n + 1), SeqNums.add_succ n]

/-- The walk passes a packet, and marks it. -/
theorem passes_packet (hs : Placed s) (hn : s.potentialNewFrame n = true) (hnot : ¬ IsPadding S s n)
    (j : ℕ) : Passes S s n (j + 1) ↔ Passes S (s.setContinuous n) (n + 1) j := by
  have hsame := setContinuous_unmarked s n
  have hfollows : ∀ m, Follows (s.setContinuous n) m ↔ Follows s m :=
    fun m => ⟨.of_unmarked hsame, .of_unmarked hsame.symm⟩
  rw [passes_succ]
  cases j with
  | zero =>
    rw [passes_zero, SeqNums.add_zero, SeqNums.add_zero, isPadding_congr hsame,
      potentialNewFrame_setContinuous hs hn]
    exact or_congr_right (or_congr_right ⟨fun h => ⟨rfl, h.2⟩, fun h => ⟨hnot, h.2⟩⟩)
  | succ j =>
    rw [passes_succ, SeqNums.add_succ n, SeqNums.add_succ (n + 1), isPadding_congr hsame,
      isPadding_congr hsame, hfollows, potentialNewFrame_setContinuous hs hn]
    have habsorbed : n + 1 + 1 + UInt16.ofNat j = n + 1 → ¬ IsPadding S s (n + 1 + UInt16.ofNat j) := by
      intro h
      have hturn : n + 1 + UInt16.ofNat j = n := by grind
      rwa [hturn]
    constructor
    · rintro (hpad | hpot | hjoined)
      · exact .inl hpad
      · exact .inr (.inl (.inl hpot))
      · exact .inr (.inr hjoined)
    · rintro (hpad | (hpot | ⟨h, hfollows⟩) | hjoined)
      · exact .inl hpad
      · exact .inr (.inl hpot)
      · exact .inr (.inr ⟨habsorbed h, hfollows⟩)
      · exact .inr (.inr hjoined)

theorem completesAt_zero : CompletesAt S s n 0 ↔
    s.potentialNewFrame n = true ∧ ¬ IsPadding S s n ∧ Whole S s n := by
  constructor
  · intro h
    have hpass := passes_zero.mp (h.passes 0 le_rfl)
    have hnot := h.notPadding
    have hwhole := h.whole
    rw [SeqNums.add_zero] at hnot hwhole
    exact ⟨hpass.resolve_left hnot, hnot, hwhole⟩
  · rintro ⟨hpot, hnot, hwhole⟩
    refine ⟨fun j hj => ?_, fun j hj => absurd hj (Nat.not_lt_zero j), ?_, ?_⟩
    · obtain rfl := Nat.le_zero.mp hj
      exact passes_zero.mpr (.inr hpot)
    · rwa [SeqNums.add_zero]
    · rwa [SeqNums.add_zero]

/-- The first number of the walk, and the rest of it. -/
theorem completesAt_succ (hsame : t.unmarked = s.unmarked)
    (hpasses : ∀ j, Passes S s n (j + 1) ↔ Passes S t (n + 1) j) (k : ℕ) :
    CompletesAt S s n (k + 1) ↔ (IsPadding S s n ∨ s.potentialNewFrame n = true) ∧
      (IsPadding S s n ∨ ¬ GivesUp S s n) ∧ CompletesAt S t (n + 1) k := by
  have hgives : ∀ {m}, GivesUp S t m ↔ GivesUp S s m := ⟨.of_unmarked hsame, .of_unmarked hsame.symm⟩
  have hwhole : ∀ {m}, Whole S t m ↔ Whole S s m := ⟨.of_unmarked hsame, .of_unmarked hsame.symm⟩
  constructor
  · intro h
    have hfirst := h.goesOn 0 (Nat.succ_pos k)
    rw [SeqNums.add_zero] at hfirst
    refine ⟨passes_zero.mp (h.passes 0 (Nat.zero_le _)), hfirst, fun j hj => ?_, fun j hj => ?_, ?_, ?_⟩
    · exact (hpasses j).mp (h.passes (j + 1) (Nat.succ_le_succ hj))
    · have hnext := h.goesOn (j + 1) (Nat.succ_lt_succ hj)
      rwa [SeqNums.add_succ, ← isPadding_congr hsame, ← hgives] at hnext
    · have hnot := h.notPadding
      rwa [SeqNums.add_succ, ← isPadding_congr hsame] at hnot
    · have hlast := h.whole
      rwa [SeqNums.add_succ, ← hwhole] at hlast
  · rintro ⟨hpass, hfirst, h⟩
    refine ⟨fun j hj => ?_, fun j hj => ?_, ?_, ?_⟩
    · cases j with
      | zero => exact passes_zero.mpr hpass
      | succ j => exact (hpasses j).mpr (h.passes j (Nat.le_of_succ_le_succ hj))
    · cases j with
      | zero => rwa [SeqNums.add_zero]
      | succ j =>
        have hnext := h.goesOn j (Nat.lt_of_succ_lt_succ hj)
        rwa [SeqNums.add_succ, ← isPadding_congr hsame, ← hgives]
    · rw [SeqNums.add_succ, ← isPadding_congr hsame]
      exact h.notPadding
    · rw [SeqNums.add_succ, ← hwhole]
      exact h.whole

/-- **What the last packet of a frame leads to**, by what the search from it finds. -/
theorem completeFrame_ends (start : UInt16) (p : Packet) :
    (s.completeFrame S start n p).returns = true ∧
        (∀ b, s.searchFrom n p = some b → s.withheld S b = true) ∨
      (s.completeFrame S start n p).returns = false ∧
        (∃ frame, (s.completeFrame S start n p).frame = some frame) ∧
        (∃ b, s.searchFrom n p = some b ∧ s.withheld S b = false ∧
          (b.isH264Descriptor || b.fullFrameFound) = true) ∨
      s.completeFrame S start n p = ⟨s, none, false⟩ ∧
        ∃ b, s.searchFrom n p = some b ∧ s.withheld S b = false ∧
          (b.isH264Descriptor || b.fullFrameFound) = false := by
  unfold completeFrame
  cases hb : s.searchFrom n p with
  | none =>
    rw [searchFrom] at hb
    rw [hb]
    exact .inl ⟨rfl, fun b h => by cases h⟩
  | some b =>
    have hb' := hb
    rw [searchFrom] at hb'
    rw [hb']
    have hmissing : (if b.isH264Descriptor then s.describeFirst b else s).missingPackets =
        s.missingPackets := by split_ifs <;> rfl
    have hheld : (b.isH264Descriptor && !b.isH264Keyframe &&
        OrderedKeys.someUpTo S.descending b.startSeqNum s.missingPackets) = s.withheld S b := rfl
    dsimp only
    rw [hmissing, hheld]
    cases hw : s.withheld S b with
    | true => exact .inl ⟨rfl, fun b' h => Option.some.inj h ▸ hw⟩
    | false =>
      rw [if_neg Bool.false_ne_true]
      cases hfound : b.isH264Descriptor || b.fullFrameFound with
      | true => exact .inr (.inl ⟨rfl, ⟨_, rfl⟩, b, rfl, hw, hfound⟩)
      | false =>
        obtain ⟨hdesc, _⟩ := Bool.or_eq_false_iff.mp hfound
        rw [hdesc]
        exact .inr (.inr ⟨rfl, b, rfl, hw, hfound⟩)

/-- At padding the walk goes on. -/
theorem exists_completesAt_padding (hpad : IsPadding S s n) (fuel : ℕ) :
    (∃ k < fuel + 1, CompletesAt S s n k) ↔ ∃ k < fuel, CompletesAt S s (n + 1) k := by
  have hrest : ∀ k, CompletesAt S s n (k + 1) ↔ CompletesAt S s (n + 1) k := by
    intro k
    rw [completesAt_succ rfl (passes_padding hpad)]
    simp [hpad]
  rw [Nat.exists_lt_succ_left, completesAt_zero]
  simp [hrest, hpad]

/-- At a packet it completes the frame that ends here, or goes on if it may. -/
theorem exists_completesAt_packet (hs : Placed s) (hpot : s.potentialNewFrame n = true)
    (hnot : ¬ IsPadding S s n) (fuel : ℕ) :
    (∃ k < fuel + 1, CompletesAt S s n k) ↔ Whole S (s.setContinuous n) n ∨
      ¬ GivesUp S (s.setContinuous n) n ∧ ∃ k < fuel, CompletesAt S (s.setContinuous n) (n + 1) k := by
  have hsame := setContinuous_unmarked s n
  have hgives : GivesUp S s n ↔ GivesUp S (s.setContinuous n) n :=
    ⟨.of_unmarked hsame.symm, .of_unmarked hsame⟩
  have hwhole : Whole S s n ↔ Whole S (s.setContinuous n) n :=
    ⟨.of_unmarked hsame.symm, .of_unmarked hsame⟩
  have hrest : ∀ k, CompletesAt S s n (k + 1) ↔
      ¬ GivesUp S (s.setContinuous n) n ∧ CompletesAt S (s.setContinuous n) (n + 1) k := by
    intro k
    rw [completesAt_succ hsame (passes_packet hs hpot hnot), ← hgives]
    simp [hpot, hnot]
  rw [Nat.exists_lt_succ_left, completesAt_zero, ← hwhole]
  simp only [hrest, hpot, hnot, not_false_iff, true_and]
  refine or_congr_right ⟨?_, ?_⟩
  · rintro ⟨k, hk, hgoes, h⟩
    exact ⟨hgoes, k, hk, h⟩
  · rintro ⟨hgoes, k, hk, h⟩
    exact ⟨k, hk, hgoes, h⟩

/-- Elsewhere it ends. -/
theorem not_completesAt (hpot : ¬ s.potentialNewFrame n = true) (hnot : ¬ IsPadding S s n) (k : ℕ) :
    ¬ CompletesAt S s n k := by
  intro h
  exact (passes_zero.mp (h.passes 0 (Nat.zero_le k))).elim hnot hpot

variable (S) in
/-- **`FindFrames` returns a frame exactly when the walk completes one.** -/
theorem findFramesLoop_finds (start : UInt16) (fuel : ℕ) : ∀ (n : UInt16) (s : PacketBuffer),
    Housed lo hi s →
      ((findFramesLoop S start fuel n s).1 ≠ [] ↔ ∃ k < fuel, CompletesAt S s n k) := by
  induction fuel with
  | zero =>
    intro n s _
    simp [findFramesLoop]
  | succ fuel ih =>
    intro n s hs
    rw [findFramesLoop]
    split_ifs with hpadding hnew
    · rw [exists_completesAt_padding hpadding]
      exact ih (n + 1) s hs
    · have hpot : ¬ s.potentialNewFrame n = true := by simpa using hnew
      have hnone : ¬ ∃ k < fuel + 1, CompletesAt S s n k := by
        rintro ⟨k, _, h⟩
        exact not_completesAt hpot hpadding k h
      exact iff_of_false (fun h => h rfl) hnone
    · have hpot : s.potentialNewFrame n = true := by simpa using hnew
      have hmarked := setContinuous_housed hs n
      rw [exists_completesAt_packet hs.placed hpot hpadding]
      dsimp only
      split
      · next hlast =>
        have hopen : ¬ Whole S (s.setContinuous n) n := by
          rintro ⟨p, hp, hp_last, _⟩
          exact absurd hp_last (Option.filter_eq_none_iff.mp hlast p hp)
        have hgoes : ¬ GivesUp S (s.setContinuous n) n := by
          rintro ⟨p, hp, hp_last, _⟩
          exact absurd hp_last (Option.filter_eq_none_iff.mp hlast p hp)
        rw [ih (n + 1) _ hmarked, or_iff_right hopen, and_iff_right hgoes]
      · next entry hentry =>
        obtain ⟨hp, hlast⟩ := Option.filter_eq_some_iff.mp hentry
        rw [whole_iff hp, givesUp_iff hp, and_iff_right hlast, and_iff_right hlast]
        obtain ⟨hreturns, hall⟩ | ⟨hreturns, ⟨frame, hframe⟩, hfound⟩ | ⟨hnone, b, hb, hfree, hfound⟩ :=
          completeFrame_ends (S := S) (s := s.setContinuous n) (n := n) start entry
        · rw [if_pos hreturns]
          refine iff_of_false (fun h => h rfl) ?_
          rintro (⟨b, hb, hfree, _⟩ | ⟨hgoes, _⟩)
          · exact Bool.false_ne_true (hfree.symm.trans (hall b hb))
          · exact hgoes hall
        · rw [hreturns, if_neg Bool.false_ne_true, hframe]
          exact iff_of_true (by simp) (.inl hfound)
        · have hopen : ¬ ∃ b, (s.setContinuous n).searchFrom n entry = some b ∧
              (s.setContinuous n).withheld S b = false ∧
              (b.isH264Descriptor || b.fullFrameFound) = true := by
            rintro ⟨b', hb', _, hfound'⟩
            obtain rfl := Option.some.inj (hb.symm.trans hb')
            exact Bool.false_ne_true (hfound.symm.trans hfound')
          have hgoes : ¬ ∀ b, (s.setContinuous n).searchFrom n entry = some b →
              (s.setContinuous n).withheld S b = true :=
            fun hall => Bool.false_ne_true (hfree.symm.trans (hall b hb))
          rw [hnone, if_neg Bool.false_ne_true, or_iff_right hopen, and_iff_right hgoes,
            ← ih (n + 1) _ hmarked]
          simp

/-! ## The rows of a run -/

/-- Padding with the number completes a frame: the walk from the next one does. -/
def PaddingCompletes (S : SeqNumOps) (s : PacketBuffer) : Op → Prop
  | .insertPacket _ => False
  | .insertPadding seqNum => ∃ k < s.size, CompletesAt S (s.padded S seqNum) (seqNum + 1) k
  | .clearTo _ => False
  | .clear => False
  | .forceSpsPpsIdrIsH264Keyframe => False
  | .resetSpsPpsIdrIsH264Keyframe => False

variable (S)

/-- The packets in the result of an operation. -/
def resultPackets (s : PacketBuffer) : Op → List Packet
  | .insertPacket packet => (s.insertPacket S packet).1.packets
  | .insertPadding seqNum => (s.insertPadding S seqNum).1.packets
  | .clearTo _ => []
  | .clear => []
  | .forceSpsPpsIdrIsH264Keyframe => []
  | .resetSpsPpsIdrIsH264Keyframe => []

/-- The rows an operation writes to the two files. -/
def loggedRows (s : PacketBuffer) : Op → List LogRow
  | .insertPacket packet => (s.insertPacket S packet).2.1
  | .insertPadding _ => []
  | .clearTo _ => []
  | .clear => []
  | .forceSpsPpsIdrIsH264Keyframe => []
  | .resetSpsPpsIdrIsH264Keyframe => []

/-- The packet an operation puts into a slot. -/
def storedPackets (s : PacketBuffer) : Op → List Packet
  | .insertPacket packet =>
    if packet.body ∈ acceptedBy S s (.insertPacket packet) then [packet] else []
  | .insertPadding _ => []
  | .clearTo _ => []
  | .clear => []
  | .forceSpsPpsIdrIsH264Keyframe => []
  | .resetSpsPpsIdrIsH264Keyframe => []

end PacketBuffer

/-- The count in a row of the kind `frame_assembled`. -/
def LogRow.framePacketCount : LogRow → ℕ
  | .bufferCleared _ => 0
  | .frameAssembled _ framePacketCount _ => framePacketCount
  | .insert _ _ _ _ _ _ _ => 0

/-- The row goes to `packet_buffer_inserts.csv`. -/
def LogRow.isInsert : LogRow → Bool
  | .bufferCleared _ => false
  | .frameAssembled _ _ _ => false
  | .insert _ _ _ _ _ _ _ => true

/-- The row of a stored packet. -/
def LogRow.Describes (row : LogRow) (p : Packet) : Prop :=
  ∃ missingCount smallestMissing, row =
    .insert p.ssrc p.seqNum p.timestamp p.markerBit p.payloadSize missingCount smallestMissing

namespace PacketBuffer
variable {S : SeqNumOps} {s t : PacketBuffer} {lo hi : ℕ}

/-- What `InsertPacket` logs, with and without a packet stored. -/
theorem insertPacket_rows (s : PacketBuffer) (packet : Packet) :
    (acceptedBy S s (.insertPacket packet) = 0 ∧ resultPackets S s (.insertPacket packet) = [] ∧
      ∀ row ∈ loggedRows S s (.insertPacket packet), row.isInsert = false ∧ row.framePacketCount = 0) ∨
    (acceptedBy S s (.insertPacket packet) = {packet.body} ∧ ∃ row cleared, row.Describes packet ∧
      loggedRows S s (.insertPacket packet) =
        (if (resultPackets S s (.insertPacket packet)).isEmpty then [] else
          [.frameAssembled packet.seqNum (resultPackets S s (.insertPacket packet)).length cleared]) ++
        [row]) := by
  cases ha : s.accept S packet.seqNum with
  | none =>
    simp only [acceptedBy, resultPackets, loggedRows, insertPacket, ha]
    exact .inl ⟨trivial, rfl, fun row hrow => absurd hrow List.not_mem_nil⟩
  | some t =>
    cases hr : t.makeRoom packet.seqNum with
    | duplicate =>
      simp only [acceptedBy, resultPackets, loggedRows, insertPacket, ha, hr]
      exact .inl ⟨trivial, rfl, fun row hrow => absurd hrow List.not_mem_nil⟩
    | full u =>
      simp only [acceptedBy, resultPackets, loggedRows, insertPacket, ha, hr]
      refine .inl ⟨trivial, rfl, fun row hrow => ?_⟩
      obtain rfl := List.mem_singleton.mp hrow
      exact ⟨rfl, rfl⟩
    | free u =>
      simp only [acceptedBy, resultPackets, loggedRows, insertPacket, ha, hr]
      exact .inr ⟨trivial, _, _, ⟨_, _, rfl⟩, rfl⟩

theorem insertPadding_finds (hs : Housed lo hi s) (n : UInt16) :
    (s.insertPadding S n).1.frames ≠ [] ↔ PaddingCompletes S s (.insertPadding n) := by
  have hsize : (s.padded S n).size = s.size := by rw [padded_rest]
  have hframes : (s.insertPadding S n).1.frames =
      (findFramesLoop S (n + 1) (s.padded S n).size (n + 1) (s.padded S n)).1 := rfl
  rw [hframes, hsize, findFramesLoop_finds S (n + 1) s.size (n + 1) _ (padded_housed hs n)]
  rfl

/-- **The rows of one operation** describe the packets it stores, and count those it returns unless
padding has completed a frame. -/
theorem loggedRows_account (hs : Housed lo hi s) (op : Op) :
    List.Forall₂ LogRow.Describes ((loggedRows S s op).filter LogRow.isInsert) (storedPackets S s op) ∧
      (¬ PaddingCompletes S s op →
        ((loggedRows S s op).map LogRow.framePacketCount).sum = (resultPackets S s op).length) := by
  cases op with
  | insertPacket packet =>
    rw [storedPackets]
    obtain ⟨hstored, hresult, hrows⟩ | ⟨hstored, row, cleared, ⟨c, m, rfl⟩, hrows⟩ :=
      insertPacket_rows (S := S) s packet
    · have hnone : (loggedRows S s (.insertPacket packet)).filter LogRow.isInsert = [] :=
        List.filter_eq_nil_iff.mpr fun row hrow => ne_true_of_eq_false (hrows row hrow).1
      have hzero : ((loggedRows S s (.insertPacket packet)).map LogRow.framePacketCount).sum = 0 := by
        refine List.sum_eq_zero fun k hk => ?_
        obtain ⟨row, hrow, rfl⟩ := List.mem_map.mp hk
        exact (hrows row hrow).2
      rw [hnone, hzero, hresult, hstored, if_neg (Multiset.notMem_zero _)]
      exact ⟨.nil, fun _ => rfl⟩
    · rw [hrows, hstored, if_pos (Multiset.mem_singleton_self _)]
      have hrow : LogRow.Describes (.insert packet.ssrc packet.seqNum packet.timestamp packet.markerBit
        packet.payloadSize c m) packet := ⟨c, m, rfl⟩
      cases hresult : resultPackets S s (.insertPacket packet) with
      | nil => exact ⟨.cons hrow .nil, fun _ => rfl⟩
      | cons p ps => exact ⟨.cons hrow .nil, fun _ => by simp [LogRow.framePacketCount]⟩
  | insertPadding seqNum =>
    refine ⟨.nil, fun hnone => ?_⟩
    have hframes := not_not.mp (mt (insertPadding_finds hs seqNum).mp hnone)
    rw [resultPackets, InsertResult.packets, hframes]
    rfl
  | clearTo seqNum => exact ⟨.nil, fun _ => rfl⟩
  | clear => exact ⟨.nil, fun _ => rfl⟩
  | forceSpsPpsIdrIsH264Keyframe => exact ⟨.nil, fun _ => rfl⟩
  | resetSpsPpsIdrIsH264Keyframe => exact ⟨.nil, fun _ => rfl⟩

end PacketBuffer
open PacketBuffer

/-- **The logs account for every packet.** Over a run, `packet_buffer_inserts.csv` gets one row for each
packet stored, in their order; and when no padding completes a frame, the counts of `frame_assembled`
add up to the packets returned. Padding returns a frame exactly when it completes one. -/
theorem packet_logs_account (S : SeqNumOps) {a b : ℕ} (hab : a ≤ b) {tr : List (PacketBuffer × Op)}
    {s : PacketBuffer} (h : PacketRun S (2 ^ a) (2 ^ b) tr s) :
    List.Forall₂ LogRow.Describes
      ((tr.flatMap fun e => loggedRows S e.1 e.2).filter LogRow.isInsert)
      (tr.flatMap fun e => storedPackets S e.1 e.2) ∧
    ((∀ e ∈ tr, ¬ PaddingCompletes S e.1 e.2) →
      ((tr.flatMap fun e => loggedRows S e.1 e.2).map LogRow.framePacketCount).sum =
        (tr.flatMap fun e => resultPackets S e.1 e.2).length) ∧
    ∀ seqNum, (s.insertPadding S seqNum).1.frames ≠ [] ↔ PaddingCompletes S s (.insertPadding seqNum) := by
  have heach : ∀ e ∈ tr, List.Forall₂ LogRow.Describes
      ((loggedRows S e.1 e.2).filter LogRow.isInsert) (storedPackets S e.1 e.2) ∧
      (¬ PaddingCompletes S e.1 e.2 →
        ((loggedRows S e.1 e.2).map LogRow.framePacketCount).sum = (resultPackets S e.1 e.2).length) :=
    h.each (fun hr => housed_run hab hr) fun s op t hs _ => loggedRows_account hs op
  have hs := housed_run hab h
  clear h
  refine ⟨?_, fun hnone => ?_, insertPadding_finds hs⟩
  · induction tr with
    | nil => exact .nil
    | cons e tr ih =>
      obtain ⟨he, hrest⟩ := List.forall_mem_cons.mp heach
      rw [List.flatMap_cons, List.flatMap_cons, List.filter_append]
      exact List.rel_append he.1 (ih hrest)
  · induction tr with
    | nil => rfl
    | cons e tr ih =>
      obtain ⟨he, hrest⟩ := List.forall_mem_cons.mp heach
      obtain ⟨hhead, htail⟩ := List.forall_mem_cons.mp hnone
      rw [List.flatMap_cons, List.flatMap_cons, List.map_append, List.sum_append, List.length_append,
        he.2 hhead, ih hrest htail]

/-- Padding after a frame of one packet. -/
def loggedOps : List Op := [.insertPacket (vp8Packet 1 100 true true), .insertPadding 2]

def loggedRun : List (PacketBuffer × Op) :=
  Runs.history (PacketBuffer.next .halfRing) (.create (2 ^ 1) (2 ^ 3)) loggedOps

theorem packet_logs_account_padding_after :
    ((loggedRun.flatMap fun e => loggedRows .halfRing e.1 e.2).map LogRow.framePacketCount).sum =
      (loggedRun.flatMap fun e => resultPackets .halfRing e.1 e.2).length := by
  have hrun (ops : List Op) := Run.of_next (PacketBuffer.next .halfRing) (.create (2 ^ 1) (2 ^ 3)) ops
  refine (packet_logs_account .halfRing (by decide) (hrun loggedOps)).2.1 fun e he hpads => ?_
  obtain rfl | rfl := List.mem_pair.mp he
  · exact hpads
  · have hs : Housed (2 ^ 1) (2 ^ 3) _ := housed_run (by decide) (hrun (loggedOps.take 1))
    exact (insertPadding_finds hs 2).mpr hpads (by decide)

/-- A packet of H.264 that is a frame of its own. -/
def h264Packet (seqNum : UInt16) (timestamp : UInt32) : Packet :=
  { vp8Packet seqNum timestamp true true with isH264 := true, nalus := some [.other] }

/-- The frame of packet 12 waits for the missing number 11, and that is padding. -/
def withheldOps : List Op :=
  [.insertPacket (h264Packet 10 100), .insertPacket (h264Packet 12 200), .insertPadding 11]

def withheldRun : List (PacketBuffer × Op) :=
  Runs.history (PacketBuffer.next .halfRing) (.create (2 ^ 2) (2 ^ 4)) withheldOps

/-- Both packets are returned, and one is counted. -/
theorem padding_frame_not_logged :
    ((withheldRun.flatMap fun e => loggedRows .halfRing e.1 e.2).map LogRow.framePacketCount).sum = 1 ∧
      (withheldRun.flatMap fun e => resultPackets .halfRing e.1 e.2).length = 2 := by
  decide

end WebrtcTrace.Packets
