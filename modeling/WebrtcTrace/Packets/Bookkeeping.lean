import WebrtcTrace.Packets.Conservation

/-! # What the operations leave alone

Looking for frames touches the slots and takes numbers out of the two sets (`Trims`); an expansion
touches the slots and the size (`Resizes`). The other members change in `accept`, `ClearTo`,
`UpdateMissingPackets` and the clears only.
-/

namespace WebrtcTrace.Packets
open OrderedKeys
set_option autoImplicit false

variable {S : SeqNumOps}

namespace PacketBuffer
variable {s t u : PacketBuffer}

structure Trims (s t : PacketBuffer) : Prop where
  rest : t = { s with
    slot := t.slot
    missingPackets := t.missingPackets
    receivedPadding := t.receivedPadding }
  missing : t.missingPackets.Sublist s.missingPackets
  padding : t.receivedPadding.Sublist s.receivedPadding

structure Resizes (s t : PacketBuffer) : Prop where
  rest : t = { s with size := t.size, slot := t.slot }

theorem Trims.of_slots (slot : ℕ → Option Packet) : Trims s { s with slot := slot } :=
  ⟨rfl, .refl _, .refl _⟩

theorem Trims.refl (s : PacketBuffer) : Trims s s := .of_slots s.slot

theorem Trims.trans (h : Trims s t) (h' : Trims t u) : Trims s u where
  rest := by
    rw [h'.rest, h.rest]
  missing := h'.missing.trans h.missing
  padding := h'.padding.trans h.padding

theorem Trims.kept (h : Trims s t) :
    t.firstSeqNum = s.firstSeqNum ∧ t.firstPacketReceived = s.firstPacketReceived ∧
      t.isClearedToFirstSeqNum = s.isClearedToFirstSeqNum ∧
      t.newestInsertedSeqNum = s.newestInsertedSeqNum := by
  rw [h.rest]
  exact ⟨rfl, rfl, rfl, rfl⟩

theorem trims_moveOut (first last : UInt16) (n : ℕ) :
    ∀ (j : UInt16) (s : PacketBuffer), Trims s (moveOut first last n j s).2 := by
  induction n with
  | zero => exact fun _ s => .refl s
  | succ n ih => exact fun j s => (Trims.of_slots _).trans (ih _ _)

theorem trims_completeFrame (s : PacketBuffer) (start seqNum : UInt16) (entry : Packet) :
    Trims s (s.completeFrame S start seqNum entry).state := by
  unfold completeFrame
  split
  · exact .refl s
  · next b _ =>
    have hb : Trims s (if b.isH264Descriptor then s.describeFirst b else s) := by
      split_ifs
      · exact .of_slots _
      · exact .refl s
    dsimp only
    generalize (if b.isH264Descriptor then s.describeFirst b else s) = s' at hb
    split_ifs
    · exact hb
    · refine (hb.trans (trims_moveOut _ _ _ _ _)).trans ⟨rfl, ?_, ?_⟩
      · exact fromUpper_sublist _ _ _
      · exact eraseRange_sublist _ _ _ _
    · exact hb

theorem trims_findFramesLoop (start : UInt16) (n : ℕ) :
    ∀ (seqNum : UInt16) (s : PacketBuffer), Trims s (findFramesLoop S start n seqNum s).2 := by
  induction n with
  | zero => exact fun _ s => .refl s
  | succ n ih =>
    intro seqNum s
    rw [findFramesLoop]
    split_ifs
    · exact ih (seqNum + 1) s
    · exact .refl s
    · have hmarked : Trims s (s.setContinuous seqNum) := .of_slots _
      dsimp only
      split
      · exact hmarked.trans (ih (seqNum + 1) _)
      · next entry _ =>
        have hframe := hmarked.trans (trims_completeFrame (S := S) _ start seqNum entry)
        split_ifs
        · exact hframe
        · exact hframe.trans (ih (seqNum + 1) _)

/-- An empty buffer has no frames. -/
theorem findFramesLoop_empty (hempty : ∀ i, s.slot i = none) (start : UInt16) (n : ℕ) :
    ∀ seqNum : UInt16, findFramesLoop S start n seqNum s = ([], s) := by
  induction n with
  | zero => exact fun _ => rfl
  | succ n ih =>
    intro seqNum
    have hnone : s.potentialNewFrame seqNum = false := by
      simp only [potentialNewFrame, hempty]
    rw [findFramesLoop, hnone, ih]
    exact ite_self _

theorem clearToLoop_rest (n : UInt16) (k : ℕ) : ∀ s : PacketBuffer, clearToLoop S n k s = { s with
    firstSeqNum := (clearToLoop S n k s).firstSeqNum
    slot := (clearToLoop S n k s).slot } := by
  induction k with
  | zero => exact fun _ => rfl
  | succ k ih =>
    intro s
    rw [clearToLoop, ih]
    split_ifs <;> rfl

/-- **`ClearTo`**, with its two early exits. -/
theorem clearTo_cases (s : PacketBuffer) (n : UInt16) :
    ((S.aheadOf s.firstSeqNum n = true ∨ s.firstPacketReceived = false) ∧ s.clearTo S n = s) ∨
      (S.aheadOf s.firstSeqNum n = false ∧ s.firstPacketReceived = true ∧ s.clearTo S n = { s with
        firstSeqNum := n + 1
        isClearedToFirstSeqNum := true
        slot := (clearToLoop S (n + 1) (min (S.forwardDiff s.firstSeqNum (n + 1)) s.size) s).slot
        missingPackets := fromLower S.descending (n + 1) s.missingPackets
        receivedPadding := fromLower S.descending (n + 1) s.receivedPadding }) := by
  unfold clearTo
  split_ifs with hahead hreceived
  · exact .inl ⟨.inl hahead, rfl⟩
  · exact .inl ⟨.inr (by simpa using hreceived), rfl⟩
  · refine .inr ⟨by simpa using hahead, by simpa using hreceived, ?_⟩
    dsimp only
    rw [clearToLoop_rest]

/-- Padding that comes to an empty buffer. -/
theorem next_insertPadding_empty (hempty : ∀ i, s.slot i = none) (n : UInt16) :
    s.next S (.insertPadding n) = { s.updateMissingPackets S n with
      receivedPadding := OrderedKeys.insert S.descending n s.receivedPadding } := by
  have hslot : (s.updateMissingPackets S n).slot = s.slot := by
    unfold updateMissingPackets
    dsimp only
    split_ifs <;> rfl
  have hpadding : (s.updateMissingPackets S n).receivedPadding = s.receivedPadding := by
    unfold updateMissingPackets
    dsimp only
    split_ifs <;> rfl
  have hnone : ∀ i, (s.updateMissingPackets S n).slot i = none := fun i => by rw [hslot, hempty]
  simp only [next, perform, insertPadding, findFrames]
  rw [findFramesLoop_empty (by exact hnone), hpadding]

theorem resizes_makeRoom {seqNum : UInt16} (hr : s.makeRoom seqNum = .free t) :
    Resizes s t ∧ t.slot (t.index seqNum) = none := by
  refine makeRoom_free ?_ ⟨rfl⟩ hr
  intro u v hu he
  unfold expandBufferSize at he
  split_ifs at he
  obtain rfl := Option.some.inj he
  constructor
  rw [hu.rest]

/-- **The state `InsertPacket` looks for frames in**, seen from the one before it made room. -/
theorem arrived_rest (hr : Resizes t u) (packet : Packet) :
    (u.arrived S packet).firstSeqNum = t.firstSeqNum ∧
      (u.arrived S packet).firstPacketReceived = t.firstPacketReceived ∧
      (u.arrived S packet).isClearedToFirstSeqNum = t.isClearedToFirstSeqNum ∧
      (u.arrived S packet).newestInsertedSeqNum =
        (t.updateMissingPackets S packet.seqNum).newestInsertedSeqNum ∧
      (u.arrived S packet).missingPackets =
        (t.updateMissingPackets S packet.seqNum).missingPackets ∧
      (u.arrived S packet).receivedPadding.Sublist t.receivedPadding := by
  rw [hr.rest]
  unfold arrived store setSlot updateMissingPackets
  dsimp only
  split_ifs <;> exact ⟨rfl, rfl, rfl, rfl, rfl, fromLower_sublist _ _ _⟩

end PacketBuffer
end WebrtcTrace.Packets
