import WebrtcTrace.Packets.Placement

/-! # Returned frames are made of the packets they claim

In a `Linked` buffer the backward search only goes to the entry before when that is the packet before
(`searchBack_reaches`), so every slot of the range it finds holds its packet, and moving the range out
passes both checks (`moveOut_checked`). Every operation keeps `Linked` but the storing of a packet that
does not fit between its neighbours (`KeepsNeighbours`).
-/

namespace WebrtcTrace.Packets
open Runs
set_option autoImplicit false

variable {S : SeqNumOps}

/-- The range of a frame: consecutive numbers, each with its packet. -/
structure SoundFrame (frame : List Moved) : Prop where
  checked : ∀ m ∈ frame, m.Checked
  consecutive : ∃ (start : UInt16) (n : ℕ),
    frame.map Moved.seqNum = (List.range n).map fun k => start + UInt16.ofNat k

namespace PacketBuffer
variable {s t : PacketBuffer}

/-! ## The search -/

/-- Every number from `a` through `last` has its packet in the buffer. -/
def Reaches (s : PacketBuffer) (a last : UInt16) : Prop :=
  ∃ k, last = a + UInt16.ofNat k ∧ ∀ j ≤ k, Stored s (a + UInt16.ofNat j)

theorem reaches_self {a : UInt16} (h : Stored s a) : Reaches s a a := by
  refine ⟨0, (SeqNums.add_zero a).symm, fun j hj => ?_⟩
  rw [Nat.le_zero.mp hj, SeqNums.add_zero]
  exact h

theorem Reaches.cons {a last : UInt16} (h : Reaches s (a + 1) last) (ha : Stored s a) :
    Reaches s a last := by
  obtain ⟨k, hk, hall⟩ := h
  refine ⟨k + 1, by rw [hk, SeqNums.add_succ], fun j hj => ?_⟩
  cases j with
  | zero =>
    rw [SeqNums.add_zero]
    exact ha
  | succ j =>
    rw [SeqNums.add_succ]
    exact hall j (by omega)

theorem noteNalus_same (nalus : List NaluType) :
    ∀ b : BackwardSearch, (nalus.foldl BackwardSearch.noteNalu b).startSeqNum = b.startSeqNum ∧
      (nalus.foldl BackwardSearch.noteNalu b).isH264Descriptor = b.isH264Descriptor := by
  induction nalus with
  | nil => exact fun b => ⟨rfl, rfl⟩
  | cons n nalus ih =>
    intro b
    obtain ⟨hstart, hdesc⟩ := ih (b.noteNalu n)
    rw [List.foldl_cons, hstart, hdesc]
    cases n <;> exact ⟨rfl, rfl⟩

/-- Reading a header changes neither the place of the search nor its kind. -/
theorem readHeader_some {entry : Option Packet} {b c : BackwardSearch}
    (h : s.readHeader entry b = some c) :
    c.startSeqNum = b.startSeqNum ∧ c.isH264Descriptor = b.isH264Descriptor ∧
      (b.isH264Descriptor = true → ∃ p, entry = some p ∧ p.nalus.isSome = true) := by
  unfold readHeader at h
  split_ifs at h with hb
  · obtain ⟨p, hp, hmap⟩ := Option.bind_eq_some_iff.mp h
    obtain ⟨nalus, hnalus, rfl⟩ := Option.map_eq_some_iff.mp hmap
    obtain ⟨hstart, hdesc⟩ := noteNalus_same nalus b
    have hsame : (s.noteHeader p nalus b).startSeqNum = b.startSeqNum ∧
        (s.noteHeader p nalus b).isH264Descriptor = b.isH264Descriptor := by
      unfold noteHeader
      dsimp only
      split_ifs <;> exact ⟨hstart, hdesc⟩
    exact ⟨hsame.1, hsame.2, fun _ => ⟨p, hp, by rw [hnalus]; rfl⟩⟩
  · obtain rfl := Option.some.inj h
    exact ⟨rfl, rfl, fun hb' => absurd hb' hb⟩

/-- The search stands at `p`, and everything from there through `last` is in the buffer. -/
structure Walks (s : PacketBuffer) (frameTimestamp : UInt32) (last : UInt16) (b : BackwardSearch)
    (i : ℕ) (p : Packet) : Prop where
  entry : s.slot i = some p
  seqNum : p.seqNum = b.startSeqNum
  reaches : Reaches s b.startSeqNum last
  bare : b.isH264Descriptor = true → p.timestamp = frameTimestamp
  trusted : b.isH264Descriptor = false ∨ p.isGeneric = true →
    p.continuous = true ∨ p.isFirstPacketInFrame = true

theorem Walks.back (h : Linked s) {frameTimestamp : UInt32} {last : UInt16} {b c : BackwardSearch}
    {i : ℕ} {p q : Packet} (hw : Walks s frameTimestamp last b i p)
    (hc : c.startSeqNum = b.startSeqNum) (hq : s.slot (s.prevIndex i) = some q)
    (hne : s.prevIndex i ≠ i)
    (hmode : (c.isH264Descriptor = true ∧ p.Bare ∧ q.timestamp = frameTimestamp ∧
        p.timestamp = frameTimestamp) ∨
      (c.isH264Descriptor = false ∧ p.continuous = true ∧ p.isFirstPacketInFrame = false)) :
    Walks s frameTimestamp last { c with startSeqNum := c.startSeqNum - 1 } (s.prevIndex i) q := by
  have htrust := h.trusts i p q hw.entry hq hne
  have hstored : Stored s q.seqNum := ⟨q, by rw [h.placed _ q hq]; exact hq, rfl⟩
  have hprev : q.seqNum + 1 = p.seqNum → q.seqNum = c.startSeqNum - 1 ∧
      Reaches s (c.startSeqNum - 1) last := by
    intro hstep
    have hseq : q.seqNum = c.startSeqNum - 1 := by
      rw [hc, ← hw.seqNum]
      grind
    refine ⟨hseq, ?_⟩
    rw [← hseq]
    refine Reaches.cons ?_ hstored
    rw [hstep, hw.seqNum]
    exact hw.reaches
  obtain ⟨hdesc, hbare, hqt, hpt⟩ | ⟨hdesc, hcont, hfirst⟩ := hmode
  · obtain ⟨hstep, hgen⟩ := htrust.bare hbare (hqt.trans hpt.symm)
    obtain ⟨hseq, hreach⟩ := hprev hstep
    refine ⟨hq, hseq, hreach, fun _ => hqt, fun hor => ?_⟩
    obtain hno | hg := hor
    · exact absurd (hdesc.symm.trans hno) (by decide)
    · exact hgen hg
  · obtain ⟨hstep, hgen⟩ := htrust.continued hcont hfirst
    obtain ⟨hseq, hreach⟩ := hprev hstep
    refine ⟨hq, hseq, hreach, fun hyes => ?_, fun _ => hgen⟩
    exact absurd (hdesc.symm.trans hyes) (by decide)

/-- In generic mode the search finds no frame at an empty slot. -/
theorem searchBack_empty {frameTimestamp : UInt32} {n i : ℕ} {b c : BackwardSearch}
    (hi : s.slot i = none) (hb : b.isH264Descriptor = false) (hn : n ≠ 0)
    (hc : s.searchBack frameTimestamp n i b = some c) :
    c.isH264Descriptor = false ∧ c.fullFrameFound = false := by
  obtain ⟨n, rfl⟩ := Nat.exists_eq_succ_of_ne_zero hn
  simp only [searchBack, hi, askGeneric, hb, Bool.false_and, Bool.not_false, Option.all_none,
    Bool.and_self, if_true, Option.isSome_none, Option.some.injEq] at hc
  rw [← hc]
  exact ⟨rfl, rfl⟩

/-- **The search** ends in a range whose packets are all in the buffer, or finds no frame. -/
theorem searchBack_reaches (h : Linked s) (frameTimestamp : UInt32) (last : UInt16) (n : ℕ) :
    ∀ (i : ℕ) (p : Packet) (b c : BackwardSearch), n ≤ s.size →
      Walks s frameTimestamp last b i p → s.searchBack frameTimestamp n i b = some c →
      c.isH264Descriptor = true ∨ c.fullFrameFound = true → Reaches s c.startSeqNum last := by
  induction n with
  | zero =>
    intro i p b c _ hw hc _
    obtain rfl := Option.some.inj hc
    exact hw.reaches
  | succ n ih =>
    intro i p b c hn hw hc hframe
    rw [searchBack, hw.entry] at hc
    dsimp only at hc
    split_ifs at hc with hfound hn0
    · obtain rfl := Option.some.inj hc
      exact hw.reaches
    · obtain ⟨d, hd, hc⟩ := Option.bind_eq_some_iff.mp hc
      obtain rfl := Option.some.inj hc
      rw [(readHeader_some hd).1]
      exact hw.reaches
    · obtain ⟨d, hd, hc⟩ := Option.bind_eq_some_iff.mp hc
      obtain ⟨hstart, hdesc, hheader⟩ := readHeader_some hd
      split_ifs at hc with hstop
      · obtain rfl := Option.some.inj hc
        rw [hstart]
        exact hw.reaches
      · cases hq : s.slot (s.prevIndex i) with
        | none =>
          -- without a descriptor left the search stops here, without a frame
          have hgeneric : d.isH264Descriptor = false := by simpa [hq] using hstop
          obtain ⟨hno, hnone⟩ := searchBack_empty hq (by exact hgeneric) hn0 hc
          rw [hno, hnone] at hframe
          simp at hframe
        | some q =>
          have hne : s.prevIndex i ≠ i := prevIndex_ne (by omega)
          refine ih _ q _ c (by omega) (hw.back h hstart hq hne ?_) hc hframe
          simp only [askGeneric, Option.any_some] at hdesc hheader hfound
          cases hmode : d.isH264Descriptor with
          | true =>
            rw [hmode] at hdesc
            have hboth : b.isH264Descriptor = true ∧ p.isGeneric = false := by
              simpa using hdesc.symm
            obtain ⟨p', hp', hnalus⟩ := hheader hdesc.symm
            obtain rfl := Option.some.inj hp'
            refine .inl ⟨rfl, ⟨hboth.2, hnalus⟩, ?_, hw.bare hboth.1⟩
            simpa [hq, hmode] using hstop
          | false =>
            rw [hmode] at hdesc
            have hfirst : p.isFirstPacketInFrame = false := by
              simpa [← hdesc] using hfound
            have hor : b.isH264Descriptor = false ∨ p.isGeneric = true := by
              cases hb : b.isH264Descriptor with
              | false => exact .inl rfl
              | true => exact .inr (by simpa [hb] using hdesc)
            refine .inr ⟨rfl, (hw.trusted hor).resolve_right ?_, hfirst⟩
            rw [hfirst]
            exact Bool.false_ne_true

/-! ## Moving a frame out -/

theorem moveOut_seqNums (first last : UInt16) (n : ℕ) :
    ∀ (j : UInt16) (s : PacketBuffer), (moveOut first last n j s).1.map Moved.seqNum =
      (List.range n).map fun k => j + UInt16.ofNat k := by
  induction n with
  | zero => exact fun _ _ => rfl
  | succ n ih =>
    intro j s
    rw [List.range_succ_eq_map, List.map_cons, List.map_map, moveOut]
    simp only [List.map_cons, ih, SeqNums.add_zero, Function.comp_def, Nat.succ_eq_add_one,
      SeqNums.add_succ]

theorem stored_index_ne {m n : UInt16} (hm : Stored s m) (hn : Stored s n)
    (hne : m ≠ n) : s.index m ≠ s.index n := by
  obtain ⟨p, hp, hpm⟩ := hm
  obtain ⟨q, hq, hqn⟩ := hn
  intro hi
  rw [hi, hq] at hp
  obtain rfl := Option.some.inj hp
  exact hne (hpm.symm.trans hqn)

theorem moveOut_checked (first last : UInt16) (n : ℕ) :
    ∀ (j : UInt16) (s : PacketBuffer), Placed s → n ≤ 65535 →
      (∀ k < n, Stored s (j + UInt16.ofNat k)) →
      ∀ m ∈ (moveOut first last n j s).1, m.Checked := by
  induction n with
  | zero =>
    intro _ _ _ _ _ m hm
    cases hm
  | succ n ih =>
    intro j s hplaced hn hstored m hm
    have hj := hstored 0 (by omega)
    rw [SeqNums.add_zero] at hj
    obtain hm | hm := List.mem_cons.mp hm
    · obtain ⟨p, hp, hpj⟩ := hj
      rw [hm, hp]
      exact ⟨_, rfl, hpj⟩
    · have hthin := thins_setSlot_none s (s.index j)
      refine ih (j + 1) (s.setSlot (s.index j) none) ?_ (by omega) (fun k hk => ?_) m hm
      · intro i q hq
        obtain ⟨p, hp, hpq⟩ := hthin.slot i q hq
        rw [setSlot_index, hpq.seqNum]
        exact hplaced i p hp
      · -- the slots of the range are different, so the rest of it is still there
        have hlater := hstored (k + 1) (by omega)
        have hne : s.index (j + UInt16.ofNat (k + 1)) ≠ s.index j :=
          stored_index_ne hlater hj (SeqNums.add_ne (by omega) (by omega))
        rw [SeqNums.add_succ] at hlater hne
        obtain ⟨p, hp, hpk⟩ := hlater
        exact ⟨p, by rw [setSlot_index, setSlot_slot, if_neg hne]; exact hp, hpk⟩

/-- The number of packets of a range is one too few at most by full turns. -/
theorem Reaches.moved (h : Placed s) {a last : UInt16} (hr : Reaches s a last) (first : UInt16) :
    SoundFrame (moveOut first last (last + 1 - a).toNat a s).1 := by
  obtain ⟨k, rfl, hall⟩ := hr
  have hcount := SeqNums.count a k
  have hle := Nat.mod_le (k + 1) 65536
  refine ⟨?_, a, _, moveOut_seqNums _ _ _ _ _⟩
  refine moveOut_checked _ _ _ a s h ?_ fun j hj => hall j (by omega)
  rw [hcount]
  exact Nat.le_of_lt_succ (Nat.mod_lt _ (by decide))

theorem Stored.describeFirst {n : UInt16} (h : Stored s n) (b : BackwardSearch) :
    Stored (s.describeFirst b) n := by
  obtain ⟨p, hp, hpn⟩ := h
  rw [Stored, PacketBuffer.describeFirst, setSlot_index, setSlot_slot]
  by_cases hi : s.index n = s.index b.startSeqNum
  · rw [if_pos hi, ← hi, hp]
    refine ⟨_, rfl, ?_⟩
    split_ifs <;> exact hpn
  · rw [if_neg hi]
    exact ⟨p, hp, hpn⟩

theorem Reaches.describeFirst {a last : UInt16} (h : Reaches s a last) (b : BackwardSearch) :
    Reaches (s.describeFirst b) a last := by
  obtain ⟨k, hk, hall⟩ := h
  exact ⟨k, hk, fun j hj => (hall j hj).describeFirst b⟩

theorem completeFrame_sound (h : Linked s) (start : UInt16) {seqNum : UInt16} {entry : Packet}
    (hentry : s.slot (s.index seqNum) = some entry) (hseq : entry.seqNum = seqNum)
    (hc : entry.continuous = true) :
    ∀ frame ∈ (s.completeFrame S start seqNum entry).frame, SoundFrame frame := by
  intro frame hframe
  unfold completeFrame at hframe
  split at hframe
  · cases hframe
  · next b hb =>
    have hstart : Walks s entry.timestamp seqNum
        { startSeqNum := seqNum, isH264Descriptor := entry.isH264 && !entry.isGeneric }
        (s.index seqNum) entry :=
      ⟨hentry, hseq, reaches_self ⟨entry, hentry, hseq⟩, fun _ => rfl, fun _ => .inl hc⟩
    have hreach := searchBack_reaches h entry.timestamp seqNum s.size _ entry _ b le_rfl hstart hb
    have hkeep : Placed (if b.isH264Descriptor then s.describeFirst b else s) ∧
        (b.isH264Descriptor = true ∨ b.fullFrameFound = true →
          Reaches (if b.isH264Descriptor then s.describeFirst b else s) b.startSeqNum seqNum) := by
      split_ifs
      · exact ⟨(h.thins (thins_describeFirst s b)).placed, fun hf => (hreach hf).describeFirst b⟩
      · exact ⟨h.placed, hreach⟩
    dsimp only at hframe
    generalize (if b.isH264Descriptor then s.describeFirst b else s) = s' at hframe hkeep
    split_ifs at hframe with _ hfound
    · cases hframe
    · obtain rfl := Option.some.inj hframe
      exact (hkeep.2 (by simpa using hfound)).moved hkeep.1 _
    · cases hframe

/-! ## The loop over the packets after an arrival -/

theorem setContinuous_entry {n : UInt16} (hn : s.potentialNewFrame n = true) :
    ∃ p, (s.setContinuous n).slot (s.index n) = some p ∧ p.seqNum = n ∧ p.continuous = true := by
  obtain ⟨e, he, hen, _⟩ := potentialNewFrame_iff.mp hn
  rw [setContinuous, setSlot_slot, if_pos rfl, he]
  exact ⟨_, rfl, hen, rfl⟩

theorem findFramesLoop_sound (start : UInt16) (n : ℕ) :
    ∀ (seqNum : UInt16) (s : PacketBuffer), Linked s →
      Linked (findFramesLoop S start n seqNum s).2 ∧
        ∀ frame ∈ (findFramesLoop S start n seqNum s).1, SoundFrame frame := by
  induction n with
  | zero =>
    intro _ s h
    refine ⟨h, fun frame hf => ?_⟩
    cases hf
  | succ n ih =>
    intro seqNum s h
    rw [findFramesLoop]
    split_ifs with hpadding hnew
    · exact ih (seqNum + 1) s h
    · refine ⟨h, fun frame hf => ?_⟩
      cases hf
    · have hpot : s.potentialNewFrame seqNum = true := by simpa using hnew
      have hlinked := h.setContinuous hpot
      obtain ⟨p, hp, hpn, hpc⟩ := setContinuous_entry hpot
      dsimp only
      split
      · exact ih (seqNum + 1) _ hlinked
      · next entry hentry =>
        obtain ⟨hslot, _⟩ := Option.filter_eq_some_iff.mp hentry
        obtain rfl := Option.some.inj (hp.symm.trans hslot)
        have hsound := completeFrame_sound (S := S) hlinked start hslot hpn hpc
        have hafter := hlinked.thins (thins_completeFrame (S := S) _ start seqNum p)
        split_ifs
        · refine ⟨hafter, fun frame hf => ?_⟩
          cases hf
        · obtain ⟨hlast, hrest⟩ := ih (seqNum + 1) _ hafter
          refine ⟨hlast, fun frame hf => ?_⟩
          obtain hf | hf := List.mem_append.mp hf
          · exact hsound frame (Option.mem_toList.mp hf)
          · exact hrest frame hf

/-! ## The operations -/

variable (S) in
/-- A packet the operation stores fits between its neighbours, in the buffer that has been cleared
or expanded for it. -/
def KeepsNeighbours (s : PacketBuffer) : Op → Prop
  | .insertPacket packet => ∀ t u, s.accept S packet.seqNum = some t →
      t.makeRoom packet.seqNum = .free u → Fits u packet
  | _ => True

theorem perform_sound (h : Linked s) {op : Op} (hop : s.KeepsNeighbours S op) :
    Linked (s.next S op) ∧ ∀ frame ∈ (s.perform S op).1, SoundFrame frame := by
  have hnone : ∀ {t : PacketBuffer}, Linked t →
      Linked t ∧ ∀ frame ∈ ([] : List (List Moved)), SoundFrame frame := by
    intro t ht
    refine ⟨ht, fun frame hf => ?_⟩
    cases hf
  cases op with
  | insertPacket packet =>
    rw [next]
    obtain ⟨_, hres⟩ | ⟨t, ha, ⟨_, hres⟩ | ⟨u, hr, hres⟩ | ⟨u, hr, hres⟩⟩ :=
      insertPacket_cases (S := S) s packet <;> rw [hres]
    · exact hnone h
    · exact hnone (h.thins (thins_accept ha))
    · have hroom := makeRoom_full (I := Linked) (fun _ _ hs => hs.expand) (h.thins (thins_accept ha)) hr
      exact hnone (hroom.thins (thins_clearInternal u))
    · have hroom := makeRoom_free (I := Linked) (fun _ _ hs => hs.expand) (h.thins (thins_accept ha)) hr
      have hstore := hroom.1.store (hop t u ha hr)
      exact findFramesLoop_sound _ _ _ _ (hstore.thins (thins_arrived u packet))
  | insertPadding seqNum =>
    have hupdate := h.thins (thins_updateMissingPackets (S := S) s seqNum)
    exact findFramesLoop_sound _ _ _ _ (hupdate.thins (.of_slot rfl rfl rfl))
  | clearTo seqNum => exact hnone (h.thins (thins_clearTo s seqNum))
  | clear => exact hnone (h.thins (thins_clearInternal s))
  | forceSpsPpsIdrIsH264Keyframe => exact hnone (h.thins (.of_slot rfl rfl rfl))
  | resetSpsPpsIdrIsH264Keyframe => exact hnone (h.thins (.of_slot rfl rfl rfl))

theorem linked_create {a b : ℕ} (hab : a ≤ b) : Linked (.create (2 ^ a) (2 ^ b)) where
  sized := ⟨⟨a, rfl⟩, ⟨b, rfl⟩, Nat.pow_le_pow_right (by omega) hab⟩
  placed _ _ h := by cases h
  trusts _ _ _ h := by cases h

end PacketBuffer
open PacketBuffer

/-- **Returned frames are made of their packets.** In a run in which every stored packet fits between
its neighbours, an operation moves out ranges of consecutive sequence numbers only, and finds in the
slot of each number the packet of that number. -/
theorem returned_frames_sound (S : SeqNumOps) (a b : ℕ) (hab : a ≤ b) (tr : List (PacketBuffer × Op))
    (s : PacketBuffer) (h : PacketRun S (2 ^ a) (2 ^ b) tr s)
    (hfits : ∀ e ∈ tr, KeepsNeighbours S e.1 e.2) :
    ∀ e ∈ tr, ∀ frame ∈ (e.1.perform S e.2).1, SoundFrame frame := by
  have hrun := h.restrict hfits
  refine hrun.each (I := Linked) (P := fun s op => ∀ frame ∈ (s.perform S op).1, SoundFrame frame)
    (fun hr => hr.invariant (linked_create hab) ?_) ?_
  · rintro s op t hl ⟨rfl, hop⟩
    exact (perform_sound hl hop).1
  · rintro s op t hl ⟨rfl, hop⟩
    exact (perform_sound hl hop).2

/-- The history of these operations of a new buffer with 16 slots, and the state after them. -/
def packetHistory (ops : List Op) : List (PacketBuffer × Op) :=
  Runs.history (PacketBuffer.next .halfRing) (.create 16 16) ops

def bufferAfter (ops : List Op) : PacketBuffer :=
  ops.foldl (PacketBuffer.next .halfRing) (.create 16 16)

/-- The two packets of a frame, the second one first. -/
def lastThenFirst : List Op :=
  [.insertPacket (vp8Packet 11 100 false true), .insertPacket (vp8Packet 10 100 true false)]

theorem returned_frames_sound_two_packets :
    SoundFrame [⟨10, some { vp8Packet 10 100 true false with continuous := true }⟩,
      ⟨11, some { vp8Packet 11 100 false true with continuous := true }⟩] := by
  have hfits : ∀ e ∈ packetHistory lastThenFirst, KeepsNeighbours .halfRing e.1 e.2 := by
    intro e he
    simp only [packetHistory, lastThenFirst, Runs.history, List.mem_cons, List.not_mem_nil,
      or_false] at he
    obtain rfl | rfl := he
    · intro t u ha hr
      cases ha
      cases hr
      exact ⟨fun q hq => (by cases hq), fun i r hi => (by cases hi)⟩
    · intro t u ha hr
      cases ha
      cases hr
      refine ⟨fun q hq => (by cases hq), fun i r hi _ => ?_⟩
      have hr : some r = if i = 11 then some (vp8Packet 11 100 false true) else none :=
        hi.symm.trans (Function.update_apply _ _ _ i)
      split_ifs at hr
      obtain rfl := Option.some.inj hr
      exact ⟨fun hc => (by cases hc), fun hb => (by cases hb.2)⟩
  exact returned_frames_sound .halfRing 4 4 le_rfl (packetHistory lastThenFirst)
    (bufferAfter lastThenFirst) (Run.of_next _ _ lastThenFirst) hfits
    (bufferAfter [.insertPacket (vp8Packet 11 100 false true)],
      .insertPacket (vp8Packet 10 100 true false)) (List.mem_cons_of_mem _ List.mem_cons_self) _
    (by decide +kernel)

/-- A frame loses its first packet to `ClearTo`, and a packet a buffer length ahead takes its slot. -/
def slotTakenAgain : List Op :=
  [.insertPacket (vp8Packet 10 100 true false), .insertPacket (vp8Packet 11 100 false false),
    .clearTo 10, .insertPacket (vp8Packet 26 200 true false),
    .insertPacket (vp8Packet 12 100 false true)]

theorem foreign_packet_returned :
    ∃ tr s, PacketRun .halfRing 16 16 tr s ∧ ∃ e ∈ tr, ∃ frame ∈ (e.1.perform .halfRing e.2).1,
      ∃ m ∈ frame, m.seqNum = 10 ∧ m.packet.map Packet.seqNum = some 26 ∧
        m.packet.map Packet.timestamp = some 200 := by
  refine ⟨packetHistory slotTakenAgain, bufferAfter slotTakenAgain, Run.of_next _ _ slotTakenAgain,
    (bufferAfter (slotTakenAgain.take 4), .insertPacket (vp8Packet 12 100 false true)), ?_, ?_⟩
  · simp [packetHistory, slotTakenAgain, Runs.history, bufferAfter]
  · decide +kernel

end WebrtcTrace.Packets
