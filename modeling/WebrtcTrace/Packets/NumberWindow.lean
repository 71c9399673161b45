import WebrtcTrace.Packets.MissingPackets

/-! # Numbers in one window

As long as the numbers given to the buffer since the last clear lie in a window of fewer than 2^15, all
it keeps lies there too, in the order of the window: no packet is behind `first_seq_num_`, and the two
sets are sorted (`Within`). A clear, also the one after a large jump back, starts the window anew.
-/

namespace WebrtcTrace.Packets
open OrderedKeys Runs SeqNums
set_option autoImplicit false

variable {S : SeqNumOps}

/-- The number is one of the 2^15 - 1 from `base` on. -/
def InWindow (base n : UInt16) : Prop := offset base n < 0x7FFF

instance (base n : UInt16) : Decidable (InWindow base n) := inferInstanceAs (Decidable (_ < _))

-- Only the numbers of the list are tested, and not all there are.
instance (base : UInt16) (ns : List UInt16) : Decidable (∀ n ∈ ns, InWindow base n) :=
  List.decidableBAll (InWindow base) ns

instance (base : UInt16) : (n : Option UInt16) → Decidable (∀ m ∈ n, InWindow base m)
  | none => .isTrue fun _ hm => nomatch hm
  | some n => decidable_of_iff (InWindow base n) (by simp)

namespace PacketBuffer
variable {s t : PacketBuffer} {lo hi : ℕ} {base n : UInt16}

/-- Sorted numbers of the window. -/
structure Lined (base : UInt16) (keys : List UInt16) : Prop where
  window : ∀ m ∈ keys, InWindow base m
  ascending : Ascending (offset base) keys

theorem Lined.sublist {keys keys' : List UInt16} (h : Lined base keys) (hsub : keys'.Sublist keys) :
    Lined base keys' := ⟨fun m hm => h.window m (hsub.subset hm), h.ascending.sublist hsub⟩

theorem lined_nil (base : UInt16) : Lined base [] :=
  ⟨fun _ hm => absurd hm List.not_mem_nil, List.Pairwise.nil⟩

theorem Lined.ranked (hS : S.Circular) {keys : List UInt16} (h : Lined base keys)
    (hn : offset base n < 0x8000) : Ranked S.descending (offset base) n keys :=
  hS.ranked hn fun m hm => (h.window m hm).trans (by decide)

theorem Lined.insert (hS : S.Circular) {keys : List UInt16} (h : Lined base keys)
    (hn : InWindow base n) : Lined base (OrderedKeys.insert S.descending n keys) where
  window m hm := by
    obtain rfl | hm := mem_of_mem_insert hm
    · exact hn
    · exact h.window m hm
  ascending := ascending_insert (h.ranked hS (hn.trans (by decide))) h.ascending

structure Within (base : UInt16) (s : PacketBuffer) : Prop where
  unreceived : s.firstPacketReceived = false → s.bodies = 0
  first : s.firstPacketReceived = true → offset base s.firstSeqNum < 0x8000
  packets : ∀ b ∈ s.bodies, InWindow base b.seqNum ∧ offset base s.firstSeqNum ≤ offset base b.seqNum
  newest : ∀ m, s.newestInsertedSeqNum = some m → InWindow base m
  missing : Lined base s.missingPackets
  padding : Lined base s.receivedPadding

/-- A buffer that has been cleared, and a new one. -/
theorem within_cleared (hbodies : s.bodies = 0) (hfirst : s.firstPacketReceived = false)
    (hnewest : s.newestInsertedSeqNum = none) (hmissing : s.missingPackets = [])
    (hpadding : s.receivedPadding = []) : Within base s where
  unreceived _ := hbodies
  first h := by
    rw [hfirst] at h
    cases h
  packets b hb := by
    rw [hbodies] at hb
    exact absurd hb (Multiset.notMem_zero b)
  newest m hm := by
    rw [hnewest] at hm
    cases hm
  missing := hmissing ▸ lined_nil base
  padding := hpadding ▸ lined_nil base

theorem within_clearInternal (s : PacketBuffer) : Within base s.clearInternal :=
  within_cleared (bodies_clearInternal s) rfl rfl rfl rfl

theorem Within.trims (h : Within base s) (ht : Trims s t) (hbodies : t.bodies ≤ s.bodies) :
    Within base t := by
  obtain ⟨hfirst, hreceived, _, hnewest⟩ := ht.kept
  refine ⟨fun hnot => ?_, fun hyes => ?_, fun b hb => ?_, fun m hm => ?_, h.missing.sublist ht.missing,
    h.padding.sublist ht.padding⟩
  · rw [h.unreceived (hreceived ▸ hnot)] at hbodies
    exact Multiset.le_zero.mp hbodies
  · rw [hfirst]
    exact h.first (hreceived ▸ hyes)
  · rw [hfirst]
    exact h.packets b (Multiset.mem_of_le hbodies hb)
  · exact h.newest m (hnewest ▸ hm)

/-! ## Missing numbers -/

/-- The loop inserts numbers of the window only. -/
theorem addMissing_lined (hS : S.Circular) (hn : InWindow base n) (k : ℕ) :
    ∀ (fuel : ℕ) (newest : UInt16) (missing : List UInt16), k ≤ fuel → offset newest n = k →
      offset base newest + k = offset base n → Lined base missing →
      Lined base (addMissing S n fuel newest missing).2 := by
  rw [InWindow] at hn
  induction k with
  | zero =>
    intro fuel newest missing _ hk _ hmissing
    have hsame : offset newest newest = offset newest n := by rw [hk, offset_self]
    obtain rfl : newest = n := offset_inj hsame
    rw [addMissing_self hS]
    exact hmissing
  | succ k ih =>
    intro fuel newest missing hfuel hk hplace hmissing
    obtain ⟨fuel, rfl⟩ := Nat.exists_eq_succ_of_ne_zero (by omega : fuel ≠ 0)
    obtain ⟨hround, hleft⟩ := addMissing_succ hS fuel missing hk (by omega)
    have hnext : offset base (newest + 1) = offset base newest + 1 := offset_succ (by omega)
    have hin : InWindow base newest := by
      rw [InWindow]
      omega
    rw [hround]
    exact ih fuel (newest + 1) _ (by omega) hleft (by omega) (hmissing.insert hS hin)

theorem updateMissingPackets_lined (hS : S.Circular)
    (hnewest : ∀ m, s.newestInsertedSeqNum = some m → InWindow base m)
    (hmissing : Lined base s.missingPackets) (hn : InWindow base n) :
    (∀ m, (s.updateMissingPackets S n).newestInsertedSeqNum = some m → InWindow base m) ∧
      Lined base (s.updateMissingPackets S n).missingPackets := by
  have hw : InWindow base (s.newestInsertedSeqNum.getD n) := by
    cases hnew : s.newestInsertedSeqNum with
    | none => exact hn
    | some w => exact hnewest w hnew
  cases hahead : S.aheadOf n (s.newestInsertedSeqNum.getD n) with
  | false =>
    rw [updateMissingPackets_behind hahead]
    exact ⟨fun m hm => Option.some.inj hm ▸ hw, hmissing.sublist (eraseKey_sublist _ _ _)⟩
  | true =>
    obtain ⟨hrounds, _⟩ := missingStart_spec hS rfl hahead
    obtain ⟨hpos, _⟩ := ahead_distance hS hahead
    -- the loop starts between the two numbers, so in the window
    have hplace : offset base (s.missingStart S n).1 +
        (min (offset (s.newestInsertedSeqNum.getD n) n) 1000 - 1) = offset base n := by
      have hbase := offset_add base (s.newestInsertedSeqNum.getD n) n
      have hbetween := offset_add (s.newestInsertedSeqNum.getD n) (s.missingStart S n).1 n
      have hmove := offset_add base (s.newestInsertedSeqNum.getD n) (s.missingStart S n).1
      have hlt := offset_lt (s.newestInsertedSeqNum.getD n) (s.missingStart S n).1
      have hlt' := offset_lt base (s.missingStart S n).1
      rw [InWindow] at hw hn
      omega
    rw [updateMissingPackets_ahead hahead]
    refine ⟨fun m hm => ?_, ?_⟩
    · rw [addMissing_newest hS _ 65536 _ _ (by omega) hrounds (by omega)] at hm
      exact Option.some.inj hm ▸ hn
    · exact addMissing_lined hS hn _ 65536 _ _ (by omega) hrounds hplace
        (hmissing.sublist (fromLower_sublist _ _ _))

/-! ## Storing a packet -/

theorem accept_within (hS : S.Circular) (hn : InWindow base n) (ha : s.accept S n = some t)
    (h : ¬ JumpClears S s n → Within base s) :
    Within base t ∧ t.firstPacketReceived = true ∧ offset base t.firstSeqNum ≤ offset base n := by
  have hn' : offset base n < 0x8000 := hn.trans (by decide)
  obtain ⟨hnot, rfl⟩ | ⟨hyes, hahead, hcleared, hjumps⟩ | ⟨hyes, hbehind, rfl⟩ := accept_cases ha
  · have hs := h fun hjump => Bool.false_ne_true (hnot.symm.trans hjump.1)
    have hnone : PacketBuffer.bodies { s with firstPacketReceived := true, firstSeqNum := n } = 0 :=
      (bodies_congr rfl rfl).trans (hs.unreceived hnot)
    refine ⟨⟨fun hnot' => (by cases hnot'), fun _ => hn', fun b hb => ?_, hs.newest, hs.missing,
      hs.padding⟩, rfl, le_rfl⟩
    rw [hnone] at hb
    exact absurd hb (Multiset.notMem_zero b)
  · obtain ⟨hstep, rfl⟩ | ⟨_, rfl⟩ := hjumps
    · have hs := h fun hjump => hstep hjump.2.2.2
      have hback := (hS.aheadOf_iff (hs.first hyes) hn').mp hahead
      have hsame : PacketBuffer.bodies { s with firstSeqNum := n } = s.bodies := bodies_congr rfl rfl
      refine ⟨⟨hs.unreceived, fun _ => hn', fun b hb => ?_, hs.newest, hs.missing, hs.padding⟩, hyes,
        le_rfl⟩
      rw [hsame] at hb
      obtain ⟨hwindow, hfirst⟩ := hs.packets b hb
      exact ⟨hwindow, hback.le.trans hfirst⟩
    · have hnone : (PacketBuffer.bodies { s.clearInternal with
          firstPacketReceived := true, firstSeqNum := n }) = 0 :=
        (bodies_congr rfl rfl).trans (bodies_clearInternal s)
      refine ⟨⟨fun hnot' => (by cases hnot'), fun _ => hn', fun b hb => ?_, fun m hm => (by cases hm),
        lined_nil base, lined_nil base⟩, rfl, le_rfl⟩
      rw [hnone] at hb
      exact absurd hb (Multiset.notMem_zero b)
  · have hs := h fun hjump => ne_true_of_eq_false hbehind hjump.2.1
    refine ⟨hs, hyes, not_lt.mp fun hlt => ?_⟩
    exact ne_true_of_eq_false hbehind ((hS.aheadOf_iff (hs.first hyes) hn').mpr hlt)

theorem arrived_within (hS : S.Circular) {u : PacketBuffer} {packet : Packet} (ht : Within base t)
    (hreceived : t.firstPacketReceived = true) (hn : InWindow base packet.seqNum)
    (hfirst : offset base t.firstSeqNum ≤ offset base packet.seqNum) (hr : Resizes t u)
    (hu : Housed lo hi u) (hbodies : u.bodies = t.bodies)
    (hfree : u.slot (u.index packet.seqNum) = none) : Within base (u.arrived S packet) := by
  obtain ⟨hfirst', hreceived', _, hnewest', hmissing', hpadding'⟩ := arrived_rest (S := S) hr packet
  obtain ⟨hnewest, hmissing⟩ := updateMissingPackets_lined hS ht.newest ht.missing hn
  refine ⟨fun hnot => ?_, fun _ => ?_, fun b hb => ?_, ?_, ?_, ht.padding.sublist hpadding'⟩
  · rw [hreceived', hreceived] at hnot
    cases hnot
  · rw [hfirst']
    exact ht.first hreceived
  · rw [arrived_bodies, store_bodies hu hfree, hbodies, Multiset.mem_add, Multiset.mem_singleton] at hb
    rw [hfirst']
    obtain hb | rfl := hb
    · exact ht.packets b hb
    · exact ⟨hn, hfirst⟩
  · rw [hnewest']
    exact hnewest
  · rw [hmissing']
    exact hmissing

/-! ## Over a run -/

variable (S) in
/-- The numbers given to the buffer since the last clear, when an operation is added to them. -/
def givenBy (s : PacketBuffer) (op : Op) (before : List UInt16) : List UInt16 :=
  match op with
  | .insertPacket packet =>
    if JumpClears S s packet.seqNum then [packet.seqNum]
    else if (s.insertPacket S packet).1.bufferCleared then []
    else packet.seqNum :: before
  | .insertPadding seqNum => seqNum :: before
  | .clearTo seqNum => seqNum :: before
  | .clear => []
  | .forceSpsPpsIdrIsH264Keyframe => before
  | .resetSpsPpsIdrIsH264Keyframe => before

variable (S) in
def givenSince (tr : List (PacketBuffer × Op)) : List UInt16 :=
  tr.foldl (fun before e => givenBy S e.1 e.2 before) []

theorem insertPacket_full {packet : Packet} {u : PacketBuffer} (ha : s.accept S packet.seqNum = some t)
    (hr : t.makeRoom packet.seqNum = .full u) : (s.insertPacket S packet).1.bufferCleared = true := by
  simp only [insertPacket, ha, hr]

theorem findFrames_bodies (h : Housed lo hi s) (start : UInt16) :
    (s.findFrames S start).2.bodies ≤ s.bodies := by
  have hframes := (findFramesLoop_bodies (S := S) start s.size start h).2
  rw [findFrames, hframes]
  exact Multiset.le_add_left _ _

theorem insertPacket_within (hS : S.Circular) (hs : Housed lo hi s) {packet : Packet}
    {before : List UInt16} (h : (∀ m ∈ before, InWindow base m) → Within base s)
    (hgiven : ∀ m ∈ givenBy S s (.insertPacket packet) before, InWindow base m) :
    Within base (s.next S (.insertPacket packet)) := by
  simp only [givenBy] at hgiven
  have hkept : ¬ JumpClears S s packet.seqNum →
      (s.insertPacket S packet).1.bufferCleared = false → Within base s := by
    intro hjump hcleared
    rw [if_neg hjump, hcleared, if_neg Bool.false_ne_true] at hgiven
    exact h fun m hm => hgiven m (List.mem_cons_of_mem _ hm)
  have hn : (s.insertPacket S packet).1.bufferCleared = false → InWindow base packet.seqNum := by
    intro hcleared
    rw [hcleared, if_neg Bool.false_ne_true] at hgiven
    split_ifs at hgiven
    · exact hgiven _ (List.mem_singleton_self _)
    · exact hgiven _ List.mem_cons_self
  rw [next]
  obtain ⟨ha, hres⟩ | ⟨t, ha, hcases⟩ := insertPacket_cases (S := S) s packet
  · have hflag : (s.insertPacket S packet).1.bufferCleared = false := by simp only [insertPacket, ha]
    rw [hres]
    refine hkept (fun hjump => ?_) hflag
    simp [accept, hjump.1, hjump.2.1, hjump.2.2.1] at ha
  · have hflag : (∀ u, t.makeRoom packet.seqNum ≠ .full u) →
        (s.insertPacket S packet).1.bufferCleared = false := by
      intro hroom
      simp only [insertPacket, ha]
      split
      · rfl
      · next u hr => exact absurd hr (hroom u)
      · rfl
    have haccept : (∀ u, t.makeRoom packet.seqNum ≠ .full u) → Within base t ∧
        t.firstPacketReceived = true ∧ offset base t.firstSeqNum ≤ offset base packet.seqNum :=
      fun hroom => accept_within hS (hn (hflag hroom)) ha fun hjump => hkept hjump (hflag hroom)
    obtain ⟨hr, hres⟩ | ⟨u, _, hres⟩ | ⟨u, hr, hres⟩ := hcases <;> rw [hres]
    · exact (haccept fun u hu => by rw [hr] at hu; cases hu).1
    · exact within_clearInternal u
    · have hroom : ∀ v, t.makeRoom packet.seqNum ≠ .full v := fun v hv => by
        rw [hr] at hv
        cases hv
      obtain ⟨ht, hreceived, hfirst⟩ := haccept hroom
      obtain ⟨⟨hu, hbodies⟩, hfree⟩ := makeRoom_free (roomier t) ⟨hs.thins (thins_accept ha), rfl⟩ hr
      have harrived := arrived_within hS ht hreceived (hn (hflag hroom)) hfirst (resizes_makeRoom hr).1 hu
        hbodies hfree
      exact harrived.trims (trims_findFramesLoop _ _ _ _)
        (findFrames_bodies ((hu.store packet).thins (thins_arrived u packet)) _)

variable (S) in
/-- The state `InsertPadding` looks for frames in. -/
def padded (s : PacketBuffer) (n : UInt16) : PacketBuffer :=
  { s.updateMissingPackets S n with
    receivedPadding := OrderedKeys.insert S.descending n (s.updateMissingPackets S n).receivedPadding }

theorem next_insertPadding (s : PacketBuffer) (n : UInt16) :
    s.next S (.insertPadding n) = ((s.padded S n).findFrames S (n + 1)).2 := rfl

/-- `InsertPadding` touches the numbers only before it looks for frames. -/
theorem padded_rest (s : PacketBuffer) (n : UInt16) : s.padded S n = { s with
    newestInsertedSeqNum := (s.updateMissingPackets S n).newestInsertedSeqNum
    missingPackets := (s.updateMissingPackets S n).missingPackets
    receivedPadding := OrderedKeys.insert S.descending n s.receivedPadding } := by
  unfold padded updateMissingPackets
  dsimp only
  split_ifs <;> rfl

theorem padded_housed (hs : Housed lo hi s) (n : UInt16) : Housed lo hi (s.padded S n) := by
  rw [padded_rest]
  exact hs.thins (.of_slot rfl rfl rfl)

theorem padded_within (hS : S.Circular) (h : Within base s) (hn : InWindow base n) :
    Within base (s.padded S n) := by
  obtain ⟨hnewest, hmissing⟩ := updateMissingPackets_lined hS h.newest h.missing hn
  rw [padded_rest]
  refine ⟨fun hnot => ?_, h.first, fun b hb => ?_, hnewest, hmissing, h.padding.insert hS hn⟩
  · exact (bodies_congr rfl rfl).trans (h.unreceived hnot)
  · exact h.packets b ((bodies_congr rfl rfl : PacketBuffer.bodies _ = s.bodies) ▸ hb)

theorem insertPadding_within (hS : S.Circular) (hs : Housed lo hi s) (h : Within base s)
    (hn : InWindow base n) : Within base (s.next S (.insertPadding n)) := by
  rw [next_insertPadding]
  exact (padded_within hS h hn).trims (trims_findFramesLoop _ _ _ _)
    (findFrames_bodies (padded_housed hs n) _)

end PacketBuffer
end WebrtcTrace.Packets
