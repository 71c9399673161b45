import WebrtcTrace.Packets.NumberWindow

/-! # `ClearTo` clears the past

The loop of `ClearTo` takes behind packets out of the slots it visits, and no others
(`clearToLoop_slot`). It visits one buffer length at most, from `first_seq_num_` on: nothing that is
stored lies further back, so every packet of the past is in a visited slot (`clearTo_slot`). A buffer that
has been cleared to a number stays so until it is cleared as a whole (`next_clearedPast`).
-/

namespace WebrtcTrace.Packets
open OrderedKeys Runs SeqNums
set_option autoImplicit false

variable {S : SeqNumOps}

namespace PacketBuffer
variable {s t : PacketBuffer} {lo hi : ℕ} {base n : UInt16}

/-! ## The loop over the slots -/

theorem clearToLoop_kept {k i : ℕ} {p : Packet} (hp : (clearToLoop S n k s).slot i = some p) :
    s.slot i = some p := by
  rw [clearToLoop_slot, Option.filter_eq_some_iff] at hp
  exact hp.1

/-- What a visited slot keeps is not behind `n`. -/
theorem clearToLoop_visited (n : UInt16) {k j : ℕ} (hj : j < k) {p : Packet}
    (hp : (clearToLoop S n k s).slot (s.index (s.firstSeqNum + UInt16.ofNat j)) = some p) :
    S.aheadOf n p.seqNum = false := by
  have hvisits : s.visits k (s.index (s.firstSeqNum + UInt16.ofNat j)) = true :=
    List.any_eq_true.mpr ⟨j, List.mem_range.mpr hj, decide_eq_true rfl⟩
  rw [clearToLoop_slot, Option.filter_eq_some_iff, hvisits] at hp
  simpa using hp.2

/-- Numbers a multiple of the size apart share a slot, in a buffer no larger than the ring. -/
theorem index_add_mod {a : ℕ} (hsize : s.size = 2 ^ a) (ha : a ≤ 16) (m : UInt16) (j : ℕ) :
    s.index (m + UInt16.ofNat (j % s.size)) = s.index (m + UInt16.ofNat j) := by
  have hdvd : s.size ∣ 65536 := hsize ▸ pow_dvd_pow 2 ha
  have hindex : ∀ j, s.index (m + UInt16.ofNat j) = (m.toNat + j) % s.size := by
    intro j
    rw [index, UInt16.toNat_add, UInt16.toNat_ofNat']
    change (m.toNat + j % 65536) % 65536 % s.size = _
    rw [Nat.mod_mod_of_dvd _ hdvd]
    exact Nat.ModEq.add_left _ (Nat.mod_mod_of_dvd j hdvd)
  rw [hindex, hindex]
  exact Nat.ModEq.add_left _ (Nat.mod_mod j s.size)

/-- **The loop visits the slot of every packet of the past.** -/
theorem clearTo_visits (h : Housed lo hi s) {m : UInt16} (hwindow : offset base n < 0x7FFF)
    (hfirst : offset base s.firstSeqNum ≤ offset base m) (hm : offset base m ≤ offset base n) :
    ∃ j < min (offset s.firstSeqNum (n + 1)) s.size,
      s.index m = s.index (s.firstSeqNum + UInt16.ofNat j) := by
  have hnext : offset base (n + 1) = offset base n + 1 := offset_succ (by omega)
  have hdiff := offset_add base s.firstSeqNum (n + 1)
  have hdiff_lt := offset_lt s.firstSeqNum (n + 1)
  have hstep := offset_add base s.firstSeqNum m
  have hstep_lt := offset_lt s.firstSeqNum m
  have hreach : s.firstSeqNum + UInt16.ofNat (offset s.firstSeqNum m) = m := by
    have hturn : offset s.firstSeqNum s.firstSeqNum + offset s.firstSeqNum m < 65536 := by
      rwa [offset_self, Nat.zero_add]
    have hoffset := offset_add_ofNat hturn
    rw [offset_self, Nat.zero_add] at hoffset
    exact offset_inj hoffset
  obtain hsmall | hlarge := Nat.lt_or_ge (offset s.firstSeqNum m) s.size
  · exact ⟨offset s.firstSeqNum m, lt_min (by omega) hsmall, by rw [hreach]⟩
  · obtain ⟨a, ha⟩ := h.sized.size
    have ha16 : a ≤ 16 := by
      by_contra hgt
      have hle : 2 ^ 17 ≤ 2 ^ a := Nat.pow_le_pow_right (by decide) (by omega)
      omega
    have hmod := Nat.mod_lt (offset s.firstSeqNum m) h.sized.pos
    refine ⟨offset s.firstSeqNum m % s.size, lt_min (by omega) hmod, ?_⟩
    rw [index_add_mod ha ha16, hreach]

/-! ## One call of `ClearTo` -/

theorem mem_bodies_of_slot (h : Housed lo hi s) {i : ℕ} {p : Packet} (hp : s.slot i = some p) :
    p.body ∈ s.bodies :=
  mem_bodies.mpr ⟨i, h.placed i p hp ▸ index_lt h.sized.pos p.seqNum, p, hp, rfl⟩

/-- **The packets `ClearTo` leaves** are those after `n`. -/
theorem clearTo_slot (hS : S.Circular) (h : Housed lo hi s) (hw : Within base s) (hn : InWindow base n)
    (hreceived : s.firstPacketReceived = true) (hfirst : S.aheadOf s.firstSeqNum n = false) (i : ℕ)
    (p : Packet) :
    (s.clearTo S n).slot i = some p ↔ s.slot i = some p ∧ offset base n < offset base p.seqNum := by
  rw [InWindow] at hn
  have hnext : offset base (n + 1) = offset base n + 1 := offset_succ (by omega)
  have hbehind : ∀ {p}, s.slot i = some p →
      (S.aheadOf (n + 1) p.seqNum = true ↔ offset base p.seqNum ≤ offset base n) := by
    intro p hp
    obtain ⟨hwindow, _⟩ := hw.packets p.body (mem_bodies_of_slot h hp)
    have hplace : offset base (n + 1) < 0x8000 := by omega
    have hahead := hS.aheadOf_iff hplace (hwindow.trans (by decide))
    rw [hnext, Nat.lt_succ_iff] at hahead
    exact hahead
  obtain ⟨hexit, _⟩ | ⟨_, _, hclear⟩ := clearTo_cases (S := S) s n
  · rw [hfirst, hreceived] at hexit
    simp at hexit
  rw [hclear]
  dsimp only
  rw [show S.forwardDiff s.firstSeqNum (n + 1) = offset s.firstSeqNum (n + 1) from hS.countsSteps _ _]
  constructor
  · intro hp
    have hstored := clearToLoop_kept hp
    refine ⟨hstored, ?_⟩
    by_contra hpast
    obtain ⟨_, hafter⟩ := hw.packets p.body (mem_bodies_of_slot h hstored)
    obtain ⟨j, hj, hindex⟩ := clearTo_visits h hn hafter (not_lt.mp hpast)
    obtain rfl : s.index p.seqNum = i := h.placed i p hstored
    rw [show p.seqNum = p.body.seqNum from rfl, hindex] at hp
    have hnot := clearToLoop_visited (S := S) (n + 1) hj hp
    rw [(hbehind hstored).mpr (not_lt.mp hpast)] at hnot
    cases hnot
  · rintro ⟨hstored, hafter⟩
    rw [clearToLoop_slot, hstored, Option.filter_eq_some_iff]
    refine ⟨rfl, ?_⟩
    have hnot : S.aheadOf (n + 1) p.seqNum = false := by
      rw [← Bool.not_eq_true, hbehind hstored]
      exact not_le.mpr hafter
    rw [hnot, Bool.and_false]
    rfl

/-- **The numbers `ClearTo` leaves** are those after `n`. -/
theorem clearTo_numbers (hS : S.Circular) (hw : Within base s) (hn : InWindow base n)
    (hreceived : s.firstPacketReceived = true) (hfirst : S.aheadOf s.firstSeqNum n = false) (m : UInt16) :
    (m ∈ (s.clearTo S n).missingPackets ↔ m ∈ s.missingPackets ∧ offset base n < offset base m) ∧
      (m ∈ (s.clearTo S n).receivedPadding ↔
        m ∈ s.receivedPadding ∧ offset base n < offset base m) := by
  rw [InWindow] at hn
  have hnext : offset base (n + 1) = offset base n + 1 := offset_succ (by omega)
  have hleft : ∀ {keys : List UInt16}, Lined base keys →
      (m ∈ fromLower S.descending (n + 1) keys ↔ m ∈ keys ∧ offset base n < offset base m) := by
    intro keys hkeys
    rw [mem_fromLower (hkeys.ranked hS (by omega)) hkeys.ascending, hnext]
    exact Iff.rfl
  obtain ⟨hexit, _⟩ | ⟨_, _, hclear⟩ := clearTo_cases (S := S) s n
  · rw [hfirst, hreceived] at hexit
    simp at hexit
  rw [hclear]
  exact ⟨hleft hw.missing, hleft hw.padding⟩

theorem clearTo_within (hS : S.Circular) (h : Housed lo hi s) (hw : Within base s)
    (hn : InWindow base n) : Within base (s.clearTo S n) := by
  obtain ⟨_, hsame⟩ | ⟨hfirst, hreceived, hclear⟩ := clearTo_cases (S := S) s n
  · rw [hsame]
    exact hw
  have hslot := clearTo_slot hS h hw hn hreceived hfirst
  have hbodies := clearTo_bodies (S := S) s n
  rw [InWindow] at hn
  have hnext : offset base (n + 1) = offset base n + 1 := offset_succ (by omega)
  refine ⟨fun hnot => ?_, fun _ => ?_, fun b hb => ?_, fun m hm => ?_, ?_, ?_⟩
  · rw [hclear] at hnot
    exact absurd (hnot.symm.trans hreceived) Bool.false_ne_true
  · rw [hclear]
    dsimp only
    omega
  · obtain ⟨i, _, p, hp, rfl⟩ := mem_bodies.mp hb
    obtain ⟨_, hafter⟩ := (hslot i p).mp hp
    refine ⟨(hw.packets p.body (Multiset.mem_of_le hbodies hb)).1, ?_⟩
    rw [hclear]
    exact hnext.trans_le hafter
  · rw [hclear] at hm
    exact hw.newest m hm
  · rw [hclear]
    exact hw.missing.sublist (fromLower_sublist _ _ _)
  · rw [hclear]
    exact hw.padding.sublist (fromLower_sublist _ _ _)

/-! ## Over a run -/

theorem Within.setSpsPpsIdrIsH264Keyframe (h : Within base s) (value : Bool) :
    Within base (s.setSpsPpsIdrIsH264Keyframe value) := by
  have hbodies : (s.setSpsPpsIdrIsH264Keyframe value).bodies = s.bodies := bodies_congr rfl rfl
  refine ⟨fun hnot => ?_, h.first, fun b hb => ?_, h.newest, h.missing, h.padding⟩
  · exact hbodies.trans (h.unreceived hnot)
  · exact h.packets b (hbodies ▸ hb)

theorem next_within (hS : S.Circular) (hs : Housed lo hi s) {before : List UInt16}
    (h : (∀ m ∈ before, InWindow base m) → Within base s) (op : Op)
    (hgiven : ∀ m ∈ givenBy S s op before, InWindow base m) : Within base (s.next S op) := by
  cases op with
  | insertPacket packet => exact insertPacket_within hS hs h hgiven
  | insertPadding n =>
    obtain ⟨hn, hbefore⟩ := List.forall_mem_cons.mp hgiven
    exact insertPadding_within hS hs (h hbefore) hn
  | clearTo n =>
    obtain ⟨hn, hbefore⟩ := List.forall_mem_cons.mp hgiven
    exact clearTo_within hS hs (h hbefore) hn
  | clear => exact within_clearInternal s
  | forceSpsPpsIdrIsH264Keyframe => exact (h hgiven).setSpsPpsIdrIsH264Keyframe true
  | resetSpsPpsIdrIsH264Keyframe => exact (h hgiven).setSpsPpsIdrIsH264Keyframe false

theorem givenSince_snoc (tr : List (PacketBuffer × Op)) (s : PacketBuffer) (op : Op) :
    givenSince S (tr ++ [(s, op)]) = givenBy S s op (givenSince S tr) := by
  rw [givenSince, List.foldl_append]
  rfl

/-- **What a buffer keeps lies in every window the numbers given to it lie in.** -/
theorem within_run (hS : S.Circular) {a b : ℕ} (hab : a ≤ b) {tr : List (PacketBuffer × Op)}
    (h : PacketRun S (2 ^ a) (2 ^ b) tr s) (hgiven : ∀ m ∈ givenSince S tr, InWindow base m) :
    Within base s := by
  have hnew : Within base (.create (2 ^ a) (2 ^ b)) :=
    within_cleared SlotTables.contents_empty rfl rfl rfl rfl
  refine (h.history (I := fun tr s => Housed (2 ^ a) (2 ^ b) s ∧
    ((∀ m ∈ givenSince S tr, InWindow base m) → Within base s)) ⟨housed_create hab, fun _ => hnew⟩
    ?_).2 hgiven
  rintro tr s op t ⟨hs, hwithin⟩ rfl
  refine ⟨(perform_balances hs op).1, fun hgiven => ?_⟩
  rw [givenSince_snoc] at hgiven
  exact next_within hS hs hwithin op hgiven

end PacketBuffer
open PacketBuffer

/-- **`ClearTo` clears exactly the past.** When the numbers given to the buffer since the last clear and
`n` lie in one window, the packets and the numbers it leaves are those it had after `n`. -/
theorem clears_exactly_the_past (S : SeqNumOps) (hS : S.Circular) {a b : ℕ} (hab : a ≤ b)
    {tr : List (PacketBuffer × Op)} {s : PacketBuffer} (h : PacketRun S (2 ^ a) (2 ^ b) tr s)
    {base n : UInt16} (hwindow : ∀ m ∈ n :: givenSince S tr, InWindow base m)
    (hreceived : s.firstPacketReceived = true) (hfirst : S.aheadOf s.firstSeqNum n = false) :
    (∀ i p, (s.clearTo S n).slot i = some p ↔
      s.slot i = some p ∧ offset base n < offset base p.seqNum) ∧
    (∀ m, m ∈ (s.clearTo S n).missingPackets ↔ m ∈ s.missingPackets ∧ offset base n < offset base m) ∧
    ∀ m, m ∈ (s.clearTo S n).receivedPadding ↔
      m ∈ s.receivedPadding ∧ offset base n < offset base m := by
  obtain ⟨hn, hgiven⟩ := List.forall_mem_cons.mp hwindow
  have hw := within_run hS hab h hgiven
  have hnumbers := clearTo_numbers hS hw hn hreceived hfirst
  exact ⟨clearTo_slot hS (housed_run hab h) hw hn hreceived hfirst, fun m => (hnumbers m).1,
    fun m => (hnumbers m).2⟩

/-- The second packet makes the buffer grow, and 2, 4 and 5 are missing. -/
def clearingOps : List Op :=
  [.insertPacket (vp8Packet 1 100 true false), .insertPacket (vp8Packet 3 200 true false),
    .insertPacket (vp8Packet 6 300 true false)]

theorem clears_exactly_the_past_after_three :
    5 ∈ ((clearingOps.foldl (PacketBuffer.next .halfRing) (.create (2 ^ 1) (2 ^ 3))).clearTo
        .halfRing 4).missingPackets ∧
      4 ∉ ((clearingOps.foldl (PacketBuffer.next .halfRing) (.create (2 ^ 1) (2 ^ 3))).clearTo
        .halfRing 4).missingPackets := by
  have h : ∀ m, m ∈ ((clearingOps.foldl (PacketBuffer.next .halfRing) (.create (2 ^ 1)
        (2 ^ 3))).clearTo .halfRing 4).missingPackets ↔
      m ∈ (clearingOps.foldl (PacketBuffer.next .halfRing) (.create (2 ^ 1) (2 ^ 3))).missingPackets ∧
        offset 0 4 < offset 0 m :=
    (clears_exactly_the_past .halfRing SeqNumOps.circular_halfRing (by decide)
      (Run.of_next (PacketBuffer.next .halfRing) (.create (2 ^ 1) (2 ^ 3)) clearingOps)
      (by decide) (by decide) (by decide)).2.1
  exact ⟨(h 5).mpr (by decide), fun hmem => absurd ((h 4).mp hmem).2 (by decide)⟩

/-! ## What is cleared stays cleared -/

/-- The number given to an operation. -/
def Op.seqNum : Op → Option UInt16
  | .insertPacket packet => some packet.seqNum
  | .insertPadding seqNum => some seqNum
  | .clearTo seqNum => some seqNum
  | .clear => none
  | .forceSpsPpsIdrIsH264Keyframe => none
  | .resetSpsPpsIdrIsH264Keyframe => none

namespace PacketBuffer
variable {s t : PacketBuffer} {lo hi : ℕ} {base n : UInt16}

variable (S) in
/-- An explicit clear, or the clear of a full buffer. -/
def ClearsAll (s : PacketBuffer) : Op → Prop
  | .insertPacket packet => (s.insertPacket S packet).1.bufferCleared = true
  | .insertPadding _ => False
  | .clearTo _ => False
  | .clear => True
  | .forceSpsPpsIdrIsH264Keyframe => False
  | .resetSpsPpsIdrIsH264Keyframe => False

structure ClearedPast (base n : UInt16) (s : PacketBuffer) : Prop where
  within : Within base s
  received : s.firstPacketReceived = true
  cleared : s.isClearedToFirstSeqNum = true
  past : offset base n < offset base s.firstSeqNum

/-- A packet of the past is ignored. -/
theorem ClearedPast.accept (hS : S.Circular) (h : ClearedPast base n s) {m : UInt16}
    (hm : InWindow base m) :
    s.accept S m = if offset base m < offset base s.firstSeqNum then none else some s := by
  have hahead := hS.aheadOf_iff (h.within.first h.received) (hm.trans (by decide))
  unfold PacketBuffer.accept
  rw [h.received, h.cleared]
  by_cases hlt : offset base m < offset base s.firstSeqNum
  · rw [if_pos hlt, if_pos (hahead.mpr hlt)]
    rfl
  · rw [if_neg hlt, if_neg (mt hahead.mp hlt)]
    rfl

theorem ClearedPast.ignores (hS : S.Circular) (h : ClearedPast base n s) {packet : Packet}
    (hpacket : InWindow base packet.seqNum) (hpast : offset base packet.seqNum ≤ offset base n) :
    s.insertPacket S packet = ({}, [], s) := by
  have haccept := h.accept hS hpacket
  rw [if_pos (hpast.trans_lt h.past)] at haccept
  rw [insertPacket, haccept]

theorem mem_acceptedBy {packet b : Packet} (hb : b ∈ acceptedBy S s (.insertPacket packet)) :
    (∃ t, s.accept S packet.seqNum = some t) ∧ b = packet.body := by
  simp only [acceptedBy] at hb
  cases ha : s.accept S packet.seqNum with
  | none =>
    rw [ha] at hb
    exact absurd hb (Multiset.notMem_zero b)
  | some t =>
    refine ⟨⟨t, rfl⟩, ?_⟩
    simp only [ha] at hb
    cases hr : t.makeRoom packet.seqNum with
    | free _ =>
      rw [hr] at hb
      exact Multiset.mem_singleton.mp hb
    | duplicate =>
      rw [hr] at hb
      exact absurd hb (Multiset.notMem_zero b)
    | full _ =>
      rw [hr] at hb
      exact absurd hb (Multiset.notMem_zero b)

/-- **Nothing of the past is returned**: it is not in the buffer, and an inserted packet of the past is
ignored. -/
theorem ClearedPast.returns (hS : S.Circular) (hs : Housed lo hi s) (h : ClearedPast base n s) {op : Op}
    (hop : ∀ m ∈ op.seqNum, InWindow base m) {b : Packet} (hb : b ∈ returnedBy S s op) :
    offset base n < offset base b.seqNum := by
  have hsum := (perform_balances (S := S) hs op).2
  rw [add_assoc] at hsum
  have hmem : b ∈ s.bodies + acceptedBy S s op := by
    rw [hsum]
    exact Multiset.mem_add.mpr (.inl hb)
  obtain hold | hnew := Multiset.mem_add.mp hmem
  · exact h.past.trans_le (h.within.packets b hold).2
  · cases op with
    | insertPacket packet =>
      obtain ⟨⟨t, ha⟩, rfl⟩ := mem_acceptedBy hnew
      by_contra hpast
      have hbefore : offset base packet.seqNum ≤ offset base n := not_lt.mp hpast
      rw [h.accept hS (hop packet.seqNum rfl), if_pos (hbefore.trans_lt h.past)] at ha
      cases ha
    | insertPadding m => exact absurd hnew (Multiset.notMem_zero b)
    | clearTo m => exact absurd hnew (Multiset.notMem_zero b)
    | clear => exact absurd hnew (Multiset.notMem_zero b)
    | forceSpsPpsIdrIsH264Keyframe => exact absurd hnew (Multiset.notMem_zero b)
    | resetSpsPpsIdrIsH264Keyframe => exact absurd hnew (Multiset.notMem_zero b)

theorem givenBy_mem {op : Op} {before : List UInt16} {m : UInt16} (hm : m ∈ givenBy S s op before) :
    m ∈ op.seqNum ∨ m ∈ before := by
  cases op with
  | insertPacket packet =>
    simp only [givenBy] at hm
    split_ifs at hm
    · exact .inl (List.mem_singleton.mp hm ▸ rfl)
    · cases hm
    · exact (List.mem_cons.mp hm).imp (fun h => congrArg some h.symm) id
  | insertPadding n => exact (List.mem_cons.mp hm).imp (fun h => congrArg some h.symm) id
  | clearTo n => exact (List.mem_cons.mp hm).imp (fun h => congrArg some h.symm) id
  | clear => cases hm
  | forceSpsPpsIdrIsH264Keyframe => exact .inr hm
  | resetSpsPpsIdrIsH264Keyframe => exact .inr hm

theorem givenSince_mem {tr : List (PacketBuffer × Op)} {m : UInt16} (hm : m ∈ givenSince S tr) :
    ∃ e ∈ tr, m ∈ e.2.seqNum := by
  induction tr using List.reverseRecOn with
  | nil => cases hm
  | append_singleton tr e ih =>
    rw [givenSince_snoc] at hm
    obtain hm | hm := givenBy_mem hm
    · exact ⟨e, List.mem_append_right _ (List.mem_singleton_self e), hm⟩
    · obtain ⟨e', he', hm⟩ := ih hm
      exact ⟨e', List.mem_append_left _ he', hm⟩

/-- **A step leaves the buffer cleared**, and what it is cleared to only moves on. -/
theorem next_cleared (hS : S.Circular) (h : ClearedPast base n s) {op : Op}
    (hop : ∀ m ∈ op.seqNum, InWindow base m) (hkept : ¬ ClearsAll S s op) :
    (s.next S op).firstPacketReceived = true ∧ (s.next S op).isClearedToFirstSeqNum = true ∧
      offset base s.firstSeqNum ≤ offset base (s.next S op).firstSeqNum := by
  have hsame : ∀ {t : PacketBuffer}, t.firstSeqNum = s.firstSeqNum →
      t.firstPacketReceived = s.firstPacketReceived →
      t.isClearedToFirstSeqNum = s.isClearedToFirstSeqNum →
      t.firstPacketReceived = true ∧ t.isClearedToFirstSeqNum = true ∧
        offset base s.firstSeqNum ≤ offset base t.firstSeqNum := by
    intro t hfirst hreceived hcleared
    exact ⟨hreceived.trans h.received, hcleared.trans h.cleared, hfirst ▸ le_rfl⟩
  cases op with
  | insertPacket packet =>
    have haccept := h.accept hS (hop packet.seqNum rfl)
    rw [next]
    obtain ⟨_, hres⟩ | ⟨t, ha, hcases⟩ := insertPacket_cases (S := S) s packet
    · rw [hres]
      exact hsame rfl rfl rfl
    · rw [haccept] at ha
      split_ifs at ha with hlt
      obtain rfl := Option.some.inj ha
      rw [if_neg hlt] at haccept
      obtain ⟨_, hres⟩ | ⟨u, hr, _⟩ | ⟨u, hr, hres⟩ := hcases
      · rw [hres]
        exact hsame rfl rfl rfl
      · exact absurd (insertPacket_full haccept hr) hkept
      · rw [hres]
        obtain ⟨hfirst, hreceived, hcleared, _⟩ := arrived_rest (S := S) (resizes_makeRoom hr).1 packet
        obtain ⟨hfirst', hreceived', hcleared', _⟩ := (trims_findFramesLoop (S := S) packet.seqNum
          (u.arrived S packet).size packet.seqNum (u.arrived S packet)).kept
        exact hsame (hfirst'.trans hfirst) (hreceived'.trans hreceived) (hcleared'.trans hcleared)
  | insertPadding m =>
    have hpadded := padded_rest (S := S) s m
    obtain ⟨hfirst, hreceived, hcleared, _⟩ := (trims_findFramesLoop (S := S) (m + 1)
      (s.padded S m).size (m + 1) (s.padded S m)).kept
    rw [next_insertPadding]
    refine hsame (hfirst.trans ?_) (hreceived.trans ?_) (hcleared.trans ?_) <;> rw [hpadded]
  | clearTo m =>
    have hm : offset base m < 0x7FFF := hop m rfl
    rw [next, perform]
    obtain ⟨_, hres⟩ | ⟨hnot, _, hclear⟩ := clearTo_cases (S := S) s m
    · rw [hres]
      exact hsame rfl rfl rfl
    · have hahead := hS.aheadOf_iff (h.within.first h.received) (hm.trans (by decide))
      have hle := mt hahead.mpr (ne_true_of_eq_false hnot)
      have hnext : offset base (m + 1) = offset base m + 1 := offset_succ (by omega)
      rw [hclear]
      refine ⟨h.received, rfl, ?_⟩
      dsimp only
      omega
  | clear => exact absurd trivial hkept
  | forceSpsPpsIdrIsH264Keyframe => exact hsame rfl rfl rfl
  | resetSpsPpsIdrIsH264Keyframe => exact hsame rfl rfl rfl

theorem next_clearedPast (hS : S.Circular) (hs : Housed lo hi s) (h : ClearedPast base n s) {op : Op}
    (hop : ∀ m ∈ op.seqNum, InWindow base m) (hkept : ¬ ClearsAll S s op) :
    ClearedPast base n (s.next S op) := by
  have hwithin : Within base (s.next S op) := by
    have hgiven : ∀ m ∈ givenBy S s op [], InWindow base m :=
      fun m hm => (givenBy_mem hm).elim (hop m) fun hm => absurd hm List.not_mem_nil
    exact next_within hS hs (fun _ => h.within) op hgiven
  obtain ⟨hreceived, hcleared, hfirst⟩ := next_cleared hS h hop hkept
  exact ⟨hwithin, hreceived, hcleared, h.past.trans_le hfirst⟩

/-- A call of `ClearTo` that records what it clears, or finds it recorded. -/
theorem clearTo_clearedPast (hS : S.Circular) (hs : Housed lo hi s) (hw : Within base s)
    (hn : InWindow base n) (hreceived : s.firstPacketReceived = true)
    (hfirst : S.aheadOf s.firstSeqNum n = false ∨ s.isClearedToFirstSeqNum = true) :
    ClearedPast base n (s.clearTo S n) := by
  have hwithin := clearTo_within hS hs hw hn
  rw [InWindow] at hn
  obtain ⟨hexit, hres⟩ | ⟨_, _, hclear⟩ := clearTo_cases (S := S) s n
  · have hahead := hexit.resolve_right (ne_false_of_eq_true hreceived)
    have hpast := (hS.aheadOf_iff (hw.first hreceived) (hn.trans (by decide))).mp hahead
    rw [hres]
    exact ⟨hw, hreceived, hfirst.resolve_left (ne_false_of_eq_true hahead), hpast⟩
  · have hnext : offset base (n + 1) = offset base n + 1 := offset_succ (by omega)
    refine ⟨hwithin, ?_, ?_, ?_⟩ <;> rw [hclear]
    · exact hreceived
    · dsimp only
      omega

end PacketBuffer
open PacketBuffer

/-- **What is cleared stays cleared.** Once `ClearTo(n)` has been called with a packet received since
the last clear, and with `n` not behind `first_seq_num_` or the buffer cleared to there already, no
packet at or before `n` is stored or returned until the buffer is cleared as a whole. -/
theorem cleared_stays_cleared (S : SeqNumOps) (hS : S.Circular) {a b : ℕ} (hab : a ≤ b)
    {pre post : List (PacketBuffer × Op)} {s₁ s : PacketBuffer} {base n : UInt16}
    (h : PacketRun S (2 ^ a) (2 ^ b) (pre ++ (s₁, .clearTo n) :: post) s)
    (hwindow : ∀ e ∈ pre ++ (s₁, .clearTo n) :: post, ∀ m ∈ e.2.seqNum, InWindow base m)
    (hreceived : s₁.firstPacketReceived = true)
    (hfirst : S.aheadOf s₁.firstSeqNum n = false ∨ s₁.isClearedToFirstSeqNum = true)
    (hkept : ∀ e ∈ post, ¬ ClearsAll S e.1 e.2) :
    (∀ packet : Packet, InWindow base packet.seqNum → offset base packet.seqNum ≤ offset base n →
      s.insertPacket S packet = ({}, [], s)) ∧
    ∀ op : Op, (∀ m ∈ op.seqNum, InWindow base m) → ∀ moved ∈ (s.perform S op).1.flatten,
      ∀ p, moved.packet = some p → offset base n < offset base p.seqNum := by
  obtain ⟨t, hpre, rfl, hpost⟩ := h.after
  have hs₁ := housed_run hab hpre
  have hw : Within base s₁ := by
    refine within_run hS hab hpre fun m hm => ?_
    obtain ⟨e, he, hm⟩ := givenSince_mem hm
    exact hwindow e (List.mem_append_left _ he) m hm
  have hn : InWindow base n :=
    hwindow (s₁, .clearTo n) (List.mem_append_right _ List.mem_cons_self) n rfl
  have hall : ∀ e ∈ post, (∀ m ∈ e.2.seqNum, InWindow base m) ∧ ¬ ClearsAll S e.1 e.2 := fun e he =>
    ⟨hwindow e (List.mem_append_right _ (List.mem_cons_of_mem _ he)), hkept e he⟩
  have hcleared : Housed (2 ^ a) (2 ^ b) s ∧ ClearedPast base n s := by
    refine Run.invariant_of (I := fun s => Housed (2 ^ a) (2 ^ b) s ∧ ClearedPast base n s)
      (P := fun s op => (∀ m ∈ op.seqNum, InWindow base m) ∧ ¬ ClearsAll S s op) ?_ ?_ hpost hall
    · exact ⟨(perform_balances hs₁ _).1, clearTo_clearedPast hS hs₁ hw hn hreceived hfirst⟩
    · rintro s op t ⟨hs, hpast⟩ ⟨hop, hkept⟩ rfl
      exact ⟨(perform_balances hs op).1, next_clearedPast hS hs hpast hop hkept⟩
  obtain ⟨hs, hpast⟩ := hcleared
  refine ⟨fun packet hpacket hbefore => hpast.ignores hS hpacket hbefore,
    fun op hop moved hmoved p hp => ?_⟩
  have hreturned : p.body ∈ returnedBy S s op := by
    refine Multiset.mem_coe.mpr (List.mem_filterMap.mpr ⟨moved, hmoved, ?_⟩)
    rw [hp]
    rfl
  have hafter := hpast.returns hS hs hop hreturned
  exact hafter

/-- A clear to 5 between a packet and padding. -/
def clearedOps : List Op := [.insertPacket (vp8Packet 1 100 true false), .clearTo 5, .insertPadding 7]

/-- The buffer after the first `k` of them. -/
def clearedState (k : ℕ) : PacketBuffer :=
  (clearedOps.take k).foldl (PacketBuffer.next .halfRing) (.create (2 ^ 1) (2 ^ 3))

theorem cleared_stays_cleared_late_packet :
    (clearedState 3).insertPacket .halfRing (vp8Packet 5 200 true true) = ({}, [], clearedState 3) := by
  have hrun : PacketRun .halfRing (2 ^ 1) (2 ^ 3)
      ([(clearedState 0, .insertPacket (vp8Packet 1 100 true false))] ++ (clearedState 1, .clearTo 5) ::
        [(clearedState 2, .insertPadding 7)]) (clearedState 3) :=
    Run.of_next (PacketBuffer.next .halfRing) (.create (2 ^ 1) (2 ^ 3)) clearedOps
  have hwindow : ∀ e ∈ [(clearedState 0, Op.insertPacket (vp8Packet 1 100 true false))] ++
      (clearedState 1, .clearTo 5) :: [(clearedState 2, .insertPadding 7)],
      ∀ m ∈ e.2.seqNum, InWindow 0 m := by decide
  refine (cleared_stays_cleared .halfRing SeqNumOps.circular_halfRing (by decide) hrun hwindow rfl
    (.inl rfl) ?_).1 (vp8Packet 5 200 true true) (by decide) (by decide)
  intro e he
  obtain rfl := List.mem_singleton.mp he
  exact id

/-- Packet 3 comes after the buffer was told to clear to 5. -/
def latePacketOps (before : List Op) : List Op :=
  before ++ [.clearTo 5, .insertPacket (vp8Packet 3 100 true false)]

/-- `ClearTo` records nothing when no packet has been received, and when the first one is after 5: then
packet 3 is stored. -/
theorem late_packet_stored :
    ((∀ op ∈ latePacketOps [], ∀ m ∈ op.seqNum, InWindow 0 m) ∧
      (((latePacketOps []).foldl (PacketBuffer.next .halfRing) (.create (2 ^ 1) (2 ^ 3))).slot 1).map
        Packet.seqNum = some 3) ∧
    (∀ op ∈ latePacketOps [.insertPacket (vp8Packet 10 200 true false)],
        ∀ m ∈ op.seqNum, InWindow 0 m) ∧
      (((latePacketOps [.insertPacket (vp8Packet 10 200 true false)]).foldl
        (PacketBuffer.next .halfRing) (.create (2 ^ 1) (2 ^ 3))).slot 1).map Packet.seqNum = some 3 := by
  decide

end WebrtcTrace.Packets
