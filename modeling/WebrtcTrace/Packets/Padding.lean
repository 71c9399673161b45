import WebrtcTrace.Packets.MissingPackets

/-! # The set of padding numbers

Only `InsertPadding` puts a number into `received_padding_`, and unlike the other operations it takes
none out. The comparator orders the set as long as the numbers span less than half of the ring
(`Compact`); whether one more does no harm is seen at the two ends of the set (`PaddingFits`).
-/

namespace WebrtcTrace.Packets
open OrderedKeys Runs SeqNums
set_option autoImplicit false

variable {S : SeqNumOps}

/-- Numbers of less than half a turn, in their order. -/
def Compact (keys : List UInt16) : Prop :=
  ∃ base, (∀ m ∈ keys, offset base m < 0x8000) ∧ Ascending (offset base) keys

variable (S) in
/-- The comparator has a strict weak order on the set, as `std::set` asks. -/
structure PaddingInRange (keys : List UInt16) : Prop where
  near : ∀ a ∈ keys, ∀ b ∈ keys, offset a b < 0x8000 ∨ offset b a < 0x8000
  ordered : IsStrictWeakOrder {m // m ∈ keys} (onKeys S.descending keys)

/-- A number is less than half a turn after the first one of the set, or before the last one. -/
def PaddingFits (keys : List UInt16) (n : UInt16) : Prop :=
  ∀ first last, keys.head? = some first → keys.getLast? = some last →
    offset first n < 0x8000 ∨ offset n last < 0x8000

theorem compact_nil : Compact [] :=
  ⟨0, fun _ hm => absurd hm List.not_mem_nil, List.Pairwise.nil⟩

theorem Compact.sublist {keys keys' : List UInt16} (h : Compact keys) (hsub : keys'.Sublist keys) :
    Compact keys' := by
  obtain ⟨base, hnear, hasc⟩ := h
  exact ⟨base, fun m hm => hnear m (hsub.subset hm), hasc.sublist hsub⟩

/-- The offsets may be taken from the first number. -/
theorem Compact.from_first {keys : List UInt16} (h : Compact keys) {first last : UInt16}
    (hfirst : keys.head? = some first) (hlast : keys.getLast? = some last) :
    Ascending (offset first) keys ∧
      ∀ m ∈ keys, offset first m ≤ offset first last ∧ offset first m < 0x8000 := by
  obtain ⟨base, hnear, hasc⟩ := h
  have hfm : first ∈ keys := List.mem_of_mem_head? hfirst
  have hlm : last ∈ keys := List.mem_of_mem_getLast? hlast
  have hbefore : ∀ m ∈ keys, offset base first ≤ offset base m := by
    obtain ⟨rest, rfl⟩ := List.head?_eq_some_iff.mp hfirst
    intro m hm
    obtain rfl | hm := List.mem_cons.mp hm
    · exact le_rfl
    · exact ((List.pairwise_cons.mp hasc).1 m hm).le
  have hafter : ∀ m ∈ keys, offset base m ≤ offset base last := by
    obtain ⟨rest, rfl⟩ := List.getLast?_eq_some_iff.mp hlast
    intro m hm
    obtain hm | hm := List.mem_append.mp hm
    · exact ((List.pairwise_append.mp hasc).2.2 m hm last (List.mem_singleton_self _)).le
    · rw [List.mem_singleton.mp hm]
  have hmove : ∀ m ∈ keys, offset base first + offset first m = offset base m := by
    intro m hm
    have hadd := offset_add base first m
    have hlt := offset_lt first m
    have hle := hbefore m hm
    have hm := hnear m hm
    omega
  refine ⟨List.Pairwise.imp_of_mem ?_ hasc, fun m hm => ?_⟩
  · intro a b ha hb hab
    have ha := hmove a ha
    have hb := hmove b hb
    omega
  · have hmm := hmove m hm
    have hml := hmove last hlm
    have hle := hafter m hm
    have hlt := hnear m hm
    omega

/-- **A number that fits at the ends of the set keeps it compact.** -/
theorem Compact.insert (hS : S.Circular) {keys : List UInt16} (h : Compact keys) {n : UInt16}
    (hfits : PaddingFits keys n) : Compact (OrderedKeys.insert S.descending n keys) := by
  have hinsert : ∀ base, (∀ m ∈ keys, offset base m < 0x8000) → Ascending (offset base) keys →
      offset base n < 0x8000 → Compact (OrderedKeys.insert S.descending n keys) := by
    intro base hnear hasc hn
    refine ⟨base, fun m hm => ?_, ascending_insert (hS.ranked hn hnear) hasc⟩
    obtain rfl | hm := mem_of_mem_insert hm
    · exact hn
    · exact hnear m hm
  cases hfirst : keys.head? with
  | none =>
    obtain rfl := List.head?_eq_none_iff.mp hfirst
    exact hinsert n (fun _ hm => absurd hm List.not_mem_nil) List.Pairwise.nil
      (by rw [offset_self]; decide)
  | some first =>
    have hne : keys ≠ [] := by
      rintro rfl
      cases hfirst
    obtain ⟨last, hlast⟩ := Option.isSome_iff_exists.mp (List.getLast?_isSome.mpr hne)
    obtain ⟨hasc, hnear⟩ := h.from_first hfirst hlast
    by_cases hafter : offset first n < 0x8000
    · exact hinsert first (fun m hm => (hnear m hm).2) hasc hafter
    · have hbefore : offset n last < 0x8000 := (hfits first last hfirst hlast).resolve_left hafter
      have hne : first ≠ n := by
        rintro rfl
        rw [offset_self] at hafter
        omega
      -- the number lies before the first one, so the offsets go from it
      have hswap := offset_swap hne
      have hmove : ∀ m ∈ keys, offset n m = offset n first + offset first m := by
        intro m hm
        have hadd := offset_add n first m
        have hm := (hnear m hm).2
        have hlt := offset_lt n m
        omega
      refine hinsert n (fun m hm => ?_) ?_ (by rw [offset_self]; decide)
      · have hle := (hnear m hm).1
        have hmm := hmove m hm
        have hml := hmove last (List.mem_of_mem_getLast? hlast)
        omega
      · refine List.Pairwise.imp_of_mem ?_ hasc
        intro a b ha hb hab
        have ha := hmove a ha
        have hb := hmove b hb
        omega

theorem Compact.inRange (hS : S.Circular) {keys : List UInt16} (h : Compact keys) :
    PaddingInRange S keys := by
  obtain ⟨base, hnear, _⟩ := h
  constructor
  · intro a ha b hb
    have hab := offset_add base a b
    have hba := offset_add base b a
    have hab_lt := offset_lt a b
    have hba_lt := offset_lt b a
    have ha := hnear a ha
    have hb := hnear b hb
    omega
  · have htotal := hS.isStrictTotalOrder hnear
    exact isStrictWeakOrder_of_isOrderConnected

/-- **A number that does not fit spoils the set.** -/
theorem padding_fits_iff (hS : S.Circular) {keys : List UInt16} (h : Compact keys) (n : UInt16) :
    PaddingInRange S (OrderedKeys.insert S.descending n keys) ↔ PaddingFits keys n := by
  refine ⟨fun hrange first last hfirst hlast => ?_, fun hfits => (h.insert hS hfits).inRange hS⟩
  by_contra hfar
  rw [not_or, not_lt, not_lt] at hfar
  have hnm : n ∈ OrderedKeys.insert S.descending n keys := by
    refine mem_insert_self fun x _ hne => ?_
    rw [hS.descending_eq, hS.descending_eq]
    exact hS.aheadOf_total hne.symm
  have hfm : first ∈ OrderedKeys.insert S.descending n keys :=
    mem_insert_of_mem (List.mem_of_mem_head? hfirst)
  have hlm : last ∈ OrderedKeys.insert S.descending n keys :=
    mem_insert_of_mem (List.mem_of_mem_getLast? hlast)
  have hbefore : ∀ {a b : UInt16}, a ≠ b → offset a b < 0x8000 → S.descending a b = true := by
    intro a b hne hnear
    rw [hS.descending_eq]
    exact hS.ahead hne.symm hnear
  have hlast_n : S.descending last n = true := by
    refine hbefore ?_ ((hrange.near n hnm last hlm).resolve_left (by omega))
    rintro rfl
    rw [offset_self] at hfar
    omega
  have hn_first : S.descending n first = true := by
    refine hbefore ?_ ((hrange.near first hfm n hnm).resolve_left (by omega))
    rintro rfl
    rw [offset_self] at hfar
    omega
  -- around the ring: the last one, the new one, the first one and the last one again
  have hordered := hrange.ordered
  have hturn : onKeys S.descending _ ⟨last, hlm⟩ ⟨first, hfm⟩ :=
    hordered.trans _ ⟨n, hnm⟩ _ hlast_n hn_first
  by_cases hsame : first = last
  · subst hsame
    exact hordered.irrefl _ hturn
  · have hfirst_last : S.descending first last = true :=
      hbefore hsame ((h.from_first hfirst hlast).2 last (List.mem_of_mem_getLast? hlast)).2
    exact hordered.irrefl _ (hordered.trans _ ⟨first, hfm⟩ _ hturn hfirst_last)

/-! ## Over a run -/

namespace PacketBuffer
variable {s t : PacketBuffer}

/-- Padding with a number that does not fit. -/
def PaddingOverruns (s : PacketBuffer) : Op → Prop
  | .insertPacket _ => False
  | .insertPadding seqNum => ¬ PaddingFits s.receivedPadding seqNum
  | .clearTo _ => False
  | .clear => False
  | .forceSpsPpsIdrIsH264Keyframe => False
  | .resetSpsPpsIdrIsH264Keyframe => False

theorem updateMissingPackets_padding (s : PacketBuffer) (n : UInt16) :
    (s.updateMissingPackets S n).receivedPadding = s.receivedPadding := by
  unfold updateMissingPackets
  dsimp only
  split_ifs <;> rfl

theorem accept_padding {n : UInt16} (ha : s.accept S n = some t) :
    t.receivedPadding.Sublist s.receivedPadding := by
  obtain ⟨_, rfl⟩ | ⟨_, _, _, ⟨_, rfl⟩ | ⟨_, rfl⟩⟩ | ⟨_, _, rfl⟩ := accept_cases ha
  · exact .refl _
  · exact .refl _
  · exact List.nil_sublist _
  · exact .refl _

theorem insertPacket_padding (s : PacketBuffer) (packet : Packet) :
    (s.next S (.insertPacket packet)).receivedPadding.Sublist s.receivedPadding := by
  rw [next]
  obtain ⟨_, hres⟩ | ⟨t, ha, ⟨_, hres⟩ | ⟨u, _, hres⟩ | ⟨u, hr, hres⟩⟩ :=
    insertPacket_cases (S := S) s packet <;> rw [hres]
  · exact accept_padding ha
  · exact List.nil_sublist _
  · obtain ⟨_, _, _, _, _, harrived⟩ := arrived_rest (S := S) (resizes_makeRoom hr).1 packet
    exact ((trims_findFramesLoop packet.seqNum _ packet.seqNum _).padding.trans harrived).trans
      (accept_padding ha)

theorem next_compact (hS : S.Circular) (h : Compact s.receivedPadding) {op : Op}
    (hop : ¬ PaddingOverruns s op) : Compact (s.next S op).receivedPadding := by
  cases op with
  | insertPacket packet => exact h.sublist (insertPacket_padding s packet)
  | insertPadding seqNum =>
    refine Compact.sublist ?_ (trims_findFramesLoop (seqNum + 1) _ (seqNum + 1) _).padding
    dsimp only
    rw [updateMissingPackets_padding]
    exact h.insert hS (not_not.mp hop)
  | clearTo seqNum =>
    obtain ⟨_, hsame⟩ | ⟨_, _, hcleared⟩ := clearTo_cases (S := S) s seqNum
    · rw [next, perform, hsame]
      exact h
    · rw [next, perform, hcleared]
      exact h.sublist (fromLower_sublist _ _ _)
  | clear => exact compact_nil
  | forceSpsPpsIdrIsH264Keyframe => exact h
  | resetSpsPpsIdrIsH264Keyframe => exact h

end PacketBuffer
open PacketBuffer

/-- **The padding numbers stay in the range of the comparator** over a run whose padding fits, and
whether the next number keeps them so is whether it fits. -/
theorem received_padding_in_range (S : SeqNumOps) (hS : S.Circular) (startBufferSize maxBufferSize : ℕ)
    {tr : List (PacketBuffer × Op)} {s : PacketBuffer}
    (h : PacketRun S startBufferSize maxBufferSize tr s) (hfits : ∀ e ∈ tr, ¬ PaddingOverruns e.1 e.2) :
    PaddingInRange S s.receivedPadding ∧ ∀ n,
      PaddingInRange S (OrderedKeys.insert S.descending n s.receivedPadding) ↔
        PaddingFits s.receivedPadding n := by
  have hcompact : Compact s.receivedPadding := by
    refine Run.invariant_of (I := fun s => Compact s.receivedPadding)
      (P := fun s op => ¬ PaddingOverruns s op) compact_nil ?_ h hfits
    rintro s op t hs hop rfl
    exact next_compact hS hs hop
  exact ⟨hcompact.inRange hS, padding_fits_iff hS hcompact⟩

theorem received_padding_in_range_two_numbers :
    PaddingInRange .halfRing
      (twoMissingOps.foldl (PacketBuffer.next .halfRing) (.create 512 2048)).receivedPadding := by
  refine (received_padding_in_range .halfRing SeqNumOps.circular_halfRing 512 2048
    (Run.of_next (PacketBuffer.next .halfRing) (.create 512 2048) twoMissingOps) ?_).1
  intro e he hover
  obtain rfl | rfl := mem_history_twoMissingOps he
  · exact hover fun first last hfirst => by cases hfirst
  · refine hover fun first last hfirst _ => .inl ?_
    obtain rfl : 65534 = first := Option.some.inj hfirst
    decide

/-! ## Padding without media -/

/-- The number is at most 1000 ahead of the newest one. -/
def Advances (s : PacketBuffer) (n : UInt16) : Prop :=
  ∀ newest, s.newestInsertedSeqNum = some newest → 0 < offset newest n ∧ offset newest n ≤ 1000

/-- From 33000 to 65000, and then to 232, half a turn after the first number. -/
def mediaPause : List UInt16 := (List.range 33).map (fun i => 33000 + 1000 * UInt16.ofNat i) ++ [232]

theorem padding_advances (hS : S.Circular) {s : PacketBuffer} {n : UInt16}
    (hempty : ∀ i, s.slot i = none) (hn : Advances s n) :
    (∀ i, (s.next S (.insertPadding n)).slot i = none) ∧
      (s.next S (.insertPadding n)).newestInsertedSeqNum = some n ∧
      (s.next S (.insertPadding n)).receivedPadding =
        OrderedKeys.insert S.descending n s.receivedPadding := by
  rw [next_insertPadding_empty hempty]
  cases hnewest : s.newestInsertedSeqNum with
  | none =>
    have hbehind : S.aheadOf n (s.newestInsertedSeqNum.getD n) = false := by
      rw [hnewest, Option.getD_none]
      exact hS.notAhead (by rw [offset_self]; decide)
    rw [updateMissingPackets_behind hbehind, hnewest]
    exact ⟨hempty, rfl, rfl⟩
  | some w =>
    obtain ⟨hpos, hnear⟩ := hn w hnewest
    have hgetD : s.newestInsertedSeqNum.getD n = w := by rw [hnewest, Option.getD_some]
    have hahead : S.aheadOf n w = true := by
      refine hS.ahead ?_ (by omega)
      rintro rfl
      rw [offset_self] at hpos
      omega
    have hrounds := (missingStart_spec hS hgetD hahead).1
    rw [updateMissingPackets_ahead (by rw [hgetD]; exact hahead)]
    exact ⟨hempty, congrArg some (addMissing_newest hS _ 65536 _ _ (by omega) hrounds (by omega)), rfl⟩

theorem paddings_advance (hS : S.Circular) (numbers : List UInt16) :
    ∀ {s : PacketBuffer} {w : UInt16}, (∀ i, s.slot i = none) → s.newestInsertedSeqNum = some w →
      (w :: numbers).IsChain (fun a b => 0 < offset a b ∧ offset a b ≤ 1000) →
      (∀ e ∈ Runs.history (PacketBuffer.next S) s (numbers.map .insertPadding),
        ∃ n, e.2 = .insertPadding n ∧ Advances e.1 n) ∧
      ((numbers.map .insertPadding).foldl (PacketBuffer.next S) s).receivedPadding =
        numbers.foldl (fun keys n => OrderedKeys.insert S.descending n keys) s.receivedPadding := by
  induction numbers with
  | nil => exact fun _ _ _ => ⟨fun e he => absurd he List.not_mem_nil, rfl⟩
  | cons n numbers ih =>
    intro s w hempty hw hchain
    obtain ⟨hstep, hrest⟩ := List.isChain_cons_cons.mp hchain
    have hn : Advances s n := by
      intro newest hnewest
      obtain rfl := Option.some.inj (hw.symm.trans hnewest)
      exact hstep
    obtain ⟨hempty', hnewest', hpadding⟩ := padding_advances hS hempty hn
    obtain ⟨hall, hlast⟩ := ih hempty' hnewest' hrest
    refine ⟨fun e he => ?_, ?_⟩
    · obtain rfl | he := List.mem_cons.mp he
      · exact ⟨n, rfl, hn⟩
      · exact hall e he
    · rw [List.map_cons, List.foldl_cons, hlast, hpadding]
      rfl

/-- Padding alone, in steps of at most 1000, spans half of the ring after 34 calls. -/
theorem padding_spans_half_ring :
    PacketRun .halfRing 512 2048
        (Runs.history (PacketBuffer.next .halfRing) (.create 512 2048) (mediaPause.map .insertPadding))
        ((mediaPause.map .insertPadding).foldl (PacketBuffer.next .halfRing) (.create 512 2048)) ∧
      (∀ e ∈ Runs.history (PacketBuffer.next .halfRing) (.create 512 2048)
        (mediaPause.map .insertPadding), ∃ n, e.2 = .insertPadding n ∧ Advances e.1 n) ∧
      ¬ PaddingInRange .halfRing ((mediaPause.map .insertPadding).foldl (PacketBuffer.next .halfRing)
        (.create 512 2048)).receivedPadding := by
  have hS := SeqNumOps.circular_halfRing
  have hempty : ∀ i, (create 512 2048).slot i = none := fun _ => rfl
  have hnumbers : mediaPause = 33000 :: mediaPause.tail := rfl
  have hfirst : Advances (create 512 2048) 33000 := fun _ hnewest => by cases hnewest
  obtain ⟨hslots, hnewest, hpadding⟩ := padding_advances hS hempty hfirst
  obtain ⟨hall, hlast⟩ := paddings_advance hS mediaPause.tail hslots hnewest (by decide +kernel)
  refine ⟨Run.of_next _ _ _, ?_, fun hrange => ?_⟩
  · rw [hnumbers]
    intro e he
    obtain rfl | he := List.mem_cons.mp he
    · exact ⟨33000, rfl, hfirst⟩
    · exact hall e he
  · rw [hnumbers, List.map_cons, List.foldl_cons, hlast, hpadding] at hrange
    have hfar := hrange.near 33000 (by decide +kernel) 232 (by decide +kernel)
    exact absurd hfar (by decide)

end WebrtcTrace.Packets
