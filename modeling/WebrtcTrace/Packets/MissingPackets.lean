import WebrtcTrace.Foundations.WhileLoops
import WebrtcTrace.Packets.Bookkeeping
import WebrtcTrace.Packets.SeqOrder
import Mathlib.Data.Finset.Card
import Mathlib.Data.Finset.Range

/-! # The window of missing packets

`UpdateMissingPackets` moves the window of `missing_packets_` with the newest number and prunes what
falls out of it. The pruning compares a number of the old window with one of the new window, which may
be opposite on the ring: only after a jump of half a turn, and only the last number of the old window.
Below 1000 the newest number has that last number on the other side of 0, and it stays in the set.
-/

namespace WebrtcTrace.Packets
open OrderedKeys Runs SeqNums WhileLoops
set_option autoImplicit false

variable {S : SeqNumOps}

/-- The missing numbers are at most 1000 behind the newest one, those furthest behind first. -/
def Recent : Option UInt16 → List UInt16 → Prop
  | none, missing => missing = []
  | some newest, missing =>
    (∀ m ∈ missing, offset (newest - PacketBuffer.kMaxPaddingAge) m < 1000) ∧
      Ascending (offset (newest - PacketBuffer.kMaxPaddingAge)) missing

theorem Recent.sublist {newest : Option UInt16} {missing missing' : List UInt16}
    (h : Recent newest missing) (hsub : missing'.Sublist missing) : Recent newest missing' := by
  cases newest with
  | none =>
    rw [Recent] at h ⊢
    exact List.sublist_nil.mp (h ▸ hsub)
  | some newest => exact ⟨fun m hm => h.1 m (hsub.subset hm), h.2.sublist hsub⟩

theorem offset_oldest (n : UInt16) : offset (n - PacketBuffer.kMaxPaddingAge) n = 1000 := by
  have hage : n - (n - PacketBuffer.kMaxPaddingAge) = PacketBuffer.kMaxPaddingAge := by
    rw [PacketBuffer.kMaxPaddingAge]
    grind
  rw [offset, hage]
  rfl

/-- Moving the window moves the offsets. -/
theorem offset_shift (w n m : UInt16) :
    offset w n + offset (n - PacketBuffer.kMaxPaddingAge) m =
        offset (w - PacketBuffer.kMaxPaddingAge) m ∨
      offset w n + offset (n - PacketBuffer.kMaxPaddingAge) m =
        offset (w - PacketBuffer.kMaxPaddingAge) m + 65536 := by
  have hshift : offset (w - PacketBuffer.kMaxPaddingAge) (n - PacketBuffer.kMaxPaddingAge) =
      offset w n := by
    rw [offset, offset, show n - PacketBuffer.kMaxPaddingAge - (w - PacketBuffer.kMaxPaddingAge) =
      n - w by grind]
  rw [← hshift]
  exact offset_add _ _ _

namespace PacketBuffer
variable {s t : PacketBuffer} {n : UInt16}

/-! ## The loop -/

variable (S) in
/-- A round of the loop of `UpdateMissingPackets`, on the newest number and the missing ones. -/
def missingRound (seqNum : UInt16) (x : UInt16 × List UInt16) :
    Round (UInt16 × List UInt16) (UInt16 × List UInt16) :=
  if S.aheadOf seqNum x.1 then .again (x.1 + 1, OrderedKeys.insert S.descending x.1 x.2) else .stop x

variable (S) in
/-- What the loop of `UpdateMissingPackets` starts from. -/
def missingStart (s : PacketBuffer) (seqNum : UInt16) : UInt16 × List UInt16 :=
  let newest := s.newestInsertedSeqNum.getD seqNum
  let oldSeqNum := seqNum - kMaxPaddingAge
  ((if S.aheadOf oldSeqNum newest then oldSeqNum else newest) + 1,
    OrderedKeys.fromLower S.descending oldSeqNum s.missingPackets)

theorem updateMissingPackets_ahead (hahead : S.aheadOf n (s.newestInsertedSeqNum.getD n) = true) :
    s.updateMissingPackets S n = { s with
      newestInsertedSeqNum := some (addMissing S n 65536 (s.missingStart S n).1 (s.missingStart S n).2).1
      missingPackets := (addMissing S n 65536 (s.missingStart S n).1 (s.missingStart S n).2).2 } :=
  if_pos hahead

theorem updateMissingPackets_behind (hbehind : S.aheadOf n (s.newestInsertedSeqNum.getD n) = false) :
    s.updateMissingPackets S n = { s with
      newestInsertedSeqNum := some (s.newestInsertedSeqNum.getD n)
      missingPackets := OrderedKeys.eraseKey S.descending n s.missingPackets } :=
  if_neg (ne_true_of_eq_false hbehind)

/-- How far a number that `AheadOf` puts ahead can be. -/
theorem ahead_distance (hS : S.Circular) {w : UInt16} (hahead : S.aheadOf n w = true) :
    0 < offset w n ∧ offset w n ≤ 0x8000 := by
  have hne : w ≠ n := by
    rintro rfl
    have hself : S.aheadOf w w = false := hS.notAhead (by rw [offset_self]; decide)
    rw [hself] at hahead
    cases hahead
  refine ⟨offset_pos hne, ?_⟩
  by_contra hfar
  have hswap := offset_swap hne
  have hbehind : S.aheadOf n w = false := hS.notAhead (by omega)
  rw [hbehind] at hahead
  cases hahead

/-- The guard against large jumps leaves less than 1000 numbers between the two. -/
theorem missingStart_spec (hS : S.Circular) {w : UInt16} (hnewest : s.newestInsertedSeqNum.getD n = w)
    (hahead : S.aheadOf n w = true) :
    offset (s.missingStart S n).1 n = min (offset w n) 1000 - 1 ∧
      offset (n - kMaxPaddingAge) (s.missingStart S n).1 = 1001 - min (offset w n) 1000 := by
  obtain ⟨hpos, hhalf⟩ := ahead_distance hS hahead
  have hshift := offset_shift w n w
  rw [offset_oldest] at hshift
  have hlt := offset_lt (n - kMaxPaddingAge) w
  -- the number before the first one the loop looks at
  obtain ⟨last, hlast, hplace⟩ : ∃ last, (s.missingStart S n).1 = last + 1 ∧
      offset (n - kMaxPaddingAge) last = 1000 - min (offset w n) 1000 := by
    refine ⟨if S.aheadOf (n - kMaxPaddingAge) w then n - kMaxPaddingAge else w, ?_, ?_⟩
    · rw [missingStart, hnewest]
    · by_cases hjump : 1000 < offset w n
      · have hold := offset_add (n - kMaxPaddingAge) w (n - kMaxPaddingAge)
        rw [offset_self] at hold
        have hne : n - kMaxPaddingAge ≠ w := by
          intro heq
          rw [heq, offset_self] at hshift
          omega
        rw [if_pos (hS.ahead hne (by omega)), offset_self]
        omega
      · have hnot : S.aheadOf (n - kMaxPaddingAge) w = false := hS.notAhead (by omega)
        rw [if_neg (ne_true_of_eq_false hnot)]
        omega
  have hnext : offset (n - kMaxPaddingAge) (last + 1) = offset (n - kMaxPaddingAge) last + 1 :=
    offset_succ (by omega)
  rw [hlast, hnext, hplace]
  have hrest := offset_add (n - kMaxPaddingAge) (last + 1) n
  have hrest_lt := offset_lt (last + 1) n
  rw [offset_oldest, hnext, hplace] at hrest
  omega

theorem missingRound_lowers (hS : S.Circular) (x : UInt16 × List UInt16) (hx : offset x.1 n < 0x8000) :
    Lowers (missingRound S n) (fun x => offset x.1 n < 0x8000) (fun x => offset x.1 n) x := by
  unfold Lowers missingRound
  split_ifs with hahead
  · obtain ⟨hpos, _⟩ := ahead_distance hS hahead
    have hone : offset x.1 (x.1 + 1) = 1 := by
      have hself : offset x.1 x.1 = 0 := offset_self x.1
      have hnext : offset x.1 (x.1 + 1) = offset x.1 x.1 + 1 := offset_succ (by rw [hself]; decide)
      rwa [hself] at hnext
    have hstep := offset_add x.1 (x.1 + 1) n
    have hstep_lt := offset_lt (x.1 + 1) n
    dsimp only
    omega
  · trivial

/-- **The loop ends after less than 1000 rounds**, in any state. -/
theorem missingLoop_bounded (hS : S.Circular)
    (hahead : S.aheadOf n (s.newestInsertedSeqNum.getD n) = true) :
    ∃ rounds ≤ 1000, ∃ r, Loops (missingRound S n) (s.missingStart S n) rounds r ∧
      s.updateMissingPackets S n =
        { s with newestInsertedSeqNum := some r.1, missingPackets := r.2 } := by
  have hstart := (missingStart_spec hS rfl hahead).1
  have hnear : offset (s.missingStart S n).1 n < 0x8000 := by omega
  have hends : ∀ x : UInt16 × List UInt16, offset x.1 n < 0x8000 →
      ∃ rounds ≤ offset x.1 n, ∃ r, Loops (missingRound S n) x rounds r :=
    Loops.of_measure _ (missingRound_lowers hS)
  obtain ⟨rounds, hrounds, r, hloops⟩ := hends (s.missingStart S n) hnear
  have hless : rounds ≤ 1000 := by omega
  refine ⟨rounds, hless, r, hloops, ?_⟩
  have hstop : ∀ x r, missingRound S n x = .stop r → addMissing S n 0 x.1 x.2 = r := by
    intro x r hx
    unfold missingRound at hx
    split_ifs at hx
    exact Round.stop.inj hx
  have hround : ∀ fuel x, addMissing S n (fuel + 1) x.1 x.2 =
      (missingRound S n x).resolve fun x => addMissing S n fuel x.1 x.2 := by
    intro fuel x
    rw [addMissing, missingRound]
    split_ifs <;> rfl
  have hresult := hloops.fuelled (f := fun fuel x => addMissing S n fuel x.1 x.2) hstop hround 65536
    (hless.trans (by decide))
  rw [updateMissingPackets_ahead hahead, hresult]

/-! ## What the loop inserts -/

theorem addMissing_self (hS : S.Circular) (fuel : ℕ) (missing : List UInt16) :
    addMissing S n fuel n missing = (n, missing) := by
  have hself : S.aheadOf n n = false := hS.notAhead (by rw [offset_self]; decide)
  cases fuel with
  | zero => rfl
  | succ fuel => rw [addMissing, if_neg (ne_true_of_eq_false hself)]

/-- One round, where the end is `k + 1` numbers ahead. -/
theorem addMissing_succ (hS : S.Circular) (fuel : ℕ) (missing : List UInt16) {k : ℕ} {newest : UInt16}
    (hk : offset newest n = k + 1) (hnear : k + 1 < 0x8000) :
    addMissing S n (fuel + 1) newest missing =
        addMissing S n fuel (newest + 1) (OrderedKeys.insert S.descending newest missing) ∧
      offset (newest + 1) n = k := by
  have hne : n ≠ newest := by
    rintro rfl
    rw [offset_self] at hk
    omega
  have hself : offset newest newest = 0 := offset_self newest
  have hone : offset newest (newest + 1) = offset newest newest + 1 :=
    offset_succ (by rw [hself]; decide)
  have hleft := offset_add newest (newest + 1) n
  have hleft_lt := offset_lt (newest + 1) n
  refine ⟨?_, by omega⟩
  rw [addMissing, if_pos (hS.ahead hne (by omega))]

theorem addMissing_newest (hS : S.Circular) (k : ℕ) :
    ∀ (fuel : ℕ) (newest : UInt16) (missing : List UInt16), k ≤ fuel → offset newest n = k →
      k < 0x8000 → (addMissing S n fuel newest missing).1 = n := by
  induction k with
  | zero =>
    intro fuel newest missing _ hk _
    have hsame : offset newest newest = offset newest n := by rw [hk, offset_self]
    obtain rfl : newest = n := offset_inj hsame
    rw [addMissing_self hS]
  | succ k ih =>
    intro fuel newest missing hfuel hk hnear
    obtain ⟨fuel, rfl⟩ := Nat.exists_eq_succ_of_ne_zero (by omega : fuel ≠ 0)
    obtain ⟨hround, hleft⟩ := addMissing_succ hS fuel missing hk hnear
    rw [hround]
    exact ih fuel (newest + 1) _ (by omega) hleft (by omega)

theorem mem_addMissing {m : UInt16} (fuel : ℕ) :
    ∀ (newest : UInt16) {missing : List UInt16}, m ∈ missing →
      m ∈ (addMissing S n fuel newest missing).2 := by
  induction fuel with
  | zero => exact fun _ _ h => h
  | succ fuel ih =>
    intro newest missing h
    rw [addMissing]
    split_ifs
    · exact ih (newest + 1) (mem_insert_of_mem h)
    · exact h

/-- The numbers from `newest` to the one before `n` go to the end, one after the other. -/
theorem addMissing_recent (hS : S.Circular) (k : ℕ) :
    ∀ (fuel : ℕ) (newest : UInt16) (missing : List UInt16), k ≤ fuel → offset newest n = k →
      offset (n - kMaxPaddingAge) newest + k = 1000 →
      (∀ m ∈ missing, offset (n - kMaxPaddingAge) m < offset (n - kMaxPaddingAge) newest) →
      Ascending (offset (n - kMaxPaddingAge)) missing →
      Recent (some n) (addMissing S n fuel newest missing).2 := by
  induction k with
  | zero =>
    intro fuel newest missing _ hk hplace hbelow hasc
    have hsame : offset newest newest = offset newest n := by rw [hk, offset_self]
    obtain rfl : newest = n := offset_inj hsame
    rw [addMissing_self hS]
    exact ⟨fun m hm => (hbelow m hm).trans_eq hplace, hasc⟩
  | succ k ih =>
    intro fuel newest missing hfuel hk hplace hbelow hasc
    obtain ⟨fuel, rfl⟩ := Nat.exists_eq_succ_of_ne_zero (by omega : fuel ≠ 0)
    obtain ⟨hround, hleft⟩ := addMissing_succ hS fuel missing hk (by omega)
    have hlast : OrderedKeys.insert S.descending newest missing = missing ++ [newest] := by
      refine insert_last fun m hm => ?_
      have hm := hbelow m hm
      rw [hS.descending_eq]
      exact (hS.aheadOf_iff (by omega) (by omega)).mpr hm
    have hnext : offset (n - kMaxPaddingAge) (newest + 1) = offset (n - kMaxPaddingAge) newest + 1 :=
      offset_succ (by omega)
    rw [hround, hlast]
    refine ih fuel (newest + 1) (missing ++ [newest]) (by omega) hleft (by omega) ?_ ?_
    · intro m hm
      obtain hm | hm := List.mem_append.mp hm
      · have hm := hbelow m hm
        omega
      · rw [List.mem_singleton.mp hm]
        omega
    · refine List.pairwise_append.mpr ⟨hasc, List.pairwise_singleton _ _, fun m hm x hx => ?_⟩
      rw [List.mem_singleton.mp hx]
      exact hbelow m hm

/-! ## The pruning -/

/-- The number is half a turn ahead of a newest number below 1000, and the one 1000 behind that is
missing: `AheadOf` does not tell which of the two is older. -/
def HalfTurn (s : PacketBuffer) (n : UInt16) : Prop :=
  ∃ newest, s.newestInsertedSeqNum = some newest ∧ n = newest + 0x8000 ∧ newest < 1000 ∧
    newest - kMaxPaddingAge ∈ s.missingPackets

/-- What is kept is in the new window. -/
theorem fromLower_recent (hS : S.Circular) {w : UInt16} (hnewest : s.newestInsertedSeqNum = some w)
    (h : Recent (some w) s.missingPackets) (hahead : S.aheadOf n w = true) (hturn : ¬ HalfTurn s n) :
    ∀ m ∈ OrderedKeys.fromLower S.descending (n - kMaxPaddingAge) s.missingPackets,
      offset w n + offset (n - kMaxPaddingAge) m = offset (w - kMaxPaddingAge) m := by
  obtain ⟨hpos, hhalf⟩ := ahead_distance hS hahead
  have hold : offset (w - kMaxPaddingAge) (n - kMaxPaddingAge) = offset w n := by
    have hshift := offset_shift w n (n - kMaxPaddingAge)
    rw [offset_self] at hshift
    have hlt := offset_lt (w - kMaxPaddingAge) (n - kMaxPaddingAge)
    omega
  have hmem : ∀ m ∈ OrderedKeys.fromLower S.descending (n - kMaxPaddingAge) s.missingPackets,
      offset w n ≤ offset (w - kMaxPaddingAge) m := by
    obtain hlt | heq := Nat.lt_or_eq_of_le hhalf
    · have hranked : Ranked S.descending (offset (w - kMaxPaddingAge)) (n - kMaxPaddingAge)
          s.missingPackets :=
        hS.ranked (by omega) fun m hm => (h.1 m hm).trans (by decide)
      intro m hm
      rw [← hold]
      exact ((mem_fromLower hranked h.2).mp hm).2
    · -- opposite numbers: all are pruned
      have hall : OrderedKeys.fromLower S.descending (n - kMaxPaddingAge) s.missingPackets = [] := by
        refine List.dropWhile_eq_nil_iff.mpr fun m hm => ?_
        have hwindow := h.1 m hm
        have hback := offset_add (w - kMaxPaddingAge) m (n - kMaxPaddingAge)
        have hback_lt := offset_lt m (n - kMaxPaddingAge)
        rw [hS.descending_eq]
        obtain hzero | hinner := Nat.eq_zero_or_pos (offset (w - kMaxPaddingAge) m)
        · have hsame : offset (w - kMaxPaddingAge) (w - kMaxPaddingAge) =
              offset (w - kMaxPaddingAge) m := by rw [offset_self, hzero]
          obtain rfl := offset_inj hsame
          have hjump : n = w + 0x8000 := by
            have hsub : n - w = 0x8000 := UInt16.toNat_inj.mp heq
            grind
          have hlarge : ¬ w < 1000 := fun hw => hturn ⟨w, hnewest, hjump, hw, hm⟩
          have hupper : w < n := (hS.opposite heq).mp hahead
          refine (hS.opposite (by omega)).mpr ?_
          rw [hjump] at hupper ⊢
          rw [kMaxPaddingAge]
          grind
        · refine hS.ahead ?_ (by omega)
          rintro rfl
          rw [offset_self] at hback
          omega
      rw [hall]
      exact fun m hm => absurd hm List.not_mem_nil
  intro m hm
  have hle := hmem m hm
  have hshift := offset_shift w n m
  have hlt := offset_lt (n - kMaxPaddingAge) m
  omega

theorem updateMissingPackets_recent (hS : S.Circular)
    (h : Recent s.newestInsertedSeqNum s.missingPackets) (hturn : ¬ HalfTurn s n) :
    Recent (s.updateMissingPackets S n).newestInsertedSeqNum
      (s.updateMissingPackets S n).missingPackets := by
  cases hnewest : s.newestInsertedSeqNum with
  | none =>
    rw [hnewest] at h
    have hself : S.aheadOf n (s.newestInsertedSeqNum.getD n) = false := by
      rw [hnewest]
      exact hS.notAhead (by rw [Option.getD_none, offset_self]; decide)
    have hnone : s.missingPackets = [] := h
    rw [updateMissingPackets_behind hself, hnone]
    exact ⟨fun m hm => absurd hm List.not_mem_nil, List.Pairwise.nil⟩
  | some w =>
    rw [hnewest] at h
    have hgetD : s.newestInsertedSeqNum.getD n = w := by rw [hnewest, Option.getD_some]
    cases hahead : S.aheadOf n w with
    | false =>
      rw [updateMissingPackets_behind (by rw [hgetD]; exact hahead), hgetD]
      exact h.sublist (eraseKey_sublist _ _ _)
    | true =>
      have hkept := fromLower_recent hS hnewest h hahead hturn
      obtain ⟨hrounds, hplace⟩ := missingStart_spec hS hgetD hahead
      obtain ⟨hpos, _⟩ := ahead_distance hS hahead
      have hsub := fromLower_sublist S.descending (n - kMaxPaddingAge) s.missingPackets
      have hbelow : ∀ m ∈ (s.missingStart S n).2,
          offset (n - kMaxPaddingAge) m < offset (n - kMaxPaddingAge) (s.missingStart S n).1 := by
        intro m hm
        have hm' := hkept m hm
        have hwindow := h.1 m (hsub.subset hm)
        omega
      have hasc : Ascending (offset (n - kMaxPaddingAge)) (s.missingStart S n).2 := by
        refine List.Pairwise.imp_of_mem ?_ (h.2.sublist hsub)
        intro x y hx hy hxy
        have hx' := hkept x hx
        have hy' := hkept y hy
        omega
      rw [updateMissingPackets_ahead (by rw [hgetD]; exact hahead),
        addMissing_newest hS _ 65536 _ _ (by omega) hrounds (by omega)]
      exact addMissing_recent hS _ 65536 _ _ (by omega) hrounds (by omega) hbelow hasc

/-! ## Over a run -/

variable (S) in
/-- The operation reaches `UpdateMissingPackets` with a `HalfTurn`. -/
def TurnsHalf (s : PacketBuffer) : Op → Prop
  | .insertPacket packet => ∃ t u, s.accept S packet.seqNum = some t ∧
      t.makeRoom packet.seqNum = .free u ∧ HalfTurn t packet.seqNum
  | .insertPadding seqNum => HalfTurn s seqNum
  | .clearTo _ => False
  | .clear => False
  | .forceSpsPpsIdrIsH264Keyframe => False
  | .resetSpsPpsIdrIsH264Keyframe => False

theorem accept_recent (h : Recent s.newestInsertedSeqNum s.missingPackets) {seqNum : UInt16}
    (ha : s.accept S seqNum = some t) : Recent t.newestInsertedSeqNum t.missingPackets := by
  obtain ⟨_, rfl⟩ | ⟨_, _, _, ⟨_, rfl⟩ | ⟨_, rfl⟩⟩ | ⟨_, _, rfl⟩ := accept_cases ha
  · exact h
  · exact h
  · exact rfl
  · exact h

theorem Trims.recent (h : Trims s t) (hs : Recent s.newestInsertedSeqNum s.missingPackets) :
    Recent t.newestInsertedSeqNum t.missingPackets := by
  have hnewest : t.newestInsertedSeqNum = s.newestInsertedSeqNum := by rw [h.rest]
  rw [hnewest]
  exact hs.sublist h.missing

theorem clearTo_recent (h : Recent s.newestInsertedSeqNum s.missingPackets) (seqNum : UInt16) :
    Recent (s.clearTo S seqNum).newestInsertedSeqNum (s.clearTo S seqNum).missingPackets := by
  obtain ⟨_, hsame⟩ | ⟨_, _, hcleared⟩ := clearTo_cases (S := S) s seqNum
  · rwa [hsame]
  · rw [hcleared]
    exact h.sublist (fromLower_sublist _ _ _)

theorem next_recent (hS : S.Circular) (h : Recent s.newestInsertedSeqNum s.missingPackets) {op : Op}
    (hop : ¬ TurnsHalf S s op) :
    Recent (s.next S op).newestInsertedSeqNum (s.next S op).missingPackets := by
  cases op with
  | insertPacket packet =>
    rw [next]
    obtain ⟨_, hres⟩ | ⟨t, ha, hcases⟩ := insertPacket_cases (S := S) s packet
    · rw [hres]
      exact h
    · have ht := accept_recent h ha
      obtain ⟨_, hres⟩ | ⟨u, _, hres⟩ | ⟨u, hr, hres⟩ := hcases <;> rw [hres]
      · exact ht
      · exact rfl
      · obtain ⟨_, _, _, hnewest, hmissing, _⟩ := arrived_rest (S := S) (resizes_makeRoom hr).1 packet
        refine (trims_findFramesLoop packet.seqNum _ packet.seqNum _).recent ?_
        rw [hnewest, hmissing]
        exact updateMissingPackets_recent hS ht fun hturn => hop ⟨t, u, ha, hr, hturn⟩
  | insertPadding seqNum =>
    exact (trims_findFramesLoop (seqNum + 1) _ (seqNum + 1) _).recent
      (updateMissingPackets_recent hS h hop)
  | clearTo seqNum => exact clearTo_recent h seqNum
  | clear => exact rfl
  | forceSpsPpsIdrIsH264Keyframe => exact h
  | resetSpsPpsIdrIsH264Keyframe => exact h

variable (S) in
/-- The window of the missing packets: few, close behind the newest number, in a good order, and with
the oldest gap in front, where the log looks for it. -/
structure MissingInOrder (s : PacketBuffer) : Prop where
  few : s.missingPackets.length ≤ 1000
  behind : ∀ m ∈ s.missingPackets, ∃ newest, s.newestInsertedSeqNum = some newest ∧
    1 ≤ offset m newest ∧ offset m newest ≤ 1000
  ordered : IsStrictTotalOrder {m // m ∈ s.missingPackets} (onKeys S.descending s.missingPackets)
  oldest : ∀ first, s.missingPackets.head? = some first → ∀ m ∈ s.missingPackets, m ≠ first →
    S.aheadOf m first = true

theorem missingInOrder (hS : S.Circular) (h : Recent s.newestInsertedSeqNum s.missingPackets) :
    MissingInOrder S s := by
  cases hnewest : s.newestInsertedSeqNum with
  | none =>
    rw [hnewest] at h
    have hnone : s.missingPackets = [] := h
    have hmem : ∀ m ∈ s.missingPackets, False := by simp [hnone]
    refine ⟨by simp [hnone], fun m hm => (hmem m hm).elim, ?_, fun _ _ m hm => (hmem m hm).elim⟩
    exact hS.isStrictTotalOrder fun m hm => ((hmem m hm).elim : offset 0 m < 0x8000)
  | some newest =>
    rw [hnewest] at h
    obtain ⟨hwindow, hasc⟩ := h
    refine ⟨?_, fun m hm => ⟨newest, hnewest, ?_⟩, ?_, fun first hfirst m hm hne => ?_⟩
    · have hnodup : (s.missingPackets.map (offset (newest - kMaxPaddingAge))).Nodup :=
        (List.pairwise_map.mpr hasc).imp fun hlt => hlt.ne
      have hsub : (s.missingPackets.map (offset (newest - kMaxPaddingAge))).toFinset ⊆
          Finset.range 1000 := by
        intro i hi
        obtain ⟨m, hm, rfl⟩ := List.mem_map.mp (List.mem_toFinset.mp hi)
        exact Finset.mem_range.mpr (hwindow m hm)
      have hcard := Finset.card_le_card hsub
      rwa [List.toFinset_card_of_nodup hnodup, List.length_map, Finset.card_range] at hcard
    · have hm := hwindow m hm
      have hadd := offset_add (newest - kMaxPaddingAge) m newest
      have hlt := offset_lt m newest
      rw [offset_oldest] at hadd
      omega
    · exact hS.isStrictTotalOrder fun m hm => (hwindow m hm).trans (by decide)
    · obtain ⟨rest, hrest⟩ := List.head?_eq_some_iff.mp hfirst
      have hfm : first ∈ s.missingPackets := List.mem_of_mem_head? hfirst
      rw [hrest] at hasc hm
      obtain rfl | hm' := List.mem_cons.mp hm
      · exact absurd rfl hne
      · rw [← hrest] at hm
        have hm_half := (hwindow m hm).trans (by decide : 1000 < 0x8000)
        have hfirst_half := (hwindow first hfm).trans (by decide : 1000 < 0x8000)
        exact (hS.aheadOf_iff hm_half hfirst_half).mpr
          ((List.pairwise_cons.mp hasc).1 m hm')

end PacketBuffer
open PacketBuffer

/-- **The missing packets are a short window in good order** in every state of a run without a jump of
half a turn that the pruning cannot tell from a step back; and in any state the loop that adds to them
runs its body at most 1000 times. -/
theorem missing_packets_in_order (S : SeqNumOps) (hS : S.Circular) (startBufferSize maxBufferSize : ℕ) :
    (∀ (tr : List (PacketBuffer × Op)) (s : PacketBuffer), PacketRun S startBufferSize maxBufferSize tr s →
      (∀ e ∈ tr, ¬ TurnsHalf S e.1 e.2) → MissingInOrder S s) ∧
    ∀ (s : PacketBuffer) (seqNum : UInt16),
      S.aheadOf seqNum (s.newestInsertedSeqNum.getD seqNum) = true →
      ∃ rounds ≤ 1000, ∃ r, Loops (missingRound S seqNum) (s.missingStart S seqNum) rounds r ∧
        s.updateMissingPackets S seqNum =
          { s with newestInsertedSeqNum := some r.1, missingPackets := r.2 } := by
  refine ⟨fun tr s h hturns => missingInOrder hS ?_, fun s seqNum => missingLoop_bounded hS⟩
  have hnew : Recent (create startBufferSize maxBufferSize).newestInsertedSeqNum
      (create startBufferSize maxBufferSize).missingPackets := rfl
  refine Run.invariant_of (I := fun s => Recent s.newestInsertedSeqNum s.missingPackets)
    (P := fun s op => ¬ TurnsHalf S s op) hnew ?_ h hturns
  rintro s op t hs hop rfl
  exact next_recent hS hs hop

def twoMissingOps : List Op := [.insertPadding 65534, .insertPadding 1]

theorem mem_history_twoMissingOps {e : PacketBuffer × Op}
    (he : e ∈ Runs.history (PacketBuffer.next .halfRing) (.create 512 2048) twoMissingOps) :
    e = (.create 512 2048, .insertPadding 65534) ∨
      e = ((create 512 2048).next .halfRing (.insertPadding 65534), .insertPadding 1) := by
  simpa [twoMissingOps, Runs.history] using he

theorem missing_packets_in_order_two_missing :
    MissingInOrder .halfRing (twoMissingOps.foldl (PacketBuffer.next .halfRing) (.create 512 2048)) := by
  refine (missing_packets_in_order .halfRing SeqNumOps.circular_halfRing 512 2048).1 _ _
    (Run.of_next (PacketBuffer.next .halfRing) (.create 512 2048) twoMissingOps) ?_
  intro e he hturn
  obtain rfl | rfl := mem_history_twoMissingOps he
  · obtain ⟨newest, hnewest, _⟩ := hturn
    cases hnewest
  · obtain ⟨newest, hnewest, hhalf, _⟩ := hturn
    obtain rfl : 65534 = newest := Option.some.inj hnewest
    exact absurd hhalf (by decide)

/-! ## A jump of half a turn -/

/-- Padding in a row. -/
def paddings : ℕ → UInt16 → List Op
  | 0, _ => []
  | k + 1, n => .insertPadding n :: paddings k (n + 1)

/-- The last of 1000 numbers in a row before the jump is 0, the first one is missing. -/
def halfTurnOps : List Op :=
  [.insertPadding 64535, .insertPadding 64537] ++ paddings 999 64538 ++ [.insertPadding 0x8000]

/-- An empty buffer that misses one number. -/
structure MissesOne (s : PacketBuffer) (m n : UInt16) : Prop where
  slot : ∀ i, s.slot i = none
  newest : s.newestInsertedSeqNum = some n
  missing : s.missingPackets = [m]

theorem MissesOne.next (hS : S.Circular) {s : PacketBuffer} {m n : UInt16} (h : MissesOne s m n)
    (hnear : offset m n < 1000) : MissesOne (s.next S (.insertPadding (n + 1))) m (n + 1) := by
  have hself : offset n n = 0 := offset_self n
  have hone : offset n (n + 1) = offset n n + 1 := offset_succ (by rw [hself]; decide)
  have hm : offset m (n + 1) = offset m n + 1 := offset_succ (by omega)
  have hne : n + 1 ≠ n := by
    intro heq
    rw [heq] at hone
    omega
  have hahead : S.aheadOf (n + 1) (s.newestInsertedSeqNum.getD (n + 1)) = true := by
    rw [h.newest]
    exact hS.ahead hne (by rw [Option.getD_some]; omega)
  -- both the newest number and the missing one are in the window of the next one
  have hwindow : ∀ x : UInt16, offset x (n + 1) ≤ 1000 →
      S.aheadOf (n + 1 - kMaxPaddingAge) x = false := by
    intro x hx
    have hplace := offset_add (n + 1 - kMaxPaddingAge) x (n + 1)
    have hlt := offset_lt (n + 1 - kMaxPaddingAge) x
    rw [offset_oldest] at hplace
    exact hS.notAhead (by omega)
  have hstart : s.missingStart S (n + 1) = (n + 1, [m]) := by
    have hkeep : S.descending m (n + 1 - kMaxPaddingAge) = false := by
      rw [hS.descending_eq]
      exact hwindow m (by omega)
    rw [missingStart, h.newest, h.missing, Option.getD_some, hwindow n (by omega), fromLower,
      List.dropWhile_cons, if_neg (ne_true_of_eq_false hkeep)]
    rfl
  rw [next_insertPadding_empty h.slot, updateMissingPackets_ahead hahead, hstart, addMissing_self hS]
  exact ⟨h.slot, rfl, rfl⟩

theorem MissesOne.paddings (hS : S.Circular) (k : ℕ) :
    ∀ {s : PacketBuffer} {m n : UInt16}, MissesOne s m n → offset m n + k ≤ 1000 →
      MissesOne ((paddings k (n + 1)).foldl (PacketBuffer.next S) s) m (n + UInt16.ofNat k) := by
  induction k with
  | zero =>
    intro s m n h _
    rw [SeqNums.add_zero]
    exact h
  | succ k ih =>
    intro s m n h hnear
    have hm : offset m (n + 1) = offset m n + 1 := offset_succ (by omega)
    rw [SeqNums.add_succ]
    exact ih (h.next hS (by omega)) (by omega)

/-- Whatever the pruning leaves stays, and the packet becomes the newest one. -/
theorem kept_missing (hS : S.Circular) {s : PacketBuffer} {n first : UInt16} {kept : List UInt16}
    (hempty : ∀ i, s.slot i = none) (hahead : S.aheadOf n (s.newestInsertedSeqNum.getD n) = true)
    (hstart : s.missingStart S n = (first, kept)) (hnear : offset first n < 0x8000) :
    (s.next S (.insertPadding n)).newestInsertedSeqNum = some n ∧
      ∀ m ∈ kept, m ∈ (s.next S (.insertPadding n)).missingPackets := by
  have hlast := addMissing_newest (n := n) hS _ 65536 first kept (by omega) rfl hnear
  rw [next_insertPadding_empty hempty, updateMissingPackets_ahead hahead, hstart]
  exact ⟨congrArg some hlast, fun m hm => mem_addMissing 65536 first hm⟩

/-- After the jump the number before 64537 is still in the set, 33768 behind. -/
theorem half_turn_keeps_old_gap :
    PacketRun .halfRing 512 2048
        (Runs.history (PacketBuffer.next .halfRing) (.create 512 2048) halfTurnOps)
        (halfTurnOps.foldl (PacketBuffer.next .halfRing) (.create 512 2048)) ∧
      ¬ MissingInOrder .halfRing (halfTurnOps.foldl (PacketBuffer.next .halfRing) (.create 512 2048)) := by
  refine ⟨Run.of_next _ _ _, fun hbad => ?_⟩
  have hS := SeqNumOps.circular_halfRing
  have hfirst : MissesOne ([.insertPadding 64535, .insertPadding 64537].foldl
      (PacketBuffer.next .halfRing) (.create 512 2048)) 64536 64537 :=
    ⟨fun _ => rfl, by decide +kernel, by decide +kernel⟩
  have hrow := hfirst.paddings hS 999 (by decide)
  rw [show 64537 + UInt16.ofNat 999 = 0 by decide, show (64537 + 1 : UInt16) = 64538 by decide] at hrow
  rw [halfTurnOps, List.foldl_append, List.foldl_append, List.foldl_cons, List.foldl_nil] at hbad
  generalize (paddings 999 64538).foldl (PacketBuffer.next .halfRing) _ = s at hrow hbad
  have hahead : SeqNumOps.halfRing.aheadOf 0x8000 (s.newestInsertedSeqNum.getD 0x8000) = true := by
    rw [hrow.newest]
    decide
  have hstart : s.missingStart .halfRing 0x8000 = (31769, [64536]) := by
    rw [missingStart, hrow.newest, hrow.missing]
    decide
  obtain ⟨hnewest, hkept⟩ := kept_missing hS hrow.slot hahead hstart (by decide)
  obtain ⟨newest, hnewest', _, hnear⟩ := hbad.behind 64536 (hkept 64536 (List.mem_singleton_self _))
  obtain rfl := Option.some.inj (hnewest.symm.trans hnewest')
  exact absurd hnear (by decide)

end WebrtcTrace.Packets
