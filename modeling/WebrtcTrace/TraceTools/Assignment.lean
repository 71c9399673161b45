import WebrtcTrace.TraceTools.Matching

/-! # The assignment that the matching loops compute

The abstract picture has no queues: there is the list of sender packets, numbered in order, and a set
of used numbers. A receiver packet takes the first unused sender packet with its exact key, else the
first with its (ssrc, seq) key, else the first with its seq (`assign`). `Tracked` ties the queues of
`MatchState` to it, and `matchPacket_assign` is one step of the refinement.
-/

namespace WebrtcTrace.TraceTools
set_option autoImplicit false

/-! ## Numbered sender packets -/

def numbered (packets : List SenderPacket) : List (ℕ × SenderPacket) :=
  packets.zipIdx.map fun e => (e.2, e.1)

/-- The candidates of the packets with a key, in order: a queue nothing was taken from. -/
def candidatesOf {κ : Type*} [DecidableEq κ] (key : SenderPacket → Option κ)
    (packets : List SenderPacket) (k : κ) : List Candidate :=
  ((numbered packets).filter fun e => key e.2 = some k).map fun e => e.2.candidate e.1

theorem numbered_snoc (packets : List SenderPacket) (p : SenderPacket) :
    numbered (packets ++ [p]) = numbered packets ++ [(packets.length, p)] := by
  simp [numbered, List.zipIdx_append]

theorem mem_numbered {packets : List SenderPacket} {i : ℕ} {p : SenderPacket} :
    (i, p) ∈ numbered packets ↔ packets[i]? = some p := by
  simp [numbered, List.mem_zipIdx_iff_getElem?]

theorem numbered_increasing (packets : List SenderPacket) :
    (numbered packets).Pairwise fun e f => e.1 < f.1 := by
  induction packets using List.reverseRecOn with
  | nil => exact .nil
  | append_singleton packets p ih =>
    rw [numbered_snoc]
    refine List.pairwise_append.mpr ⟨ih, List.pairwise_singleton _ _, ?_⟩
    rintro ⟨i, q⟩ hq e he
    rw [List.mem_singleton.mp he]
    obtain ⟨hi, _⟩ := List.getElem?_eq_some_iff.mp (mem_numbered.mp hq)
    exact hi

theorem candidatesOf_snoc {κ : Type*} [DecidableEq κ] (key : SenderPacket → Option κ)
    (packets : List SenderPacket) (p : SenderPacket) (k : κ) :
    candidatesOf key (packets ++ [p]) k =
      candidatesOf key packets k ++ if key p = some k then [p.candidate packets.length] else [] := by
  unfold candidatesOf
  rw [numbered_snoc, List.filter_append, List.map_append]
  by_cases h : key p = some k <;> simp [h]

/-! ## The index loop files every packet under its keys -/

theorem getD_appendAt {κ : Type*} [DecidableEq κ] (d : DefaultDict κ (List Candidate))
    (k : Option κ) (c : Candidate) (j : κ) :
    ((appendAt d k c).get? j).getD [] = (d.get? j).getD [] ++ if k = some j then [c] else [] := by
  cases k with
  | none => simp [appendAt]
  | some k =>
    simp only [appendAt, Option.elim_some, DefaultDict.get?_update, Option.some.injEq]
    by_cases h : j = k
    · subst h
      simp
    · have hkj : ¬ k = j := fun h' => h h'.symm
      simp [h, hkj]

/-- Every queue holds all packets of its key. -/
structure Filed (packets : List SenderPacket) (ix : SenderIndexes) : Prop where
  bySsrcSeqRtp : ∀ k, (ix.bySsrcSeqRtp.get? k).getD [] = candidatesOf SenderPacket.exactKey packets k
  bySsrcSeq : ∀ k, (ix.bySsrcSeq.get? k).getD [] = candidatesOf SenderPacket.ssrcSeqKey packets k
  bySeq : ∀ k, (ix.bySeq.get? k).getD [] = candidatesOf SenderPacket.seqKey packets k

theorem filed_addPackets (packets : List SenderPacket) :
    Filed packets (packets.foldl addPacket .start).indexes ∧
      (packets.foldl addPacket .start).packetId = packets.length := by
  induction packets using List.reverseRecOn with
  | nil => exact ⟨⟨fun _ => rfl, fun _ => rfl, fun _ => rfl⟩, rfl⟩
  | append_singleton packets p ih =>
    obtain ⟨hfiled, hid⟩ := ih
    rw [List.foldl_append, List.foldl_cons, List.foldl_nil, List.length_append]
    refine ⟨⟨fun k => ?_, fun k => ?_, fun k => ?_⟩, ?_⟩
    · simp only [addPacket, getD_appendAt, hfiled.bySsrcSeqRtp, candidatesOf_snoc, hid]
    · simp only [addPacket, getD_appendAt, hfiled.bySsrcSeq, candidatesOf_snoc, hid]
    · simp only [addPacket, getD_appendAt, hfiled.bySeq, candidatesOf_snoc, hid]
    · simp only [addPacket, hid, List.length_singleton]

theorem filed_build {ssrcFirst : Bool} {sendRows : List Row} {ix : SenderIndexes}
    (h : buildSenderPacketIndexes ssrcFirst sendRows = .ok ix) :
    ∃ packets, readAll (readSender ssrcFirst) sendRows = .ok packets ∧ Filed packets ix := by
  obtain ⟨st, hst, rfl⟩ := Except.map_eq_ok.mp h
  obtain ⟨packets, hread, rfl⟩ := scanRows_pure_eq_ok.mp hst
  exact ⟨packets, hread, (filed_addPackets packets).1⟩

/-! ## The abstract assignment -/

/-- The first sender packet with this key whose number is not used. -/
def firstUnused {κ : Type*} [DecidableEq κ] (packets : List SenderPacket) (used : Finset ℕ)
    (key : SenderPacket → Option κ) (k : Option κ) : Option (ℕ × SenderPacket) :=
  k.bind fun k => (numbered packets).find? fun e => key e.2 = some k && !decide (e.1 ∈ used)

def attempt (packets : List SenderPacket) (used : Finset ℕ) (r : ReceiverPacket) :
    MatchKind → Option (ℕ × SenderPacket)
  | .exact => firstUnused packets used SenderPacket.exactKey r.exactKey
  | .ssrcSeq => firstUnused packets used SenderPacket.ssrcSeqKey r.ssrcSeqKey
  | .seqOnly => firstUnused packets used SenderPacket.seqKey r.seqKey

def assign (packets : List SenderPacket) (used : Finset ℕ) (r : ReceiverPacket) :
    Option (MatchKind × ℕ × SenderPacket) :=
  ((attempt packets used r .exact).map (.exact, ·)).or
    (((attempt packets used r .ssrcSeq).map (.ssrcSeq, ·)).or
      ((attempt packets used r .seqOnly).map (.seqOnly, ·)))

/-- Every queue of `d` is the whole one without a used front part. -/
def PrunedQueues {κ : Type} [DecidableEq κ] (packets : List SenderPacket) (used : Finset ℕ)
    (key : SenderPacket → Option κ) (d : DefaultDict κ (List Candidate)) : Prop :=
  ∀ k, LazyQueue.Pruned (fun c => c.id ∈ used) (candidatesOf key packets k) ((d.get? k).getD [])

structure Tracked (packets : List SenderPacket) (st : MatchState) : Prop where
  bySsrcSeqRtp : PrunedQueues packets st.usedPacketIds SenderPacket.exactKey st.indexes.bySsrcSeqRtp
  bySsrcSeq : PrunedQueues packets st.usedPacketIds SenderPacket.ssrcSeqKey st.indexes.bySsrcSeq
  bySeq : PrunedQueues packets st.usedPacketIds SenderPacket.seqKey st.indexes.bySeq

theorem tracked_start {packets : List SenderPacket} {ix : SenderIndexes} (h : Filed packets ix) :
    Tracked packets ⟨ix, ∅⟩ where
  bySsrcSeqRtp k := h.bySsrcSeqRtp k ▸ .refl _ _
  bySsrcSeq k := h.bySsrcSeq k ▸ .refl _ _
  bySeq k := h.bySeq k ▸ .refl _ _

section Pop
variable {κ : Type} [DecidableEq κ] {packets : List SenderPacket} {used used' : Finset ℕ}
  {key : SenderPacket → Option κ} {d : DefaultDict κ (List Candidate)}

theorem PrunedQueues.mono (h : PrunedQueues packets used key d) (hsub : used ⊆ used') :
    PrunedQueues packets used' key d := by
  intro k
  refine (h k).mono fun c hc => ?_
  simpa using hsub (by simpa using hc)

theorem find?_candidatesOf (packets : List SenderPacket) (used : Finset ℕ)
    (key : SenderPacket → Option κ) (k : κ) :
    (candidatesOf key packets k).find? (fun c => !decide (c.id ∈ used)) =
      (firstUnused packets used key (some k)).map fun e => e.2.candidate e.1 := by
  rw [candidatesOf, List.find?_map, List.find?_filter, firstUnused, Option.bind_some]
  congr 2
  funext e
  simp [SenderPacket.candidate]

/-- A pop gives what the abstract attempt gives. -/
theorem PrunedQueues.pop_fst (h : PrunedQueues packets used key d) (k : Option κ) :
    (popAt d used k).1 = (firstUnused packets used key k).map fun e => e.2.candidate e.1 := by
  cases k with
  | none => rfl
  | some k =>
    have hpop := (h k).pop_fst
    rw [find?_candidatesOf] at hpop
    rw [← hpop]
    simp only [popAt, Option.elim_some, popUnusedCandidate]
    cases d.get? k <;> rfl

/-- A pop leaves every queue pruned once the popped candidate is used. -/
theorem PrunedQueues.pop_snd (h : PrunedQueues packets used key d) (hsub : used ⊆ used')
    (k : Option κ) (hpopped : ∀ c ∈ (popAt d used k).1, c.id ∈ used') :
    PrunedQueues packets used' key (popAt d used k).2 := by
  cases k with
  | none => exact h.mono hsub
  | some k =>
    simp only [popAt, Option.elim_some, popUnusedCandidate] at hpopped ⊢
    cases hk : d.get? k with
    | none => exact h.mono hsub
    | some q =>
      simp only [hk] at hpopped ⊢
      intro j
      rw [DefaultDict.get?_update]
      by_cases hj : j = k
      · subst hj
        have hq := h j
        rw [hk] at hq
        have hmono : ∀ c : Candidate, decide (c.id ∈ used) = true → decide (c.id ∈ used') = true :=
          fun c hc => by simpa using hsub (by simpa using hc)
        simpa using hq.pop_snd hmono fun c hc => by simpa using hpopped c hc
      · rw [if_neg hj]
        exact h.mono hsub j

theorem PrunedQueues.pop_some (h : PrunedQueues packets used key d) {k : Option κ}
    {e : ℕ × SenderPacket} (hf : firstUnused packets used key k = some e) :
    ∃ d', popAt d used k = (some (e.2.candidate e.1), d') ∧
      PrunedQueues packets (insert e.1 used) key d' := by
  have hfst := h.pop_fst k
  rw [hf] at hfst
  refine ⟨_, Prod.ext hfst rfl, h.pop_snd (Finset.subset_insert _ _) k ?_⟩
  rw [hfst]
  rintro c hc
  cases hc
  exact Finset.mem_insert_self _ _

theorem PrunedQueues.pop_none (h : PrunedQueues packets used key d) {k : Option κ}
    (hf : firstUnused packets used key k = none) :
    ∃ d', popAt d used k = (none, d') ∧ PrunedQueues packets used key d' := by
  have hfst := h.pop_fst k
  rw [hf] at hfst
  refine ⟨_, Prod.ext hfst rfl, h.pop_snd subset_rfl k ?_⟩
  rw [hfst]
  exact fun c hc => by cases hc

end Pop

/-- **One step of a matching loop is one step of the assignment.** -/
theorem matchPacket_assign {packets : List SenderPacket} {st : MatchState} (h : Tracked packets st)
    (r : ReceiverPacket) :
    (matchPacket st r).1 =
        (assign packets st.usedPacketIds r).map (fun m => (m.1, m.2.2.candidate m.2.1)) ∧
      Tracked packets (matchPacket st r).2 ∧
      (matchPacket st r).2.usedPacketIds =
        (assign packets st.usedPacketIds r).elim st.usedPacketIds
          (fun m => insert m.2.1 st.usedPacketIds) := by
  have hsub : ∀ i, st.usedPacketIds ⊆ insert i st.usedPacketIds := fun i => Finset.subset_insert _ _
  cases hf1 : attempt packets st.usedPacketIds r .exact with
  | some e =>
    obtain ⟨d, hp, hd⟩ := h.bySsrcSeqRtp.pop_some hf1
    simp only [matchPacket, assign, hp, hf1, Option.map_some]
    exact ⟨rfl, ⟨hd, h.bySsrcSeq.mono (hsub e.1), h.bySeq.mono (hsub e.1)⟩, rfl⟩
  | none =>
    obtain ⟨d1, hp1, hd1⟩ := h.bySsrcSeqRtp.pop_none hf1
    cases hf2 : attempt packets st.usedPacketIds r .ssrcSeq with
    | some e =>
      obtain ⟨d, hp, hd⟩ := h.bySsrcSeq.pop_some hf2
      simp only [matchPacket, assign, hp1, hp, hf1, hf2, Option.map_none]
      exact ⟨rfl, ⟨hd1.mono (hsub e.1), hd, h.bySeq.mono (hsub e.1)⟩, rfl⟩
    | none =>
      obtain ⟨d2, hp2, hd2⟩ := h.bySsrcSeq.pop_none hf2
      cases hf3 : attempt packets st.usedPacketIds r .seqOnly with
      | some e =>
        obtain ⟨d, hp, hd⟩ := h.bySeq.pop_some hf3
        simp only [matchPacket, assign, hp1, hp2, hp, hf1, hf2, hf3, Option.map_none]
        exact ⟨rfl, ⟨hd1.mono (hsub e.1), hd2.mono (hsub e.1), hd⟩, rfl⟩
      | none =>
        obtain ⟨d, hp, hd⟩ := h.bySeq.pop_none hf3
        simp only [matchPacket, assign, hp1, hp2, hp, hf1, hf2, hf3, Option.map_none]
        exact ⟨rfl, ⟨hd1, hd2, hd⟩, rfl⟩

/-! ## Whole runs -/

/-- The attempt that gave a match. -/
def Agrees : MatchKind → ReceiverPacket → SenderPacket → Prop
  | .exact, r, p => ∃ k, r.exactKey = some k ∧ p.exactKey = some k
  | .ssrcSeq, r, p => ∃ k, r.ssrcSeqKey = some k ∧ p.ssrcSeqKey = some k
  | .seqOnly, r, p => ∃ k, r.seqKey = some k ∧ p.seqKey = some k

section Choice
variable {packets : List SenderPacket} {used : Finset ℕ} {r : ReceiverPacket}

theorem firstUnused_some {κ : Type} [DecidableEq κ] {key : SenderPacket → Option κ} {k : Option κ}
    {i : ℕ} {p : SenderPacket} (h : firstUnused packets used key k = some (i, p)) :
    packets[i]? = some p ∧ i ∉ used ∧ (∃ k', k = some k' ∧ key p = some k') ∧
      ∀ j q, j < i → packets[j]? = some q → (∃ k', k = some k' ∧ key q = some k') → j ∈ used := by
  cases k with
  | none => cases h
  | some k =>
    rw [firstUnused, Option.bind_some, List.find?_eq_some_iff_append] at h
    obtain ⟨htest, front, back, hsplit, hfront⟩ := h
    simp only [Bool.and_eq_true, decide_eq_true_eq, Bool.not_eq_true', decide_eq_false_iff_not]
      at htest
    have hmem : (i, p) ∈ numbered packets := by
      rw [hsplit]
      exact List.mem_append_right _ List.mem_cons_self
    refine ⟨mem_numbered.mp hmem, htest.2, ⟨k, rfl, htest.1⟩, ?_⟩
    rintro j q hj hq ⟨k', hk, hkey⟩
    cases hk
    have hjmem := mem_numbered.mpr hq
    have hord := numbered_increasing packets
    rw [hsplit] at hjmem hord
    obtain hjf | hjb := List.mem_append.mp hjmem
    · have hno := hfront _ hjf
      simpa [hkey] using hno
    · obtain heq | hjb := List.mem_cons.mp hjb
      · cases heq
        exact absurd hj (lt_irrefl _)
      · have hlt := (List.pairwise_cons.mp (List.pairwise_append.mp hord).2.1).1 _ hjb
        exact absurd (hj.trans hlt) (lt_irrefl _)

theorem firstUnused_none {κ : Type} [DecidableEq κ] {key : SenderPacket → Option κ} {k : Option κ}
    (h : firstUnused packets used key k = none) (i : ℕ) (p : SenderPacket)
    (hp : packets[i]? = some p) (hkey : ∃ k', k = some k' ∧ key p = some k') : i ∈ used := by
  obtain ⟨k', rfl, hkey⟩ := hkey
  rw [firstUnused, Option.bind_some, List.find?_eq_none] at h
  have hno := h (i, p) (mem_numbered.mpr hp)
  simpa [hkey] using hno

theorem attempt_some {kind : MatchKind} {i : ℕ} {p : SenderPacket}
    (h : attempt packets used r kind = some (i, p)) :
    packets[i]? = some p ∧ i ∉ used ∧ Agrees kind r p ∧
      ∀ j q, j < i → packets[j]? = some q → Agrees kind r q → j ∈ used := by
  cases kind <;> exact firstUnused_some h

theorem attempt_none {kind : MatchKind} (h : attempt packets used r kind = none) (i : ℕ)
    (p : SenderPacket) (hp : packets[i]? = some p) (hagrees : Agrees kind r p) : i ∈ used := by
  cases kind <;> exact firstUnused_none h i p hp hagrees

/-- What is assigned is what one of the attempts gives, and the exact attempt goes first. -/
theorem assign_some {kind : MatchKind} {e : ℕ × SenderPacket}
    (h : assign packets used r = some (kind, e)) :
    attempt packets used r kind = some e ∧ (kind ≠ .exact → attempt packets used r .exact = none) := by
  unfold assign at h
  cases h1 : attempt packets used r .exact with
  | some e1 =>
    rw [h1, Option.map_some, Option.some_or] at h
    cases h
    exact ⟨h1, fun hne => absurd rfl hne⟩
  | none =>
    rw [h1, Option.map_none, Option.none_or] at h
    cases h2 : attempt packets used r .ssrcSeq with
    | some e2 =>
      rw [h2, Option.map_some, Option.some_or] at h
      cases h
      exact ⟨h2, fun _ => rfl⟩
    | none =>
      rw [h2, Option.map_none, Option.none_or] at h
      obtain ⟨e3, h3, he⟩ := Option.map_eq_some_iff.mp h
      cases he
      exact ⟨h3, fun _ => rfl⟩

theorem assign_none (h : assign packets used r = none) : attempt packets used r .seqOnly = none := by
  rw [assign, Option.or_eq_none_iff, Option.or_eq_none_iff] at h
  exact Option.map_eq_none_iff.mp h.2.2

theorem agrees_seqNum {kind : MatchKind} {p : SenderPacket} (h : Agrees kind r p) :
    p.seqNum = r.seqNum := by
  cases kind with
  | exact =>
    obtain ⟨k, hr, hp⟩ := h
    obtain ⟨ssrc, _, hr⟩ := Option.bind_eq_some_iff.mp hr
    obtain ⟨rtp, _, rfl⟩ := Option.map_eq_some_iff.mp hr
    unfold SenderPacket.exactKey at hp
    split_ifs at hp
    obtain ⟨ssrc', _, heq⟩ := Option.map_eq_some_iff.mp hp
    exact congrArg (fun k => k.2.1) heq
  | ssrcSeq =>
    obtain ⟨k, hr, hp⟩ := h
    obtain ⟨ssrc, _, rfl⟩ := Option.map_eq_some_iff.mp hr
    obtain ⟨ssrc', _, heq⟩ := Option.map_eq_some_iff.mp hp
    exact congrArg Prod.snd heq
  | seqOnly =>
    obtain ⟨k, hr, hp⟩ := h
    cases hr
    exact Option.some.inj hp

end Choice

/-- What each receiver packet of a run is assigned. -/
def outcomes (packets : List SenderPacket) (used : Finset ℕ) :
    List ReceiverPacket → List (ReceiverPacket × Option (MatchKind × ℕ × SenderPacket))
  | [] => []
  | r :: rs => (r, assign packets used r) ::
      outcomes packets ((assign packets used r).elim used fun m => insert m.2.1 used) rs

/-- **A matching loop computes the assignment.** -/
theorem matchAll_outcomes {packets : List SenderPacket} (rs : List ReceiverPacket) {st : MatchState}
    (h : Tracked packets st) :
    matchAll st rs = (outcomes packets st.usedPacketIds rs).map fun o =>
      (o.1, o.2.map fun m => (m.1, m.2.2.candidate m.2.1)) := by
  induction rs generalizing st with
  | nil => rfl
  | cons r rs ih =>
    obtain ⟨hpick, htracked, hused⟩ := matchPacket_assign h r
    rw [matchAll, outcomes, List.map_cons, hpick, ih htracked, hused]

/-- The numbers assigned in a run. -/
def takenIds (outs : List (ReceiverPacket × Option (MatchKind × ℕ × SenderPacket))) : List ℕ :=
  outs.filterMap fun o => o.2.map fun m => m.2.1

/-- What is used before a row of a run is what was assigned before it. -/
theorem outcomes_split {packets : List SenderPacket} {r : ReceiverPacket}
    {m : Option (MatchKind × ℕ × SenderPacket)}
    {after : List (ReceiverPacket × Option (MatchKind × ℕ × SenderPacket))} :
    ∀ {rs : List ReceiverPacket} {used : Finset ℕ}
      {before : List (ReceiverPacket × Option (MatchKind × ℕ × SenderPacket))},
      outcomes packets used rs = before ++ (r, m) :: after →
      ∃ used', m = assign packets used' r ∧ ∀ i, i ∈ used' ↔ i ∈ used ∨ i ∈ takenIds before
  | [], _, before, h => by
    exact absurd h.symm (by simp [outcomes])
  | r' :: rs, used, [], h => by
    simp only [outcomes, List.nil_append, List.cons.injEq, Prod.mk.injEq] at h
    obtain ⟨⟨rfl, rfl⟩, _⟩ := h
    exact ⟨used, rfl, fun i => by simp [takenIds]⟩
  | r' :: rs, used, o :: before, h => by
    simp only [outcomes, List.cons_append, List.cons.injEq] at h
    obtain ⟨rfl, h⟩ := h
    obtain ⟨used', hm, hused⟩ := outcomes_split h
    refine ⟨used', hm, fun i => ?_⟩
    rw [hused]
    cases assign packets used r' with
    | none => simp [takenIds]
    | some m' =>
      simp only [Option.elim_some, Finset.mem_insert, takenIds, List.filterMap_cons, Option.map_some,
        List.mem_cons]
      tauto

end WebrtcTrace.TraceTools
