import WebrtcTrace.TraceTools.MatchingLaws

/-! # Identifiable packets

A packet is identifiable by its triple (ssrc, seq_num, rtp_timestamp). When the triples of a log are
distinct, the exact attempt can find only the right sender packet; what it cannot do is take that
packet back from an earlier row that got it by a fallback.
-/

namespace WebrtcTrace.TraceTools
set_option autoImplicit false

/-- The triple of a row that has all three fields. -/
def triple (row : Row) : Option (ℤ × ℤ × ℤ) :=
  match asInt row "ssrc", asInt row "seq_num", asInt row "rtp_timestamp" with
  | .ok (some ssrc), .ok (some seqNum), .ok (some rtpTimestamp) => some (ssrc, seqNum, rtpTimestamp)
  | _, _, _ => none

def videoTriple (row : Row) : Option (ℤ × ℤ × ℤ) :=
  if isVideoSendRow row = .ok true then triple row else none

/-! ## Triples of rows and keys of packets -/

theorem readSender_some {ssrcFirst : Bool} {row : Row} {p : SenderPacket}
    (h : readSender ssrcFirst row = .ok (some p)) :
    isVideoSendRow row = .ok true ∧ asInt row "seq_num" = .ok (some p.seqNum) ∧
      asInt row "ssrc" = .ok p.ssrc ∧
      ∃ rtp, asInt row "rtp_timestamp" = .ok rtp ∧ p.rtpTimestamp = orMinusOne rtp := by
  unfold readSender at h
  obtain ⟨video, hv, h⟩ := Except.bind_eq_ok.mp h
  cases video with
  | false => cases h
  | true =>
    obtain ⟨seqNum, hq, h⟩ := Except.bind_eq_ok.mp h
    obtain ⟨sendTime, _, h⟩ := Except.bind_eq_ok.mp h
    cases seqNum with
    | none => cases h
    | some seqNum =>
    cases sendTime with
    | none => cases h
    | some sendTime =>
      have hrest : ((asInt row "rtp_timestamp").bind fun rtp => (asInt row "ssrc").bind fun ssrc =>
          .ok (some ⟨seqNum, sendTime, orMinusOne rtp, ssrc⟩)) = .ok (some p) := by
        cases ssrcFirst with
        | false => exact h
        | true =>
          obtain ⟨_, _, h⟩ := Except.bind_eq_ok.mp h
          exact h
      obtain ⟨rtp, hrtp, h⟩ := Except.bind_eq_ok.mp hrest
      obtain ⟨ssrc, hs, h⟩ := Except.bind_eq_ok.mp h
      cases h
      exact ⟨hv, hq, hs, rtp, hrtp, rfl⟩

/-- A video row with `seq_num` and `send_time_ms` is indexed. -/
theorem readSender_indexed {ssrcFirst : Bool} {row : Row} {x : Option SenderPacket}
    {k : ℤ × ℤ × ℤ} {t : ℤ}
    (hk : videoTriple row = some k) (ht : asInt row "send_time_ms" = .ok (some t))
    (h : readSender ssrcFirst row = .ok x) : x.isSome = true := by
  unfold videoTriple at hk
  split_ifs at hk with hv
  unfold triple at hk
  split at hk
  case h_2 => cases hk
  case h_1 ssrc seqNum rtp hs hq hr =>
    rw [readSender, hv, hq, ht, hs, hr] at h
    cases ssrcFirst <;> cases h <;> rfl

theorem readReceiver_some {row : Row} {r : ReceiverPacket} (h : readReceiver row = .ok (some r)) :
    asInt row "seq_num" = .ok (some r.seqNum) ∧ asInt row "ssrc" = .ok r.ssrc ∧
      asInt row "rtp_timestamp" = .ok r.rtpTimestamp := by
  unfold readReceiver at h
  obtain ⟨seqNum, hq, h⟩ := Except.bind_eq_ok.mp h
  obtain ⟨recvTime, _, h⟩ := Except.bind_eq_ok.mp h
  cases seqNum with
  | none => cases h
  | some seqNum =>
  cases recvTime with
  | none => cases h
  | some recvTime =>
    obtain ⟨ssrc, hs, h⟩ := Except.bind_eq_ok.mp h
    obtain ⟨rtp, hrtp, h⟩ := Except.bind_eq_ok.mp h
    cases h
    exact ⟨hq, hs, hrtp⟩

theorem orMinusOne_eq {rtp : Option ℤ} (h : 0 ≤ orMinusOne rtp) : rtp = some (orMinusOne rtp) := by
  cases rtp with
  | none => simp [orMinusOne] at h
  | some v => by_cases hv : v = 0 <;> simp [orMinusOne, hv] at h ⊢

/-- An exact key is the triple of its row. -/
theorem videoTriple_of_exactKey {ssrcFirst : Bool} {row : Row} {p : SenderPacket}
    {k : ℤ × ℤ × ℤ} (h : readSender ssrcFirst row = .ok (some p)) (hk : p.exactKey = some k) :
    videoTriple row = some k := by
  obtain ⟨hv, hq, hs, rtp, hrtp, hp⟩ := readSender_some h
  unfold SenderPacket.exactKey at hk
  split_ifs at hk with hpos
  obtain ⟨ssrc, hssrc, rfl⟩ := Option.map_eq_some_iff.mp hk
  have hrtp' : rtp = some p.rtpTimestamp := by
    rw [hp] at hpos ⊢
    exact orMinusOne_eq hpos
  rw [videoTriple, if_pos hv, triple, hs, hq, hrtp, hssrc, hrtp']

theorem exactKey_of_videoTriple {ssrcFirst : Bool} {row : Row} {p : SenderPacket} {k : ℤ × ℤ × ℤ}
    (h : readSender ssrcFirst row = .ok (some p)) (hk : videoTriple row = some k)
    (hpos : 0 < k.2.2) : p.exactKey = some k := by
  obtain ⟨hv, hq, hs, rtp, hrtp, hp⟩ := readSender_some h
  rw [videoTriple, if_pos hv, triple, hs, hq, hrtp] at hk
  cases hssrc : p.ssrc with
  | none => simp [hssrc] at hk
  | some ssrc =>
    cases rtp with
    | none => simp [hssrc] at hk
    | some v =>
      simp only [hssrc, Option.some.injEq] at hk
      subst hk
      have hv0 : v ≠ 0 := hpos.ne'
      have hrtpv : p.rtpTimestamp = v := by rw [hp, orMinusOne, if_neg hv0]
      rw [SenderPacket.exactKey, hrtpv, if_pos hpos.le, hssrc]
      rfl

theorem triple_of_exactKey {row : Row} {r : ReceiverPacket} {k : ℤ × ℤ × ℤ}
    (h : readReceiver row = .ok (some r)) (hk : r.exactKey = some k) : triple row = some k := by
  obtain ⟨hq, hs, hrtp⟩ := readReceiver_some h
  obtain ⟨ssrc, hssrc, hk⟩ := Option.bind_eq_some_iff.mp hk
  obtain ⟨rtp, hr, rfl⟩ := Option.map_eq_some_iff.mp hk
  rw [triple, hq, hs, hrtp, hssrc, hr]

/-- Distinct triples in a log are distinct keys in what is read from it. -/
theorem keys_sublist {α : Type} {read : Row → Except PyError (Option α)} {key : α → Option (ℤ × ℤ × ℤ)}
    {rowKey : Row → Option (ℤ × ℤ × ℤ)}
    (hkey : ∀ row a k, read row = .ok (some a) → key a = some k → rowKey row = some k)
    (rows : List Row) : ∀ {xs : List α}, readAll read rows = .ok xs →
      (xs.filterMap key).Sublist (rows.filterMap rowKey) := by
  induction rows with
  | nil =>
    intro xs h
    cases h
    exact .slnil
  | cons row rows ih =>
    intro xs h
    rw [readAll_cons] at h
    obtain ⟨x, hx, h⟩ := Except.bind_eq_ok.mp h
    obtain ⟨ys, hys, rfl⟩ := Except.map_eq_ok.mp h
    have hrest := ih hys
    have hskip : (rows.filterMap rowKey).Sublist ((row :: rows).filterMap rowKey) := by
      rw [List.filterMap_cons]
      cases rowKey row with
      | none => exact .refl _
      | some k => exact List.sublist_cons_self k _
    cases x with
    | none => exact hrest.trans hskip
    | some a =>
      rw [Option.toList_some, List.singleton_append, List.filterMap_cons]
      cases hk : key a with
      | none => exact hrest.trans hskip
      | some k =>
        rw [List.filterMap_cons, hkey row a k hx hk]
        exact hrest.cons_cons k

theorem mem_readAll {α : Type} {read : Row → Except PyError (Option α)} {rows : List Row}
    {row : Row} (hrow : row ∈ rows) : ∀ {xs : List α}, readAll read rows = .ok xs →
      ∃ x, read row = .ok x ∧ ∀ a ∈ x, a ∈ xs := by
  induction rows with
  | nil => cases hrow
  | cons row' rows ih =>
    intro xs h
    rw [readAll_cons] at h
    obtain ⟨x, hx, h⟩ := Except.bind_eq_ok.mp h
    obtain ⟨ys, hys, rfl⟩ := Except.map_eq_ok.mp h
    obtain rfl | hrow := List.mem_cons.mp hrow
    · exact ⟨x, hx, fun a ha => List.mem_append_left _ (Option.mem_toList.mpr ha)⟩
    · obtain ⟨y, hy, hmem⟩ := ih hrow hys
      exact ⟨y, hy, fun a ha => List.mem_append_right _ (hmem a ha)⟩

theorem index_unique {α β : Type} {key : α → Option β} {xs : List α}
    (hnodup : (xs.filterMap key).Nodup) {i j : ℕ} {a b : α} {k : β} (ha : xs[i]? = some a)
    (hb : xs[j]? = some b) (hka : key a = some k) (hkb : key b = some k) : i = j := by
  rw [List.Nodup, List.pairwise_filterMap, List.pairwise_iff_getElem] at hnodup
  obtain ⟨hi, rfl⟩ := List.getElem?_eq_some_iff.mp ha
  obtain ⟨hj, rfl⟩ := List.getElem?_eq_some_iff.mp hb
  obtain hlt | heq | hgt := lt_trichotomy i j
  · exact absurd rfl (hnodup i j hi hj hlt k hka k hkb)
  · exact heq
  · exact absurd rfl (hnodup j i hj hi hgt k hkb k hka)

theorem readReceiver_indexed {row : Row} {x : Option ReceiverPacket} {k : ℤ × ℤ × ℤ} {ts : ℤ}
    (hk : triple row = some k) (hts : asInt row "timestamp_ms" = .ok (some ts))
    (h : readReceiver row = .ok x) : ∃ r, x = some r ∧ r.exactKey = some k := by
  unfold triple at hk
  split at hk
  case h_2 => cases hk
  case h_1 ssrc seqNum rtp hs hq hr =>
    obtain rfl : (ssrc, seqNum, rtp) = k := Option.some.inj hk
    rw [readReceiver, hq, hts, hs, hr] at h
    cases h
    exact ⟨_, rfl, rfl⟩

/-! ## Own or taken -/

section Runs
variable {packets : List SenderPacket} {rs : List ReceiverPacket} {before after : List Outcome}
  {r : ReceiverPacket} {m : Option (MatchKind × Candidate)} {k : ℤ × ℤ × ℤ} {i : ℕ}
  {p : SenderPacket}

/-- A match in a run, and the packet it took. -/
theorem outcome_agrees {kind : MatchKind} {c : Candidate}
    (h : (outcomes packets ∅ rs).map toOutcome = before ++ (r, some (kind, c)) :: after) :
    ∃ p, packets[c.id]? = some p ∧ c = p.candidate c.id ∧ Agrees kind r p := by
  obtain ⟨used, a, ha, hm, _⟩ := outcome_split h
  obtain ⟨⟨kind', i, p⟩, rfl, heq⟩ := Option.map_eq_some_iff.mp hm.symm
  cases heq
  obtain ⟨hp, _, hagrees, _⟩ := attempt_some (assign_some ha).1
  exact ⟨p, hp, rfl, hagrees⟩

/-- With distinct keys the exact attempt gets the packet of its key or finds it taken. -/
theorem own_or_taken (h : (outcomes packets ∅ rs).map toOutcome = before ++ (r, m) :: after)
    (hnodup : (packets.filterMap SenderPacket.exactKey).Nodup) (hp : packets[i]? = some p)
    (hpk : p.exactKey = some k) (hrk : r.exactKey = some k) :
    m = some (.exact, p.candidate i) ∨ i ∈ matchedIds before := by
  obtain ⟨used, a, ha, rfl, hused⟩ := outcome_split h
  cases hexact : attempt packets used r .exact with
  | none => exact .inr ((hused i).mp (attempt_none hexact i p hp ⟨k, hrk, hpk⟩))
  | some e =>
    obtain ⟨j, q⟩ := e
    obtain ⟨hq, _, ⟨k', hrk', hqk⟩, _⟩ := attempt_some hexact
    obtain rfl : k = k' := Option.some.inj (hrk.symm.trans hrk')
    obtain rfl : i = j := index_unique hnodup hp hq hpk hqk
    obtain rfl : p = q := Option.some.inj (hp.symm.trans hq)
    rw [← ha, assign, hexact]
    exact .inl rfl

/-- A packet that is taken before the row of its key was taken by a fallback. -/
theorem taken_by_fallback
    (h : (outcomes packets ∅ rs).map toOutcome = before ++ (r, m) :: after)
    (hrecv : (rs.filterMap ReceiverPacket.exactKey).Nodup) (hp : packets[i]? = some p)
    (hpk : p.exactKey = some k) (hrk : r.exactKey = some k) (hi : i ∈ matchedIds before) :
    ∃ before' r' kind after', before = before' ++ (r', some (kind, p.candidate i)) :: after' ∧
      kind ≠ .exact ∧ r'.seqNum = p.seqNum := by
  obtain ⟨⟨r', m'⟩, hmem, hm'⟩ := List.mem_filterMap.mp hi
  obtain ⟨⟨kind, c⟩, rfl, rfl⟩ := Option.map_eq_some_iff.mp hm'
  obtain ⟨before', after', rfl⟩ := List.append_of_mem hmem
  have hearlier : (outcomes packets ∅ rs).map toOutcome =
      before' ++ (r', some (kind, c)) :: (after' ++ (r, m) :: after) := by
    simpa using h
  obtain ⟨q, hq, hc, hagrees⟩ := outcome_agrees hearlier
  obtain rfl : p = q := Option.some.inj (hp.symm.trans hq)
  refine ⟨before', r', kind, after', by rw [← hc], ?_, (agrees_seqNum hagrees).symm⟩
  rintro rfl
  obtain ⟨k', hrk', hpk'⟩ := hagrees
  obtain rfl : k = k' := Option.some.inj (hpk.symm.trans hpk')
  have hrs : rs = before'.map Prod.fst ++ r' :: (after'.map Prod.fst ++ r :: after.map Prod.fst) := by
    have hreceivers := congrArg (List.map Prod.fst) hearlier
    rw [List.map_map] at hreceivers
    rw [← outcomes_receivers packets rs ∅]
    simpa [Function.comp_def, toOutcome] using hreceivers
  rw [hrs] at hrecv
  simp [List.filterMap_append, hrk, hrk', List.nodup_append] at hrecv

/-- A receiver packet whose key is that of some sender packet. -/
def Identifiable (packets : List SenderPacket) (r : ReceiverPacket) : Prop :=
  ∃ k, r.exactKey = some k ∧ ∃ p ∈ packets, p.exactKey = some k

/-- Among identifiable rows nobody takes another's packet. The induction is on the rows before: who
took the packet by a fallback would have got its own. -/
theorem own_of_identifiable (hnodup : (packets.filterMap SenderPacket.exactKey).Nodup)
    (hrecv : (rs.filterMap ReceiverPacket.exactKey).Nodup) (n : ℕ) :
    ∀ {before after : List Outcome} {r : ReceiverPacket} {m : Option (MatchKind × Candidate)}
      {k : ℤ × ℤ × ℤ} {i : ℕ} {p : SenderPacket}, before.length = n →
      (outcomes packets ∅ rs).map toOutcome = before ++ (r, m) :: after →
      packets[i]? = some p → p.exactKey = some k → r.exactKey = some k →
      (∀ o ∈ before, o.1.seqNum = p.seqNum → Identifiable packets o.1) →
      m = some (.exact, p.candidate i) := by
  induction n using Nat.strong_induction_on with
  | _ n ih =>
    intro before after r m k i p hlength h hp hpk hrk hident
    obtain hown | hi := own_or_taken h hnodup hp hpk hrk
    · exact hown
    · obtain ⟨before', r', kind, after', rfl, hkind, hseq⟩ :=
        taken_by_fallback h hrecv hp hpk hrk hi
      obtain ⟨k', hrk', q, hq, hqk⟩ := hident (r', some (kind, p.candidate i)) (by simp) hseq
      obtain ⟨j, hj⟩ := List.getElem?_of_mem hq
      have hqseq : q.seqNum = r'.seqNum :=
        agrees_seqNum (show Agrees .exact r' q from ⟨k', hrk', hqk⟩)
      have hown := ih before'.length (by simp [← hlength]) rfl
        (by rw [h, List.append_assoc, List.cons_append]) hj hqk hrk' fun o ho hoseq =>
          hident o (List.mem_append_left _ ho) (hoseq.trans (hqseq.trans hseq))
      exact absurd (congrArg Prod.fst (Option.some.inj hown)) hkind

end Runs

/-! ## An identifiable packet is matched to itself -/

/-- A receiver row gets the sender packet of its triple, unless an earlier row got that packet by a
fallback; if all earlier rows with the same `seq_num` are identifiable, it gets it for sure. The loops of
both tools keep these matches. -/
theorem identifiable_matched {ssrcFirst : Bool} {sendRows receiverPacketRows : List Row}
    {outs : List Outcome} (h : matchRows ssrcFirst sendRows receiverPacketRows = .ok outs)
    (hsend : (sendRows.filterMap videoTriple).Nodup)
    (hrecv : (receiverPacketRows.filterMap triple).Nodup) :
    LoopsKeep ssrcFirst sendRows receiverPacketRows outs ∧
    ∃ packets, readAll (readSender ssrcFirst) sendRows = .ok packets ∧
      ∀ receiverRow ∈ receiverPacketRows, ∀ row ∈ sendRows, ∀ k recvTime sendTime,
        triple receiverRow = some k → asInt receiverRow "timestamp_ms" = .ok (some recvTime) →
        videoTriple row = some k → asInt row "send_time_ms" = .ok (some sendTime) → 0 < k.2.2 →
        ∃ before r m after i p, outs = before ++ (r, m) :: after ∧
          readReceiver receiverRow = .ok (some r) ∧ readSender ssrcFirst row = .ok (some p) ∧
          packets[i]? = some p ∧
          (m = some (.exact, p.candidate i) ∨
            ∃ before' r' kind after', kind ≠ .exact ∧ r'.seqNum = r.seqNum ∧
              before = before' ++ (r', some (kind, p.candidate i)) :: after') ∧
          ((∀ o ∈ before, o.1.seqNum = r.seqNum → Identifiable packets o.1) →
            m = some (.exact, p.candidate i)) := by
  have hkeep := loopsKeep_matchRows h
  obtain ⟨packets, rs, hpackets, hrs, rfl⟩ := matchRows_outcomes h
  have hpacketKeys : (packets.filterMap SenderPacket.exactKey).Nodup :=
    hsend.sublist (keys_sublist (fun _ _ _ => videoTriple_of_exactKey) sendRows hpackets)
  have hreceiverKeys : (rs.filterMap ReceiverPacket.exactKey).Nodup :=
    hrecv.sublist (keys_sublist (fun _ _ _ => triple_of_exactKey) receiverPacketRows hrs)
  refine ⟨hkeep, packets, hpackets, fun receiverRow hreceiver row hrow k recvTime sendTime htriple
    hrecvTime hvideo hsendTime hpos => ?_⟩
  obtain ⟨x, hx, hxmem⟩ := mem_readAll hreceiver hrs
  obtain ⟨r, rfl, hrk⟩ := readReceiver_indexed htriple hrecvTime hx
  obtain ⟨y, hy, hymem⟩ := mem_readAll hrow hpackets
  obtain ⟨p, rfl⟩ := Option.isSome_iff_exists.mp (readSender_indexed hvideo hsendTime hy)
  have hpk := exactKey_of_videoTriple hy hvideo hpos
  obtain ⟨i, hi⟩ := List.getElem?_of_mem (hymem p rfl)
  have hseq : p.seqNum = r.seqNum :=
    agrees_seqNum (show Agrees .exact r p from ⟨k, hrk, hpk⟩)
  have hmem : r ∈ ((outcomes packets ∅ rs).map toOutcome).map Prod.fst := by
    rw [List.map_map]
    exact (outcomes_receivers packets rs ∅).symm ▸ hxmem r rfl
  obtain ⟨⟨_, m⟩, ho, rfl⟩ := List.mem_map.mp hmem
  obtain ⟨before, after, hsplit⟩ := List.append_of_mem ho
  refine ⟨before, _, m, after, i, p, hsplit, hx, hy, hi, ?_, fun hident => ?_⟩
  · obtain hown | htaken := own_or_taken hsplit hpacketKeys hi hpk hrk
    · exact .inl hown
    · obtain ⟨before', r', kind, after', hbefore, hkind, hr'⟩ :=
        taken_by_fallback hsplit hreceiverKeys hi hpk hrk htaken
      exact .inr ⟨before', r', kind, after', hkind, hr'.trans hseq, hbefore⟩
  · exact own_of_identifiable hpacketKeys hreceiverKeys before.length rfl hsplit hi hpk hrk
      fun o ho hoseq => hident o ho (hoseq.trans hseq)

/-! ### On two logs -/

def otherStreamOuts : List Outcome :=
  [(⟨6, 1010, some 2, some 77⟩, some (.exact, ⟨1, 1001, 77⟩)),
    (⟨5, 1020, some 1, some 100⟩, some (.exact, ⟨0, 1000, 100⟩))]

/-- A row of another stream, with a `seq_num` of its own, comes first and takes nothing. -/
theorem identifiable_matched_behind_other :
    ∃ before r after i p, otherStreamOuts = before ++ (r, some (.exact, p.candidate i)) :: after ∧
      readReceiver (insertRow "1" "5" "100" "1020") = .ok (some r) ∧
      readSender false (videoRow "1" "5" "100" "1000") = .ok (some p) ∧
      p.candidate i = ⟨0, 1000, 100⟩ := by
  obtain ⟨_, packets, hpackets, hmatched⟩ := identifiable_matched
    (show matchRows false [videoRow "1" "5" "100" "1000", videoRow "2" "6" "77" "1001"]
      [insertRow "2" "6" "77" "1010", insertRow "1" "5" "100" "1020"] =
        .ok otherStreamOuts by decide +kernel)
    (by decide +kernel) (by decide +kernel)
  obtain ⟨before, r, m, after, i, p, hsplit, hr, hp, hi, _, hown⟩ :=
    hmatched (insertRow "1" "5" "100" "1020") (by simp) (videoRow "1" "5" "100" "1000") (by simp)
      (1, 5, 100) 1020 1000 (by decide +kernel) (by decide +kernel) (by decide +kernel)
      (by decide +kernel) (by decide)
  have hreceiver : readReceiver (insertRow "1" "5" "100" "1020") =
      .ok (some ⟨5, 1020, some 1, some 100⟩) := by decide +kernel
  obtain rfl := Option.some.inj (Except.ok.inj (hr.symm.trans hreceiver))
  -- the row is the second one, and the first has another `seq_num`
  obtain ⟨rfl, rfl, rfl⟩ : before = otherStreamOuts.take 1 ∧
      m = some (.exact, ⟨0, 1000, 100⟩) ∧ after = [] := by
    rcases before with _ | ⟨o, _ | ⟨o', before⟩⟩
    · simp [otherStreamOuts] at hsplit
    · simpa [otherStreamOuts, and_assoc, eq_comm] using hsplit
    · simp [otherStreamOuts] at hsplit
  have hother : ∀ o ∈ otherStreamOuts.take 1, o.1.seqNum ≠ 5 := by decide
  have hexact := hown fun o ho hseq => absurd hseq (hother o ho)
  rw [hexact] at hsplit
  exact ⟨_, _, _, i, p, hsplit, hr, hp, (congrArg Prod.snd (Option.some.inj hexact)).symm⟩

/-- A row of another stream with the same `seq_num` takes the packet by `seq_num` alone, and the row
with the packet's own triple stays unmatched. -/
theorem identifiable_unmatched :
    ¬ ∀ (sendRows receiverPacketRows : List Row) (outs : List Outcome),
      (sendRows.filterMap videoTriple).Nodup → (receiverPacketRows.filterMap triple).Nodup →
      matchRows false sendRows receiverPacketRows = .ok outs →
      ∀ receiverRow ∈ receiverPacketRows, ∀ row ∈ sendRows, ∀ k,
        triple receiverRow = some k → videoTriple row = some k →
        ∃ r kind c, (r, some (kind, c)) ∈ outs ∧ readReceiver receiverRow = .ok (some r) ∧
          ∃ p, readSender false row = .ok (some p) ∧ c = p.candidate c.id := by
  intro h
  obtain ⟨r, kind, c, hmem, hr, _⟩ := h [videoRow "1" "5" "100" "1000"]
    [insertRow "2" "5" "77" "1010", insertRow "1" "5" "100" "1020"]
    [(⟨5, 1010, some 2, some 77⟩, some (.seqOnly, ⟨0, 1000, 100⟩)),
      (⟨5, 1020, some 1, some 100⟩, none)]
    (by decide +kernel) (by decide +kernel) (by decide +kernel)
    (insertRow "1" "5" "100" "1020") (by simp) (videoRow "1" "5" "100" "1000") (by simp)
    (1, 5, 100) (by decide +kernel) (by decide +kernel)
  have hread : readReceiver (insertRow "1" "5" "100" "1020") =
      .ok (some ⟨5, 1020, some 1, some 100⟩) := by decide +kernel
  rw [hread] at hr
  cases hr
  simp at hmem

end WebrtcTrace.TraceTools
