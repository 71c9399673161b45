import WebrtcTrace.Foundations.Thinning
import WebrtcTrace.TraceTools.PacketTrace

/-! # The emission loop of the packet-level tool

Both skip rules compare an event with the last row, never with the last event, so the loop is a greedy
thinning of the events (`rows_destutter`): an event gets a row when it is out of the deadband of the
last event that got one, and is no duplicate of it unless duplicates are wanted.
-/

namespace WebrtcTrace.TraceTools.Packet
set_option autoImplicit false

section Emission
variable (args : Args)

/-- Whether an event gets a row when the last row is that of `e`. -/
def Follows (e e' : Event) : Prop :=
  ¬ (0 < args.delayDeadbandMs ∧ |e'.delayMs - e.delayMs| ≤ args.delayDeadbandMs) ∧
    (args.emitDuplicates = true ∨ e'.delayMs ≠ e.delayMs)

instance : DecidableRel (Follows args) := fun _ _ => inferInstanceAs (Decidable (_ ∧ _))

variable {args}

/-- The loop after a row of `e` that is the last one. -/
theorem emit_after (e e' : Event) (rows : List TraceRow) :
    emit args ⟨some e.delayMs, rows⟩ e' =
      if Follows args e e' then ⟨some e'.delayMs, rows ++ [eventRow e']⟩ else ⟨some e.delayMs, rows⟩ := by
  unfold emit
  by_cases hnear : 0 < args.delayDeadbandMs ∧ |e'.delayMs - e.delayMs| ≤ args.delayDeadbandMs
  · rw [if_pos ⟨hnear.1, by simpa using hnear.2⟩, if_neg fun h => h.1 hnear]
  · rw [if_neg fun h => hnear ⟨h.1, by simpa using h.2⟩]
    have hduplicate : ((!args.emitDuplicates) = true ∧ some e.delayMs = some e'.delayMs) ↔
        ¬ (args.emitDuplicates = true ∨ e'.delayMs ≠ e.delayMs) := by
      rw [not_or, not_not, Bool.not_eq_true', Bool.not_eq_true, Option.some.injEq,
        eq_comm (a := e.delayMs)]
    by_cases hkeep : args.emitDuplicates = true ∨ e'.delayMs ≠ e.delayMs
    · rw [if_neg fun h => hduplicate.mp h hkeep, if_pos ⟨hnear, hkeep⟩]
    · rw [if_pos (hduplicate.mpr hkeep), if_neg fun h => hkeep h.2]

theorem foldl_emit_after (events : List Event) (e : Event) (rows : List TraceRow) :
    (events.foldl (emit args) ⟨some e.delayMs, rows ++ [eventRow e]⟩).rows =
      rows ++ (events.destutter' (Follows args) e).map eventRow := by
  induction events generalizing e rows with
  | nil => rfl
  | cons e' events ih =>
    rw [List.foldl_cons, emit_after]
    split_ifs with h
    · rw [ih, List.destutter'_cons_pos _ h, List.map_cons, List.append_assoc, List.singleton_append]
    · rw [ih, List.destutter'_cons_neg _ h]

/-- **The rows are those of a thinning of the events.** -/
theorem rows_destutter (events : List Event) :
    (events.foldl (emit args) {}).rows = (events.destutter (Follows args)).map eventRow := by
  cases events with
  | nil => rfl
  | cons e events =>
    have hfirst : emit args {} e = ⟨some e.delayMs, [] ++ [eventRow e]⟩ := by
      simp [emit]
    rw [List.foldl_cons, hfirst, foldl_emit_after, List.nil_append, List.destutter_cons']

/-- An event that gets no row is within the deadband of the last row. -/
theorem abs_sub_le_of_not_follows (hd : 0 ≤ args.delayDeadbandMs) {e e' : Event}
    (h : ¬ Follows args e e') : |e'.delayMs - e.delayMs| ≤ args.delayDeadbandMs := by
  rw [Follows, not_and_or, not_not, not_or, not_not] at h
  obtain hnear | ⟨_, hsame⟩ := h
  · exact hnear.2
  · rw [hsame, sub_self, abs_zero]
    exact hd

/-! ## The rows -/

/-- A row that sets the delay of an event at its time, and nothing else. -/
structure RowOf (row : TraceRow) (e : Event) : Prop where
  atMs : Py.int row.atMs = some e.atMs
  delayMs : Py.int row.delayMs = some e.delayMs
  rest : row.jitterMs = "0" ∧ row.lossPct = "0" ∧ row.rateKbit = "" ∧ row.limitPkts = ""

theorem rowOf_eventRow (e : Event) : RowOf (eventRow e) e where
  atMs := Py.int_toString_int e.atMs
  delayMs := Py.int_toString_int e.delayMs
  rest := ⟨rfl, rfl, rfl, rfl⟩

theorem emit_rows_prefix (events : List Event) (st : Emission) :
    st.rows <+: (events.foldl (emit args) st).rows := by
  induction events generalizing st with
  | nil => exact List.prefix_rfl
  | cons e events ih =>
    refine List.IsPrefix.trans ?_ (ih _)
    unfold emit
    split_ifs
    · exact List.prefix_rfl
    · exact List.prefix_rfl
    · exact List.prefix_append _ _

/-- **The deadband bounds the error.** The rows are, in order, those of some of the events, from the
first one on; the delays of rows next to each other are more than a positive deadband apart; and after
every event the delay of the last row so far is within the deadband of the event's. -/
theorem emission_within_deadband (args : Args) (hd : 0 ≤ args.delayDeadbandMs) (events : List Event) :
    (∃ emitted : List Event, List.Forall₂ RowOf (events.foldl (emit args) {}).rows emitted ∧
      emitted.Sublist events ∧ emitted.head? = events.head?) ∧
    (0 < args.delayDeadbandMs → (events.foldl (emit args) {}).rows.IsChain fun row row' =>
      ∃ n n', Py.int row.delayMs = some n ∧ Py.int row'.delayMs = some n' ∧
        args.delayDeadbandMs < |n' - n|) ∧
    ∀ before e, before ++ [e] <+: events →
      ((before ++ [e]).foldl (emit args) {}).rows <+: (events.foldl (emit args) {}).rows ∧
      ∃ row n, ((before ++ [e]).foldl (emit args) {}).rows.getLast? = some row ∧
        Py.int row.delayMs = some n ∧ |e.delayMs - n| ≤ args.delayDeadbandMs := by
  refine ⟨⟨events.destutter (Follows args), ?_, List.destutter_sublist _ _,
    Thinning.head?_destutter events⟩, fun hpos => ?_, fun before e hprefix => ⟨?_, ?_⟩⟩
  · rw [rows_destutter, List.forall₂_map_left_iff]
    exact List.forall₂_same.mpr fun e _ => rowOf_eventRow e
  · rw [rows_destutter, List.isChain_map]
    refine (List.isChain_destutter (R := Follows args) events).imp fun e e' h => ?_
    exact ⟨_, _, (rowOf_eventRow e).delayMs, (rowOf_eventRow e').delayMs,
      not_le.mp fun hnear => h.1 ⟨hpos, hnear⟩⟩
  · obtain ⟨after, rfl⟩ := hprefix
    rw [List.foldl_append (l := before ++ [e])]
    exact emit_rows_prefix after _
  · obtain ⟨last, hlast, hnear⟩ := Thinning.getLast?_destutter_snoc (R := Follows args) before e
    refine ⟨eventRow last, last.delayMs, ?_, (rowOf_eventRow last).delayMs, ?_⟩
    · rw [rows_destutter, List.getLast?_map, hlast, Option.map_some]
    obtain rfl | hnear := hnear
    · rwa [sub_self, abs_zero]
    · exact abs_sub_le_of_not_follows hd hnear

def driftingEvents : List Event :=
  [⟨0, 10, 7, 1, 0, none⟩, ⟨5, 14, 7, 2, 0, none⟩, ⟨10, 16, 7, 3, 0, none⟩, ⟨15, 20, 7, 4, 0, none⟩]

/-- A slow drift under a deadband of 5 ms, after its second event and after its third. -/
theorem emission_within_deadband_drift :
    (∃ n, ((driftingEvents.take 2).foldl (emit { delayDeadbandMs := 5 }) {}).rows.getLast? =
        some ⟨"0", "10", "0", "0", "", "", "pkt:ssrc=7,seq=1,rtp=0,n=1"⟩ ∧
      Py.int "10" = some n ∧ |14 - n| ≤ 5) ∧
    ∃ n, ((driftingEvents.take 3).foldl (emit { delayDeadbandMs := 5 }) {}).rows.getLast? =
        some ⟨"10", "16", "0", "0", "", "", "pkt:ssrc=7,seq=3,rtp=0,n=1"⟩ ∧
      Py.int "16" = some n ∧ |16 - n| ≤ 5 := by
  obtain ⟨_, _, hevery⟩ := emission_within_deadband { delayDeadbandMs := 5 } (by decide) driftingEvents
  obtain ⟨_, row, n, hlast, hn, hnear⟩ := hevery (driftingEvents.take 1) ⟨5, 14, 7, 2, 0, none⟩
    ⟨driftingEvents.drop 2, rfl⟩
  obtain ⟨_, row', n', hlast', hn', hnear'⟩ := hevery (driftingEvents.take 2) ⟨10, 16, 7, 3, 0, none⟩
    ⟨driftingEvents.drop 3, rfl⟩
  have hrow : ((driftingEvents.take 2).foldl (emit { delayDeadbandMs := 5 }) {}).rows.getLast? =
      some ⟨"0", "10", "0", "0", "", "", "pkt:ssrc=7,seq=1,rtp=0,n=1"⟩ := by decide +kernel
  have hrow' : ((driftingEvents.take 3).foldl (emit { delayDeadbandMs := 5 }) {}).rows.getLast? =
      some ⟨"10", "16", "0", "0", "", "", "pkt:ssrc=7,seq=3,rtp=0,n=1"⟩ := by decide +kernel
  obtain rfl := Option.some.inj (hrow.symm.trans hlast)
  obtain rfl := Option.some.inj (hrow'.symm.trans hlast')
  exact ⟨⟨n, hrow, hn, hnear⟩, n', hrow', hn', hnear'⟩

end Emission
end WebrtcTrace.TraceTools.Packet
