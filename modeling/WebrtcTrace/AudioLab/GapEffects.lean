import WebrtcTrace.AudioLab.GapSimulator

/-! # What the gap simulator changes

A round of `apply_events` writes one segment, all of it within the gap of its event, and all offsets are
multiples of the number of channels. So each sample it writes is silence or a faded earlier sample of its
own channel (`applyEvent_get`), and what the rounds before have written is one, too: bounds and dependence
follow by induction over the events. A sample is replaced when the result no longer depends on it, and
that are those of the audible gaps (`overwritten_eq_replaced`).
-/

namespace WebrtcTrace.AudioLab
set_option autoImplicit false

variable {c : Settings} {mode : PlcMode} {out samples : List ℤ} {event : Event} {events : List Event}
  {a l f ch n : ℕ}

/-! ## Fading -/

theorem fade_mem (lengthSamples : ℤ) (ch i : ℕ) :
    0 ≤ fade lengthSamples ch i ∧ fade lengthSamples ch i ≤ 1 := by
  have hquotient : (0 : ℚ) ≤ (i / ch : ℕ) / max 1 ((lengthSamples : ℚ) / ch) :=
    div_nonneg (Nat.cast_nonneg _) (zero_le_one.trans (le_max_left _ _))
  unfold fade
  constructor
  · exact le_max_of_le_left (by norm_num)
  · exact max_le (by norm_num) (by linarith)

/-- A faded sample is no larger. -/
theorem abs_trunc_mul_le (x : ℤ) {q : ℚ} (h0 : 0 ≤ q) (h1 : q ≤ 1) : |Py.trunc (x * q)| ≤ |x| := by
  have htrunc := Py.abs_trunc_le (x * q)
  rw [abs_mul, abs_of_nonneg h0] at htrunc
  have hfaded : |(x : ℚ)| * q ≤ |(x : ℚ)| := mul_le_of_le_one_right (abs_nonneg _) h1
  exact_mod_cast htrunc.trans hfaded

/-! ## A segment -/

/-- The length of the history before sample `a`. -/
def historyLength (f ch a : ℕ) : ℕ := min (f * ch) a

/-- **The samples of a segment** are silence or those of the history, over and over and faded. -/
theorem makePlcSegment_get (ha : a ≤ samples.length) (hl : 0 < l) (hf : 0 < f) (hch : 0 < ch) :
    (makePlcSegment samples a l f ch mode).length = l ∧
      ∀ t < l, (makePlcSegment samples a l f ch mode)[t]? =
        if mode = .silence ∨ a = 0 then some 0
        else samples[a - historyLength f ch a + t % historyLength f ch a]?.map fun x : ℤ =>
          Py.trunc (x * fade l ch t) := by
  unfold makePlcSegment
  rw [if_neg (by omega)]
  have hguard : (mode = .silence ∨ (a : ℤ) ≤ 0) ↔ (mode = .silence ∨ a = 0) := by
    rw [Int.natCast_nonpos_iff]
  simp only [hguard]
  by_cases hsilent : mode = .silence ∨ a = 0
  · simp only [if_pos hsilent, Int.toNat_natCast]
    refine ⟨List.length_replicate, fun t ht => ?_⟩
    rw [List.getElem?_replicate, if_pos ht]
  · simp only [if_neg hsilent]
    obtain ⟨_, hpos⟩ := not_or.mp hsilent
    have hlen : 0 < historyLength f ch a := lt_min (Nat.mul_pos hf hch) (Nat.pos_of_ne_zero hpos)
    have hle : historyLength f ch a ≤ a := min_le_right _ _
    have hlength : min ((f : ℤ) * ch) a = (historyLength f ch a : ℤ) := by
      rw [historyLength, Nat.cast_min, Nat.cast_mul]
    have hstart : (a : ℤ) - (historyLength f ch a : ℤ) = (a - historyLength f ch a : ℕ) := by omega
    have hslice := Py.length_slice (Nat.sub_le a (historyLength f ch a)) ha
    have hne : Py.slice samples (a - historyLength f ch a : ℕ) a ≠ [] := by
      rw [← List.length_pos_iff, hslice]
      omega
    have hempty : (Py.slice samples (a - historyLength f ch a : ℕ) a).isEmpty = false := by
      simpa using hne
    rw [hlength, hstart, hempty, if_neg Bool.false_ne_true, Int.toNat_natCast]
    refine ⟨?_, fun t ht => ?_⟩
    · rw [List.length_mapIdx, Py.length_extendTo hne]
    · have hmod : t % historyLength f ch a < historyLength f ch a := Nat.mod_lt _ hlen
      rw [List.getElem?_mapIdx, Py.getElem?_extendTo hne ht, hslice, Nat.sub_sub_self hle,
        Py.getElem?_slice (Nat.sub_le _ _) ha (by omega)]

/-! ## One round -/

theorem startSample_eq (htime : 0 ≤ event.timeSec) :
    ∃ k : ℕ, c.startSample event = (k * c.channels : ℕ) := by
  have hround : 0 ≤ Py.round (event.timeSec * c.sampleRate) :=
    Py.round_nonneg (mul_nonneg htime (Nat.cast_nonneg _))
  refine ⟨(Py.round (event.timeSec * c.sampleRate)).toNat, ?_⟩
  rw [Settings.startSample, Nat.cast_mul, Int.toNat_of_nonneg hround]

theorem lengthSamples_eq (c : Settings) (event : Event) :
    ∃ k : ℕ, c.lengthSamples event = (k * c.channels : ℕ) := by
  have haudible : 0 ≤ c.audibleGapMs event := le_max_left _ _
  have hround : 0 ≤ Py.round (c.audibleGapMs event * c.sampleRate / 1000) :=
    Py.round_nonneg (div_nonneg (mul_nonneg haudible (Nat.cast_nonneg _)) (by norm_num))
  refine ⟨(Py.round (c.audibleGapMs event * c.sampleRate / 1000)).toNat, ?_⟩
  rw [Settings.lengthSamples, Nat.cast_mul, Int.toNat_of_nonneg hround]

/-- What sample `i` of a gap is made from, in a signal of `n` samples: a sample before it and a fade, or
nothing. -/
def source (c : Settings) (event : Event) (n i : ℕ) : Option (ℕ × ℚ) :=
  let a := (c.startSample event).toNat
  let b := min n (a + (c.lengthSamples event).toNat)
  let h := historyLength c.frameSamplesPerChannel.toNat c.channels a
  if c.plcMode = .silence ∨ a = 0 then none
  else some (a - h + (i - a) % h, fade (b - a : ℕ) c.channels (i - a))

/-- The sample that is made from it. -/
def conceal (out : List ℤ) : Option (ℕ × ℚ) → Option ℤ
  | none => some 0
  | some (j, q) => out[j]?.map fun x : ℤ => Py.trunc (x * q)

/-- **What a round writes**, and where. -/
theorem applyEvent_get (out : List ℤ) (hch : 0 < c.channels) (htime : 0 ≤ event.timeSec) :
    (applyEvent c out event).1.length = out.length ∧
      ∀ i : ℕ, ((i : ℤ) ∈ c.gap event ∧ i < out.length →
          (applyEvent c out event).1[i]? = conceal out (source c event out.length i)) ∧
        (¬ ((i : ℤ) ∈ c.gap event ∧ i < out.length) → (applyEvent c out event).1[i]? = out[i]?) := by
  obtain ⟨k, hk⟩ := startSample_eq (c := c) htime
  obtain ⟨m, hm⟩ := lengthSamples_eq c event
  have hf : 0 < c.frameSamplesPerChannel.toNat := by
    have hone : 1 ≤ c.frameSamplesPerChannel := le_max_left _ _
    omega
  have hframe : c.frameSamplesPerChannel = (c.frameSamplesPerChannel.toNat : ℤ) := by omega
  have hgap : ∀ i : ℕ, (i : ℤ) ∈ c.gap event ↔
      k * c.channels ≤ i ∧ i < k * c.channels + m * c.channels := by
    intro i
    rw [Settings.gap, Set.mem_Ico, hk, hm]
    omega
  generalize hA : k * c.channels = a at *
  generalize hL : m * c.channels = l at *
  unfold applyEvent
  simp only [hk, hm]
  by_cases hskip : (out.length : ℤ) ≤ a ∨ (l : ℤ) ≤ 0
  · rw [if_pos hskip]
    refine ⟨rfl, fun i => ⟨fun hi => ?_, fun _ => rfl⟩⟩
    rw [hgap] at hi
    omega
  · rw [if_neg hskip]
    have hab : a ≤ min out.length (a + l) := by omega
    have hb : min out.length (a + l) ≤ out.length := min_le_left _ _
    have hend : min (out.length : ℤ) (a + l) = (min out.length (a + l) : ℕ) := by omega
    have hlen : (min out.length (a + l) : ℕ) - (a : ℤ) = (min out.length (a + l) - a : ℕ) := by omega
    rw [hend, hlen, hframe]
    obtain ⟨hseglen, hseg⟩ := @makePlcSegment_get c.plcMode out a
      (min out.length (a + l) - a) c.frameSamplesPerChannel.toNat c.channels (by omega) (by omega) hf hch
    refine ⟨Py.length_setSlice hab hb hseglen, fun i => ?_⟩
    rw [Py.getElem?_setSlice hab hb hseglen, hgap]
    constructor
    · intro hi
      rw [if_pos (by omega), hseg _ (by omega), source, hk, hm, Int.toNat_natCast, Int.toNat_natCast]
      split_ifs <;> rfl
    · intro hi
      rw [if_neg (by omega)]

/-- **A sample is made from an earlier one of its channel**, and its fade makes it no larger. -/
theorem source_spec (hch : 0 < c.channels) (htime : 0 ≤ event.timeSec) {i j : ℕ} {q : ℚ}
    (hi : (i : ℤ) ∈ c.gap event) (h : source c event n i = some (j, q)) :
    j % c.channels = i % c.channels ∧ j < i ∧ 0 ≤ q ∧ q ≤ 1 := by
  obtain ⟨k, hk⟩ := startSample_eq (c := c) htime
  have hle : k * c.channels ≤ i := by
    rw [Settings.gap, Set.mem_Ico, hk] at hi
    omega
  have hframe : 0 < c.frameSamplesPerChannel.toNat := by
    have hone : 1 ≤ c.frameSamplesPerChannel := le_max_left _ _
    omega
  unfold source at h
  rw [hk, Int.toNat_natCast] at h
  dsimp only at h
  split_ifs at h with hsilent
  obtain ⟨rfl, rfl⟩ := Prod.mk.inj (Option.some.inj h)
  refine ⟨?_, ?_, fade_mem _ _ _⟩
  · have hstart : c.channels ∣ k * c.channels := dvd_mul_left _ _
    have hhistory : c.channels ∣
        historyLength c.frameSamplesPerChannel.toNat c.channels (k * c.channels) := by
      obtain heq | heq := min_choice (c.frameSamplesPerChannel.toNat * c.channels) (k * c.channels) <;>
        rw [historyLength, heq] <;> exact dvd_mul_left _ _
    rw [Nat.add_mod, Nat.mod_eq_zero_of_dvd (Nat.dvd_sub hstart hhistory), Nat.zero_add, Nat.mod_mod,
      Nat.mod_mod_of_dvd _ hhistory]
    conv_rhs => rw [← Nat.add_sub_cancel' hle, Nat.add_mod, Nat.mod_eq_zero_of_dvd hstart, Nat.zero_add,
      Nat.mod_mod]
  · have hpos : 0 < k * c.channels := Nat.pos_of_ne_zero (not_or.mp hsilent).2
    have hhistory : 0 < historyLength c.frameSamplesPerChannel.toNat c.channels (k * c.channels) :=
      lt_min (Nat.mul_pos hframe hch) hpos
    have hwithin : historyLength c.frameSamplesPerChannel.toNat c.channels (k * c.channels) ≤
        k * c.channels := min_le_right _ _
    have hmod := Nat.mod_lt (i - k * c.channels) hhistory
    omega

/-- No sample is larger than one of its channel in the original. -/
def Dominated (ch : ℕ) (original out : List ℤ) : Prop :=
  ∀ i x, out[i]? = some x → ∃ j y, original[j]? = some y ∧ j % ch = i % ch ∧ |x| ≤ |y|

theorem applyEvent_dominated {original : List ℤ} (hch : 0 < c.channels) (htime : 0 ≤ event.timeSec)
    (h : Dominated c.channels original out) :
    Dominated c.channels original (applyEvent c out event).1 := by
  intro i x hx
  obtain ⟨hlength, hget⟩ := applyEvent_get out hch htime
  obtain ⟨hinside, houtside⟩ := hget i
  by_cases hi : (i : ℤ) ∈ c.gap event ∧ i < out.length
  · rw [hinside hi] at hx
    cases hsource : source c event out.length i with
    | none =>
      rw [hsource] at hx
      obtain rfl := Option.some.inj hx
      obtain ⟨j, y, hy, hj, _⟩ := h i out[i] (List.getElem?_eq_getElem hi.2)
      exact ⟨j, y, hy, hj, by simp⟩
    | some made =>
      obtain ⟨j, q⟩ := made
      rw [hsource] at hx
      obtain ⟨w, hw, rfl⟩ := Option.map_eq_some_iff.mp hx
      obtain ⟨hj, _, h0, h1⟩ := source_spec hch htime hi.1 hsource
      obtain ⟨j', y, hy, hj', hwy⟩ := h j w hw
      exact ⟨j', y, hy, hj'.trans hj, (abs_trunc_mul_le w h0 h1).trans hwy⟩
  · rw [houtside hi] at hx
    exact h i x hx

/-- The two signals have the same samples in channel `k`. -/
def AgreeOn (ch k : ℕ) (xs ys : List ℤ) : Prop := ∀ i, i % ch = k → xs[i]? = ys[i]?

/-- What the events write at the positions in `P`, they make from samples there. -/
def Closed (c : Settings) (events : List Event) (n : ℕ) (P : Set ℕ) : Prop :=
  ∀ event ∈ events, ∀ i ∈ P, (i : ℤ) ∈ c.gap event → ∀ j q, source c event n i = some (j, q) → j ∈ P

theorem closed_channel (hch : 0 < c.channels) (htime : ∀ e ∈ events, 0 ≤ e.timeSec) (n k : ℕ) :
    Closed c events n {i | i % c.channels = k} := by
  intro event he i hi hgap j q hsource
  obtain ⟨hj, _⟩ := source_spec hch (htime event he) hgap hsource
  exact hj.trans hi

theorem closed_before (hch : 0 < c.channels) (htime : ∀ e ∈ events, 0 ≤ e.timeSec) (n m : ℕ) :
    Closed c events n (Set.Iio m) := by
  intro event he i hi hgap j q hsource
  obtain ⟨_, hj, _⟩ := source_spec hch (htime event he) hgap hsource
  exact hj.trans hi

theorem applyEvent_agree {other : List ℤ} {P : Set ℕ} (hch : 0 < c.channels)
    (htime : 0 ≤ event.timeSec) (hlen : other.length = out.length)
    (hclosed : Closed c (event :: events) out.length P) (h : ∀ i ∈ P, other[i]? = out[i]?) :
    ∀ i ∈ P, (applyEvent c other event).1[i]? = (applyEvent c out event).1[i]? := by
  intro i hP
  obtain ⟨_, hget⟩ := applyEvent_get out hch htime
  obtain ⟨_, hget'⟩ := applyEvent_get other hch htime
  obtain ⟨hinside, houtside⟩ := hget i
  obtain ⟨hinside', houtside'⟩ := hget' i
  rw [hlen] at hinside' houtside'
  by_cases hi : (i : ℤ) ∈ c.gap event ∧ i < out.length
  · rw [hinside hi, hinside' hi]
    cases hsource : source c event out.length i with
    | none => rfl
    | some made =>
      obtain ⟨j, q⟩ := made
      rw [conceal, conceal, h j (hclosed event List.mem_cons_self i hP hi.1 j q hsource)]
  · rw [houtside hi, houtside' hi, h i hP]

/-! ## All events -/

theorem applyEvents_cons (c : Settings) (out : List ℤ) (event : Event) (events : List Event) :
    applyEvents c out (event :: events) =
      ((applyEvents c (applyEvent c out event).1 events).1,
        (applyEvent c out event).2 :: (applyEvents c (applyEvent c out event).1 events).2) := rfl

theorem applyEvent_event (c : Settings) (out : List ℤ) (event : Event) :
    (applyEvent c out event).2.event = event := by
  unfold applyEvent
  dsimp only
  split_ifs <;> rfl

theorem applyEvents_events (c : Settings) (events : List Event) :
    ∀ out, (applyEvents c out events).2.map AppliedRow.event = events := by
  induction events with
  | nil => exact fun _ => rfl
  | cons event events ih =>
    intro out
    rw [applyEvents_cons, List.map_cons, applyEvent_event, ih]

/-- The length does not change, nor does a sample outside the gaps. -/
theorem applyEvents_outside (hch : 0 < c.channels) (htime : ∀ e ∈ events, 0 ≤ e.timeSec) :
    ∀ out : List ℤ, (applyEvents c out events).1.length = out.length ∧
      ∀ i, i ∉ c.replaced events out.length → (applyEvents c out events).1[i]? = out[i]? := by
  induction events with
  | nil => exact fun _ => ⟨rfl, fun _ _ => rfl⟩
  | cons event events ih =>
    intro out
    obtain ⟨hhead, htail⟩ := List.forall_mem_cons.mp htime
    obtain ⟨hlength, hget⟩ := applyEvent_get out hch hhead
    obtain ⟨hlength', hget'⟩ := ih htail (applyEvent c out event).1
    rw [applyEvents_cons]
    refine ⟨hlength'.trans hlength, fun i hi => ?_⟩
    have hevent : ¬ ((i : ℤ) ∈ c.gap event ∧ i < out.length) := fun h =>
      hi ⟨h.2, event, List.mem_cons_self, h.1⟩
    have hevents : i ∉ c.replaced events (applyEvent c out event).1.length := by
      rintro ⟨hlt, e, he, hgap⟩
      exact hi ⟨hlength ▸ hlt, e, List.mem_cons_of_mem _ he, hgap⟩
    exact (hget' i hevents).trans ((hget i).2 hevent)

theorem applyEvents_dominated {original : List ℤ} (hch : 0 < c.channels)
    (htime : ∀ e ∈ events, 0 ≤ e.timeSec) : ∀ out : List ℤ,
      Dominated c.channels original out →
        Dominated c.channels original (applyEvents c out events).1 := by
  induction events with
  | nil => exact fun _ h => h
  | cons event events ih =>
    intro out h
    obtain ⟨hhead, htail⟩ := List.forall_mem_cons.mp htime
    rw [applyEvents_cons]
    exact ih htail _ (applyEvent_dominated hch hhead h)

/-- Signals that agree at positions from which the events make their samples still agree there. -/
theorem applyEvents_agree {P : Set ℕ} (hch : 0 < c.channels) (htime : ∀ e ∈ events, 0 ≤ e.timeSec) :
    ∀ out other : List ℤ, other.length = out.length → Closed c events out.length P →
      (∀ i ∈ P, other[i]? = out[i]?) →
      ∀ i ∈ P, (applyEvents c other events).1[i]? = (applyEvents c out events).1[i]? := by
  induction events with
  | nil => exact fun _ _ _ _ h => h
  | cons event events ih =>
    intro out other hlen hclosed h
    obtain ⟨hhead, htail⟩ := List.forall_mem_cons.mp htime
    obtain ⟨hlength, _⟩ := applyEvent_get out hch hhead
    obtain ⟨hlength', _⟩ := applyEvent_get other hch hhead
    rw [applyEvents_cons, applyEvents_cons]
    refine ih htail _ _ (hlength'.trans (hlen.trans hlength.symm)) ?_
      (applyEvent_agree hch hhead hlen hclosed h)
    rw [hlength]
    exact fun e he => hclosed e (List.mem_cons_of_mem _ he)

/-- A sample in a gap is what the last event there makes of the signal before it. -/
theorem applyEvents_inside (hch : 0 < c.channels) {before after : List Event}
    (htime : ∀ e ∈ before ++ event :: after, 0 ≤ e.timeSec) (out : List ℤ) {i : ℕ} (hi : i < out.length)
    (hgap : (i : ℤ) ∈ c.gap event) (hlast : ∀ e ∈ after, (i : ℤ) ∉ c.gap e) :
    (applyEvents c out (before ++ event :: after)).1[i]? =
      conceal (applyEvents c out before).1 (source c event out.length i) := by
  induction before generalizing out with
  | nil =>
    obtain ⟨hhead, htail⟩ := List.forall_mem_cons.mp htime
    obtain ⟨hlength, hget⟩ := applyEvent_get out hch hhead
    obtain ⟨_, houtside⟩ := applyEvents_outside hch htail (applyEvent c out event).1
    rw [List.nil_append, applyEvents_cons, houtside i fun ⟨_, e, he, hmem⟩ => hlast e he hmem]
    exact (hget i).1 ⟨hgap, hi⟩
  | cons first before ih =>
    obtain ⟨hhead, htail⟩ := List.forall_mem_cons.mp htime
    obtain ⟨hlength, _⟩ := applyEvent_get out hch hhead
    rw [List.cons_append, applyEvents_cons, applyEvents_cons, ← hlength]
    exact ih htail _ (hlength ▸ hi)

/-! ## The samples that are replaced -/

/-- The positions of the signal whose sample makes no difference to the result there. -/
def Settings.overwritten (c : Settings) (events : List Event) (original : List ℤ) : Set ℕ :=
  {i | i < original.length ∧ ∀ x : ℤ,
    (applyEvents c (original.set i x) events).1[i]? = (applyEvents c original events).1[i]?}

/-- In a gap the sample itself makes no difference: it is made from samples before it. -/
theorem applyEvents_forgets (hch : 0 < c.channels) (htime : ∀ e ∈ events, 0 ≤ e.timeSec) {i : ℕ} :
    ∀ out other : List ℤ, other.length = out.length → (∀ j < i, other[j]? = out[j]?) →
      i ∈ c.replaced events out.length →
      (applyEvents c other events).1[i]? = (applyEvents c out events).1[i]? := by
  induction events with
  | nil => exact fun _ _ _ _ ⟨_, _, he, _⟩ => absurd he List.not_mem_nil
  | cons event events ih =>
    intro out other hlen hbefore ⟨hi, e, he, hgap⟩
    obtain ⟨hhead, htail⟩ := List.forall_mem_cons.mp htime
    obtain ⟨hlength, hget⟩ := applyEvent_get out hch hhead
    obtain ⟨hlength', hget'⟩ := applyEvent_get other hch hhead
    have hlengths := hlength'.trans (hlen.trans hlength.symm)
    have hagree : ∀ j < i, (applyEvent c other event).1[j]? = (applyEvent c out event).1[j]? :=
      applyEvent_agree hch hhead hlen (closed_before hch htime _ i) hbefore
    rw [applyEvents_cons, applyEvents_cons]
    by_cases hhere : (i : ℤ) ∈ c.gap event
    · -- This event makes the two signals agree at `i`, too, and they go on agreeing.
      refine applyEvents_agree hch htail _ _ hlengths (closed_before hch htail _ (i + 1)) ?_ i
        (Nat.lt_succ_self i)
      intro j hj
      obtain hlt | rfl := Nat.lt_succ_iff_lt_or_eq.mp hj
      · exact hagree j hlt
      · rw [(hget' j).1 ⟨hhere, hlen ▸ hi⟩, (hget j).1 ⟨hhere, hi⟩, hlen]
        cases hsource : source c event out.length j with
        | none => rfl
        | some made =>
          obtain ⟨k, q⟩ := made
          obtain ⟨_, hk, _⟩ := source_spec hch hhead hhere hsource
          rw [conceal, conceal, hbefore k hk]
    · have hne : e ≠ event := by
        rintro rfl
        exact hhere hgap
      have hmem : e ∈ events := List.mem_of_ne_of_mem hne he
      exact ih htail _ _ hlengths hagree ⟨hlength ▸ hi, e, hmem, hgap⟩

/-- **The samples that are replaced** are those of the audible gaps. -/
theorem overwritten_eq_replaced (hch : 0 < c.channels) (htime : ∀ e ∈ events, 0 ≤ e.timeSec)
    (original : List ℤ) : c.overwritten events original = c.replaced events original.length := by
  ext i
  constructor
  · rintro ⟨hi, hsame⟩
    by_contra hnot
    obtain ⟨_, houtside⟩ := applyEvents_outside hch htime original
    obtain ⟨_, houtside'⟩ := applyEvents_outside hch htime (original.set i (original[i] + 1))
    rw [List.length_set] at houtside'
    have hboth := hsame (original[i] + 1)
    rw [houtside i hnot, houtside' i hnot, List.getElem?_set_self hi, List.getElem?_eq_getElem hi] at hboth
    exact absurd (Option.some.inj hboth) (by omega)
  · rintro hreplaced
    refine ⟨hreplaced.1, fun x => ?_⟩
    refine applyEvents_forgets hch htime _ _ List.length_set (fun j hj => ?_) hreplaced
    exact List.getElem?_set_ne (Nat.ne_of_gt hj)

/-- More recovered frames make no gap longer. -/
theorem gap_antitone (hframe : 0 ≤ c.frameMs) {r : ℤ} (hr : c.redFrames ≤ r) (event : Event) :
    ({ c with redFrames := r } : Settings).gap event ⊆ c.gap event := by
  have hrecovered : c.recoveredMs ≤ ({ c with redFrames := r } : Settings).recoveredMs :=
    mul_le_mul_of_nonneg_right (Int.cast_le.mpr hr) hframe
  have haudible : ({ c with redFrames := r } : Settings).audibleGapMs event ≤ c.audibleGapMs event :=
    max_le_max_left 0 (sub_le_sub_left hrecovered _)
  have hlength : ({ c with redFrames := r } : Settings).lengthSamples event ≤ c.lengthSamples event := by
    have hsamples := mul_le_mul_of_nonneg_right haudible (Nat.cast_nonneg (α := ℚ) c.sampleRate)
    refine mul_le_mul_of_nonneg_right (Py.round_mono ?_) (Nat.cast_nonneg _)
    exact div_le_div_of_nonneg_right hsamples (by norm_num)
  exact Set.Ico_subset_Ico_right (add_le_add_right hlength _)

theorem replaced_antitone (hframe : 0 ≤ c.frameMs) {r : ℤ} (hr : c.redFrames ≤ r) (events : List Event)
    (n : ℕ) : ({ c with redFrames := r } : Settings).replaced events n ⊆ c.replaced events n := by
  rintro i ⟨hi, event, hevent, hgap⟩
  exact ⟨hi, event, hevent, gap_antitone hframe hr event hgap⟩

/-- **The simulator touches the gaps only.** The signal keeps its length and its samples outside the
gaps; inside, a sample is what the last event there makes of the signal before it, so those of the gaps
are the samples that are replaced. A channel depends on its own samples only and is nowhere louder than
they were; each event is in the applied list; and with a frame length that is not negative more RED
frames replace no more. -/
theorem touches_only_the_gaps (c : Settings) (hch : 1 ≤ c.channels) (original : List ℤ)
    (events : List Event) (htime : ∀ event ∈ events, 0 ≤ event.timeSec) :
    (applyEvents c original events).1.length = original.length ∧
    (∀ i, i ∉ c.replaced events original.length →
      (applyEvents c original events).1[i]? = original[i]?) ∧
    (∀ before event after, events = before ++ event :: after → ∀ i < original.length,
      (i : ℤ) ∈ c.gap event → (∀ e ∈ after, (i : ℤ) ∉ c.gap e) →
      (applyEvents c original events).1[i]? =
        conceal (applyEvents c original before).1 (source c event original.length i)) ∧
    c.overwritten events original = c.replaced events original.length ∧
    Dominated c.channels original (applyEvents c original events).1 ∧
    (∀ (k : ℕ) (other : List ℤ), other.length = original.length → AgreeOn c.channels k other original →
      AgreeOn c.channels k (applyEvents c other events).1 (applyEvents c original events).1) ∧
    (applyEvents c original events).2.map AppliedRow.event = events ∧
    (0 ≤ c.frameMs → ∀ r, c.redFrames ≤ r →
      ({ c with redFrames := r } : Settings).overwritten events original ⊆
        c.overwritten events original) := by
  obtain ⟨hlength, houtside⟩ := applyEvents_outside hch htime original
  refine ⟨hlength, houtside, ?_, overwritten_eq_replaced hch htime original, ?_, fun k other hlen h => ?_,
    applyEvents_events c events original, fun hframe r hr => ?_⟩
  · rintro before event after rfl i hi hgap hlast
    exact applyEvents_inside hch htime original hi hgap hlast
  · exact applyEvents_dominated hch htime original fun i x hx => ⟨i, x, hx, rfl, le_rfl⟩
  · exact applyEvents_agree hch htime original other hlen (closed_channel hch htime _ k) h
  · rw [overwritten_eq_replaced hch htime, overwritten_eq_replaced (c := { c with redFrames := r }) hch htime]
    exact replaced_antitone hframe hr events _

/-- One channel, of 1000 samples a second. -/
def monoSettings (frameMs : ℚ) (redFrames : ℤ) (plcMode : PlcMode) : Settings where
  sampleRate := 1000
  channels := 1
  frameMs := frameMs
  jitterBufferMs := 80
  redFrames := redFrames
  plcMode := plcMode

/-- The third and the fourth of four samples are replaced by the two before them, faded. -/
theorem touches_only_the_gaps_two_samples :
    (monoSettings 20 0 .holdFade).overwritten [⟨1, 2 / 1000, 82, ""⟩] [100, 80, 60, 40] = {2, 3} ∧
    (applyEvents (monoSettings 20 0 .holdFade) [100, 80, 60, 40] [⟨1, 2 / 1000, 82, ""⟩]).1 =
      [100, 80, 100, 40] ∧
    Dominated 1 [100, 80, 60, 40] (applyEvents (monoSettings 20 0 .holdFade) [100, 80, 60, 40]
      [⟨1, 2 / 1000, 82, ""⟩]).1 := by
  have hread : readEvents [(2 / 1000, 82, "")] = [⟨1, 2 / 1000, 82, ""⟩] := by decide +kernel
  obtain ⟨_, _, _, hoverwritten, hdominated, _⟩ := touches_only_the_gaps (monoSettings 20 0 .holdFade)
    (by decide) [100, 80, 60, 40] [⟨1, 2 / 1000, 82, ""⟩] fun event he => by
      rw [← hread] at he
      exact readEvents_time he
  refine ⟨?_, by decide +kernel, hdominated⟩
  have hgap : (monoSettings 20 0 .holdFade).gap ⟨1, 2 / 1000, 82, ""⟩ = Set.Ico 2 4 := by
    rw [Settings.gap, show (monoSettings 20 0 .holdFade).startSample ⟨1, 2 / 1000, 82, ""⟩ = 2 by
      decide +kernel, show (monoSettings 20 0 .holdFade).lengthSamples ⟨1, 2 / 1000, 82, ""⟩ = 2 by
      decide +kernel]
    rfl
  rw [hoverwritten]
  ext i
  simp only [Settings.replaced, List.mem_singleton, exists_eq_left, hgap, Set.mem_Ico, Set.mem_ofPred_eq,
    Set.mem_insert_iff, Set.mem_singleton_iff, List.length_cons, List.length_nil]
  omega

/-- With frames of -20 ms a RED frame makes a gap of 80 ms audible: it replaces the only sample, which
stays without. -/
theorem negative_frames_enlarge :
    (applyEvents (monoSettings (-20) 0 .silence) [5] [⟨1, 0, 80, ""⟩]).1 = [5] ∧
    (applyEvents (monoSettings (-20) 1 .silence) [5] [⟨1, 0, 80, ""⟩]).1 = [0] ∧
    ¬ (monoSettings (-20) 1 .silence).overwritten [⟨1, 0, 80, ""⟩] [5] ⊆
      (monoSettings (-20) 0 .silence).overwritten [⟨1, 0, 80, ""⟩] [5] := by
  have htime : ∀ event ∈ [Event.mk 1 0 80 ""], 0 ≤ event.timeSec := fun event he => by
    obtain rfl := List.mem_singleton.mp he
    norm_num
  refine ⟨by decide +kernel, by decide +kernel, fun h => ?_⟩
  rw [overwritten_eq_replaced (by decide) htime, overwritten_eq_replaced (by decide) htime] at h
  have hgap : ((0 : ℕ) : ℤ) ∈ (monoSettings (-20) 1 .silence).gap ⟨1, 0, 80, ""⟩ :=
    Set.mem_Ico.mpr (by decide +kernel)
  obtain ⟨_, event, he, hmem⟩ := h ⟨Nat.one_pos, _, List.mem_singleton_self _, hgap⟩
  obtain rfl := List.mem_singleton.mp he
  exact absurd (Set.mem_Ico.mp hmem) (by decide +kernel)

end WebrtcTrace.AudioLab
