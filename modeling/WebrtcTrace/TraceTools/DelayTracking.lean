import WebrtcTrace.TraceTools.Schedule

/-! # The delay of a packet event

A packet's raw delay is scaled, offset and clamped, and the result is rounded to a multiple of the
quantum. The clamping comes first, so the multiple can lie above the greatest delay or below the least,
but by half a quantum at most.
-/

namespace WebrtcTrace.TraceTools.Packet
set_option autoImplicit false

variable {args : Args}

/-- The delay of a packet before it is rounded. -/
def clampedDelay (args : Args) (baseDelayMs : ℚ) (rawDelay : ℤ) : ℚ :=
  min (args.maxDelayMs : ℚ)
    (max (args.minDelayMs : ℚ) ((rawDelay - baseDelayMs) * args.delayScale + args.delayOffsetMs))

/-- `delayMs` is the rounded `delay`. -/
structure TracksDelay (quantum : ℤ) (delay : ℚ) (delayMs : ℤ) : Prop where
  nonneg : 0 ≤ delayMs
  multiple : quantum ∣ delayMs
  near : |(delayMs : ℚ) - delay| ≤ quantum / 2
  settled : quantize delayMs quantum = delayMs

theorem packetDelayMs_tracks (hquantum : 1 ≤ args.delayQuantumMs) (hmin : 0 ≤ args.minDelayMs)
    (hmax : args.minDelayMs ≤ args.maxDelayMs) (baseDelayMs : ℚ) (rawDelay : ℤ) :
    TracksDelay args.delayQuantumMs (clampedDelay args baseDelayMs rawDelay)
      (packetDelayMs args baseDelayMs rawDelay) where
  nonneg := packetDelayMs_nonneg hmin hmax baseDelayMs rawDelay
  multiple := dvd_quantize hquantum _
  near := abs_quantize_sub_le hquantum _
  settled := quantize_of_dvd (dvd_quantize hquantum _)

theorem packetDelayMs_mono (hscale : 0 ≤ args.delayScale) (baseDelayMs : ℚ) :
    Monotone (packetDelayMs args baseDelayMs) := by
  intro rawDelay rawDelay' hle
  have hraw : (rawDelay : ℚ) - baseDelayMs ≤ rawDelay' - baseDelayMs :=
    sub_le_sub_right (Int.cast_le.mpr hle) _
  have hadjusted := add_le_add_left (mul_le_mul_of_nonneg_right hraw hscale) args.delayOffsetMs
  exact quantize_mono (min_le_min_left _ (max_le_max_left _ hadjusted)) _

/-- **Emitted packet delays track the measurement.** Every matched packet has one event before the
coalescing, whose delay is the rounded clamped delay of the packet and does not fall as the raw delay
grows. -/
theorem packet_delays_track {matched : List Matched} {events : List Event}
    (hscale : 0 ≤ args.delayScale) (hquantum : 1 ≤ args.delayQuantumMs) (hmin : 0 ≤ args.minDelayMs)
    (hmax : args.minDelayMs ≤ args.maxDelayMs) (h : packetEvents args matched = .ok events) :
    ∃ (baseDelayMs : ℚ) (eventOf : Matched → Event),
      percentile (matched.map fun m => ((m.recvTimeMs - m.sendTimeMs : ℤ) : ℚ))
          args.baseDelayPercentile = .ok baseDelayMs ∧
        events = (sortedBy (scheduleKey args) matched).map eventOf ∧
        ∀ m ∈ matched,
          TracksDelay args.delayQuantumMs
              (clampedDelay args baseDelayMs (m.recvTimeMs - m.sendTimeMs)) (eventOf m).delayMs ∧
            ∀ m' ∈ matched, m.recvTimeMs - m.sendTimeMs ≤ m'.recvTimeMs - m'.sendTimeMs →
              (eventOf m).delayMs ≤ (eventOf m').delayMs := by
  obtain ⟨baseDelayMs, hbase, h⟩ := Except.bind_eq_ok.mp h
  obtain ⟨sendOriginMs, _, h⟩ := Except.bind_eq_ok.mp h
  obtain ⟨recvOriginMs, _, h⟩ := Except.bind_eq_ok.mp h
  cases h
  refine ⟨baseDelayMs, packetEvent args baseDelayMs sendOriginMs recvOriginMs, hbase, rfl,
    fun m _ => ⟨?_, fun m' _ hle => ?_⟩⟩
  · exact packetDelayMs_tracks hquantum hmin hmax _ _
  · exact packetDelayMs_mono hscale baseDelayMs hle

/-- The second packet's delay is 25 ms before it is rounded. -/
theorem packet_delays_track_two_packets :
    ∃ baseDelayMs : ℚ,
      TracksDelay 10 (clampedDelay
        { baseDelayPercentile := 0, delayQuantumMs := 10, delayOffsetMs := 2 } baseDelayMs 75) 20 := by
  have hevents : packetEvents { baseDelayPercentile := 0, delayQuantumMs := 10, delayOffsetMs := 2 }
      [⟨1000, 1052, 1, 7, 90⟩, ⟨1010, 1085, 1, 8, 90⟩] =
        .ok [⟨0, 0, 1, 7, 90, none⟩, ⟨10, 20, 1, 8, 90, none⟩] := by decide +kernel
  obtain ⟨baseDelayMs, eventOf, _, hmap, htracks⟩ := packet_delays_track (by decide +kernel) (by decide)
    (by decide) (by decide) hevents
  obtain ⟨htrack, _⟩ := htracks ⟨1010, 1085, 1, 8, 90⟩ (by decide)
  have hsorted : sortedBy (scheduleKey
      { baseDelayPercentile := 0, delayQuantumMs := 10, delayOffsetMs := 2 })
      [⟨1000, 1052, 1, 7, 90⟩, ⟨1010, 1085, 1, 8, 90⟩] =
        [⟨1000, 1052, 1, 7, 90⟩, ⟨1010, 1085, 1, 8, 90⟩] := by decide +kernel
  rw [hsorted] at hmap
  simp only [List.map_cons, List.map_nil, List.cons.injEq] at hmap
  rw [← hmap.2.1] at htrack
  exact ⟨baseDelayMs, htrack⟩

end WebrtcTrace.TraceTools.Packet
