import Mathlib.Data.List.Basic
import Mathlib.Data.List.Range
import Mathlib.Order.Basic

/-! # Logs of changes

A sequence of states is written down only where it changes, and at some forced indices besides. The
state at an index is that of the last entry at or before it (`lookup_changeLog`). Without indices a log of changes is
the sequence with repeated states left out (`changesFrom`).
-/

namespace WebrtcTrace
set_option autoImplicit false

structure ChangeLog (σ : Type*) where
  last : Option σ := none
  entries : List (ℕ × σ) := []

namespace ChangeLog
variable {σ : Type*} [DecidableEq σ] (state : ℕ → σ) (forced : ℕ → Prop) [DecidablePred forced]

def record (log : ChangeLog σ) (i : ℕ) : ChangeLog σ :=
  if some (state i) ≠ log.last ∨ forced i then ⟨some (state i), log.entries ++ [(i, state i)]⟩
  else log

/-- The log of the first `n` states. -/
def upTo (n : ℕ) : ChangeLog σ := (List.range n).foldl (record state forced) {}

omit [DecidableEq σ] in
/-- The last entry at or before an index. -/
def lookup (log : ChangeLog σ) (i : ℕ) : Option (ℕ × σ) := (log.entries.filter (·.1 ≤ i)).getLast?

structure Tracks (n : ℕ) (log : ChangeLog σ) : Prop where
  last : log.last = log.entries.getLast?.map Prod.snd
  below : ∀ e ∈ log.entries, e.1 < n ∧ e.2 = state e.1
  increasing : log.entries.Pairwise fun e e' => e.1 < e'.1
  current : ∀ i < n, (log.lookup i).map Prod.snd = some (state i)
  forced : ∀ i < n, forced i → (i, state i) ∈ log.entries

variable {state forced}

theorem Tracks.record {n : ℕ} {log : ChangeLog σ} (h : Tracks state forced n log) :
    Tracks state forced (n + 1) (log.record state forced n) := by
  have hall : log.entries.filter (fun e => decide (e.1 ≤ n)) = log.entries := by
    rw [List.filter_eq_self]
    intro e he
    simpa using (h.below e he).1.le
  unfold ChangeLog.record
  split_ifs with hwrite
  · refine ⟨by simp, fun e he => ?_, ?_, fun i hi => ?_, fun i hi hforced => ?_⟩
    · obtain he | he := List.mem_append.mp he
      · exact ⟨(h.below e he).1.trans (Nat.lt_succ_self n), (h.below e he).2⟩
      · obtain rfl := List.mem_singleton.mp he
        exact ⟨Nat.lt_succ_self n, rfl⟩
    · refine List.pairwise_append.mpr ⟨h.increasing, List.pairwise_singleton _ _, ?_⟩
      intro e he e' he'
      obtain rfl := List.mem_singleton.mp he'
      exact (h.below e he).1
    · rw [lookup, List.filter_append]
      obtain hlt | rfl := Nat.lt_succ_iff_lt_or_eq.mp hi
      · have hnew : ([(n, state n)].filter fun e => decide (e.1 ≤ i)) = [] := by
          simpa using hlt
        rw [hnew, List.append_nil]
        exact h.current i hlt
      · simp
    · obtain hlt | rfl := Nat.lt_succ_iff_lt_or_eq.mp hi
      · exact List.mem_append_left _ (h.forced i hlt hforced)
      · exact List.mem_append_right _ (List.mem_singleton_self _)
  · rw [not_or, not_not] at hwrite
    refine ⟨h.last, fun e he => ?_, h.increasing, fun i hi => ?_, fun i hi hforced => ?_⟩
    · exact ⟨(h.below e he).1.trans (Nat.lt_succ_self n), (h.below e he).2⟩
    · obtain hlt | rfl := Nat.lt_succ_iff_lt_or_eq.mp hi
      · exact h.current i hlt
      · rw [lookup, hall, ← h.last, hwrite.1]
    · obtain hlt | rfl := Nat.lt_succ_iff_lt_or_eq.mp hi
      · exact h.forced i hlt hforced
      · exact absurd hforced hwrite.2

theorem upTo_succ (n : ℕ) : upTo state forced (n + 1) = (upTo state forced n).record state forced n := by
  rw [upTo, List.range_succ, List.foldl_append]
  rfl

theorem tracks_upTo (n : ℕ) : Tracks state forced n (upTo state forced n) := by
  induction n with
  | zero => exact ⟨rfl, by simp [upTo], .nil, by simp, by simp⟩
  | succ n ih =>
    rw [upTo_succ]
    exact ih.record

/-- **Decoding a log.** The last entry at or before an index has the state of that index. -/
theorem lookup_upTo {n i : ℕ} (h : i < n) :
    ∃ j ≤ i, (upTo state forced n).lookup i = some (j, state i) ∧
      (j, state i) ∈ (upTo state forced n).entries := by
  have htracks : Tracks state forced n (upTo state forced n) := tracks_upTo n
  obtain ⟨⟨j, s⟩, he, rfl⟩ := Option.map_eq_some_iff.mp (htracks.current i h)
  have hmem := List.mem_filter.mp (List.mem_of_getLast? he)
  exact ⟨j, by simpa using hmem.2, he, hmem.1⟩

omit [DecidableEq σ] [DecidablePred forced] in
/-- The entries up to an index come before the others. -/
theorem Tracks.entries_split {n : ℕ} {log : ChangeLog σ} (h : Tracks state forced n log) (i : ℕ) :
    log.entries = (log.entries.filter fun e => e.1 ≤ i) ++ log.entries.filter fun e => i < e.1 := by
  have hincreasing := h.increasing
  generalize log.entries = entries at hincreasing ⊢
  induction entries with
  | nil => rfl
  | cons e entries ih =>
    obtain ⟨hfirst, hrest⟩ := List.pairwise_cons.mp hincreasing
    have hrestEq := ih hrest
    by_cases hle : e.1 ≤ i
    · simp only [List.filter_cons, hle, not_lt.mpr hle, decide_true, decide_false, if_true,
        Bool.false_eq_true, if_false, List.cons_append, ← hrestEq]
    · have hnone : entries.filter (fun e => decide (e.1 ≤ i)) = [] := by
        rw [List.filter_eq_nil_iff]
        intro e' he'
        have := hfirst e' he'
        simp only [decide_eq_true_eq]
        omega
      rw [hnone, List.nil_append] at hrestEq
      simp only [List.filter_cons, hle, not_le.mp hle, decide_true, decide_false, if_true,
        Bool.false_eq_true, if_false, hnone, List.nil_append, ← hrestEq]

/-- The last entry has the last state. -/
theorem getLast?_upTo (n : ℕ) : ∃ j, (upTo state forced (n + 1)).entries.getLast? = some (j, state n) := by
  have htracks : Tracks state forced (n + 1) (upTo state forced (n + 1)) := tracks_upTo (n + 1)
  obtain ⟨j, hlookup⟩ : ∃ j, (upTo state forced (n + 1)).lookup n = some (j, state n) :=
    (lookup_upTo (Nat.lt_succ_self n)).imp fun _ h => h.2.1
  have hall : (upTo state forced (n + 1)).entries.filter (fun e => decide (e.1 ≤ n)) =
      (upTo state forced (n + 1)).entries := by
    rw [List.filter_eq_self]
    intro e he
    simpa using Nat.lt_succ_iff.mp (htracks.below e he).1
  rw [lookup, hall] at hlookup
  exact ⟨j, hlookup⟩

/-- An entry that is written in any case is the only one of its index. -/
theorem entries_at {n i : ℕ} (h : i < n) (hforced : forced i) :
    (upTo state forced n).entries.filter (·.1 = i) = [(i, state i)] := by
  have htracks : Tracks state forced n (upTo state forced n) := tracks_upTo n
  have hincreasing := htracks.increasing
  obtain ⟨before, after, hsplit⟩ := List.append_of_mem (htracks.forced i h hforced)
  rw [hsplit] at hincreasing ⊢
  obtain ⟨_, hafter, hbefore⟩ := List.pairwise_append.mp hincreasing
  have hbeforeNil : before.filter (fun e => decide (e.1 = i)) = [] := by
    rw [List.filter_eq_nil_iff]
    intro e he
    simpa using (hbefore e he _ List.mem_cons_self).ne
  have hafterNil : after.filter (fun e => decide (e.1 = i)) = [] := by
    rw [List.filter_eq_nil_iff]
    intro e he
    simpa using ((List.pairwise_cons.mp hafter).1 e he).ne'
  rw [List.filter_append, List.filter_cons, hbeforeNil, hafterNil]
  simp

/-- A log that writes the first state in any case starts with it. -/
theorem head?_upTo {n : ℕ} (h : 0 < n) (hforced : forced 0) :
    (upTo state forced n).entries.head? = some (0, state 0) := by
  have htracks : Tracks state forced n (upTo state forced n) := tracks_upTo n
  have hincreasing := htracks.increasing
  obtain ⟨before, after, hsplit⟩ := List.append_of_mem (htracks.forced 0 h hforced)
  rw [hsplit] at hincreasing ⊢
  cases before with
  | nil => rfl
  | cons e before =>
    have hlt : e.1 < 0 :=
      (List.pairwise_append.mp hincreasing).2.2 e List.mem_cons_self _ List.mem_cons_self
    exact absurd hlt (Nat.not_lt_zero _)

end ChangeLog

/-! ## Changes without indices -/

section Changes
variable {σ : Type*} [DecidableEq σ]

/-- The states of a sequence that differ from the one before, the first from `last`. -/
def changesFrom : σ → List σ → List σ
  | _, [] => []
  | last, x :: xs => if x = last then changesFrom last xs else x :: changesFrom x xs

omit [DecidableEq σ] in
theorem getLast?_getD_append (last : σ) (xs ys : List σ) :
    (xs ++ ys).getLast?.getD last = ys.getLast?.getD (xs.getLast?.getD last) := by
  rw [List.getLast?_append]
  cases ys.getLast? <;> rfl

theorem changesFrom_append (last : σ) (xs ys : List σ) :
    changesFrom last (xs ++ ys) = changesFrom last xs ++ changesFrom (xs.getLast?.getD last) ys := by
  induction xs generalizing last with
  | nil => rfl
  | cons x xs ih =>
    have hlast : (x :: xs).getLast?.getD last = xs.getLast?.getD x :=
      getLast?_getD_append last [x] xs
    rw [List.cons_append, changesFrom, changesFrom, hlast]
    by_cases hx : x = last
    · rw [if_pos hx, if_pos hx, ih, hx]
    · rw [if_neg hx, if_neg hx, ih, List.cons_append]

/-- No entry repeats the one before. -/
theorem isChain_changesFrom (last : σ) (xs : List σ) : (last :: changesFrom last xs).IsChain (· ≠ ·) := by
  induction xs generalizing last with
  | nil => exact List.isChain_singleton last
  | cons x xs ih =>
    rw [changesFrom]
    split_ifs with hx
    · exact ih last
    · exact List.isChain_cons_cons.mpr ⟨fun h => hx h.symm, ih x⟩

end Changes
end WebrtcTrace
