import Mathlib.Algebra.BigOperators.Group.Finset.Basic
import Mathlib.Data.Multiset.AddSub

/-! # Tables of slots

A table is a function from slot numbers; the first `n` slots are in use, each empty or with one item.
What it holds is a multiset, so that moving items from slot to slot is an equation (`contents_update`),
and moving all of them into a table where they have slots of their own loses none (`contents_placeAll`).
-/

namespace WebrtcTrace.SlotTables
set_option autoImplicit false

variable {α β : Type*}

def ofSlot : Option α → Multiset α
  | none => 0
  | some a => {a}

@[simp] theorem ofSlot_none : ofSlot (none : Option α) = 0 := rfl

@[simp] theorem ofSlot_some (a : α) : ofSlot (some a) = {a} := rfl

theorem ofSlot_map (f : α → β) (e : Option α) : ofSlot (e.map f) = (ofSlot e).map f := by
  cases e <;> rfl

/-- What the first `n` slots hold. -/
def contents (n : ℕ) (slot : ℕ → Option α) : Multiset α := ∑ i ∈ Finset.range n, ofSlot (slot i)

variable {n m : ℕ} {slot : ℕ → Option α} {i : ℕ} {a : α}

@[simp] theorem contents_empty : contents n (fun _ => (none : Option α)) = 0 := Finset.sum_const_zero

theorem contents_congr {slot' : ℕ → Option α} (h : ∀ i < n, slot i = slot' i) :
    contents n slot = contents n slot' :=
  Finset.sum_congr rfl fun i hi => by rw [h i (Finset.mem_range.mp hi)]

theorem contents_succ (n : ℕ) (slot : ℕ → Option α) :
    contents (n + 1) slot = contents n slot + ofSlot (slot n) :=
  Finset.sum_range_succ _ n

theorem mem_contents : a ∈ contents n slot ↔ ∃ i < n, slot i = some a := by
  have hslot : ∀ i, a ∈ ofSlot (slot i) ↔ slot i = some a := by
    intro i
    cases slot i with
    | none => simp
    | some b => simp [eq_comm]
  simp only [contents, Multiset.mem_sum, Finset.mem_range, hslot]

/-- Writing one slot exchanges what it held for what it holds. -/
theorem contents_update (slot : ℕ → Option α) (hi : i < n) (e : Option α) :
    contents n (Function.update slot i e) + ofSlot (slot i) = contents n slot + ofSlot e := by
  induction n with
  | zero => exact absurd hi (Nat.not_lt_zero i)
  | succ n ih =>
    rw [contents_succ, contents_succ]
    obtain rfl | hlt := Nat.eq_or_lt_of_le (Nat.le_of_lt_succ hi)
    · have hbelow : contents i (Function.update slot i e) = contents i slot :=
        contents_congr fun j hj => Function.update_of_ne hj.ne e slot
      rw [hbelow, Function.update_self, add_right_comm]
    · rw [Function.update_of_ne hlt.ne', add_right_comm, ih hlt, add_right_comm]

/-- The items with a property and those without it are all of them. -/
theorem contents_split (p : ℕ → α → Bool) (f : α → β) :
    contents n (fun i => ((slot i).filter (p i)).map f) +
        contents n (fun i => ((slot i).filter fun a => !p i a).map f) =
      contents n fun i => (slot i).map f := by
  rw [contents, contents, contents, ← Finset.sum_add_distrib]
  refine Finset.sum_congr rfl fun i _ => ?_
  cases slot i with
  | none => rfl
  | some a => cases h : p i a <;> simp [Option.filter, h]

/-! ## Moving a whole table -/

/-- The item of an entry goes to its own slot. -/
def place (home : α → ℕ) (slots : ℕ → Option α) : Option α → ℕ → Option α
  | none => slots
  | some a => Function.update slots (home a) (some a)

/-- The first `n` entries of a table go to their slots in an empty one. -/
def placeAll (home : α → ℕ) (n : ℕ) (slot : ℕ → Option α) : ℕ → Option α :=
  (List.range n).foldl (fun slots i => place home slots (slot i)) fun _ => none

theorem placeAll_succ (home : α → ℕ) (n : ℕ) (slot : ℕ → Option α) :
    placeAll home (n + 1) slot = place home (placeAll home n slot) (slot n) := by
  rw [placeAll, List.range_succ, List.foldl_append]
  rfl

/-- What is found was there before, and lies where it belongs. -/
theorem placeAll_some {home : α → ℕ} (h : placeAll home n slot i = some a) :
    (∃ j < n, slot j = some a) ∧ home a = i := by
  induction n with
  | zero => cases h
  | succ n ih =>
    rw [placeAll_succ] at h
    cases hn : slot n with
    | none =>
      rw [hn] at h
      obtain ⟨⟨j, hj, ha⟩, hhome⟩ := ih h
      exact ⟨⟨j, by omega, ha⟩, hhome⟩
    | some b =>
      simp only [hn, place, Function.update_apply] at h
      split_ifs at h with hi
      · obtain rfl := Option.some.inj h
        exact ⟨⟨n, by omega, hn⟩, hi.symm⟩
      · obtain ⟨⟨j, hj, ha⟩, hhome⟩ := ih h
        exact ⟨⟨j, by omega, ha⟩, hhome⟩

/-- **Nothing is lost on the way**, if every item has a slot of its own in the new table. -/
theorem contents_placeAll {home : α → ℕ} (hhome : ∀ i < n, ∀ a, slot i = some a → home a < m)
    (hown : ∀ i < n, ∀ j < n, ∀ a b, slot i = some a → slot j = some b → home a = home b → i = j) :
    contents m (placeAll home n slot) = contents n slot := by
  induction n with
  | zero => exact contents_empty
  | succ n ih =>
    have hbefore := ih (fun i hi => hhome i (by omega)) fun i hi j hj => hown i (by omega) j (by omega)
    rw [placeAll_succ, contents_succ, ← hbefore]
    cases hn : slot n with
    | none => exact (add_zero _).symm
    | some a =>
      -- the slot is still free: what lies there would be this very entry
      have hfree : placeAll home n slot (home a) = none := by
        refine Option.eq_none_iff_forall_ne_some.mpr fun b hb => ?_
        obtain ⟨⟨j, hj, hjb⟩, heq⟩ := placeAll_some hb
        have := hown j (by omega) n (by omega) b a hjb hn heq
        omega
      have hupdate := contents_update (placeAll home n slot) (hhome n (by omega) a hn) (some a)
      rwa [hfree, ofSlot_none, add_zero] at hupdate

end WebrtcTrace.SlotTables
