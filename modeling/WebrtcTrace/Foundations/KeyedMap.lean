import Mathlib.Data.List.Sort
import Mathlib.Order.Defs.LinearOrder

/-! # An ordered map whose values carry their key

`std::map` from a key to a value that contains the key: the entries, in strictly increasing key
order, with that order as a field. Iteration is the list of entries; there is one entry a key, so
two maps with the same entries as sets are equal (`ext_mem`).
-/

namespace WebrtcTrace
set_option autoImplicit false

structure KeyedMap {α κ : Type*} [LinearOrder κ] (key : α → κ) where
  entries : List α
  ordered : entries.Pairwise fun a b => key a < key b

namespace KeyedMap
variable {α κ : Type*} [LinearOrder κ] {key : α → κ}

instance [DecidableEq α] : DecidableEq (KeyedMap key) := fun m n =>
  decidable_of_iff (m.entries = n.entries) <| by
    cases m
    cases n
    simp

instance : Membership α (KeyedMap key) := ⟨fun m a => a ∈ m.entries⟩

theorem mem_iff {m : KeyedMap key} {a : α} : a ∈ m ↔ a ∈ m.entries := Iff.rfl

def empty : KeyedMap key := ⟨[], .nil⟩

def size (m : KeyedMap key) : ℕ := m.entries.length

def find? (m : KeyedMap key) (k : κ) : Option α := m.entries.find? fun a => key a = k

/-- The entries below the key of `a`, then `a`, then the entries above it. -/
def place (m : KeyedMap key) (a : α) : KeyedMap key where
  entries := m.entries.filter (key · < key a) ++ a :: m.entries.filter (key a < key ·)
  ordered := by
    rw [List.pairwise_append, List.pairwise_cons]
    refine ⟨m.ordered.filter _, ⟨?_, m.ordered.filter _⟩, ?_⟩
    · intro b hb
      simpa using (List.mem_filter.mp hb).2
    · intro b hb c hc
      have hba : key b < key a := by simpa using (List.mem_filter.mp hb).2
      obtain rfl | hc := List.mem_cons.mp hc
      · exact hba
      · exact hba.trans (by simpa using (List.mem_filter.mp hc).2)

/-- `std::map::emplace`: nothing happens when the key is there. -/
def emplace (m : KeyedMap key) (a : α) : Option (KeyedMap key) :=
  if (m.find? (key a)).isSome then none else some (m.place a)

/-- Rewrites entries in place; the keys stay. -/
def mapEntries (m : KeyedMap key) (f : α → α) (hf : ∀ a, key (f a) = key a) : KeyedMap key where
  entries := m.entries.map f
  ordered := by
    rw [List.pairwise_map]
    exact m.ordered.imp fun h => by rw [hf, hf]; exact h

/-- Erases from the beginning through the key `k`. -/
def eraseThrough (m : KeyedMap key) (k : κ) : KeyedMap key where
  entries := m.entries.filter (k < key ·)
  ordered := m.ordered.filter _

/-! ## Entries and keys -/

@[simp] theorem not_mem_empty (a : α) : a ∉ (empty : KeyedMap key) := by
  simp [mem_iff, empty]

theorem nodup_keys (m : KeyedMap key) : (m.entries.map key).Nodup := by
  rw [List.Nodup, List.pairwise_map]
  exact m.ordered.imp fun h => h.ne

theorem nodup (m : KeyedMap key) : m.entries.Nodup := m.nodup_keys.of_map

theorem key_injOn (m : KeyedMap key) {a b : α} (ha : a ∈ m) (hb : b ∈ m) (h : key a = key b) :
    a = b :=
  List.inj_on_of_nodup_map m.nodup_keys ha hb h

theorem find?_eq_some {m : KeyedMap key} {k : κ} {a : α} :
    m.find? k = some a ↔ a ∈ m ∧ key a = k := by
  constructor
  · intro h
    exact ⟨List.mem_of_find?_eq_some h, by simpa using List.find?_some h⟩
  · rintro ⟨ha, rfl⟩
    cases hf : m.find? (key a) with
    | none =>
      have := List.find?_eq_none.mp hf a ha
      simp at this
    | some b =>
      have hb : b ∈ m := List.mem_of_find?_eq_some hf
      have hk : key b = key a := by simpa using List.find?_some hf
      rw [m.key_injOn hb ha hk]

theorem find?_eq_none {m : KeyedMap key} {k : κ} : m.find? k = none ↔ ∀ a ∈ m, key a ≠ k := by
  simp [find?, List.find?_eq_none, mem_iff]

theorem ext_mem {m n : KeyedMap key} (h : ∀ a, a ∈ m ↔ a ∈ n) : m = n := by
  have hperm : m.entries.Perm n.entries := (List.perm_ext_iff_of_nodup m.nodup n.nodup).mpr h
  have heq : m.entries = n.entries := by
    refine List.Perm.eq_of_pairwise ?_ m.ordered n.ordered hperm
    intro a b _ _ hab hba
    exact absurd (hab.trans hba) (lt_irrefl _)
  cases m
  cases n
  cases heq
  rfl

/-! ## What the operations do to the entries -/

theorem mem_place {m : KeyedMap key} {a b : α} :
    b ∈ m.place a ↔ b = a ∨ b ∈ m ∧ key b ≠ key a := by
  simp only [mem_iff, place, List.mem_append, List.mem_cons, List.mem_filter, decide_eq_true_eq]
  constructor
  · rintro (⟨hb, hlt⟩ | rfl | ⟨hb, hlt⟩)
    · exact .inr ⟨hb, hlt.ne⟩
    · exact .inl rfl
    · exact .inr ⟨hb, hlt.ne'⟩
  · rintro (rfl | ⟨hb, hne⟩)
    · exact .inr (.inl rfl)
    · obtain hlt | hgt := lt_or_gt_of_ne hne
      · exact .inl ⟨hb, hlt⟩
      · exact .inr (.inr ⟨hb, hgt⟩)

theorem emplace_eq_some {m n : KeyedMap key} {a : α} :
    m.emplace a = some n ↔ (∀ b ∈ m, key b ≠ key a) ∧ n = m.place a := by
  unfold emplace
  cases hf : m.find? (key a) with
  | none =>
    simp only [Option.isSome_none, Bool.false_eq_true, if_false, Option.some.injEq]
    exact ⟨fun h => ⟨find?_eq_none.mp hf, h.symm⟩, fun h => h.2.symm⟩
  | some b =>
    obtain ⟨hb, hk⟩ := find?_eq_some.mp hf
    simp only [Option.isSome_some, if_true]
    exact ⟨fun h => (nomatch h), fun h => absurd hk (h.1 b hb)⟩

theorem mem_place_of_fresh {m : KeyedMap key} {a b : α} (h : ∀ c ∈ m, key c ≠ key a) :
    b ∈ m.place a ↔ b = a ∨ b ∈ m := by
  rw [mem_place]
  exact or_congr_right ⟨And.left, fun hb => ⟨hb, h b hb⟩⟩

theorem size_place_of_fresh {m : KeyedMap key} {a : α} (h : ∀ c ∈ m, key c ≠ key a) :
    (m.place a).size = m.size + 1 := by
  have hperm : (m.place a).entries.Perm (a :: m.entries) := by
    apply (List.perm_ext_iff_of_nodup (m.place a).nodup ?_).mpr
    · intro b
      rw [List.mem_cons]
      exact mem_place_of_fresh h
    · exact List.nodup_cons.mpr ⟨fun ha => h a ha rfl, m.nodup⟩
  exact hperm.length_eq

theorem mem_mapEntries {m : KeyedMap key} {f : α → α} {hf : ∀ a, key (f a) = key a} {b : α} :
    b ∈ m.mapEntries f hf ↔ ∃ a ∈ m, f a = b := by
  simp [mem_iff, mapEntries]

/-- Rewriting the one entry of a key moves a count by what that entry counts for. -/
theorem countP_mapEntries_at {m : KeyedMap key} (f : α → α) (hf : ∀ a, key (f a) = key a) {e : α}
    (he : e ∈ m) (hid : ∀ a, key a ≠ key e → f a = a) (p : α → Bool) :
    (m.mapEntries f hf).entries.countP p + (if p e then 1 else 0) =
      m.entries.countP p + if p (f e) then 1 else 0 := by
  obtain ⟨xs, ys, hsplit⟩ := List.append_of_mem (mem_iff.mp he)
  have hord := m.ordered
  rw [hsplit, List.pairwise_append, List.pairwise_cons] at hord
  have hxs : xs.map f = xs := by
    conv_rhs => rw [← List.map_id xs]
    exact List.map_congr_left fun a ha => hid a (hord.2.2 a ha e List.mem_cons_self).ne
  have hys : ys.map f = ys := by
    conv_rhs => rw [← List.map_id ys]
    exact List.map_congr_left fun a ha => hid a (hord.2.1.1 a ha).ne'
  simp only [mapEntries, hsplit, List.map_append, List.map_cons, hxs, hys, List.countP_append,
    List.countP_cons]
  omega

@[simp] theorem mem_eraseThrough {m : KeyedMap key} {k : κ} {b : α} :
    b ∈ m.eraseThrough k ↔ b ∈ m ∧ k < key b := by
  simp [mem_iff, eraseThrough, List.mem_filter]

/-! ## Cutting a sorted list at the ends of an infix -/

/-- Where the keys lie around an infix. -/
theorem infix_bounds {pre u post : List α} {a b : α}
    (h : (pre ++ u ++ post).Pairwise fun x y => key x < key y) (ha : a ∈ u.head?)
    (hb : b ∈ u.getLast?) :
    (∀ x ∈ pre, key x < key a) ∧ (∀ x ∈ u, key a ≤ key x ∧ key x ≤ key b) ∧
      ∀ x ∈ post, key b < key x := by
  rw [List.pairwise_append] at h
  obtain ⟨hpu, _, hpost⟩ := h
  obtain ⟨_, hu, hcross⟩ := List.pairwise_append.mp hpu
  refine ⟨fun x hx => hcross x hx a (List.mem_of_mem_head? ha), fun x hx => ⟨?_, ?_⟩,
    hpost b (List.mem_append_right pre (List.mem_of_mem_getLast? hb))⟩
  · obtain ⟨u', rfl⟩ := List.head?_eq_some_iff.mp (Option.mem_def.mp ha)
    obtain rfl | hx := List.mem_cons.mp hx
    · exact le_rfl
    · exact ((List.pairwise_cons.mp hu).1 x hx).le
  · obtain ⟨u', rfl⟩ := List.getLast?_eq_some_iff.mp (Option.mem_def.mp hb)
    obtain hx | hx := List.mem_append.mp hx
    · exact ((List.pairwise_append.mp hu).2.2 x hx b (List.mem_singleton_self b)).le
    · exact (List.mem_singleton.mp hx) ▸ le_rfl

theorem filter_above {pre u post : List α} {b : α}
    (h : (pre ++ u ++ post).Pairwise fun x y => key x < key y) (hb : b ∈ u.getLast?) :
    (pre ++ u ++ post).filter (fun x => decide (key b < key x)) = post := by
  obtain ⟨a, ha⟩ : ∃ a, a ∈ u.head? :=
    ⟨_, List.head?_eq_some_head (List.ne_nil_of_mem (List.mem_of_mem_getLast? hb))⟩
  obtain ⟨hpre, hu, hpost⟩ := infix_bounds h ha hb
  rw [List.filter_append, List.filter_append, List.filter_eq_nil_iff.mpr,
    List.filter_eq_nil_iff.mpr, List.nil_append, List.nil_append, List.filter_eq_self.mpr]
  · intro x hx
    simpa using hpost x hx
  · intro x hx
    simpa using (hu x hx).2
  · intro x hx
    simpa using ((hpre x hx).trans_le (hu b (List.mem_of_mem_getLast? hb)).1).le

theorem filter_between {pre u post : List α} {a b : α}
    (h : (pre ++ u ++ post).Pairwise fun x y => key x < key y) (ha : a ∈ u.head?)
    (hb : b ∈ u.getLast?) :
    (pre ++ u ++ post).filter (fun x => decide (key a ≤ key x) && decide (key x ≤ key b)) = u := by
  obtain ⟨hpre, hu, hpost⟩ := infix_bounds h ha hb
  rw [List.filter_append, List.filter_append, List.filter_eq_nil_iff.mpr, List.nil_append,
    List.filter_eq_self.mpr, List.filter_eq_nil_iff.mpr, List.append_nil]
  · intro x hx
    simp [hpost x hx]
  · intro x hx
    simp [hu x hx]
  · intro x hx
    simp [hpre x hx]

end KeyedMap
end WebrtcTrace
