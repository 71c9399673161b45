import WebrtcTrace.Foundations.Bisect
import Mathlib.Order.RelClasses

/-! # `std::set` with a comparator

The keys of the set in its order, as a list; `comp a b` says that `a` comes before `b`. A position is
the part of the list from it on (`fromLower`, `fromUpper`), so erasing a range glues two parts.

The standard asks for a strict weak order on the keys that meet; no definition here does, each says
what a scan from the front finds. Where the comparator goes by a rank (`Ranked`) and the keys are in
its order (`Ascending`), these are the sets one expects.
-/

namespace WebrtcTrace.OrderedKeys
set_option autoImplicit false

variable {α : Type*} (comp : α → α → Bool)

/-- What comes before `lower_bound(k)`. -/
def belowLower (k : α) (keys : List α) : List α := keys.takeWhile (comp · k)

/-- What comes from `lower_bound(k)` on: the first key that is not before `k`, and the rest. -/
def fromLower (k : α) (keys : List α) : List α := keys.dropWhile (comp · k)

/-- What comes from `upper_bound(k)` on: the first key that `k` is before, and the rest. -/
def fromUpper (k : α) (keys : List α) : List α := keys.dropWhile fun x => !comp k x

/-- `find(k) != end()`: the key at `lower_bound(k)` is not after `k`. -/
def contains (k : α) (keys : List α) : Bool := (fromLower comp k keys).head?.any fun x => !comp k x

def insert (k : α) (keys : List α) : List α :=
  if contains comp k keys then keys else belowLower comp k keys ++ k :: fromLower comp k keys

/-- `erase(k)`. -/
def eraseKey (k : α) (keys : List α) : List α :=
  belowLower comp k keys ++ fromUpper comp k (fromLower comp k keys)

/-- `erase(lower_bound(a), upper_bound(b))`. -/
def eraseRange (a b : α) (keys : List α) : List α :=
  belowLower comp a keys ++ fromUpper comp b (fromLower comp a keys)

/-- `upper_bound(k) != begin()`. -/
def someUpTo (k : α) (keys : List α) : Bool := keys.head?.any fun x => !comp k x

theorem contains_nil (k : α) : contains comp k [] = false := rfl

theorem fromLower_nil (k : α) : fromLower comp k [] = [] := rfl

theorem eraseRange_nil (a b : α) : eraseRange comp a b [] = [] := rfl

/-! ## With any comparator -/

theorem fromLower_sublist (k : α) (keys : List α) : (fromLower comp k keys).Sublist keys :=
  (List.dropWhile_suffix _).sublist

theorem fromUpper_sublist (k : α) (keys : List α) : (fromUpper comp k keys).Sublist keys :=
  (List.dropWhile_suffix _).sublist

theorem belowLower_append (k : α) (keys : List α) :
    belowLower comp k keys ++ fromLower comp k keys = keys := List.takeWhile_append_dropWhile

/-- What is left when the front of the upper part is erased. -/
theorem eraseRange_sublist (a b : α) (keys : List α) : (eraseRange comp a b keys).Sublist keys := by
  have hupper := fromUpper_sublist comp b (fromLower comp a keys)
  have hglued := List.Sublist.append_left hupper (belowLower comp a keys)
  rwa [belowLower_append] at hglued

theorem eraseKey_sublist (k : α) (keys : List α) : (eraseKey comp k keys).Sublist keys :=
  eraseRange_sublist comp k k keys

variable {comp} {k : α} {keys : List α}

theorem mem_insert_of_mem {x : α} (h : x ∈ keys) : x ∈ insert comp k keys := by
  unfold insert
  split_ifs
  · exact h
  · rw [← belowLower_append comp k keys] at h
    obtain h | h := List.mem_append.mp h
    · exact List.mem_append_left _ h
    · exact List.mem_append_right _ (List.mem_cons_of_mem _ h)

theorem mem_of_mem_insert {x : α} (h : x ∈ insert comp k keys) : x = k ∨ x ∈ keys := by
  unfold insert at h
  split_ifs at h
  · exact .inr h
  · obtain h | h := List.mem_append.mp h
    · exact .inr (List.takeWhile_subset _ h)
    · obtain rfl | h := List.mem_cons.mp h
      · exact .inl rfl
      · exact .inr ((fromLower_sublist comp k keys).subset h)

/-- A comparator that tells different keys apart inserts every new one. -/
theorem mem_insert_self (h : ∀ x ∈ keys, x ≠ k → comp x k = true ∨ comp k x = true) :
    k ∈ insert comp k keys := by
  unfold insert
  split_ifs with hc
  · obtain ⟨x, hx, hnot⟩ := (Option.any_eq_true _ _).mp hc
    have hmem : x ∈ keys := (fromLower_sublist comp k keys).subset (List.mem_of_mem_head? hx)
    have hbefore : comp x k = false := by
      have hfirst := List.head?_dropWhile_not (comp · k) keys
      change (fromLower comp k keys).head? = some x at hx
      rw [← fromLower, hx] at hfirst
      simpa using hfirst
    by_contra hnew
    have hne : x ≠ k := fun heq => hnew (heq ▸ hmem)
    obtain hx | hx := h x hmem hne
    · rw [hbefore] at hx
      cases hx
    · simp [hx] at hnot
  · exact List.mem_append_right _ List.mem_cons_self

/-- A key after all others goes to the end. -/
theorem insert_last (h : ∀ x ∈ keys, comp x k = true) : insert comp k keys = keys ++ [k] := by
  have hlower : fromLower comp k keys = [] := List.dropWhile_eq_nil_iff.mpr h
  have hbelow : belowLower comp k keys = keys := List.takeWhile_eq_self_iff.mpr h
  rw [insert, contains, hlower, hbelow]
  exact if_neg Bool.false_ne_true

/-! ## With a comparator that goes by a rank -/

variable {rank : α → ℕ}

def Ascending (rank : α → ℕ) (keys : List α) : Prop := keys.Pairwise fun a b => rank a < rank b

theorem Ascending.sublist {keys' : List α} (h : Ascending rank keys) (hsub : keys'.Sublist keys) :
    Ascending rank keys' := List.Pairwise.sublist hsub h

/-- `comp` compares `k` with the keys by their ranks. -/
structure Ranked (comp : α → α → Bool) (rank : α → ℕ) (k : α) (keys : List α) : Prop where
  before : ∀ x ∈ keys, (comp x k = true ↔ rank x < rank k)
  after : ∀ x ∈ keys, (comp k x = true ↔ rank k < rank x)

theorem Ranked.tail {x : α} (h : Ranked comp rank k (x :: keys)) : Ranked comp rank k keys where
  before y hy := h.before y (List.mem_cons_of_mem x hy)
  after y hy := h.after y (List.mem_cons_of_mem x hy)

/-- The comparator between keys of the set. -/
def onKeys (comp : α → α → Bool) (keys : List α) (a b : {x // x ∈ keys}) : Prop := comp a b = true

theorem isStrictTotalOrder (h : ∀ k ∈ keys, Ranked comp rank k keys)
    (hinj : ∀ x ∈ keys, ∀ y ∈ keys, rank x = rank y → x = y) :
    IsStrictTotalOrder {x // x ∈ keys} (onKeys comp keys) := by
  have hlt : ∀ a b : {x // x ∈ keys}, onKeys comp keys a b ↔ rank a < rank b :=
    fun a b => (h b b.2).before a a.2
  exact
    { irrefl := fun a ha => lt_irrefl _ ((hlt a a).mp ha)
      trans := fun a b c hab hbc => (hlt a c).mpr (((hlt a b).mp hab).trans ((hlt b c).mp hbc))
      trichotomous := fun a b hab hba => by
        rw [hlt, not_lt] at hab hba
        exact Subtype.ext (hinj a a.2 b b.2 (le_antisymm hba hab)) }

theorem fromLower_eq_filter (h : Ranked comp rank k keys) (hkeys : Ascending rank keys) :
    fromLower comp k keys = keys.filter fun x => rank k ≤ rank x := by
  induction keys with
  | nil => rfl
  | cons x keys ih =>
    obtain ⟨hx, hrest⟩ := List.pairwise_cons.mp hkeys
    have hbefore := h.before x List.mem_cons_self
    by_cases hlt : rank x < rank k
    · rw [fromLower, List.dropWhile_cons, if_pos (hbefore.mpr hlt), List.filter_cons_of_neg (by simpa)]
      exact ih h.tail hrest
    · rw [fromLower, List.dropWhile_cons, if_neg (mt hbefore.mp hlt), List.filter_eq_self.mpr]
      intro y hy
      obtain rfl | hy := List.mem_cons.mp hy
      · simpa using hlt
      · have hxy := hx y hy
        exact decide_eq_true (by omega)

theorem mem_belowLower (h : Ranked comp rank k keys) (hkeys : Ascending rank keys) {x : α} :
    x ∈ belowLower comp k keys ↔ x ∈ keys ∧ rank x < rank k := by
  have hfront : Partitioned (comp · k) keys := by
    refine List.Pairwise.imp_of_mem ?_ hkeys
    intro x y hx hy hxy hyk
    exact (h.before x hx).mpr (hxy.trans ((h.before y hy).mp hyk))
  rw [belowLower, hfront.takeWhile_eq, List.mem_filter]
  exact and_congr_right fun hx => h.before x hx

theorem mem_fromLower (h : Ranked comp rank k keys) (hkeys : Ascending rank keys) {x : α} :
    x ∈ fromLower comp k keys ↔ x ∈ keys ∧ rank k ≤ rank x := by
  rw [fromLower_eq_filter h hkeys, List.mem_filter, decide_eq_true_eq]

theorem contains_iff (h : Ranked comp rank k keys) (hkeys : Ascending rank keys) :
    contains comp k keys = true ↔ ∃ x ∈ keys, rank x = rank k := by
  have hlower := fromLower_eq_filter h hkeys
  constructor
  · intro hc
    obtain ⟨x, hx, hnot⟩ := (Option.any_eq_true _ _).mp hc
    have hmem := (mem_fromLower h hkeys).mp (List.mem_of_mem_head? hx)
    refine ⟨x, hmem.1, ?_⟩
    have hafter := mt (h.after x hmem.1).mpr (by simpa using hnot)
    omega
  · rintro ⟨x, hx, heq⟩
    have hmem : x ∈ fromLower comp k keys := (mem_fromLower h hkeys).mpr ⟨hx, heq.ge⟩
    cases hl : fromLower comp k keys with
    | nil =>
      rw [hl] at hmem
      cases hmem
    | cons y ys =>
      have hasc := hkeys.sublist (fromLower_sublist comp k keys)
      rw [hl] at hasc hmem
      have hy := (mem_fromLower h hkeys).mp (hl ▸ List.mem_cons_self)
      -- `y` is the least of them, so its rank is that of `k`
      have hle : rank y ≤ rank x := by
        obtain rfl | hmem := List.mem_cons.mp hmem
        · exact le_rfl
        · exact ((List.pairwise_cons.mp hasc).1 x hmem).le
      have hafter : comp k y = false := Bool.eq_false_iff.mpr (mt (h.after y hy.1).mp (by omega))
      rw [contains, hl]
      simp [hafter]

theorem ascending_insert (h : Ranked comp rank k keys) (hkeys : Ascending rank keys) :
    Ascending rank (insert comp k keys) := by
  unfold insert
  split_ifs with hc
  · exact hkeys
  · have hfresh : ∀ x ∈ keys, rank x ≠ rank k := fun x hx heq =>
      hc ((contains_iff h hkeys).mpr ⟨x, hx, heq⟩)
    have hbelow : ∀ x ∈ belowLower comp k keys, rank x < rank k :=
      fun x hx => ((mem_belowLower h hkeys).mp hx).2
    have habove : ∀ x ∈ fromLower comp k keys, rank k < rank x := by
      intro x hx
      obtain ⟨hmem, hle⟩ := (mem_fromLower h hkeys).mp hx
      exact lt_of_le_of_ne hle (hfresh x hmem).symm
    refine List.pairwise_append.mpr ⟨hkeys.sublist (List.takeWhile_sublist _),
      List.pairwise_cons.mpr ⟨habove, hkeys.sublist (fromLower_sublist comp k keys)⟩, ?_⟩
    intro x hx y hy
    obtain rfl | hy := List.mem_cons.mp hy
    · exact hbelow x hx
    · exact (hbelow x hx).trans (habove y hy)

end WebrtcTrace.OrderedKeys
