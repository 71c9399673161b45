import Mathlib.Data.List.Dedup
import Mathlib.Data.List.Nodup
import Mathlib.Data.List.Basic

/-! # A dictionary in insertion order

Entries with distinct keys; a new key goes to the end. `update k init f` is `d[k] = f(d[k])` where a
missing key starts at `init`. Filling a dictionary by a loop over a list is `tally`: what it then
holds under a key is a fold over the elements of that key (`get?_tally`).
-/

namespace WebrtcTrace
set_option autoImplicit false

structure DefaultDict (κ β : Type*) where
  entries : List (κ × β)
  distinct : (entries.map Prod.fst).Nodup

namespace DefaultDict
variable {κ β γ α : Type*}

def empty : DefaultDict κ β := ⟨[], List.nodup_nil⟩

def keys (d : DefaultDict κ β) : List κ := d.entries.map Prod.fst

def mapValues (d : DefaultDict κ β) (f : β → γ) : DefaultDict κ γ where
  entries := d.entries.map fun e => (e.1, f e.2)
  distinct := by
    have hkeys : (d.entries.map fun e => (e.1, f e.2)).map Prod.fst = d.entries.map Prod.fst := by
      simp [List.map_map, Function.comp_def]
    rw [hkeys]
    exact d.distinct

/-- The entries whose value passes a test. -/
def filterMapValues (d : DefaultDict κ β) (f : β → Option γ) : DefaultDict κ γ where
  entries := d.entries.filterMap fun e => (f e.2).map (e.1, ·)
  distinct := by
    refine d.distinct.sublist ?_
    induction d.entries with
    | nil => exact .slnil
    | cons e es ih =>
      cases hf : f e.2 with
      | none => simpa [hf] using ih.cons e.1
      | some c => simpa [hf] using ih.cons_cons e.1

variable [DecidableEq κ]

def get? (d : DefaultDict κ β) (k : κ) : Option β := (d.entries.find? (·.1 = k)).map Prod.snd

def update (d : DefaultDict κ β) (k : κ) (init : β) (f : β → β) : DefaultDict κ β where
  entries :=
    if k ∈ d.keys then d.entries.map fun e => if e.1 = k then (e.1, f e.2) else e
    else d.entries ++ [(k, f init)]
  distinct := by
    split_ifs with hk
    · have hkeys : (d.entries.map fun e => if e.1 = k then (e.1, f e.2) else e).map Prod.fst =
          d.entries.map Prod.fst := by
        rw [List.map_map]
        refine List.map_congr_left fun e _ => ?_
        simp only [Function.comp_apply]
        split <;> rfl
      rw [hkeys]
      exact d.distinct
    · rw [List.map_append, List.map_singleton]
      refine List.nodup_append.mpr ⟨d.distinct, List.nodup_singleton k, ?_⟩
      intro a ha b hb hab
      rw [hab, List.mem_singleton.mp hb] at ha
      exact hk ha

/-- Updates the key of each element of a list in turn. -/
def tally (key : α → κ) (init : β) (add : β → α → β) (d : DefaultDict κ β) (xs : List α) :
    DefaultDict κ β :=
  xs.foldl (fun d x => d.update (key x) init (add · x)) d

/-! ## Lookup -/

omit [DecidableEq κ] in
theorem ext {d e : DefaultDict κ β} (h : d.entries = e.entries) : d = e := by
  cases d
  cases e
  cases h
  rfl

@[simp] theorem get?_empty (k : κ) : (empty : DefaultDict κ β).get? k = none := rfl

theorem get?_eq_none {d : DefaultDict κ β} {k : κ} : d.get? k = none ↔ k ∉ d.keys := by
  simp only [get?, Option.map_eq_none_iff, List.find?_eq_none, keys, List.mem_map, decide_eq_true_eq]
  constructor
  · rintro h ⟨e, he, hk⟩
    exact h e he hk
  · intro h e he hk
    exact h ⟨e, he, hk⟩

theorem mem_keys {d : DefaultDict κ β} {k : κ} : k ∈ d.keys ↔ ∃ b, d.get? k = some b := by
  rw [← Option.isSome_iff_exists, ← Option.ne_none_iff_isSome, Ne, get?_eq_none, not_not]

theorem get?_eq_some {d : DefaultDict κ β} {k : κ} {b : β} :
    d.get? k = some b ↔ (k, b) ∈ d.entries := by
  constructor
  · intro h
    obtain ⟨e, he, rfl⟩ := Option.map_eq_some_iff.mp h
    have hk : e.1 = k := by simpa using List.find?_some he
    rw [← hk]
    exact List.mem_of_find?_eq_some he
  · intro h
    obtain ⟨b', hb'⟩ := mem_keys.mp (List.mem_map_of_mem (f := Prod.fst) h)
    obtain ⟨e, he, rfl⟩ := Option.map_eq_some_iff.mp hb'
    have hk : e.1 = k := by simpa using List.find?_some he
    have hsame := List.inj_on_of_nodup_map d.distinct (List.mem_of_find?_eq_some he) h hk
    rw [hb', hsame]

theorem get?_update {d : DefaultDict κ β} {k j : κ} {init : β} {f : β → β} :
    (d.update k init f).get? j = if j = k then some (f ((d.get? k).getD init)) else d.get? j := by
  unfold get? update
  by_cases hk : k ∈ d.keys
  · simp only [hk, if_true, List.find?_map, Function.comp_def, Option.map_map]
    have hkey : ∀ e : κ × β, (if e.1 = k then (e.1, f e.2) else e).1 = e.1 := by
      intro e
      split <;> rfl
    simp only [hkey]
    by_cases hj : j = k
    · subst hj
      obtain ⟨b, hb⟩ := mem_keys.mp hk
      obtain ⟨e, he, rfl⟩ := Option.map_eq_some_iff.mp hb
      have hej : e.1 = j := by simpa using List.find?_some he
      simp [he, hej]
    · rw [if_neg hj]
      cases hfind : d.entries.find? fun e => decide (e.1 = j) with
      | none => rfl
      | some e =>
        have hej : e.1 = j := by simpa using List.find?_some hfind
        simp [hej, hj]
  · simp only [hk, if_false, List.find?_append]
    have hnone : d.entries.find? (fun e => decide (e.1 = k)) = none := by
      simpa [get?] using get?_eq_none.mpr hk
    by_cases hj : j = k
    · subst hj
      simp [hnone]
    · have hkj : ¬ k = j := fun h => hj h.symm
      simp [hj, hkj]

@[simp] theorem get?_mapValues (d : DefaultDict κ β) (f : β → γ) (k : κ) :
    (d.mapValues f).get? k = (d.get? k).map f := by
  simp [get?, mapValues, List.find?_map, Function.comp_def, Option.map_map]

theorem get?_filterMapValues (d : DefaultDict κ β) (f : β → Option γ) (k : κ) :
    (d.filterMapValues f).get? k = (d.get? k).bind f := by
  apply Option.ext
  intro c
  rw [get?_eq_some, Option.bind_eq_some_iff]
  simp only [get?_eq_some, filterMapValues, List.mem_filterMap, Option.map_eq_some_iff]
  constructor
  · rintro ⟨e, he, c', hc, hpair⟩
    cases hpair
    exact ⟨e.2, he, hc⟩
  · rintro ⟨b, hb, hc⟩
    exact ⟨(k, b), hb, c, hc, rfl⟩

/-! ## Filling by a loop -/

/-- What a loop leaves under a key. -/
theorem get?_tally (key : α → κ) (init : β) (add : β → α → β) (k : κ) (xs : List α)
    (d : DefaultDict κ β) :
    (tally key init add d xs).get? k =
      if xs.filter (key · = k) = [] then d.get? k
      else some ((xs.filter (key · = k)).foldl add ((d.get? k).getD init)) := by
  induction xs generalizing d with
  | nil => rfl
  | cons x xs ih =>
    rw [tally, List.foldl_cons, ← tally, ih, get?_update]
    by_cases hk : key x = k
    · subst hk
      by_cases hnil : xs.filter (key · = key x) = []
      · simp [hnil]
      · simp [hnil]
    · have hkx : ¬ k = key x := fun h => hk h.symm
      simp [hk, hkx]

/-- A loop that collects its items leaves under a key those of that key, in order. -/
theorem get?_collect (key : α → κ) (k : κ) (xs : List α) :
    (tally key [] (fun ys x => ys ++ [x]) .empty xs).get? k =
      if xs.filter (key · = k) = [] then none else some (xs.filter (key · = k)) := by
  rw [get?_tally, get?_empty, Option.getD_none, List.foldl_append_eq_append, List.nil_append,
    ← List.flatMap_def, List.flatMap_singleton']

theorem getD_tally (key : α → κ) (init : β) (add : β → α → β) (k : κ) (xs : List α)
    (d : DefaultDict κ β) :
    ((tally key init add d xs).get? k).getD init =
      (xs.filter (key · = k)).foldl add ((d.get? k).getD init) := by
  rw [get?_tally]
  split_ifs with h
  · rw [h, List.foldl_nil]
  · rfl

theorem mem_keys_tally {key : α → κ} {init : β} {add : β → α → β} {k : κ} {xs : List α}
    {d : DefaultDict κ β} :
    k ∈ (tally key init add d xs).keys ↔ k ∈ d.keys ∨ ∃ x ∈ xs, key x = k := by
  have hfilter : xs.filter (key · = k) = [] ↔ ¬ ∃ x ∈ xs, key x = k := by
    simp [List.filter_eq_nil_iff]
  rw [mem_keys, mem_keys, get?_tally]
  by_cases h : ∃ x ∈ xs, key x = k
  · rw [if_neg fun h' => hfilter.mp h' h]
    simp [h]
  · rw [if_pos (hfilter.mpr h)]
    simp [h]

/-- A loop over distinct keys that sets some of them. -/
theorem get?_foldl_set (skip : κ × β → Prop) [DecidablePred skip] (value : κ × β → γ) (init : γ)
    (k : κ) {es : List (κ × β)} (hes : (es.map Prod.fst).Nodup) (d : DefaultDict κ γ) :
    (es.foldl (fun d e => if skip e then d else d.update e.1 init fun _ => value e) d).get? k =
      ((es.find? (·.1 = k)).elim (d.get? k) fun e =>
        if skip e then d.get? k else some (value e)) := by
  induction es generalizing d with
  | nil => rfl
  | cons e es ih =>
    rw [List.map_cons, List.nodup_cons] at hes
    rw [List.foldl_cons, ih hes.2, List.find?_cons]
    by_cases hk : e.1 = k
    · subst hk
      have hnone : es.find? (fun e' => decide (e'.1 = e.1)) = none := by
        rw [List.find?_eq_none]
        intro e' he' hkey
        exact hes.1 (List.mem_map.mpr ⟨e', he', by simpa using hkey⟩)
      rw [hnone]
      by_cases hskip : skip e <;> simp [hskip, get?_update]
    · have hkey : ¬ k = e.1 := fun h => hk h.symm
      by_cases hskip : skip e <;> simp [hskip, hk, hkey, get?_update]

theorem mapValues_update (d : DefaultDict κ β) (k : κ) (init : β) (f : β → β) (g : β → γ)
    (f' : γ → γ) (h : ∀ b, f' (g b) = g (f b)) :
    (d.mapValues g).update k (g init) f' = (d.update k init f).mapValues g := by
  have hkeys : (d.mapValues g).keys = d.keys := by
    simp [keys, mapValues, List.map_map, Function.comp_def]
  apply ext
  simp only [update, hkeys]
  split_ifs
  · simp only [mapValues, List.map_map]
    refine List.map_congr_left fun e _ => ?_
    simp only [Function.comp_apply]
    split <;> simp [h]
  · simp [mapValues, h]

/-! ## Groups -/

/-- Collecting translated items. -/
theorem collect_map (key : β → κ) (f : α → β) (xs : List α) (d : DefaultDict κ (List α)) :
    tally key [] (fun ys y => ys ++ [y]) (d.mapValues (List.map f)) (xs.map f) =
      (tally (fun x => key (f x)) [] (fun ys x => ys ++ [x]) d xs).mapValues (List.map f) := by
  induction xs generalizing d with
  | nil => rfl
  | cons x xs ih =>
    rw [tally, tally, List.map_cons, List.foldl_cons, List.foldl_cons]
    have hstep : (d.mapValues (List.map f)).update (key (f x)) [] (fun ys => ys ++ [f x]) =
        (d.update (key (f x)) [] fun ys => ys ++ [x]).mapValues (List.map f) :=
      mapValues_update d (key (f x)) [] _ (List.map f) _ fun ys => by
        rw [List.map_append, List.map_singleton]
    rw [hstep]
    exact ih _

/-- An update of a key that is there changes one entry in its place. -/
theorem entries_update_of_mem {d : DefaultDict κ β} {k : κ} (hk : k ∈ d.keys) (init : β) (f : β → β) :
    ∃ before b after, d.entries = before ++ (k, b) :: after ∧
      (d.update k init f).entries = before ++ (k, f b) :: after := by
  obtain ⟨b, hb⟩ := mem_keys.mp hk
  obtain ⟨before, after, hsplit⟩ := List.append_of_mem (get?_eq_some.mp hb)
  refine ⟨before, b, after, hsplit, ?_⟩
  have hdistinct := d.distinct
  rw [hsplit, List.map_append, List.map_cons, List.nodup_append, List.nodup_cons] at hdistinct
  have hid : ∀ es : List (κ × β), (∀ e ∈ es, e.1 ≠ k) →
      (es.map fun e => if e.1 = k then (e.1, f e.2) else e) = es := by
    intro es hes
    conv_rhs => rw [← List.map_id es]
    exact List.map_congr_left fun e he => if_neg (hes e he)
  have hbefore : ∀ e ∈ before, e.1 ≠ k := fun e he =>
    hdistinct.2.2 e.1 (List.mem_map_of_mem he) k List.mem_cons_self
  have hafter : ∀ e ∈ after, e.1 ≠ k := fun e he hek =>
    hdistinct.2.1.1 (List.mem_map.mpr ⟨e, he, hek⟩)
  simp only [update, if_pos hk, hsplit, List.map_append, List.map_cons, if_true, hid before hbefore,
    hid after hafter]

/-- Collecting keeps every item, each in one group. -/
theorem flatMap_collect (key : α → κ) (xs : List α) (d : DefaultDict κ (List α)) :
    ((tally key [] (fun ys x => ys ++ [x]) d xs).entries.flatMap Prod.snd).Perm
      (d.entries.flatMap Prod.snd ++ xs) := by
  induction xs generalizing d with
  | nil => rw [List.append_nil]; exact List.Perm.refl _
  | cons x xs ih =>
    have hstep : ((d.update (key x) [] fun ys => ys ++ [x]).entries.flatMap Prod.snd).Perm
        (d.entries.flatMap Prod.snd ++ [x]) := by
      by_cases hk : key x ∈ d.keys
      · obtain ⟨before, ys, after, hd, hupdate⟩ := entries_update_of_mem hk [] (· ++ [x])
        rw [hupdate, hd]
        simp only [List.flatMap_append, List.flatMap_cons, List.append_assoc]
        exact (List.perm_append_comm.append_left ys).append_left _
      · simp only [update, if_neg hk, List.flatMap_append, List.flatMap_singleton, List.nil_append]
        exact List.Perm.refl _
    rw [tally, List.foldl_cons]
    refine (ih _).trans ?_
    refine (hstep.append_right xs).trans ?_
    rw [List.append_assoc, List.singleton_append]

/-- There is one group for each key, so as many groups as items if and only if the keys differ. -/
theorem length_collect_iff (key : α → κ) (xs : List α) :
    (tally key [] (fun ys x => ys ++ [x]) .empty xs).entries.length = xs.length ↔
      (xs.map key).Nodup := by
  have hkeys : (tally key [] (fun ys x => ys ++ [x]) .empty xs).keys.Perm (xs.map key).dedup := by
    refine (List.perm_ext_iff_of_nodup (distinct _) (List.nodup_dedup _)).mpr fun k => ?_
    refine mem_keys_tally.trans ?_
    rw [List.mem_dedup, List.mem_map]
    simp [keys, empty]
  have hlength : (tally key [] (fun ys x => ys ++ [x]) .empty xs).entries.length =
      (xs.map key).dedup.length := by
    rw [← hkeys.length_eq, keys, List.length_map]
  rw [hlength, ← List.dedup_eq_self]
  constructor
  · intro h
    exact (List.dedup_sublist _).eq_of_length (by rw [h, List.length_map])
  · intro h
    rw [h, List.length_map]

end DefaultDict
end WebrtcTrace
