import Mathlib.Data.List.Nodup
import Mathlib.Data.Set.Insert

/-! # Segments of a linked set

Elements of a set follow one another by links that neither branch nor join. A segment is what leads
from a root to an element, that element first. It is whole when its first element is a final one.

* `Segment.unique`, `Segment.nodup`: an element has one segment, without repetition.
* `Whole.link_iff`, `Segment.avoids`: a link has both ends in a whole segment or none.
* `Segment.closed`: a set with the roots and with what follows its elements has every segment.
-/

namespace WebrtcTrace
set_option autoImplicit false

/-- Where a segment starts, what follows what, and where a segment is whole. -/
structure Linking (α : Type*) where
  root : α → Prop
  link : α → α → Prop
  final : α → Prop

namespace Linking
variable {α : Type*} (L : Linking α) (P : Set α)

/-- Links of `P` neither branch nor join, and none leads to a root or from a final element. -/
structure Lawful : Prop where
  branch : ∀ {x y z}, y ∈ P → z ∈ P → L.link x y → L.link x z → y = z
  join : ∀ {x y z}, x ∈ P → y ∈ P → L.link x z → L.link y z → x = y
  root : ∀ {x y}, L.link x y → ¬L.root y
  final : ∀ {x y}, L.link x y → ¬L.final x

inductive Segment : List α → Prop
  | root {x : α} : x ∈ P → L.root x → Segment [x]
  | link {x y : α} {xs : List α} :
      Segment (x :: xs) → y ∈ P → L.link x y → Segment (y :: x :: xs)

structure Whole (c : List α) : Prop where
  segment : L.Segment P c
  final : ∃ y ys, c = y :: ys ∧ L.final y

/-- `D` has the roots of `P` and what follows its elements, apart from elements of `X`. -/
def ClosedBut (X D : Set α) : Prop :=
  ∀ y ∈ P, y ∉ X → (L.root y ∨ ∃ x ∈ P, L.link x y ∧ x ∈ D) → y ∈ D

variable {L P} {Q D X : Set α} {c xs ys : List α} {x y z : α}

theorem Segment.mono (hPQ : P ⊆ Q) (h : L.Segment P c) : L.Segment Q c := by
  induction h with
  | root hx hr => exact .root (hPQ hx) hr
  | link _ hy hl ih => exact .link ih (hPQ hy) hl

theorem Whole.mono (hPQ : P ⊆ Q) (h : L.Whole P c) : L.Whole Q c := ⟨h.segment.mono hPQ, h.final⟩

theorem Segment.subset (h : L.Segment P c) : ∀ x ∈ c, x ∈ P := by
  induction h with
  | root hx _ =>
    intro z hz
    rw [List.mem_singleton.mp hz]
    exact hx
  | link _ hy _ ih =>
    intro z hz
    obtain rfl | hz := List.mem_cons.mp hz
    · exact hy
    · exact ih z hz

theorem Segment.root_last (h : L.Segment P c) : ∃ init r, c = init ++ [r] ∧ L.root r := by
  induction h with
  | root _ hr => exact ⟨[], _, rfl, hr⟩
  | link _ _ _ ih =>
    obtain ⟨init, r, hinit, hr⟩ := ih
    exact ⟨_ :: init, r, by rw [hinit]; rfl, hr⟩

theorem Segment.closed (hD : L.ClosedBut P X D) (h : L.Segment P c) (hX : ∀ x ∈ c, x ∉ X) :
    ∀ x ∈ c, x ∈ D := by
  induction h with
  | root hx hr =>
    intro z hz
    rw [List.mem_singleton.mp hz]
    exact hD _ hx (hX _ List.mem_cons_self) (.inl hr)
  | link hs hy hl ih =>
    have hrest := ih fun x hx => hX x (List.mem_cons_of_mem _ hx)
    intro z hz
    obtain rfl | hz := List.mem_cons.mp hz
    · exact hD _ hy (hX _ List.mem_cons_self)
        (.inr ⟨_, hs.subset _ List.mem_cons_self, hl, hrest _ List.mem_cons_self⟩)
    · exact hrest z hz

/-- An element joins the closed set: what follows it is excepted instead. -/
theorem ClosedBut.advance {X' : Set α} (hD : L.ClosedBut P X D) (hX : ∀ y ∈ P, y ∈ X → y = x)
    (hX' : ∀ y ∈ P, L.link x y → y ∈ X') : L.ClosedBut P X' (insert x D) := by
  intro y hy hyX hfrom
  obtain rfl | hne := eq_or_ne y x
  · exact Set.mem_insert y D
  · refine .inr (hD y hy (fun h => hne (hX y hy h)) (hfrom.imp_right ?_))
    rintro ⟨z, hz, hl, rfl | hzD⟩
    · exact absurd (hX' y hy hl) hyX
    · exact ⟨z, hz, hl, hzD⟩

/-- The segment of an element of a segment is its rest from there on. -/
theorem Segment.suffix (h : L.Segment P c) (hx : x ∈ c) :
    ∃ xs, L.Segment P (x :: xs) ∧ x :: xs <:+ c := by
  induction h with
  | root hy hr =>
    obtain rfl := List.mem_singleton.mp hx
    exact ⟨[], .root hy hr, List.suffix_rfl⟩
  | link hs hy hl ih =>
    obtain rfl | hx := List.mem_cons.mp hx
    · exact ⟨_, .link hs hy hl, List.suffix_rfl⟩
    · obtain ⟨xs, hxs, hsuf⟩ := ih hx
      exact ⟨xs, hxs, hsuf.trans (List.suffix_cons _ _)⟩

/-- Only the first element of a segment has nothing after it there. -/
theorem Segment.next (h : L.Segment P (y :: ys)) (hx : x ∈ y :: ys) :
    x = y ∨ ∃ z ∈ y :: ys, L.link x z := by
  induction ys generalizing y with
  | nil => exact .inl (List.mem_singleton.mp hx)
  | cons w ws ih =>
    obtain hx | hx := List.mem_cons.mp hx
    · exact .inl hx
    · cases h with
      | link hs _ hl =>
        obtain rfl | ⟨z, hz, hxz⟩ := ih hs hx
        · exact .inr ⟨y, List.mem_cons_self, hl⟩
        · exact .inr ⟨z, List.mem_cons_of_mem _ hz, hxz⟩

/-- Only a root has nothing before it. -/
theorem Segment.root_or_link (h : L.Segment P c) (hx : x ∈ c) : L.root x ∨ ∃ w ∈ c, L.link w x := by
  obtain ⟨xs, hxs, hsuf⟩ := h.suffix hx
  cases hxs with
  | root _ hr => exact .inl hr
  | link _ _ hl =>
    exact .inr ⟨_, hsuf.subset (List.mem_cons_of_mem _ List.mem_cons_self), hl⟩

section Lawful
variable (hL : L.Lawful P)
include hL

theorem Segment.unique (h : L.Segment P (x :: xs)) (h' : L.Segment P (x :: ys)) : xs = ys := by
  induction xs generalizing x ys with
  | nil =>
    cases h with
    | root _ hr =>
      cases h' with
      | root _ _ => rfl
      | link _ _ hl => exact absurd hr (hL.root hl)
  | cons z zs ih =>
    cases h with
    | link hs _ hl =>
      cases h' with
      | root _ hr => exact absurd hr (hL.root hl)
      | link hs' _ hl' =>
        obtain rfl := hL.join (hs.subset _ List.mem_cons_self) (hs'.subset _ List.mem_cons_self) hl hl'
        rw [ih hs hs']

theorem Segment.nodup (h : L.Segment P c) : c.Nodup := by
  induction h with
  | root _ _ => exact List.nodup_singleton _
  | link hs hy hl ih =>
    refine List.nodup_cons.mpr ⟨fun hmem => ?_, ih⟩
    obtain ⟨zs, hzs, hsuf⟩ := hs.suffix hmem
    have hlen := hsuf.length_le
    rw [hzs.unique hL (.link hs hy hl)] at hlen
    simp only [List.length_cons] at hlen
    omega

theorem Segment.previous (h : L.Segment P c) (hz : z ∈ c) (hx : x ∈ P) (hl : L.link x z) : x ∈ c := by
  obtain ⟨zs, hzs, hsuf⟩ := h.suffix hz
  refine hsuf.subset ?_
  cases hzs with
  | root _ hr => exact absurd hr (hL.root hl)
  | link hs _ hl' =>
    rw [hL.join hx (hs.subset _ List.mem_cons_self) hl hl']
    exact List.mem_cons_of_mem _ List.mem_cons_self

/-- When only the first element of a segment is excepted, the rest of it is in the closed set. -/
theorem Segment.closed_below (h : L.Segment P (y :: ys)) (hD : L.ClosedBut P X D)
    (hX : ∀ x ∈ P, x ∈ X → x = y) : ∀ x ∈ y :: ys, x ≠ y → x ∈ D := by
  have hnodup := h.nodup hL
  cases h with
  | root _ _ =>
    intro x hx hne
    exact absurd (List.mem_singleton.mp hx) hne
  | link hs _ _ =>
    intro x hx hne
    refine hs.closed hD (fun z hz hzX => ?_) x ((List.mem_cons.mp hx).resolve_left hne)
    rw [hX z (hs.subset z hz) hzX] at hz
    exact (List.nodup_cons.mp hnodup).1 hz

/-- The root of a segment is its last element. -/
theorem Segment.root_eq {init : List α} {r : α} (h : L.Segment P (init ++ [r]))
    (hx : x ∈ init ++ [r]) (hr : L.root x) : x = r := by
  obtain ⟨xs, hxs, t, ht⟩ := h.suffix hx
  cases hxs with
  | root _ _ => exact List.singleton_inj.mp (List.append_inj' ht rfl).2
  | link _ _ hl => exact absurd hr (hL.root hl)

theorem Segment.final_eq (h : L.Segment P (y :: ys)) (hx : x ∈ y :: ys) (hf : L.final x) : x = y := by
  obtain hxy | ⟨z, _, hl⟩ := h.next hx
  · exact hxy
  · exact absurd hf (hL.final hl)

theorem Whole.link_iff (h : L.Whole P c) (hx : x ∈ P) (hz : z ∈ P) (hl : L.link x z) :
    x ∈ c ↔ z ∈ c := by
  obtain ⟨y, ys, rfl, hf⟩ := h.final
  refine ⟨fun hxc => ?_, fun hzc => h.segment.previous hL hzc hx hl⟩
  obtain rfl | ⟨w, hw, hxw⟩ := h.segment.next hxc
  · exact absurd hf (hL.final hl)
  · rw [hL.branch hz (h.segment.subset _ hw) hl hxw]
    exact hw

theorem Segment.avoids (h : L.Segment P (y :: ys)) (hc : L.Whole P c) (hy : y ∉ c) :
    ∀ x ∈ y :: ys, x ∉ c := by
  induction ys generalizing y with
  | nil =>
    intro x hx
    rwa [List.mem_singleton.mp hx]
  | cons w ws ih =>
    cases h with
    | link hs hyP hl =>
      have hw := mt (hc.link_iff hL (hs.subset _ List.mem_cons_self) hyP hl).mp hy
      intro x hx
      obtain rfl | hx := List.mem_cons.mp hx
      · exact hy
      · exact ih hs hw x hx

end Lawful
end Linking
end WebrtcTrace
