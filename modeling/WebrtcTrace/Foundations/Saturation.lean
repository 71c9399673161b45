import Mathlib.Data.Set.Finite.Lemmas
import Mathlib.Order.WellFoundedSet

/-! # Saturated sets over backward dependencies

Every item lists the items it depends on, all of them below it. Given a set `base` of items that
count as settled from outside, a set `C` of items of a finite domain is *saturated* from a seed when
it holds exactly the seed and the items all of whose dependencies are in `base` or in `C`
(`Saturated`).

Dependencies point down, so there is only one such set (`Saturated.unique`); saturating a growing
domain step by step gives the set that saturating the whole domain at once gives
(`Saturated.trans`); and one pass over the items in increasing order saturates (`pass_saturated`).
-/

namespace WebrtcTrace.Saturation
set_option autoImplicit false

variable {ι : Type*}

/-- All dependencies of `x` are in `base` or in `C`. -/
def Ready (deps : ι → Set ι) (base C : Set ι) (x : ι) : Prop := ∀ r ∈ deps x, r ∈ base ∨ r ∈ C

theorem Ready.mono {deps : ι → Set ι} {base C D : Set ι} (h : C ⊆ D) {x : ι}
    (hx : Ready deps base C x) : Ready deps base D x :=
  fun r hr => (hx r hr).imp_right fun hC => h hC

/-- `C` is the seed and everything in `dom` that is ready in `C`. -/
structure Saturated (deps : ι → Set ι) (base dom seed C : Set ι) : Prop where
  sub : C ⊆ dom
  iff : ∀ x ∈ dom, x ∈ C ↔ x ∈ seed ∨ Ready deps base C x

namespace Saturated
variable {deps : ι → Set ι} {base dom dom' seed C C' : Set ι}

theorem of_closed (hsub : seed ⊆ dom) (h : ∀ x ∈ dom, Ready deps base seed x → x ∈ seed) :
    Saturated deps base dom seed seed where
  sub := hsub
  iff x hx := ⟨.inl, fun hs => hs.elim id (h x hx)⟩

theorem seed_sub (hsub : seed ⊆ dom) (h : Saturated deps base dom seed C) : seed ⊆ C :=
  fun x hx => (h.iff x (hsub hx)).mpr (.inl hx)

theorem closed (h : Saturated deps base dom seed C) : ∀ x ∈ dom, Ready deps base C x → x ∈ C :=
  fun x hx hr => (h.iff x hx).mpr (.inr hr)

theorem unique [LinearOrder ι] (hfin : dom.Finite) (hback : ∀ x ∈ dom, ∀ r ∈ deps x, r < x)
    (h : Saturated deps base dom seed C) (h' : Saturated deps base dom seed C') : C = C' := by
  have hiff : ∀ x ∈ dom, (x ∈ C ↔ x ∈ C') := by
    intro x hx
    refine Set.WellFoundedOn.induction (P := fun x => x ∈ C ↔ x ∈ C')
      (hfin.wellFoundedOn (r := (· < ·))) hx ?_
    intro y hy ih
    have hdep : ∀ r ∈ deps y, (r ∈ C ↔ r ∈ C') := by
      intro r hr
      by_cases hrd : r ∈ dom
      · exact ih r hrd (hback y hy r hr)
      · exact ⟨fun hC => absurd (h.sub hC) hrd, fun hC => absurd (h'.sub hC) hrd⟩
    rw [h.iff y hy, h'.iff y hy]
    refine or_congr_right ?_
    exact forall₂_congr fun r hr => or_congr_right (hdep r hr)
  ext x
  exact ⟨fun hx => (hiff x (h.sub hx)).mp hx, fun hx => (hiff x (h'.sub hx)).mpr hx⟩

/-- Only the dependencies of the domain matter. -/
theorem congr {deps' : ι → Set ι} (hdeps : ∀ x ∈ dom, deps x = deps' x)
    (h : Saturated deps base dom seed C) : Saturated deps' base dom seed C where
  sub := h.sub
  iff x hx := by
    rw [h.iff x hx, Ready, Ready, hdeps x hx]

theorem trans (hseed : seed ⊆ dom) (hdom : dom ⊆ dom') (h : Saturated deps base dom seed C)
    (h' : Saturated deps base dom' C C') : Saturated deps base dom' seed C' where
  sub := h'.sub
  iff x hx := by
    have hCC : C ⊆ C' := h'.seed_sub (h.sub.trans hdom)
    rw [h'.iff x hx]
    constructor
    · rintro (hC | hr)
      · obtain hs | hr := (h.iff x (h.sub hC)).mp hC
        · exact .inl hs
        · exact .inr (hr.mono hCC)
      · exact .inr hr
    · rintro (hs | hr)
      · exact .inl (h.seed_sub hseed hs)
      · exact .inr hr

end Saturated

/-! ## One pass in increasing order -/

section Pass
variable (deps : ι → Set ι) (base : Set ι)

/-- `C` with `x` added if `x` is ready. -/
def visit (C : Set ι) (x : ι) : Set ι := {y | y ∈ C ∨ y = x ∧ Ready deps base C x}

/-- Visits the items of the list in turn and adds each one that is ready by then. -/
def pass (C : Set ι) (xs : List ι) : Set ι := xs.foldl (visit deps base) C

variable {deps base} {dom seed : Set ι}

/-- What a pass has done after visiting the items below the rest of its list. -/
theorem pass_saturated_from [LinearOrder ι] (hback : ∀ x ∈ dom, ∀ r ∈ deps x, r < x) :
    ∀ (xs : List ι) (C : Set ι), xs.Pairwise (· < ·) → (∀ x ∈ xs, x ∈ dom) → C ⊆ dom →
      (∀ y ∈ dom, y ∉ xs → ∀ x ∈ xs, y < x) →
      (∀ x ∈ dom, x ∉ xs → (x ∈ C ↔ x ∈ seed ∨ Ready deps base C x)) →
      (∀ x ∈ xs, x ∈ C ↔ x ∈ seed) →
      Saturated deps base dom seed (pass deps base C xs)
  | [], C, _, _, hsub, _, hdone, _ => ⟨hsub, fun x hx => hdone x hx List.not_mem_nil⟩
  | x :: xs, C, hord, hxs, hsub, hlow, hdone, htodo => by
    obtain ⟨hx, hord'⟩ := List.pairwise_cons.mp hord
    have hxd : x ∈ dom := hxs x List.mem_cons_self
    have hxxs : x ∉ xs := fun h => lt_irrefl x (hx x h)
    set D : Set ι := visit deps base C x with hD
    have hmem : ∀ y, y ≠ x → (y ∈ D ↔ y ∈ C) := by
      intro y hy
      simp [hD, visit, hy]
    have hxD : x ∈ D ↔ x ∈ C ∨ Ready deps base C x := by
      simp [hD, visit]
    have hready : ∀ y ∈ dom, y ≤ x → (Ready deps base D y ↔ Ready deps base C y) := by
      intro y hy hle
      refine forall₂_congr fun r hr => or_congr_right (hmem r ?_)
      exact ((hback y hy r hr).trans_le hle).ne
    refine pass_saturated_from hback xs D hord' (fun y hy => hxs y (List.mem_cons_of_mem x hy))
      ?_ ?_ ?_ ?_
    · rintro y (hy | ⟨rfl, _⟩)
      · exact hsub hy
      · exact hxd
    · intro y hy hyxs z hz
      by_cases hyx : y = x
      · exact hyx ▸ hx z hz
      · exact (hlow y hy (by simp [hyx, hyxs]) x List.mem_cons_self).trans (hx z hz)
    · intro y hy hyxs
      by_cases hyx : y = x
      · subst hyx
        rw [hxD, hready y hy le_rfl, htodo y List.mem_cons_self]
      · have hynot : y ∉ x :: xs := by simp [hyx, hyxs]
        rw [hmem y hyx, hready y hy (hlow y hy hynot x List.mem_cons_self).le]
        exact hdone y hy hynot
    · intro y hy
      have hyx : y ≠ x := fun h => hxxs (h ▸ hy)
      rw [hmem y hyx]
      exact htodo y (List.mem_cons_of_mem x hy)

/-- One pass over the items that may not be settled yet, when they are the top of the domain. -/
theorem pass_saturated [LinearOrder ι] (hback : ∀ x ∈ dom, ∀ r ∈ deps x, r < x) {xs : List ι}
    (hord : xs.Pairwise (· < ·)) (hxs : ∀ x ∈ xs, x ∈ dom) (hseed : seed ⊆ dom)
    (hlow : ∀ y ∈ dom, y ∉ xs → ∀ x ∈ xs, y < x)
    (hdone : ∀ x ∈ dom, x ∉ xs → Ready deps base seed x → x ∈ seed) :
    Saturated deps base dom seed (pass deps base seed xs) :=
  pass_saturated_from hback xs seed hord hxs hseed hlow
    (fun x hx hn => ⟨.inl, fun h => h.elim id (hdone x hx hn)⟩) fun _ _ => Iff.rfl

end Pass

end WebrtcTrace.Saturation
