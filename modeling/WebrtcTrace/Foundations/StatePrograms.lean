import Mathlib.Logic.Basic

/-! # What a program on a state ensures

`Ensures P m Q`: started in a state with `P`, the program `m : StateM σ α` ends with a value and a state
that satisfy `Q`. One rule for each way a program is put together; `Keeps I m` is the case in which
the same fact holds before and after. A fact about where a program ends relative to where it began is
`Keeps (R s₀)` for a transitive `R`.
-/

namespace WebrtcTrace.StatePrograms
set_option autoImplicit false

universe u
variable {σ α β : Type u}

def Ensures (P : σ → Prop) (m : StateM σ α) (Q : α → σ → Prop) : Prop :=
  ∀ s, P s → Q (m s).1 (m s).2

abbrev Keeps (I : σ → Prop) (m : StateM σ α) : Prop := Ensures I m fun _ => I

/-- A step that is taken only if `c` holds. -/
def when (c : Prop) [Decidable c] (m : StateM σ PUnit) : StateM σ PUnit := if c then m else pure ⟨⟩

/-- A step that is taken with the value of `x`, if there is one. -/
def whenSome (x : Option β) (f : β → StateM σ PUnit) : StateM σ PUnit := x.elim (pure ⟨⟩) f

variable {P P' : σ → Prop} {Q : α → σ → Prop} {m : StateM σ α}

theorem run_get (f : σ → StateM σ α) (s : σ) : ((get : StateM σ σ) >>= f) s = f s s := rfl

theorem run_bind (m : StateM σ α) (f : α → StateM σ β) (s : σ) : (m >>= f) s = f (m s).1 (m s).2 := rfl

theorem Ensures.pre (h : Ensures P' m Q) (hP : ∀ s, P s → P' s) : Ensures P m Q :=
  fun s hs => h s (hP s hs)

theorem Ensures.post {R : α → σ → Prop} (h : Ensures P m R) (hQ : ∀ a s, R a s → Q a s) :
    Ensures P m Q :=
  fun s hs => hQ _ _ (h s hs)

/-- What does not mention the state may be assumed while a program is followed. -/
theorem Ensures.given {p : Prop} (h : p → Ensures P m Q) : Ensures (fun s => p ∧ P s) m Q :=
  fun s hs => h hs.1 s hs.2

theorem Ensures.pure {a : α} (h : ∀ s, P s → Q a s) : Ensures P (pure a) Q := h

theorem Ensures.bind {R : α → σ → Prop} {f : α → StateM σ β} {Q : β → σ → Prop}
    (hm : Ensures P m R) (hf : ∀ a, Ensures (R a) (f a) Q) : Ensures P (m >>= f) Q :=
  fun s hs => hf _ _ (hm s hs)

/-- A bind whose first program keeps what the second one starts from. -/
theorem Keeps.bind {I : σ → Prop} {f : α → StateM σ β} {Q : β → σ → Prop}
    (hm : Keeps I m) (hf : ∀ a, Ensures I (f a) Q) : Ensures I (m >>= f) Q :=
  Ensures.bind hm hf

theorem Ensures.ite {c : Prop} [Decidable c] {m' : StateM σ α}
    (ht : c → Ensures P m Q) (he : ¬ c → Ensures P m' Q) : Ensures P (if c then m else m') Q := by
  by_cases hc : c
  · rw [if_pos hc]
    exact ht hc
  · rw [if_neg hc]
    exact he hc

theorem Ensures.when {c : Prop} [Decidable c] {m : StateM σ PUnit} {Q : PUnit → σ → Prop}
    (ht : c → Ensures P m Q) (he : ¬ c → ∀ s, P s → Q ⟨⟩ s) : Ensures P (when c m) Q :=
  Ensures.ite ht fun hc => Ensures.pure (he hc)

theorem Keeps.when {c : Prop} [Decidable c] {I : σ → Prop} {m : StateM σ PUnit}
    (h : c → Keeps I m) : Keeps I (when c m) :=
  Ensures.when h fun _ _ hs => hs

theorem Ensures.elim {x : Option β} {f : β → StateM σ α} (hnone : x = none → Ensures P m Q)
    (hsome : ∀ b, x = some b → Ensures P (f b) Q) : Ensures P (x.elim m f) Q := by
  cases x with
  | none => exact hnone rfl
  | some b => exact hsome b rfl

theorem Keeps.whenSome {I : σ → Prop} {x : Option β} {f : β → StateM σ PUnit}
    (h : ∀ b, x = some b → Keeps I (f b)) : Keeps I (whenSome x f) :=
  Ensures.elim (fun _ => Ensures.pure fun _ hs => hs) h

theorem Keeps.forM {I : σ → Prop} {f : β → StateM σ PUnit} {l : List β}
    (h : ∀ b ∈ l, Keeps I (f b)) : Keeps I (l.forM f) := by
  induction l with
  | nil => exact Ensures.pure fun _ hs => hs
  | cons b l ih =>
    refine Keeps.bind (h b List.mem_cons_self) fun _ => ih fun b' hb' => h b' ?_
    exact List.mem_cons_of_mem b hb'

end WebrtcTrace.StatePrograms
