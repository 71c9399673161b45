import Mathlib.Data.List.Induction
import Mathlib.Order.Lattice
import Mathlib.Data.Int.Order.Basic

/-! # Finite runs of a labelled transition relation

A run is kept with its history: one entry per step, the state the step fired in and its action.
Everything a later module says about "the rows accepted so far" or "the frames handed out so far"
is a function of that history, so no ghost field is added to a modelled state.

* `Run step s₀ tr s`: the steps `tr` lead from `s₀` to `s`.
* `Run.invariant`, `Run.history`: one step lemma gives the fact for every run.
* `Run.before`, `Run.after`: the parts of a run around one of its steps.
* `Run.restrict`, `Run.invariant_of`, `Run.mono`, `Run.zero_iff`: runs whose steps all meet a condition.
* `Run.of_next`, `Run.execute`: a run from an executable step function.
* `splits_snoc`: what holds of every entry of a log and the entries before it.
-/

namespace WebrtcTrace.Runs
set_option autoImplicit false

variable {σ α : Type*}

/-- `Run step s₀ tr s`: from `s₀` the steps `tr` were taken, in order, and `s` was reached. -/
inductive Run (step : σ → α → σ → Prop) (s₀ : σ) : List (σ × α) → σ → Prop
  | start : Run step s₀ [] s₀
  | snoc {tr : List (σ × α)} {s t : σ} {a : α} :
      Run step s₀ tr s → step s a t → Run step s₀ (tr ++ [(s, a)]) t

/-- The states a run has been in, the current one included. -/
def visited (tr : List (σ × α)) (s : σ) : List σ := tr.map Prod.fst ++ [s]

variable {step : σ → α → σ → Prop} {s₀ : σ}

/-- What every step keeps holds after every run. -/
theorem Run.invariant {I : σ → Prop} (h0 : I s₀) (hstep : ∀ s a t, I s → step s a t → I t)
    {tr : List (σ × α)} {s : σ} (h : Run step s₀ tr s) : I s := by
  induction h with
  | start => exact h0
  | snoc _ ht ih => exact hstep _ _ _ ih ht

/-- The same for a fact about the state and the history that led to it. -/
theorem Run.history {I : List (σ × α) → σ → Prop} (h0 : I [] s₀)
    (hstep : ∀ tr s a t, I tr s → step s a t → I (tr ++ [(s, a)]) t)
    {tr : List (σ × α)} {s : σ} (h : Run step s₀ tr s) : I tr s := by
  induction h with
  | start => exact h0
  | snoc _ ht ih => exact hstep _ _ _ _ ih ht

/-- A fact about the history alone, proved from what holds in the state each step fires in. -/
theorem Run.each {I : σ → Prop} (hI : ∀ {tr s}, Run step s₀ tr s → I s)
    {P : σ → α → Prop} (hP : ∀ s a t, I s → step s a t → P s a)
    {tr : List (σ × α)} {s : σ} (h : Run step s₀ tr s) : ∀ e ∈ tr, P e.1 e.2 := by
  induction h with
  | start => simp
  | snoc hr ht ih =>
    intro e he
    obtain he | he := List.mem_append.mp he
    · exact ih e he
    · rw [List.mem_singleton] at he
      subst he
      exact hP _ _ _ (hI hr) ht

/-- The state each step of a run fires in is reached by the steps before it. -/
theorem Run.before {tr : List (σ × α)} {s : σ} (h : Run step s₀ tr s) :
    ∀ {pre post : List (σ × α)} {e : σ × α}, tr = pre ++ e :: post → Run step s₀ pre e.1 := by
  induction h with
  | start => simp
  | snoc hr ht ih =>
    intro pre post e heq
    obtain rfl | ⟨post, e', rfl⟩ := List.eq_nil_or_concat post
    · obtain ⟨rfl, he⟩ := List.append_inj' heq rfl
      obtain rfl := List.singleton_inj.mp he
      exact hr
    · rw [List.concat_eq_append, ← List.cons_append, ← List.append_assoc] at heq
      exact ih (List.append_inj' heq rfl).1

theorem Run.last {tr : List (σ × α)} {s t : σ} {a : α} (h : Run step s₀ (tr ++ [(s, a)]) t) :
    Run step s₀ tr s ∧ step s a t := by
  generalize htr : tr ++ [(s, a)] = tr' at h
  cases h with
  | start => simp at htr
  | snoc hr ht =>
    obtain ⟨rfl, he⟩ := List.append_inj' htr rfl
    obtain ⟨rfl, rfl⟩ := Prod.mk.inj (List.singleton_inj.mp he)
    exact ⟨hr, ht⟩

/-- A run after one of its steps. -/
theorem Run.after {pre post : List (σ × α)} {e : σ × α} {s : σ}
    (h : Run step s₀ (pre ++ e :: post) s) :
    ∃ t, Run step s₀ pre e.1 ∧ step e.1 e.2 t ∧ Run step t post s := by
  induction post using List.reverseRecOn generalizing s with
  | nil =>
    obtain ⟨hr, ht⟩ := h.last
    exact ⟨s, hr, ht, .start⟩
  | append_singleton post e' ih =>
    rw [← List.cons_append, ← List.append_assoc] at h
    obtain ⟨hr, ht⟩ := h.last
    obtain ⟨t, hpre, hstep, hpost⟩ := ih hr
    exact ⟨t, hpre, hstep, hpost.snoc ht⟩

/-- What holds after every run holds in every state a run has been in. -/
theorem Run.visits {I : σ → Prop} (hI : ∀ {tr s}, Run step s₀ tr s → I s)
    {tr : List (σ × α)} {s : σ} (h : Run step s₀ tr s) : ∀ x ∈ visited tr s, I x := by
  intro x hx
  obtain hx | hx := List.mem_append.mp hx
  · obtain ⟨e, he, rfl⟩ := List.mem_map.mp hx
    obtain ⟨pre, post, rfl⟩ := List.append_of_mem he
    exact hI (h.before rfl)
  · exact List.mem_singleton.mp hx ▸ hI h

/-- A run whose steps all meet a condition is a run of the steps that meet it. -/
theorem Run.restrict {P : σ → α → Prop} {tr : List (σ × α)} {s : σ} (h : Run step s₀ tr s)
    (hP : ∀ e ∈ tr, P e.1 e.2) : Run (fun s a t => step s a t ∧ P s a) s₀ tr s := by
  induction h with
  | start => exact .start
  | snoc _ ht ih =>
    refine (ih fun e he => hP e (List.mem_append_left _ he)).snoc ⟨ht, ?_⟩
    exact hP _ (List.mem_append_right _ (List.mem_singleton_self _))

/-- What every step that meets a condition keeps holds after every run of such steps. -/
theorem Run.invariant_of {I : σ → Prop} {P : σ → α → Prop} (h0 : I s₀)
    (hstep : ∀ s a t, I s → P s a → step s a t → I t) {tr : List (σ × α)} {s : σ}
    (h : Run step s₀ tr s) (hP : ∀ e ∈ tr, P e.1 e.2) : I s :=
  (h.restrict hP).invariant h0 fun s a t hs ht => hstep s a t hs ht.2 ht.1

/-- A run of some steps is a run of any relation that has these steps. -/
theorem Run.mono {step' : σ → α → σ → Prop} (hsub : ∀ s a t, step s a t → step' s a t)
    {tr : List (σ × α)} {s : σ} (h : Run step s₀ tr s) : Run step' s₀ tr s := by
  induction h with
  | start => exact .start
  | snoc _ ht ih => exact ih.snoc (hsub _ _ _ ht)

/-- A quantity that starts at zero and that a step leaves alone exactly when it meets a condition,
and raises otherwise, is zero exactly after the runs whose steps all meet it. -/
theorem Run.zero_iff {D : List (σ × α) → σ → ℤ} {P : σ → α → Prop} (h0 : D [] s₀ = 0)
    (hstep : ∀ tr s a t, Run step s₀ tr s → step s a t →
      D tr s ≤ D (tr ++ [(s, a)]) t ∧ (D (tr ++ [(s, a)]) t = D tr s ↔ P s a))
    {tr : List (σ × α)} {s : σ} (h : Run step s₀ tr s) :
    0 ≤ D tr s ∧ (D tr s = 0 ↔ ∀ e ∈ tr, P e.1 e.2) := by
  induction h with
  | start => exact ⟨h0.ge, fun _ e he => absurd he List.not_mem_nil, fun _ => h0⟩
  | snoc hr ht ih =>
    obtain ⟨hpos, hiff⟩ := ih
    obtain ⟨hle, heq⟩ := hstep _ _ _ _ hr ht
    refine ⟨hpos.trans hle, fun hz e he => ?_, fun hall => ?_⟩
    · have hbefore := le_antisymm (hle.trans hz.le) hpos
      obtain he | he := List.mem_append.mp he
      · exact hiff.mp hbefore e he
      · rw [List.mem_singleton.mp he]
        exact heq.mp (hz.trans hbefore.symm)
    · rw [heq.mpr (hall _ (List.mem_append_right _ (List.mem_singleton_self _)))]
      exact hiff.mpr fun e he => hall e (List.mem_append_left _ he)

/-- The history of a list of actions of a total step function. -/
def history (next : σ → α → σ) (s : σ) : List α → List (σ × α)
  | [] => []
  | a :: as => (s, a) :: history next (next s a) as

/-- The history and the last state of a list of actions, when each of them can be taken. -/
def execute (next : σ → α → Option σ) (s : σ) : List α → Option (List (σ × α) × σ)
  | [] => some ([], s)
  | a :: as => (next s a).bind fun t =>
      (execute next t as).map fun r => ((s, a) :: r.1, r.2)

theorem Run.cons {s t u : σ} {a : α} (ht : step s a t) {tr : List (σ × α)}
    (h : Run step t tr u) : Run step s ((s, a) :: tr) u := by
  induction h with
  | start =>
    have hstart : Run step s [] s := .start
    exact hstart.snoc ht
  | snoc _ hu ih => exact Run.snoc ih hu

theorem Run.of_next (next : σ → α → σ) :
    ∀ (s : σ) (as : List α),
      Run (fun s a t => t = next s a) s (Runs.history next s as) (as.foldl next s)
  | _, [] => .start
  | s, a :: as => Run.cons rfl (Run.of_next next (next s a) as)

theorem Run.execute {next : σ → α → Option σ} :
    ∀ {as : List α} {s u : σ} {tr : List (σ × α)}, execute next s as = some (tr, u) →
      Run (fun s a t => next s a = some t) s tr u
  | [], s, u, tr, h => by
    simp only [Runs.execute, Option.some.injEq, Prod.mk.injEq] at h
    obtain ⟨rfl, rfl⟩ := h
    exact .start
  | a :: as, s, u, tr, h => by
    simp only [Runs.execute, Option.bind_eq_some_iff, Option.map_eq_some_iff, Prod.mk.injEq] at h
    obtain ⟨t, ht, ⟨tr', u'⟩, hr, rfl, rfl⟩ := h
    exact Run.cons ht (Run.execute hr)

/-- A fact about every entry of a list and the entries before it. -/
theorem splits_snoc {P : List α → α → Prop} {l : List α} {a : α}
    (h : ∀ before x after, l = before ++ x :: after → P before x) (ha : P l a) :
    ∀ before x after, l ++ [a] = before ++ x :: after → P before x := by
  intro before x after heq
  obtain rfl | ⟨after, a', rfl⟩ := List.eq_nil_or_concat after
  · obtain ⟨rfl, hx⟩ := List.append_inj' heq rfl
    rwa [← List.singleton_inj.mp hx]
  · rw [List.concat_eq_append, ← List.cons_append, ← List.append_assoc] at heq
    exact h before x after (List.append_inj' heq rfl).1

end WebrtcTrace.Runs
