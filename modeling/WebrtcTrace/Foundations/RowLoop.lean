import Mathlib.Data.List.Basic

/-! # Loops over the rows of a log

`scanRows read step s rows` is a loop whose body reads a row, skips it when the read gives `none`, and
else updates the state; reads and updates may fail, and the first failure ends the loop. A loop that
comes to an end has read every row (`scanRows_eq_ok`).
-/

namespace WebrtcTrace
set_option autoImplicit false

variable {ρ ρ' α α' σ σ' ε β : Type*}

def scanRows (read : ρ → Except ε (Option α)) (step : σ → α → Except ε σ) :
    σ → List ρ → Except ε σ
  | s, [] => .ok s
  | s, row :: rows => (read row).bind fun
    | none => scanRows read step s rows
    | some x => (step s x).bind fun t => scanRows read step t rows

/-- What the rows give that are not skipped. -/
def readAll (read : ρ → Except ε (Option α)) : List ρ → Except ε (List α)
  | [] => .ok []
  | row :: rows => (read row).bind fun
    | none => readAll read rows
    | some x => (readAll read rows).map (x :: ·)

theorem Except.bind_eq_ok {x : Except ε α} {f : α → Except ε β} {b : β} :
    x.bind f = .ok b ↔ ∃ a, x = .ok a ∧ f a = .ok b := by
  cases x with
  | error e => simp [Except.bind]
  | ok a => simp [Except.bind]

theorem Except.map_eq_ok {x : Except ε α} {f : α → β} {b : β} :
    x.map f = .ok b ↔ ∃ a, x = .ok a ∧ f a = b := by
  cases x with
  | error e => simp [Except.map]
  | ok a => simp [Except.map]

theorem Except.eq_ok_of_toOption {x : Except ε α} {a : α} (h : x.toOption = some a) : x = .ok a := by
  cases x with
  | error e => cases h
  | ok b => rw [Option.some.inj h]

variable {read : ρ → Except ε (Option α)} {step : σ → α → Except ε σ}

theorem readAll_cons (read : ρ → Except ε (Option α)) (row : ρ) (rows : List ρ) :
    readAll read (row :: rows) = (read row).bind fun x => (readAll read rows).map (x.toList ++ ·) := by
  cases hread : read row with
  | error e => simp [readAll, hread, Except.bind]
  | ok x =>
    cases x with
    | none => cases hrows : readAll read rows <;> simp [readAll, hread, hrows, Except.bind, Except.map]
    | some x => simp [readAll, hread, Except.bind]

theorem mem_of_readAll {rows : List ρ} {xs : List α} (h : readAll read rows = .ok xs) {x : α}
    (hx : x ∈ xs) : ∃ row ∈ rows, read row = .ok (some x) := by
  induction rows generalizing xs with
  | nil =>
    cases h
    cases hx
  | cons row rows ih =>
    rw [readAll_cons] at h
    obtain ⟨y, hy, h⟩ := Except.bind_eq_ok.mp h
    obtain ⟨ys, hys, rfl⟩ := Except.map_eq_ok.mp h
    obtain hx | hx := List.mem_append.mp hx
    · rw [Option.mem_toList] at hx
      exact ⟨row, List.mem_cons_self, hy.trans (congrArg _ hx)⟩
    · obtain ⟨row', hrow', hread⟩ := ih hys hx
      exact ⟨row', List.mem_cons_of_mem row hrow', hread⟩

theorem readAll_replicate {row : ρ} {x : α} (h : read row = .ok (some x)) (n : ℕ) :
    readAll read (List.replicate n row) = .ok (List.replicate n x) := by
  induction n with
  | zero => rfl
  | succ n ih =>
    rw [List.replicate_succ, readAll_cons, h, ih]
    rfl

/-- Rows that all give something are read one for one. -/
theorem readAll_ok {P : ρ → α → Prop} {rows : List ρ}
    (h : ∀ row ∈ rows, ∃ x, read row = .ok (some x) ∧ P row x) :
    ∃ xs, readAll read rows = .ok xs ∧ List.Forall₂ P rows xs := by
  induction rows with
  | nil => exact ⟨[], rfl, .nil⟩
  | cons row rows ih =>
    obtain ⟨x, hx, hP⟩ := h row List.mem_cons_self
    obtain ⟨xs, hxs, hall⟩ := ih fun row' hrow' => h row' (List.mem_cons_of_mem row hrow')
    refine ⟨x :: xs, ?_, .cons hP hall⟩
    rw [readAll_cons, hx, hxs]
    rfl

/-- Reading translated rows, when each translated row gives what the row gives, translated. -/
theorem readAll_map {read' : ρ' → Except ε (Option α')} {f : ρ → ρ'} {g : α → α'}
    (h : ∀ row, read' (f row) = (read row).map (Option.map g)) (rows : List ρ) :
    readAll read' (rows.map f) = (readAll read rows).map (List.map g) := by
  induction rows with
  | nil => rfl
  | cons row rows ih =>
    rw [List.map_cons, readAll_cons, readAll_cons, ih, h]
    cases hread : read row with
    | error e => rfl
    | ok x =>
      cases hrows : readAll read rows with
      | error e => rfl
      | ok xs => cases x <;> simp [Except.map, Except.bind]

/-- What is read keeps an order of the rows. -/
theorem readAll_pairwise {S : ρ → ρ → Prop} {T : α → α → Prop}
    (hread : ∀ row row' x x', S row row' → read row = .ok (some x) → read row' = .ok (some x') →
      T x x') {rows : List ρ} (hrows : rows.Pairwise S) {xs : List α}
    (h : readAll read rows = .ok xs) : xs.Pairwise T := by
  induction rows generalizing xs with
  | nil =>
    cases h
    exact .nil
  | cons row rows ih =>
    rw [readAll_cons] at h
    obtain ⟨x, hx, h⟩ := Except.bind_eq_ok.mp h
    obtain ⟨ys, hys, rfl⟩ := Except.map_eq_ok.mp h
    obtain ⟨hfirst, hrest⟩ := List.pairwise_cons.mp hrows
    cases x with
    | none => exact ih hrest hys
    | some x =>
      refine List.pairwise_cons.mpr ⟨fun y hy => ?_, ih hrest hys⟩
      obtain ⟨row', hrow', hread'⟩ := mem_of_readAll hys hy
      exact hread row row' x y (hfirst row' hrow') hx hread'

/-- A loop that ends normally has read all rows, and its state is a fold over what they give. -/
theorem scanRows_eq_ok {s t : σ} {rows : List ρ} :
    scanRows read step s rows = .ok t ↔
      ∃ xs, readAll read rows = .ok xs ∧ xs.foldlM step s = .ok t := by
  induction rows generalizing s with
  | nil => simp [scanRows, readAll, pure, Except.pure]
  | cons row rows ih =>
    cases hread : read row with
    | error e => simp [scanRows, readAll, hread, Except.bind]
    | ok x =>
      cases x with
      | none => simpa [scanRows, readAll, hread, Except.bind] using ih
      | some x =>
        simp only [scanRows, readAll, hread, Except.bind, Except.map_eq_ok]
        cases hstep : step s x with
        | error e =>
          simp only [reduceCtorEq, false_iff]
          rintro ⟨_, ⟨xs, _, rfl⟩, h⟩
          rw [List.foldlM_cons, hstep] at h
          cases h
        | ok t' =>
          simp only [ih]
          constructor
          · rintro ⟨xs, hxs, h⟩
            exact ⟨_, ⟨xs, hxs, rfl⟩, by rwa [List.foldlM_cons, hstep]⟩
          · rintro ⟨_, ⟨xs, hxs, rfl⟩, h⟩
            rw [List.foldlM_cons, hstep] at h
            exact ⟨xs, hxs, h⟩

theorem foldlM_ok (f : σ → α → σ) (xs : List α) (s : σ) :
    xs.foldlM (fun s x => (.ok (f s x) : Except ε σ)) s = .ok (xs.foldl f s) := by
  induction xs generalizing s with
  | nil => rfl
  | cons x xs ih => exact ih (f s x)

/-- The same for a loop whose updates do not fail. -/
theorem scanRows_pure_eq_ok {f : σ → α → σ} {s t : σ} {rows : List ρ} :
    scanRows read (fun s x => .ok (f s x)) s rows = .ok t ↔
      ∃ xs, readAll read rows = .ok xs ∧ xs.foldl f s = t := by
  rw [scanRows_eq_ok]
  simp only [foldlM_ok, Except.ok.injEq]

/-- What every update of a loop preserves, the loop preserves. -/
theorem scanRows_preserves {P : σ → Prop} (hstep : ∀ s x t, P s → step s x = .ok t → P t) {s t : σ}
    {rows : List ρ} (hs : P s) (h : scanRows read step s rows = .ok t) : P t := by
  obtain ⟨xs, -, hfold⟩ := scanRows_eq_ok.mp h
  clear h
  induction xs generalizing s with
  | nil =>
    cases hfold
    exact hs
  | cons x xs ih =>
    rw [List.foldlM_cons] at hfold
    obtain ⟨mid, hmid, hfold⟩ := Except.bind_eq_ok.mp hfold
    exact ih (hstep s x mid hs hmid) hfold

/-- What no update of a loop changes, the loop does not change. -/
theorem scanRows_keeps {f : σ → β} (hstep : ∀ s x t, step s x = .ok t → f t = f s) {s t : σ}
    {rows : List ρ} (h : scanRows read step s rows = .ok t) : f t = f s := by
  apply scanRows_preserves (P := fun s' => f s' = f s) _ rfl h
  intro s' x t' hs' hx
  rw [hstep s' x t' hx, hs']

end WebrtcTrace
