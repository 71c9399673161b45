import WebrtcTrace.Foundations.Csv
import WebrtcTrace.Foundations.PyNumbers

/-! # Tables that were printed line by line

A program that prints its rows itself, with commas between the fields and `\n` at the end, quotes
nothing. A table of plain fields that was printed so is read back as it was (`decode_lines`); numbers are
plain (`plain_int`).
-/

namespace WebrtcTrace.Csv
set_option autoImplicit false

/-- A field that is printed as it is. -/
def Plain (field : Text) : Prop := needsQuotes field = false

def joinPlain : List Text → Text
  | [] => []
  | [field] => field
  | field :: fields => field ++ ',' :: joinPlain fields

def line (fields : List Text) : Text := joinPlain fields ++ ['\n']

theorem joinPlain_eq {row : List Text} (h : ∀ field ∈ row, Plain field) : joinPlain row = joinFields row := by
  have hencode : ∀ field ∈ row, encodeField field = field :=
    fun field hfield => if_neg (Bool.not_eq_true _ ▸ h field hfield)
  induction row with
  | nil => rfl
  | cons field row ih =>
    have hfield := hencode field List.mem_cons_self
    cases row with
    | nil => exact hfield.symm
    | cons next row =>
      rw [joinPlain, joinFields, hfield, ih (fun f hf => h f (List.mem_cons_of_mem _ hf))
        fun f hf => hencode f (List.mem_cons_of_mem _ hf)]
      all_goals exact List.cons_ne_nil _ _

theorem Plain.not_break {field : Text} (h : Plain field) : ∀ c ∈ field, isBreak c = false := by
  intro c hc
  have hplain := List.any_eq_false.mp h c hc
  simp only [Bool.or_eq_true, decide_eq_true_eq, not_or, Bool.not_eq_true] at hplain
  exact hplain.2

/-! ## Reading -/

section Reading
variable (limit : ℕ)

theorem process_lf {start : State} (fields : List Text) (field : Text)
    (hblank : start = .startField ∨ field ≠ []) :
    process limit ⟨afterField start field, fields, field⟩ (some '\n') =
      .ok ⟨.eatCrnl, fields ++ [field], []⟩ := by
  unfold afterField
  by_cases hquotes : needsQuotes field = true
  · rw [if_pos hquotes]
    rfl
  · rw [if_neg hquotes]
    by_cases hnil : field = []
    · rw [if_pos hnil, hblank.resolve_right (not_not.mpr hnil)]
      rfl
    · rw [if_neg hnil]
      rfl

/-- A printed row up to its end, from where its next field starts. -/
theorem readRecords_line (rest : List Token) (row : List Text) (hne : row ≠ [])
    (hfits : ∀ field ∈ row, field.length ≤ limit) :
    ∀ (start : State) (fields : List Text),
      start = .startField ∨ (start = .startRecord ∧ row ≠ [[]]) →
      readRecords limit ⟨start, fields, []⟩ ((joinFields row ++ ['\n']).map some ++ none :: rest) =
        (readRecords limit {} rest).map ((fields ++ row) :: ·) := by
  induction row with
  | nil => exact absurd rfl hne
  | cons field row ih =>
    intro start fields hstart
    have hexpects : start = .startRecord ∨ start = .startField :=
      hstart.elim .inr fun h => .inl h.1
    have hfield := hfits field List.mem_cons_self
    cases row with
    | nil =>
      have hblank : start = .startField ∨ field ≠ [] :=
        hstart.imp_right fun h hnil => h.2 (by rw [hnil])
      rw [joinFields, readRecords_feed, feed_append, feed_encodeField limit hexpects, if_pos hfield]
      show ((process limit ⟨afterField start field, fields, field⟩ (some '\n')).bind
        (fun r => feed limit r [])).bind (fun r => readRecords limit r (none :: rest)) = _
      rw [process_lf limit fields field hblank]
      rfl
    | cons next row =>
      have hjoin : joinFields (field :: next :: row) ++ ['\n'] =
          encodeField field ++ ',' :: (joinFields (next :: row) ++ ['\n']) := by
        simp [joinFields]
      rw [hjoin, List.map_append, List.append_assoc, readRecords_feed,
        feed_encodeField limit hexpects, if_pos hfield]
      show (process limit ⟨afterField start field, fields, field⟩ (some ',')).bind (fun r =>
        if (some ',' : Token) = none ∧ r.state = .startRecord then _
        else readRecords limit r ((joinFields (next :: row) ++ ['\n']).map some ++ none :: rest)) = _
      rw [process_comma limit hexpects]
      show readRecords limit ⟨.startField, fields ++ [field], []⟩
        ((joinFields (next :: row) ++ ['\n']).map some ++ none :: rest) = _
      rw [ih (List.cons_ne_nil _ _) (fun f hf => hfits f (List.mem_cons_of_mem _ hf)) .startField
        (fields ++ [field]) (.inl rfl), List.append_assoc]
      rfl

end Reading

theorem lineTokens_lf {cs : Text} (h : ∀ c ∈ cs, isBreak c = false) (rest : Text) :
    lineTokens (cs ++ '\n' :: rest) = (cs ++ ['\n']).map some ++ none :: lineTokens rest := by
  induction cs with
  | nil =>
    rw [List.nil_append, lineTokens]
    · rfl
    · exact fun _ heq _ => absurd heq (by decide)
  | cons c cs ih =>
    have hc := h c List.mem_cons_self
    rw [List.cons_append, lineTokens, ih fun c' hc' => h c' (List.mem_cons_of_mem c hc')]
    · simp [hc]
    · rintro ds rfl -
      cases hc

/-- **Printed tables are read back** as they were. -/
theorem decode_lines (limit : ℕ) {rows : List (List Text)} (hne : ∀ row ∈ rows, row ≠ [] ∧ row ≠ [[]])
    (hplain : ∀ row ∈ rows, ∀ field ∈ row, Plain field)
    (hfits : ∀ row ∈ rows, ∀ field ∈ row, field.length ≤ limit) :
    decode limit (rows.flatMap line) = .ok rows := by
  unfold decode
  induction rows with
  | nil => rfl
  | cons row rows ih =>
    have hrow := hplain row List.mem_cons_self
    have htokens : lineTokens ((row :: rows).flatMap line) =
        (joinFields row ++ ['\n']).map some ++ none :: lineTokens (rows.flatMap line) := by
      rw [List.flatMap_cons, line, List.append_assoc, joinPlain_eq hrow]
      exact lineTokens_lf (isBreak_joinFields fun f hf => (hrow f hf).not_break) _
    obtain ⟨hnil, hblank⟩ := hne row List.mem_cons_self
    show readRecords limit ⟨.startRecord, [], []⟩ _ = _
    rw [htokens, readRecords_line limit _ row hnil (hfits row List.mem_cons_self) .startRecord []
        (.inr ⟨rfl, hblank⟩),
      ih (fun r hr => hne r (List.mem_cons_of_mem row hr))
        (fun r hr => hplain r (List.mem_cons_of_mem row hr))
        fun r hr => hfits r (List.mem_cons_of_mem row hr)]
    rfl

/-! ## Plain fields -/

theorem plain_of_forall {field : Text} (h : ∀ c ∈ field, c.isDigit ∨ c = '-') : Plain field := by
  refine List.any_eq_false.mpr fun c hc => ?_
  obtain hdigit | rfl := h c hc
  · have hcases : c ≠ ',' ∧ c ≠ '"' ∧ c ≠ '\r' ∧ c ≠ '\n' := by
      refine ⟨?_, ?_, ?_, ?_⟩ <;>
      · rintro rfl
        simp at hdigit
    simp [isBreak, hcases]
  · decide

theorem plain_int (n : ℤ) : Plain (toString n).toList :=
  plain_of_forall (Py.isDigit_or_minus_toString n)

end WebrtcTrace.Csv
