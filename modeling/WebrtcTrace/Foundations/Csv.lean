import WebrtcTrace.Foundations.RowLoop

/-! # CSV as Python's `csv` module writes and reads it

The dialect is `excel`: commas, quotes around the fields that need them, quotes inside doubled, rows
ended by `\r\n`. The reader is the module's state machine. It gets the file line by line, with a
marker after each line, and refuses a field that is longer than a limit. A table of fields without
line breaks is read back as it was written if no field is longer than the limit, and refused otherwise
(`decode_encode`).
-/

namespace WebrtcTrace.Csv
set_option autoImplicit false

abbrev Text := List Char

inductive Error where
  | fieldTooLarge
  | newLineInUnquotedField
  deriving DecidableEq, Repr

def isBreak (c : Char) : Bool := c = '\r' || c = '\n'

/-! ## Writing -/

def needsQuotes (field : Text) : Bool := field.any fun c => c = ',' || c = '"' || isBreak c

def doubled (field : Text) : Text := field.flatMap fun c => if c = '"' then ['"', '"'] else [c]

def encodeField (field : Text) : Text :=
  if needsQuotes field then '"' :: (doubled field ++ ['"']) else field

def joinFields : List Text → Text
  | [] => []
  | [field] => encodeField field
  | field :: fields => encodeField field ++ ',' :: joinFields fields

/-- A row whose only field is empty is written with quotes. -/
def encodeRow (fields : List Text) : Text :=
  (if fields = [[]] then ['"', '"'] else joinFields fields) ++ ['\r', '\n']

def encode (rows : List (List Text)) : Text := rows.flatMap encodeRow

/-! ## Reading -/

inductive State where
  | startRecord
  | startField
  | inField
  | inQuotedField
  | quoteInQuotedField
  | eatCrnl
  deriving DecidableEq, Repr

structure Reader where
  state : State := .startRecord
  fields : List Text := []
  field : Text := []

/-- A character, or the end of a line. -/
abbrev Token := Option Char

section Reading
variable (limit : ℕ)

def Reader.addChar (r : Reader) (next : State) (c : Char) : Except Error Reader :=
  if limit ≤ r.field.length then .error .fieldTooLarge
  else .ok { r with state := next, field := r.field ++ [c] }

def Reader.saveField (r : Reader) (next : State) : Reader := ⟨next, r.fields ++ [r.field], []⟩

def processStartField (r : Reader) : Token → Except Error Reader
  | none => .ok (r.saveField .startRecord)
  | some c =>
    if isBreak c then .ok (r.saveField .eatCrnl)
    else if c = '"' then .ok { r with state := .inQuotedField }
    else if c = ',' then .ok (r.saveField .startField)
    else r.addChar limit .inField c

def process (r : Reader) (token : Token) : Except Error Reader :=
  match r.state, token with
  | .startRecord, none => .ok r
  | .startRecord, some c =>
    if isBreak c then .ok { r with state := .eatCrnl } else processStartField limit r (some c)
  | .startField, token => processStartField limit r token
  | .inField, none => .ok (r.saveField .startRecord)
  | .inField, some c =>
    if isBreak c then .ok (r.saveField .eatCrnl)
    else if c = ',' then .ok (r.saveField .startField)
    else r.addChar limit .inField c
  | .inQuotedField, none => .ok r
  | .inQuotedField, some c =>
    if c = '"' then .ok { r with state := .quoteInQuotedField } else r.addChar limit .inQuotedField c
  | .quoteInQuotedField, none => .ok (r.saveField .startRecord)
  | .quoteInQuotedField, some c =>
    if c = '"' then r.addChar limit .inQuotedField c
    else if c = ',' then .ok (r.saveField .startField)
    else if isBreak c then .ok (r.saveField .eatCrnl)
    else r.addChar limit .inField c
  | .eatCrnl, none => .ok { r with state := .startRecord }
  | .eatCrnl, some c => if isBreak c then .ok r else .error .newLineInUnquotedField

/-- The lines of a file, each with its line break and then the marker. -/
def lineTokens : Text → List Token
  | [] => []
  | '\r' :: '\n' :: cs => some '\r' :: some '\n' :: none :: lineTokens cs
  | c :: cs =>
    if isBreak c ∨ cs = [] then some c :: none :: lineTokens cs else some c :: lineTokens cs

/-- The records from a reader's state on. A record is complete when a line ends at the start of the
next one; what the file leaves unfinished is a record too. -/
def readRecords : Reader → List Token → Except Error (List (List Text))
  | r, [] => .ok (if r.field ≠ [] ∨ r.state = .inQuotedField then [r.fields ++ [r.field]] else [])
  | r, token :: tokens => (process limit r token).bind fun r' =>
    if token = none ∧ r'.state = .startRecord then
      (readRecords {} tokens).map (r'.fields :: ·)
    else readRecords r' tokens

def decode (text : Text) : Except Error (List (List Text)) := readRecords limit {} (lineTokens text)

/-! ## Reading a field back -/

/-- The characters of a line, one by one. -/
def feed (r : Reader) (cs : Text) : Except Error Reader := cs.foldlM (fun r c => process limit r (some c)) r

theorem feed_append (r : Reader) (cs ds : Text) :
    feed limit r (cs ++ ds) = (feed limit r cs).bind fun r => feed limit r ds := by
  rw [feed, List.foldlM_append]
  rfl

theorem readRecords_feed (r : Reader) (cs : Text) (rest : List Token) :
    readRecords limit r (cs.map some ++ rest) =
      (feed limit r cs).bind fun r => readRecords limit r rest := by
  induction cs generalizing r with
  | nil => rfl
  | cons c cs ih =>
    rw [List.map_cons, List.cons_append, readRecords, feed, List.foldlM_cons]
    show (process limit r (some c)).bind _ = ((process limit r (some c)).bind _).bind _
    cases process limit r (some c) with
    | error e => rfl
    | ok r' =>
      simp only [Except.bind, reduceCtorEq, false_and, if_false]
      exact ih r'

theorem feed_inField (fields : List Text) (cs : Text) (hplain : needsQuotes cs = false) (acc : Text)
    (hacc : acc.length ≤ limit) :
    feed limit ⟨.inField, fields, acc⟩ cs =
      if acc.length + cs.length ≤ limit then .ok ⟨.inField, fields, acc ++ cs⟩
      else .error .fieldTooLarge := by
  induction cs generalizing acc with
  | nil =>
    rw [if_pos (by simpa using hacc), List.append_nil]
    rfl
  | cons c cs ih =>
    simp only [needsQuotes, List.any_cons, Bool.or_eq_false_iff, decide_eq_false_iff_not] at hplain
    obtain ⟨⟨⟨hcomma, _⟩, hbreak⟩, hrest⟩ := hplain
    rw [feed, List.foldlM_cons]
    show (process limit ⟨.inField, fields, acc⟩ (some c)).bind (fun r => feed limit r cs) = _
    simp only [process, hbreak, Bool.false_eq_true, if_false, hcomma, Reader.addChar]
    by_cases hfull : limit ≤ acc.length
    · rw [if_pos hfull, if_neg (by simp only [List.length_cons]; omega)]
      rfl
    · rw [if_neg hfull]
      show feed limit ⟨.inField, fields, acc ++ [c]⟩ cs = _
      rw [ih hrest (acc ++ [c]) (by simp only [List.length_append, List.length_singleton]; omega)]
      simp only [List.length_append, List.length_cons, List.length_nil, List.append_assoc,
        List.singleton_append]
      congr 2
      omega

theorem feed_inQuotedField (fields : List Text) (cs : Text) (acc : Text)
    (hacc : acc.length ≤ limit) :
    feed limit ⟨.inQuotedField, fields, acc⟩ (doubled cs) =
      if acc.length + cs.length ≤ limit then .ok ⟨.inQuotedField, fields, acc ++ cs⟩
      else .error .fieldTooLarge := by
  induction cs generalizing acc with
  | nil =>
    rw [if_pos (by simpa using hacc), List.append_nil]
    rfl
  | cons c cs ih =>
    -- one character of the field, whether it is written once or twice
    have hone : feed limit ⟨.inQuotedField, fields, acc⟩ (if c = '"' then ['"', '"'] else [c]) =
        (Reader.addChar limit ⟨.inQuotedField, fields, acc⟩ .inQuotedField c) := by
      by_cases hc : c = '"'
      · subst hc
        rw [if_pos rfl]
        show (process limit ⟨.quoteInQuotedField, fields, acc⟩ (some '"')).bind _ = _
        simp only [process, if_true, Reader.addChar]
        split_ifs <;> rfl
      · rw [if_neg hc]
        show (process limit ⟨.inQuotedField, fields, acc⟩ (some c)).bind _ = _
        simp only [process, hc, if_false, Reader.addChar]
        split_ifs <;> rfl
    rw [doubled, List.flatMap_cons, ← doubled, feed_append, hone, Reader.addChar]
    by_cases hfull : limit ≤ acc.length
    · rw [if_pos hfull, if_neg (by simp only [List.length_cons]; omega)]
      rfl
    · rw [if_neg hfull]
      show feed limit ⟨.inQuotedField, fields, acc ++ [c]⟩ (doubled cs) = _
      rw [ih (acc ++ [c]) (by simp only [List.length_append, List.length_singleton]; omega)]
      simp only [List.length_append, List.length_cons, List.length_nil, List.append_assoc,
        List.singleton_append]
      congr 2
      omega

/-- Where a reader that expects a field stands after it. -/
def afterField (start : State) (field : Text) : State :=
  if needsQuotes field then .quoteInQuotedField else if field = [] then start else .inField

variable {start : State} (hstart : start = .startRecord ∨ start = .startField)
include hstart

/-- A written field, read. -/
theorem feed_encodeField (fields : List Text) (field : Text) :
    feed limit ⟨start, fields, []⟩ (encodeField field) =
      if field.length ≤ limit then .ok ⟨afterField start field, fields, field⟩
      else .error .fieldTooLarge := by
  unfold encodeField afterField
  by_cases hquotes : needsQuotes field = true
  · rw [if_pos hquotes, if_pos hquotes]
    have hopen : process limit ⟨start, fields, []⟩ (some '"') = .ok ⟨.inQuotedField, fields, []⟩ := by
      obtain rfl | rfl := hstart <;> rfl
    rw [feed, List.foldlM_cons]
    show (process limit ⟨start, fields, []⟩ (some '"')).bind (fun r => feed limit r _) = _
    rw [hopen]
    show feed limit ⟨.inQuotedField, fields, []⟩ (doubled field ++ ['"']) = _
    rw [feed_append, feed_inQuotedField limit fields field [] (Nat.zero_le _)]
    simp only [List.length_nil, Nat.zero_add, List.nil_append]
    split_ifs <;> rfl
  · rw [if_neg hquotes, if_neg hquotes]
    rw [Bool.not_eq_true] at hquotes
    cases field with
    | nil => rfl
    | cons c cs =>
      have hplain := hquotes
      simp only [needsQuotes, List.any_cons, Bool.or_eq_false_iff, decide_eq_false_iff_not] at hplain
      obtain ⟨⟨⟨hcomma, hquote⟩, hbreak⟩, hrest⟩ := hplain
      have hfirst : process limit ⟨start, fields, []⟩ (some c) =
          (Reader.addChar limit ⟨start, fields, []⟩ .inField c) := by
        obtain rfl | rfl := hstart <;>
          simp [process, processStartField, hbreak, hquote, hcomma]
      rw [feed, List.foldlM_cons]
      show (process limit ⟨start, fields, []⟩ (some c)).bind (fun r => feed limit r cs) = _
      rw [hfirst, Reader.addChar, if_neg (List.cons_ne_nil c cs)]
      by_cases hzero : limit = 0
      · subst hzero
        rfl
      · rw [if_neg (by simp only [List.length_nil]; omega)]
        show feed limit ⟨.inField, fields, [c]⟩ cs = _
        rw [feed_inField limit fields cs hrest [c] (by simp only [List.length_singleton]; omega)]
        simp only [List.length_cons, List.length_nil, List.singleton_append]
        congr 2
        omega

theorem process_comma (fields : List Text) (field : Text) :
    process limit ⟨afterField start field, fields, field⟩ (some ',') =
      .ok ⟨.startField, fields ++ [field], []⟩ := by
  unfold afterField
  by_cases hquotes : needsQuotes field = true
  · rw [if_pos hquotes]
    rfl
  · rw [if_neg hquotes]
    by_cases hnil : field = []
    · rw [if_pos hnil]
      obtain rfl | rfl := hstart <;> rfl
    · rw [if_neg hnil]
      rfl

omit hstart

theorem process_cr (fields : List Text) (field : Text) (hblank : start = .startField ∨ field ≠ []) :
    process limit ⟨afterField start field, fields, field⟩ (some '\r') =
      .ok ⟨.eatCrnl, fields ++ [field], []⟩ := by
  unfold afterField
  by_cases hquotes : needsQuotes field = true
  · rw [if_pos hquotes]
    rfl
  · rw [if_neg hquotes]
    by_cases hnil : field = []
    · rw [if_pos hnil, hblank.resolve_right (not_not.mpr hnil)]
      rfl
    · rw [if_neg hnil]
      rfl

/-! ## Reading a table back -/

/-- A row up to its end, from where its next field starts. -/
theorem readRecords_joinFields (rest : List Token) (row : List Text) (hne : row ≠ []) :
    ∀ (start : State) (fields : List Text),
      start = .startField ∨ (start = .startRecord ∧ row ≠ [[]]) →
      readRecords limit ⟨start, fields, []⟩
          ((joinFields row ++ ['\r', '\n']).map some ++ none :: rest) =
        if ∀ field ∈ row, field.length ≤ limit then
          (readRecords limit {} rest).map ((fields ++ row) :: ·) else .error .fieldTooLarge := by
  induction row with
  | nil => exact absurd rfl hne
  | cons field row ih =>
    intro start fields hstart
    have hexpects : start = .startRecord ∨ start = .startField :=
      hstart.elim .inr fun h => .inl h.1
    cases row with
    | nil =>
      have hblank : start = .startField ∨ field ≠ [] :=
        hstart.imp_right fun h hnil => h.2 (by rw [hnil])
      rw [joinFields, readRecords_feed, feed_append, feed_encodeField limit hexpects]
      by_cases hfits : field.length ≤ limit
      · rw [if_pos hfits, if_pos (by simpa using hfits)]
        show ((process limit ⟨afterField start field, fields, field⟩ (some '\r')).bind
          (fun r => feed limit r ['\n'])).bind (fun r => readRecords limit r (none :: rest)) = _
        rw [process_cr limit fields field hblank]
        rfl
      · rw [if_neg hfits, if_neg (by simpa using hfits)]
        rfl
    | cons next row =>
      have hjoin : joinFields (field :: next :: row) ++ ['\r', '\n'] =
          encodeField field ++ ',' :: (joinFields (next :: row) ++ ['\r', '\n']) := by
        simp [joinFields]
      rw [hjoin, List.map_append, List.append_assoc, readRecords_feed,
        feed_encodeField limit hexpects]
      by_cases hfits : field.length ≤ limit
      · rw [if_pos hfits]
        show (process limit ⟨afterField start field, fields, field⟩ (some ',')).bind (fun r =>
          if (some ',' : Token) = none ∧ r.state = .startRecord then _
          else readRecords limit r ((joinFields (next :: row) ++ ['\r', '\n']).map some ++
            none :: rest)) = _
        rw [process_comma limit hexpects]
        show readRecords limit ⟨.startField, fields ++ [field], []⟩
          ((joinFields (next :: row) ++ ['\r', '\n']).map some ++ none :: rest) = _
        rw [ih (List.cons_ne_nil _ _) .startField (fields ++ [field]) (.inl rfl)]
        simp [hfits]
      · rw [if_neg hfits, if_neg fun h => hfits (h field List.mem_cons_self)]
        rfl

theorem readRecords_encodeRow (rest : List Token) {row : List Text} (hne : row ≠ []) :
    readRecords limit {} ((encodeRow row).map some ++ none :: rest) =
      if ∀ field ∈ row, field.length ≤ limit then (readRecords limit {} rest).map (row :: ·)
      else .error .fieldTooLarge := by
  by_cases hblank : row = [[]]
  · subst hblank
    rw [if_pos (by simp)]
    rfl
  · rw [encodeRow, if_neg hblank]
    exact readRecords_joinFields limit rest row hne .startRecord [] (.inr ⟨rfl, hblank⟩)

end Reading

theorem lineTokens_line {cs : Text} (h : ∀ c ∈ cs, isBreak c = false) (rest : Text) :
    lineTokens (cs ++ '\r' :: '\n' :: rest) =
      (cs ++ ['\r', '\n']).map some ++ none :: lineTokens rest := by
  induction cs with
  | nil => rw [List.nil_append, lineTokens]; rfl
  | cons c cs ih =>
    have hc := h c List.mem_cons_self
    rw [List.cons_append, lineTokens, ih fun c' hc' => h c' (List.mem_cons_of_mem c hc')]
    · simp [hc]
    · rintro ds rfl -
      cases hc

theorem isBreak_joinFields {row : List Text} (h : ∀ field ∈ row, ∀ c ∈ field, isBreak c = false) :
    ∀ c ∈ joinFields row, isBreak c = false := by
  have hfield : ∀ field ∈ row, ∀ c ∈ encodeField field, isBreak c = false := by
    intro field hmem c hc
    unfold encodeField at hc
    split_ifs at hc
    · simp only [doubled, List.mem_cons, List.mem_append, List.mem_flatMap, List.not_mem_nil,
        or_false] at hc
      obtain rfl | ⟨d, hd, hc⟩ | rfl := hc
      · rfl
      · split_ifs at hc with hquote
        · have : c = '"' := by simpa using hc
          subst this
          rfl
        · rw [List.mem_singleton.mp hc]
          exact h field hmem d hd
      · rfl
    · exact h field hmem c hc
  induction row with
  | nil => simp [joinFields]
  | cons field row ih =>
    intro c hc
    cases row with
    | nil => exact hfield field List.mem_cons_self c hc
    | cons next row =>
      rw [joinFields, List.mem_append, List.mem_cons] at hc
      · obtain hc | rfl | hc := hc
        · exact hfield field List.mem_cons_self c hc
        · rfl
        · exact ih (fun f hf => h f (List.mem_cons_of_mem field hf))
            (fun f hf => hfield f (List.mem_cons_of_mem field hf)) c hc
      · exact List.cons_ne_nil _ _

/-- **Written tables are read back** as they were, as long as no field exceeds the limit. -/
theorem decode_encode (limit : ℕ) {rows : List (List Text)} (hne : ∀ row ∈ rows, row ≠ [])
    (hbreaks : ∀ row ∈ rows, ∀ field ∈ row, ∀ c ∈ field, isBreak c = false) :
    decode limit (encode rows) =
      if ∀ row ∈ rows, ∀ field ∈ row, field.length ≤ limit then .ok rows
      else .error .fieldTooLarge := by
  unfold decode
  induction rows with
  | nil => rfl
  | cons row rows ih =>
    have hplain : ∀ c ∈ (if row = [[]] then ['"', '"'] else joinFields row), isBreak c = false := by
      split_ifs
      · intro c hc
        obtain rfl : c = '"' := by simpa using hc
        rfl
      · exact isBreak_joinFields (hbreaks row List.mem_cons_self)
    have htokens : lineTokens (encode (row :: rows)) =
        (encodeRow row).map some ++ none :: lineTokens (encode rows) := by
      rw [encode, List.flatMap_cons, encodeRow, List.append_assoc]
      exact lineTokens_line hplain (encode rows)
    rw [htokens, readRecords_encodeRow limit _ (hne row List.mem_cons_self),
      ih (fun r hr => hne r (List.mem_cons_of_mem row hr))
        fun r hr => hbreaks r (List.mem_cons_of_mem row hr)]
    by_cases hrow : ∀ field ∈ row, field.length ≤ limit
    · by_cases hrows : ∀ r ∈ rows, ∀ field ∈ r, field.length ≤ limit
      · rw [if_pos hrow, if_pos hrows, if_pos (List.forall_mem_cons.mpr ⟨hrow, hrows⟩)]
        rfl
      · rw [if_pos hrow, if_neg hrows, if_neg fun h => hrows (List.forall_mem_cons.mp h).2]
        rfl
    · rw [if_neg hrow, if_neg fun h => hrow (List.forall_mem_cons.mp h).1]

end WebrtcTrace.Csv
