import Mathlib.Data.List.TakeWhile
import Mathlib.Data.Nat.Cast.Order.Field
import Mathlib.Data.Rat.Floor
import Mathlib.Tactic.Linarith
import Mathlib.Tactic.Positivity

/-! # Numbers as Python reads, rounds and prints them

`float(text)` gives the exact rational that a decimal text denotes, and float arithmetic is rational
arithmetic; `int(text)`, `round` (halves to the even neighbour), `str.strip` and the format `:.1f`
follow the language. Digits are the ASCII ones.
-/

namespace WebrtcTrace.Py
set_option autoImplicit false

/-- What `str.strip()` removes. -/
def isSpace (c : Char) : Bool :=
  let n := c.toNat
  (9 ≤ n && n ≤ 13) || (28 ≤ n && n ≤ 32) || n = 0x85 || n = 0xa0 || n = 0x1680 ||
    (0x2000 ≤ n && n ≤ 0x200a) || n = 0x2028 || n = 0x2029 || n = 0x202f || n = 0x205f || n = 0x3000

def rstripWhile (p : Char → Bool) (cs : List Char) : List Char := (cs.reverse.dropWhile p).reverse

def stripChars (cs : List Char) : List Char := rstripWhile isSpace (cs.dropWhile isSpace)

def strip (s : String) : String := .ofList (stripChars s.toList)

/-! ## Reading -/

/-- The value and the number of the digits read so far. One underscore may stand between two digits,
so after one, and at the start, a digit must follow. -/
def digitsFrom (value count : ℕ) (needDigit : Bool) : List Char → Option (ℕ × ℕ)
  | [] => if needDigit then none else some (value, count)
  | c :: cs =>
    if c.isDigit then digitsFrom (10 * value + (c.toNat - '0'.toNat)) (count + 1) false cs
    else if c = '_' && !needDigit then digitsFrom value count true cs
    else none

def digitPart (cs : List Char) : Option (ℕ × ℕ) := digitsFrom 0 0 true cs

def signedDigits : List Char → Option ℤ
  | '-' :: cs => (digitPart cs).map fun d => -(d.1 : ℤ)
  | '+' :: cs => (digitPart cs).map fun d => (d.1 : ℤ)
  | cs => (digitPart cs).map fun d => (d.1 : ℤ)

/-- `int(text)`. -/
def int (s : String) : Option ℤ := signedDigits (stripChars s.toList)

inductive Float where
  | finite (q : ℚ)
  | infinite (negative : Bool)
  | nan
  deriving DecidableEq

def Float.neg : Float → Float
  | finite q => finite (-q)
  | infinite negative => infinite (!negative)
  | nan => nan

/-- `x > 0`. -/
def Float.isPositive : Float → Bool
  | finite q => 0 < q
  | infinite negative => !negative
  | nan => false

/-- The part before the first character that passes the test, and the part after it if there is
one. -/
def cut (p : Char → Bool) (cs : List Char) : List Char × Option (List Char) :=
  (cs.takeWhile (!p ·), match cs.dropWhile (!p ·) with | [] => none | _ :: rest => some rest)

/-- Digits that may be left out. -/
def optionalDigits (cs : List Char) : Option (ℕ × ℕ) := if cs = [] then some (0, 0) else digitPart cs

def scaleTen (q : ℚ) (e : ℤ) : ℚ := if 0 ≤ e then q * 10 ^ e.toNat else q / 10 ^ (-e).toNat

def decimalLiteral (cs : List Char) : Option ℚ :=
  let (mantissa, exponent) := cut (fun c => c = 'e' || c = 'E') cs
  let (whole, fraction) := cut (· = '.') mantissa
  match optionalDigits whole, optionalDigits (fraction.getD []),
      exponent.elim (some 0) signedDigits with
  | some w, some f, some e =>
    if 0 < w.2 + f.2 then some (scaleTen ((w.1 : ℚ) + (f.1 : ℚ) / 10 ^ f.2) e) else none
  | _, _, _ => none

def unsignedFloat (cs : List Char) : Option Float :=
  let lower := String.ofList (cs.map Char.toLower)
  if lower = "inf" ∨ lower = "infinity" then some (.infinite false)
  else if lower = "nan" then some .nan
  else (decimalLiteral cs).map .finite

/-- `float(text)`. -/
def float (s : String) : Option Float :=
  match stripChars s.toList with
  | '-' :: cs => (unsignedFloat cs).map .neg
  | '+' :: cs => unsignedFloat cs
  | cs => unsignedFloat cs

/-! ## Rounding -/

/-- `int(x)`: towards zero. -/
def trunc (q : ℚ) : ℤ := q.num.tdiv q.den

/-- `round(x)`: to the nearest integer, halves to the even one. -/
def round (q : ℚ) : ℤ :=
  if q - ⌊q⌋ < 1 / 2 then ⌊q⌋
  else if 1 / 2 < q - ⌊q⌋ then ⌊q⌋ + 1
  else if ⌊q⌋ % 2 = 0 then ⌊q⌋ else ⌊q⌋ + 1

/-- `round(x, 3)`. -/
def round3 (q : ℚ) : ℚ := round (q * 1000) / 1000

theorem round_nonneg {q : ℚ} (h : 0 ≤ q) : 0 ≤ round q := by
  have hfloor : 0 ≤ ⌊q⌋ := Int.floor_nonneg.mpr h
  unfold round
  split_ifs <;> omega

theorem floor_le_round (q : ℚ) : ⌊q⌋ ≤ round q := by
  unfold round
  split_ifs <;> omega

theorem round_le_floor_add_one (q : ℚ) : round q ≤ ⌊q⌋ + 1 := by
  unfold round
  split_ifs <;> omega

theorem round_mono {q r : ℚ} (h : q ≤ r) : round q ≤ round r := by
  obtain hlt | heq := (Int.floor_mono h).lt_or_eq
  · have hq := round_le_floor_add_one q
    have hr := floor_le_round r
    omega
  · -- with one floor, the larger number has the larger fraction
    have hfraction : q - ⌊q⌋ ≤ r - ⌊r⌋ := by
      rw [heq]
      exact sub_le_sub_right h _
    unfold round
    rw [heq] at hfraction ⊢
    split_ifs <;> first | omega | exact absurd hfraction (by linarith)

@[simp] theorem round_intCast (n : ℤ) : round n = n := by
  simp [round]

/-- Also at the halves, whichever neighbour is the even one. -/
theorem abs_round_sub_le (q : ℚ) : |(round q : ℚ) - q| ≤ 1 / 2 := by
  have hlow : (⌊q⌋ : ℚ) ≤ q := Int.floor_le q
  have hhigh : q < ⌊q⌋ + 1 := Int.lt_floor_add_one q
  rw [abs_le]
  unfold round
  split_ifs with hbelow habove
  · constructor <;> linarith
  · push_cast
    constructor <;> linarith
  · constructor <;> linarith
  · push_cast
    constructor <;> linarith

theorem abs_trunc_le (q : ℚ) : (|trunc q| : ℤ) ≤ |q| := by
  have habs : |q| = q.num.natAbs / q.den := by
    conv_lhs => rw [← Rat.num_div_den q]
    rw [abs_div, Nat.abs_cast, ← Int.cast_abs, Int.abs_eq_natAbs, Int.cast_natCast]
  rw [trunc, Int.abs_eq_natAbs, Int.natAbs_tdiv, Int.natAbs_natCast, Int.cast_natCast, habs]
  exact Nat.cast_div_le

/-! ## Printing -/

/-- `f"{x:.1f}"`. -/
def format1f (q : ℚ) : String :=
  let n := (round (q * 10)).natAbs
  (if q < 0 then "-" else "") ++ toString (n / 10) ++ "." ++ toString (n % 10)

/-! ## What is printed can be read -/

theorem digitsFrom_digits {cs : List Char} (h : ∀ c ∈ cs, c.isDigit) (value count : ℕ) :
    digitsFrom value count false cs = some (Nat.ofDigitChars 10 cs value, count + cs.length) := by
  induction cs generalizing value count with
  | nil => simp [digitsFrom]
  | cons c cs ih =>
    have hc : c.isDigit := h c List.mem_cons_self
    rw [digitsFrom, if_pos hc, ih fun d hd => h d (List.mem_cons_of_mem c hd),
      Nat.ofDigitChars_cons, List.length_cons]
    congr 2
    omega

theorem digitPart_digits {cs : List Char} (h : ∀ c ∈ cs, c.isDigit) (hne : cs ≠ []) :
    digitPart cs = some (Nat.ofDigitChars 10 cs 0, cs.length) := by
  cases cs with
  | nil => exact absurd rfl hne
  | cons c cs =>
    have hc : c.isDigit := h c List.mem_cons_self
    rw [digitPart, digitsFrom, if_pos hc,
      digitsFrom_digits fun d hd => h d (List.mem_cons_of_mem c hd), Nat.ofDigitChars_cons,
      List.length_cons]
    congr 2
    omega

theorem isDigit_toDigits (n : ℕ) : ∀ c ∈ Nat.toDigits 10 n, c.isDigit :=
  fun _ hc => Nat.isDigit_of_mem_toDigits (by omega) (by omega) hc

theorem not_isSpace_of_isDigit {c : Char} (h : c.isDigit) : isSpace c = false := by
  simp only [Char.isDigit, Bool.and_eq_true, decide_eq_true_eq, ge_iff_le, UInt32.le_iff_toNat_le]
    at h
  have hlo : 48 ≤ c.toNat := h.1
  have hhi : c.toNat ≤ 57 := h.2
  simp only [isSpace, Bool.or_eq_false_iff, Bool.and_eq_false_iff, decide_eq_false_iff_not]
  omega

theorem dropWhile_id {p : Char → Bool} {cs : List Char} (h : ∀ c ∈ cs.head?, p c = false) :
    cs.dropWhile p = cs := by
  cases cs with
  | nil => rfl
  | cons c cs => simp [h c rfl]

theorem rstripWhile_id {p : Char → Bool} {cs : List Char} (h : ∀ c ∈ cs.getLast?, p c = false) :
    rstripWhile p cs = cs := by
  rw [rstripWhile, dropWhile_id, List.reverse_reverse]
  rwa [List.head?_reverse]

/-- A text whose ends are no white space is stripped of nothing. -/
theorem stripChars_id {cs : List Char} (hhead : ∀ c ∈ cs.head?, isSpace c = false)
    (hlast : ∀ c ∈ cs.getLast?, isSpace c = false) : stripChars cs = cs := by
  rw [stripChars, dropWhile_id hhead, rstripWhile_id hlast]

theorem stripChars_digits {cs : List Char} (h : ∀ c ∈ cs, c.isDigit) : stripChars cs = cs :=
  stripChars_id (fun c hc => not_isSpace_of_isDigit (h c (List.mem_of_mem_head? hc)))
    fun c hc => not_isSpace_of_isDigit (h c (List.mem_of_mem_getLast? hc))

theorem signedDigits_toDigits (n : ℕ) : signedDigits (Nat.toDigits 10 n) = some (n : ℤ) := by
  have hdigits := isDigit_toDigits n
  unfold signedDigits
  split
  · rename_i heq
    have hsign := hdigits '-' (heq ▸ List.mem_cons_self)
    simp at hsign
  · rename_i heq
    have hsign := hdigits '+' (heq ▸ List.mem_cons_self)
    simp at hsign
  · rw [digitPart_digits hdigits Nat.toDigits_ne_nil, Nat.ofDigitChars_ten_toDigits]
    rfl

theorem toString_toList (n : ℕ) : (toString (n : ℤ)).toList = Nat.toDigits 10 n := Nat.toList_repr

theorem isDigit_toString (n : ℕ) : ∀ c ∈ (toString n).toList, c.isDigit := by
  rw [show (toString n).toList = Nat.toDigits 10 n from Nat.toList_repr]
  exact isDigit_toDigits n

theorem isDigit_or_minus_toString (n : ℤ) : ∀ c ∈ (toString n).toList, c.isDigit ∨ c = '-' := by
  intro c hc
  cases n with
  | ofNat n => exact .inl (isDigit_toString n c hc)
  | negSucc n =>
    rw [show toString (Int.negSucc n) = "-" ++ toString (n + 1) from rfl, String.toList_append,
      List.mem_append] at hc
    exact hc.elim (fun h => .inr (List.mem_singleton.mp h)) fun h => .inl (isDigit_toString _ c h)

theorem int_toString (n : ℕ) : int (toString (n : ℤ)) = some (n : ℤ) := by
  rw [int, toString_toList, stripChars_digits (isDigit_toDigits n), signedDigits_toDigits]

theorem int_toString_of_nonneg {n : ℤ} (h : 0 ≤ n) : int (toString n) = some n := by
  obtain ⟨m, rfl⟩ := Int.eq_ofNat_of_zero_le h
  exact int_toString m

theorem toString_ne_empty (n : ℤ) : toString n ≠ "" := by
  intro h
  cases n with
  | ofNat n =>
    have hdigits : Nat.toDigits 10 n = [] := (toString_toList n).symm.trans (congrArg String.toList h)
    exact Nat.toDigits_ne_nil hdigits
  | negSucc n => exact absurd (String.append_eq_empty_iff.mp h).1 (by decide +kernel)

/-! ## Texts of decimals -/

theorem cut_none {p : Char → Bool} {cs : List Char} (h : ∀ c ∈ cs, p c = false) :
    cut p cs = (cs, none) := by
  have hall : ∀ c ∈ cs, (!p c) = true := fun c hc => by simp [h c hc]
  rw [cut, List.takeWhile_eq_self_iff.mpr hall, List.dropWhile_eq_nil_iff.mpr hall]

theorem cut_append {p : Char → Bool} {cs : List Char} {c : Char} (h : ∀ d ∈ cs, p d = false)
    (hc : p c = true) (rest : List Char) : cut p (cs ++ c :: rest) = (cs, some rest) := by
  have hall : ∀ d ∈ cs, (!p d) = true := fun d hd => by simp [h d hd]
  rw [cut, List.takeWhile_append_of_pos hall, List.dropWhile_append_of_pos hall]
  simp [hc]

theorem isDigit_cases {c : Char} (h : c.isDigit) :
    c ≠ '-' ∧ c ≠ '+' ∧ c ≠ '.' ∧ c ≠ 'e' ∧ c ≠ 'E' ∧ c.toLower = c := by
  refine ⟨?_, ?_, ?_, ?_, ?_, ?_⟩
  iterate 5
    rintro rfl
    simp at h
  unfold Char.toLower
  rw [dif_neg]
  rintro ⟨hupper, _⟩
  simp only [Char.isDigit, Bool.and_eq_true, decide_eq_true_eq, ge_iff_le,
    UInt32.le_iff_toNat_le] at h hupper
  have hlow : 65 ≤ c.val.toNat := hupper
  have hhigh : c.val.toNat ≤ 57 := h.2
  omega

theorem optionalDigits_digits {cs : List Char} (h : ∀ c ∈ cs, c.isDigit) :
    optionalDigits cs = some (Nat.ofDigitChars 10 cs 0, cs.length) := by
  unfold optionalDigits
  split_ifs with hnil
  · subst hnil
    rfl
  · exact digitPart_digits h hnil

theorem decimalLiteral_whole {ds : List Char} (h : ∀ c ∈ ds, c.isDigit) (hne : ds ≠ []) :
    decimalLiteral ds = some (Nat.ofDigitChars 10 ds 0 : ℚ) := by
  have hexponent : cut (fun c => c = 'e' || c = 'E') ds = (ds, none) :=
    cut_none fun c hc => by simp [isDigit_cases (h c hc)]
  have hpoint : cut (· = '.') ds = (ds, none) := cut_none fun c hc => by simp [isDigit_cases (h c hc)]
  have hnothing : optionalDigits [] = some (0, 0) := rfl
  simp [decimalLiteral, hexponent, hpoint, optionalDigits_digits h, hnothing, hne, scaleTen,
    List.length_pos_iff]

theorem decimalLiteral_point {ds fs : List Char} (h : ∀ c ∈ ds, c.isDigit)
    (hf : ∀ c ∈ fs, c.isDigit) (hne : ds ≠ []) :
    decimalLiteral (ds ++ '.' :: fs) =
      some ((Nat.ofDigitChars 10 ds 0 : ℚ) + (Nat.ofDigitChars 10 fs 0 : ℚ) / 10 ^ fs.length) := by
  have hexponent : cut (fun c => c = 'e' || c = 'E') (ds ++ '.' :: fs) = (ds ++ '.' :: fs, none) := by
    refine cut_none fun c hc => ?_
    rw [List.mem_append, List.mem_cons] at hc
    obtain hc | rfl | hc := hc
    · simp [isDigit_cases (h c hc)]
    · decide
    · simp [isDigit_cases (hf c hc)]
  have hpoint : cut (· = '.') (ds ++ '.' :: fs) = (ds, some fs) :=
    cut_append (fun c hc => by simp [isDigit_cases (h c hc)]) (by decide) fs
  have hlength : 0 < ds.length := List.length_pos_iff.mpr hne
  have hcount : 0 < ds.length + fs.length := by omega
  simp [decimalLiteral, hexponent, hpoint, optionalDigits_digits h, optionalDigits_digits hf,
    hcount, scaleTen]

/-- A text that starts and ends like a number is read as a decimal literal. -/
theorem float_of_digit {c : Char} {cs : List Char} (hc : c.isDigit)
    (hlast : ∀ d ∈ (c :: cs).getLast?, isSpace d = false) :
    float (.ofList (c :: cs)) = (decimalLiteral (c :: cs)).map .finite := by
  have hfirst := isDigit_cases hc
  have hstrip : stripChars (c :: cs) = c :: cs :=
    stripChars_id (fun d hd => by
      obtain rfl : c = d := by simpa using hd
      exact not_isSpace_of_isDigit hc) hlast
  have hlower : ∀ word : String, word.toList.head? = some 'i' ∨ word.toList.head? = some 'n' →
      String.ofList ((c :: cs).map Char.toLower) ≠ word := by
    rintro word hword rfl
    rw [String.toList_ofList, List.map_cons, List.head?_cons, hfirst.2.2.2.2.2] at hword
    obtain hword | hword := hword <;> cases hword <;> simp at hc
  unfold float
  rw [String.toList_ofList, hstrip]
  split
  · next heq => exact absurd (List.cons.inj heq).1 hfirst.1
  · next heq => exact absurd (List.cons.inj heq).1 hfirst.2.1
  · rw [unsignedFloat, if_neg, if_neg]
    · exact hlower "nan" (.inr (by decide +kernel))
    · rintro (heq | heq)
      · exact hlower "inf" (.inl (by decide +kernel)) heq
      · exact hlower "infinity" (.inl (by decide +kernel)) heq

theorem float_toString (n : ℕ) : float (toString (n : ℤ)) = some (.finite n) := by
  have hdigits := isDigit_toDigits n
  have htext : toString (n : ℤ) = .ofList (Nat.toDigits 10 n) := by
    rw [← toString_toList, String.ofList_toList]
  obtain ⟨c, cs, hcs⟩ := List.exists_cons_of_ne_nil (Nat.toDigits_ne_nil (n := n) (b := 10))
  have hvalue := decimalLiteral_whole hdigits Nat.toDigits_ne_nil
  rw [Nat.ofDigitChars_ten_toDigits] at hvalue
  rw [hcs] at hdigits htext hvalue
  rw [htext, float_of_digit (hdigits c List.mem_cons_self)
    fun d hd => not_isSpace_of_isDigit (hdigits d (List.mem_of_getLast? hd)), hvalue]
  rfl

theorem float_toString_of_nonneg {n : ℤ} (h : 0 ≤ n) : float (toString n) = some (.finite n) := by
  obtain ⟨m, rfl⟩ := Int.eq_ofNat_of_zero_le h
  exact float_toString m

/-- A number without a sign, with or without decimals. -/
inductive IsDecimal : List Char → Prop
  | whole {ds : List Char} (hds : ∀ c ∈ ds, c.isDigit) (hne : ds ≠ []) : IsDecimal ds
  | point {ds fs : List Char} (hds : ∀ c ∈ ds, c.isDigit) (hne : ds ≠ []) (hfs : ∀ c ∈ fs, c.isDigit)
      (hfne : fs ≠ []) : IsDecimal (ds ++ '.' :: fs)

theorem float_isDecimal {cs : List Char} (h : IsDecimal cs) :
    ∃ q : ℚ, float (.ofList cs) = some (.finite q) ∧ 0 ≤ q := by
  cases h with
  | @whole _ hds hne =>
    obtain ⟨c, ds, rfl⟩ := List.exists_cons_of_ne_nil hne
    rw [float_of_digit (hds c List.mem_cons_self)
        fun d hd => not_isSpace_of_isDigit (hds d (List.mem_of_getLast? hd)),
      decimalLiteral_whole hds hne]
    exact ⟨_, rfl, Nat.cast_nonneg _⟩
  | @point ds fs hds hne hfs hfne =>
    have hliteral := decimalLiteral_point hds hfs hne
    obtain ⟨c, ds, rfl⟩ := List.exists_cons_of_ne_nil hne
    have hlast : ∀ d ∈ ((c :: ds) ++ '.' :: fs).getLast?, isSpace d = false := by
      intro d hd
      rw [List.getLast?_append_of_ne_nil _ (List.cons_ne_nil _ _), List.getLast?_cons_of_ne_nil hfne]
        at hd
      exact not_isSpace_of_isDigit (hfs d (List.mem_of_getLast? hd))
    rw [List.cons_append] at hliteral hlast ⊢
    rw [float_of_digit (hds c List.mem_cons_self) hlast, hliteral]
    exact ⟨_, rfl, add_nonneg (Nat.cast_nonneg _) (div_nonneg (Nat.cast_nonneg _) (by positivity))⟩

theorem rstripWhile_snoc (p : Char → Bool) (cs : List Char) (c : Char) :
    rstripWhile p (cs ++ [c]) = if p c then rstripWhile p cs else cs ++ [c] := by
  unfold rstripWhile
  rw [List.reverse_append, List.reverse_singleton, List.singleton_append, List.dropWhile_cons]
  split_ifs <;> simp

/-! ## Printed integers -/

theorem toString_negSucc_toList (n : ℕ) :
    (toString (Int.negSucc n)).toList = '-' :: Nat.toDigits 10 (n + 1) := by
  rw [show toString (Int.negSucc n) = "-" ++ toString (n + 1) from rfl, String.toList_append]
  exact congrArg ('-' :: ·) Nat.toList_repr

theorem stripChars_minus_toDigits (n : ℕ) :
    stripChars ('-' :: Nat.toDigits 10 n) = '-' :: Nat.toDigits 10 n := by
  refine stripChars_id (fun c hc => ?_) fun c hc => ?_
  · obtain rfl := Option.some.inj hc
    rfl
  · rw [List.getLast?_cons_of_ne_nil Nat.toDigits_ne_nil] at hc
    exact not_isSpace_of_isDigit (isDigit_toDigits n c (List.mem_of_getLast? hc))

theorem int_toString_int (n : ℤ) : int (toString n) = some n := by
  cases n with
  | ofNat n => exact int_toString n
  | negSucc n =>
    rw [int, toString_negSucc_toList, stripChars_minus_toDigits, signedDigits,
      digitPart_digits (isDigit_toDigits _) Nat.toDigits_ne_nil, Nat.ofDigitChars_ten_toDigits]
    rfl

theorem float_toString_int (n : ℤ) : float (toString n) = some (.finite n) := by
  cases n with
  | ofNat n => exact float_toString n
  | negSucc n =>
    have hdigits := isDigit_toDigits (n + 1)
    have hunsigned : unsignedFloat (Nat.toDigits 10 (n + 1)) = some (.finite ((n + 1 : ℕ) : ℚ)) := by
      have hfloat := float_toString (n + 1)
      rw [float, toString_toList, stripChars_digits hdigits] at hfloat
      split at hfloat
      · next heq => exact absurd (hdigits '-' (heq ▸ List.mem_cons_self)) (by decide)
      · next heq => exact absurd (hdigits '+' (heq ▸ List.mem_cons_self)) (by decide)
      · exact hfloat
    rw [float, toString_negSucc_toList, stripChars_minus_toDigits]
    show (unsignedFloat (Nat.toDigits 10 (n + 1))).map Float.neg = _
    rw [hunsigned]
    simp [Float.neg, Int.negSucc_eq]

theorem strip_toString (n : ℤ) : strip (toString n) = toString n := by
  have hspace : ∀ c ∈ (toString n).toList, isSpace c = false := by
    intro c hc
    obtain h | rfl := isDigit_or_minus_toString n c hc
    · exact not_isSpace_of_isDigit h
    · rfl
  rw [strip, stripChars_id (fun c hc => hspace c (List.mem_of_mem_head? hc))
    fun c hc => hspace c (List.mem_of_mem_getLast? hc), String.ofList_toList]

end WebrtcTrace.Py
