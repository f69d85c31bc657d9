import BaasConnector.Lib.Numerals
import Mathlib.Algebra.Order.Field.Basic
import Mathlib.Data.Rat.Defs

namespace BaasConnector.Lib.DecimalTexts

open BaasConnector.Lib.CodeUnits BaasConnector.Lib.Numerals

/-- What may stand between the digits of a decimal number, and how many may follow. -/
structure Shape where
  separators : List UInt16
  most : ℕ

structure Parts where
  negative : Bool
  whole : Text
  digits : Text
deriving DecidableEq, Repr

def sign (negative : Bool) : Text := if negative then [0x2D] else []

/-- The digits after a separator, none where no separator stands. -/
def Shape.fraction (shape : Shape) : Text → Option Text
  | [] => some []
  | separator :: digits =>
    if separator ∈ shape.separators ∧ digits ≠ [] ∧ digits.length ≤ shape.most ∧ digits.all isDigit then
      some digits
    else none

/-- Whether a minus sign stands first, and what stands behind it. -/
def stripSign (text : Text) : Bool × Text :=
  if text.head? = some 0x2D then (true, text.tail) else (false, text)

def Shape.read (shape : Shape) (text : Text) : Option Parts :=
  let body := (stripSign (trim text)).2
  let whole := body.takeWhile isDigit
  (shape.fraction (body.dropWhile isDigit)).bind fun digits =>
    if whole = [] then none else some ⟨(stripSign (trim text)).1, whole, digits⟩

/-- Nothing, or a separator and digits. -/
def Shape.Fraction (shape : Shape) (text digits : Text) : Prop :=
  (text = [] ∧ digits = []) ∨ ∃ separator ∈ shape.separators, digits ≠ [] ∧ text = separator :: digits

structure Shape.Fits (shape : Shape) (parts : Parts) : Prop where
  ne_nil : parts.whole ≠ []
  whole : Digits parts.whole
  digits : Digits parts.digits
  most : parts.digits.length ≤ shape.most

/-- A text spells a decimal number, with spaces around it. -/
def Shape.Spells (shape : Shape) (text : Text) (parts : Parts) : Prop :=
  shape.Fits parts ∧ ∃ before frac after, Spaces before ∧ Spaces after ∧ shape.Fraction frac parts.digits ∧
    text = before ++ (sign parts.negative ++ (parts.whole ++ frac)) ++ after

def Parts.print (parts : Parts) : Text :=
  sign parts.negative ++ (parts.whole ++ if parts.digits = [] then [] else 0x2E :: parts.digits)

/-- The number that the parts stand for, in units of the last digit. -/
def Parts.numerator (parts : Parts) : ℤ :=
  if parts.negative then -(value (parts.whole ++ parts.digits) : ℤ) else value (parts.whole ++ parts.digits)

def Parts.amount (parts : Parts) : ℚ := parts.numerator / 10 ^ parts.digits.length

/-- A number of units as a decimal number of a scale. -/
def fixed (scale : ℕ) (numerator : ℤ) : Parts :=
  let text := padStart (scale + 1) (numeral numerator.natAbs)
  { negative := decide (numerator < 0)
    whole := text.take (text.length - scale)
    digits := text.drop (text.length - scale) }

/-- No leading zero, and no minus sign before zero. -/
structure Parts.Canonical (parts : Parts) : Prop where
  lead : parts.whole.head? ≠ some 0x30 ∨ parts.whole.length = 1
  signed : parts.negative = true → parts.numerator ≠ 0

variable {shape : Shape} {parts : Parts}

theorem fraction_eq_some {text digits : Text} : shape.fraction text = some digits ↔
    shape.Fraction text digits ∧ Digits digits ∧ digits.length ≤ shape.most := by
  cases text with
  | nil =>
    rw [Shape.fraction, Option.some_inj]
    constructor
    · rintro rfl
      exact ⟨Or.inl ⟨rfl, rfl⟩, nofun, Nat.zero_le _⟩
    · rintro ⟨⟨-, rfl⟩ | ⟨separator, -, -, h⟩, -⟩
      · rfl
      · cases h
  | cons separator rest =>
    rw [Shape.fraction]
    split_ifs with h
    · rw [Option.some_inj]
      constructor
      · rintro rfl
        exact ⟨Or.inr ⟨separator, h.1, h.2.1, rfl⟩, List.all_eq_true.mp h.2.2.2, h.2.2.1⟩
      · rintro ⟨⟨h, -⟩ | ⟨other, -, -, h⟩, -⟩
        · cases h
        · exact (List.cons.inj h).2
    · refine ⟨nofun, ?_⟩
      rintro ⟨⟨hnil, -⟩ | ⟨other, hother, hne, heq⟩, hdigits, hmost⟩
      · cases hnil
      · cases heq
        exact absurd ⟨hother, hne, hmost, List.all_eq_true.mpr hdigits⟩ h

/-- Neither a digit nor a space separates. -/
def Shape.Apart (shape : Shape) : Prop :=
  ∀ separator ∈ shape.separators, isDigit separator = false ∧ isSpace separator = false

theorem split_digits {whole frac : Text} (hwhole : Digits whole)
    (hfrac : ∀ unit, frac.head? = some unit → isDigit unit = false) :
    (whole ++ frac).takeWhile isDigit = whole ∧ (whole ++ frac).dropWhile isDigit = frac := by
  rw [List.takeWhile_append_of_pos hwhole, List.dropWhile_append_of_pos hwhole]
  cases frac with
  | nil => simp
  | cons unit frac => simp [hfrac unit rfl]

theorem Shape.Fraction.not_digit {text digits : Text} (h : shape.Fraction text digits)
    (hapart : shape.Apart) :
    ∀ unit, text.head? = some unit → isDigit unit = false := by
  intro unit hunit
  obtain ⟨rfl, -⟩ | ⟨separator, hseparator, -, rfl⟩ := h
  · cases hunit
  · cases hunit
    exact (hapart unit hseparator).1

theorem Shape.Fits.not_space {frac : Text} (h : shape.Fits parts) (hapart : shape.Apart)
    (hfrac : shape.Fraction frac parts.digits) :
    ∀ unit ∈ sign parts.negative ++ (parts.whole ++ frac), isSpace unit = false := by
  intro unit hmem
  obtain hsign | hbody := List.mem_append.mp hmem
  · unfold sign at hsign
    split_ifs at hsign
    · rw [List.mem_singleton.mp hsign]
      decide
    · cases hsign
  · obtain hwhole | hrest := List.mem_append.mp hbody
    · exact not_space_of_isDigit (h.whole unit hwhole)
    · obtain ⟨rfl, -⟩ | ⟨separator, hseparator, -, rfl⟩ := hfrac
      · cases hrest
      · obtain rfl | hdigit := List.mem_cons.mp hrest
        · exact (hapart unit hseparator).2
        · exact not_space_of_isDigit (h.digits unit hdigit)

theorem Shape.Fits.head {frac : Text} (h : shape.Fits parts) : (parts.whole ++ frac).head? ≠ some 0x2D := by
  obtain ⟨unit, rest, hwhole⟩ := List.exists_cons_of_ne_nil h.ne_nil
  intro hhead
  rw [hwhole] at hhead
  cases hhead
  have hdigit := h.whole 0x2D (hwhole ▸ List.mem_cons_self)
  cases hdigit

theorem sign_stripSign (text : Text) : sign (stripSign text).1 ++ (stripSign text).2 = text := by
  cases text with
  | nil => rfl
  | cons unit text => by_cases h : unit = 0x2D <;> simp [h, sign, stripSign]

theorem stripSign_sign {negative : Bool} {body : Text} (hbody : body.head? ≠ some 0x2D) :
    stripSign (sign negative ++ body) = (negative, body) := by
  cases negative <;> simp [sign, stripSign, hbody]

theorem Shape.Spells.trim_eq {text : Text} (h : shape.Spells text parts) (hapart : shape.Apart) :
    ∃ frac, shape.Fraction frac parts.digits ∧ trim text = sign parts.negative ++ (parts.whole ++ frac) := by
  obtain ⟨hfits, before, frac, after, hbefore, hafter, hfrac, rfl⟩ := h
  have hspace := hfits.not_space hapart hfrac
  refine ⟨frac, hfrac, trim_between hbefore hafter (fun unit hunit => hspace unit (List.mem_of_head? hunit))
    (fun unit hunit => hspace unit (List.mem_of_getLast? hunit)) (by simp [hfits.ne_nil])⟩

/-- The reader accepts the spellings of decimal numbers, and nothing else. -/
theorem read_eq_some (hapart : shape.Apart) {text : Text} :
    shape.read text = some parts ↔ shape.Spells text parts := by
  unfold Shape.read
  dsimp only
  constructor
  · intro h
    obtain ⟨digits, hfraction, h⟩ := Option.bind_eq_some_iff.mp h
    obtain ⟨hfrac, hdigits, hmost⟩ := fraction_eq_some.mp hfraction
    split_ifs at h with hne
    cases h
    obtain ⟨before, after, htext, hbefore, hafter⟩ := trim_split text
    refine ⟨⟨hne, fun _ => List.mem_takeWhile_imp, hdigits, hmost⟩, before, _, after,
      hbefore, hafter, hfrac, ?_⟩
    dsimp only
    rw [List.takeWhile_append_dropWhile, sign_stripSign]
    exact htext
  · intro hspells
    obtain ⟨frac, hfrac, htrim⟩ := hspells.trim_eq hapart
    have hfits := hspells.1
    obtain ⟨htake, hdrop⟩ := split_digits hfits.whole (hfrac.not_digit hapart)
    rw [htrim, stripSign_sign hfits.head, htake, hdrop,
      fraction_eq_some.mpr ⟨hfrac, hfits.digits, hfits.most⟩, Option.bind_some, if_neg hfits.ne_nil]

theorem read_print (hapart : shape.Apart) (hdot : 0x2E ∈ shape.separators) (hfits : shape.Fits parts) :
    shape.read parts.print = some parts := by
  refine (read_eq_some hapart).mpr ⟨hfits, [], _, [], nofun, nofun, ?_, (List.append_nil _).symm⟩
  split_ifs with hnil
  · exact Or.inl ⟨rfl, hnil⟩
  · exact Or.inr ⟨0x2E, hdot, hnil, rfl⟩

section Fixed

variable (scale : ℕ) (numerator : ℤ)

theorem fixed_append : (fixed scale numerator).whole ++ (fixed scale numerator).digits =
    padStart (scale + 1) (numeral numerator.natAbs) := List.take_append_drop _ _

theorem fixed_digits_length : (fixed scale numerator).digits.length = scale := by
  have hlong := padStart_length (scale + 1) (numeral numerator.natAbs)
  unfold fixed
  dsimp only
  rw [List.length_drop]
  omega

theorem fixed_whole_length : (fixed scale numerator).whole.length =
    max 1 ((numeral numerator.natAbs).length - scale) := by
  have hlong := padStart_length (scale + 1) (numeral numerator.natAbs)
  unfold fixed
  dsimp only
  rw [List.length_take]
  omega

theorem fixed_fits (h : scale ≤ shape.most) : shape.Fits (fixed scale numerator) := by
  have hdigits : Digits ((fixed scale numerator).whole ++ (fixed scale numerator).digits) := by
    rw [fixed_append]
    exact digits_padStart (digits_numeral _)
  obtain ⟨hwhole, hfrac⟩ := digits_append.mp hdigits
  refine ⟨?_, hwhole, hfrac, by rwa [fixed_digits_length]⟩
  rw [← List.length_pos_iff, fixed_whole_length]
  exact Nat.lt_of_lt_of_le Nat.one_pos (le_max_left _ _)

theorem fixed_numerator : (fixed scale numerator).numerator = numerator := by
  rw [Parts.numerator, fixed_append, value_padStart, value_numeral]
  unfold fixed
  dsimp only
  by_cases hneg : numerator < 0
  · rw [decide_eq_true hneg, if_pos rfl]
    omega
  · rw [decide_eq_false hneg, if_neg Bool.false_ne_true]
    omega

theorem fixed_canonical : (fixed scale numerator).Canonical := by
  refine ⟨?_, fun hneg => ?_⟩
  · obtain hshort | hlong := Nat.lt_or_ge (scale + 1) (numeral numerator.natAbs).length
    · refine Or.inl ?_
      unfold fixed
      dsimp only
      rw [padStart_of_le hshort.le, List.head?_take, if_neg (by omega)]
      refine numeral_head (Nat.pos_of_ne_zero fun hzero => ?_)
      rw [hzero] at hshort
      exact absurd hshort (by rw [show (numeral 0).length = 1 from rfl]; omega)
    · refine Or.inr ?_
      rw [fixed_whole_length]
      omega
  · rw [fixed_numerator]
    exact (of_decide_eq_true hneg).ne

end Fixed

/-- A canonical decimal number is the one that its numerator and its scale give. -/
theorem Parts.Canonical.fixed (h : parts.Canonical) (hfits : shape.Fits parts) :
    fixed parts.digits.length parts.numerator = parts := by
  have hdigits := digits_append.mpr ⟨hfits.whole, hfits.digits⟩
  have hpos := List.length_pos_iff.mpr hfits.ne_nil
  have habs : parts.numerator.natAbs = value (parts.whole ++ parts.digits) := by
    unfold Parts.numerator
    split_ifs <;> omega
  have htext : padStart (parts.digits.length + 1) (numeral parts.numerator.natAbs) =
      parts.whole ++ parts.digits := by
    rw [habs]
    obtain hlead | hone := h.lead
    · have hlead' := hlead
      rw [← List.head?_append_of_ne_nil parts.whole hfits.ne_nil] at hlead'
      rw [numeral_value hdigits (by simp [hfits.ne_nil]) (Or.inl hlead'), padStart_of_le]
      rw [List.length_append]
      omega
    · refine pad_value hdigits (Nat.succ_pos _) ?_
      rw [List.length_append, hone, Nat.add_comm]
  have hsign : decide (parts.numerator < 0) = parts.negative := by
    have hsigned := h.signed
    unfold Parts.numerator at hsigned ⊢
    cases hneg : parts.negative with
    | true =>
      have hne := hsigned hneg
      rw [hneg] at hne
      simp only [if_true] at hne ⊢
      rw [decide_eq_true_eq]
      omega
    | false =>
      rw [if_neg Bool.false_ne_true, decide_eq_false_iff_not]
      omega
  have hsplit : (parts.whole ++ parts.digits).length - parts.digits.length = parts.whole.length := by
    rw [List.length_append, Nat.add_sub_cancel]
  unfold DecimalTexts.fixed
  dsimp only
  rw [htext, hsign, hsplit, List.take_left, List.drop_left]

/-- An integer in decimal digits. -/
def integer (n : ℤ) : Text := sign (decide (n < 0)) ++ numeral n.natAbs

def pad2 (n : ℤ) : Text := padStart 2 (integer n)

theorem integer_of_nonneg {value : ℤ} (h : 0 ≤ value) : integer value = numeral value.toNat := by
  rw [integer, decide_eq_false (by omega), sign, if_neg Bool.false_ne_true, List.nil_append]
  congr 1
  omega

theorem digits_integer {value : ℤ} (h : 0 ≤ value) : Digits (integer value) := by
  rw [integer_of_nonneg h]
  exact digits_numeral _

theorem value_integer {value : ℤ} (h : 0 ≤ value) :
    Numerals.value (integer value) = value.toNat := by
  rw [integer_of_nonneg h, value_numeral]

theorem readInteger_integer {value : ℤ} (h : 0 ≤ value) : readInteger (integer value) = some value := by
  rw [integer_of_nonneg h, readInteger_digits (readDigits_numeral _), Int.toNat_of_nonneg h]

theorem readInteger_pad2 {value : ℤ} (h : 0 ≤ value) : readInteger (pad2 value) = some value := by
  have hread : readDigits 10 (pad2 value) = some value.toNat := by
    rw [readDigits_eq_some]
    refine ⟨?_, digits_padStart (digits_integer h), ?_⟩
    · refine List.append_ne_nil_of_right_ne_nil _ ?_
      rw [integer_of_nonneg h]
      exact numeral_ne_nil _
    · rw [pad2, value_padStart, value_integer h]
  rw [readInteger_digits hread, Int.toNat_of_nonneg h]

theorem digits_pad2 {value : ℤ} (h : 0 ≤ value) : Digits (pad2 value) := digits_padStart (digits_integer h)

theorem integer_length {value : ℤ} (hlow : 1000 ≤ value) (hhigh : value ≤ 9999) :
    (integer value).length = 4 := by
  rw [integer_of_nonneg (by omega)]
  have hle := numeral_length_le (k := 4) (by decide) (show value.toNat < 10 ^ 4 by omega)
  have hlt := value_lt (digits_numeral value.toNat)
  rw [value_numeral] at hlt
  have hge := (Nat.pow_lt_pow_iff_right (show 1 < 10 by decide)).mp
    (show 10 ^ 3 < 10 ^ (numeral value.toNat).length by omega)
  omega

theorem pad2_length {value : ℤ} (hlow : 0 ≤ value) (hhigh : value < 100) : (pad2 value).length = 2 := by
  rw [pad2, padStart_length, integer_of_nonneg hlow]
  have hle := numeral_length_le (k := 2) (by decide) (show value.toNat < 10 ^ 2 by omega)
  omega

theorem less_integer {m n : ℤ} (hm : 0 ≤ m) (hn : 0 ≤ n)
    (hlen : (integer m).length = (integer n).length) :
    less (integer m) (integer n) = true ↔ m < n := by
  rw [less_digits (digits_integer hm) (digits_integer hn) hlen, value_integer hm, value_integer hn]
  omega

theorem less_pad2 {m n : ℤ} (hm : 0 ≤ m) (hn : 0 ≤ n) (hm' : m < 100) (hn' : n < 100) :
    less (pad2 m) (pad2 n) = true ↔ m < n := by
  rw [less_digits (digits_pad2 hm) (digits_pad2 hn) (by rw [pad2_length hm hm', pad2_length hn hn']),
    pad2, pad2, value_padStart, value_padStart, value_integer hm, value_integer hn]
  omega

theorem integer_inj {m n : ℤ} (hm : 0 ≤ m) (hn : 0 ≤ n) (h : integer m = integer n) : m = n := by
  have hread := readInteger_integer hm
  rw [h, readInteger_integer hn] at hread
  exact (Option.some.inj hread).symm

theorem pad2_inj {m n : ℤ} (hm : 0 ≤ m) (hn : 0 ≤ n) (h : pad2 m = pad2 n) : m = n := by
  have hread := readInteger_pad2 hm
  rw [h, readInteger_pad2 hn] at hread
  exact (Option.some.inj hread).symm

end BaasConnector.Lib.DecimalTexts
