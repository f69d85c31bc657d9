import BaasConnector.Lib.DecimalTexts
import BaasConnector.Taxonomy.Money
import Mathlib.Tactic.FieldSimp
import Mathlib.Tactic.NormNum

namespace BaasConnector.Taxonomy.MoneyText

open BaasConnector.Lib.CodeUnits BaasConnector.Lib.DecimalTexts BaasConnector.Lib.Numerals
open BaasConnector.Taxonomy.Amounts BaasConnector.Taxonomy.Money

def toDecimalString (amount : Amount) : Text :=
  let negative := decide (amount.cents < 0)
  let digits := padStart (currencyScale + 1) (numeral amount.cents.natAbs)
  let whole := digits.take (digits.length - currencyScale)
  let frac := digits.drop (digits.length - currencyScale)
  sign negative ++ whole ++ if 0 < currencyScale then 0x2E :: frac else []

def toJSON (amount : Amount) : MoneyJSON where
  amount := sign (decide (amount.cents < 0)) ++ numeral amount.cents.natAbs
  scale := currencyScale

example : toDecimalString ⟨-5, by decide, by decide⟩ = units "-0.05" := by decide

/-- Amounts are written with a point or a comma, to the cent. -/
def shape : Shape := ⟨[0x2E, 0x2C], currencyScale⟩

/-- A text spells an amount in reais. -/
def Spelled (text : Text) (amount : ℚ) : Prop := ∃ parts, shape.Spells text parts ∧ parts.amount = amount

/-- The one way to print an amount in reais. -/
def CanonicalSpelling (text : Text) (amount : ℚ) : Prop :=
  ∃ parts, shape.Fits parts ∧ parts.Canonical ∧ parts.digits.length = currencyScale ∧ text = parts.print ∧
    parts.amount = amount

theorem shape_apart : shape.Apart :=
  forall_units (p := fun separator => isDigit separator = false ∧ isSpace separator = false) (by decide)

theorem shape_fraction (text : Text) : shape.fraction text =
    (fraction text).filter fun digits => decide (digits.length ≤ currencyScale) := by
  cases text with
  | nil => rfl
  | cons separator digits =>
    have hmem : separator ∈ shape.separators ↔ separator = 0x2E ∨ separator = 0x2C := by
      simp [shape]
    rw [Shape.fraction, fraction]
    by_cases h : (separator = 0x2E ∨ separator = 0x2C) ∧ digits ≠ [] ∧ digits.all isDigit = true
    · rw [if_pos h, Option.filter_some]
      by_cases hlength : digits.length ≤ currencyScale
      · rw [if_pos (decide_eq_true hlength), if_pos ⟨hmem.mpr h.1, h.2.1, hlength, h.2.2⟩]
      · have hfalse : ¬ decide (digits.length ≤ currencyScale) = true := by simpa using hlength
        rw [if_neg hfalse, if_neg fun hall => hlength hall.2.2.1]
    · rw [if_neg h, Option.filter_none, if_neg fun hall => h ⟨hmem.mp hall.1, hall.2.1, hall.2.2.2⟩]

/-- The cents that a decimal number stands for. -/
def centsOf (parts : Parts) : ℤ := parts.numerator * 10 ^ (currencyScale - parts.digits.length)

theorem readDigits_parts {parts : Parts} (h : shape.Fits parts) :
    readDigits 10 (parts.whole ++ parts.digits ++
      List.replicate (currencyScale - parts.digits.length) 0x30) =
        some (value (parts.whole ++ parts.digits) * 10 ^ (currencyScale - parts.digits.length)) := by
  have hdigits : Digits (parts.whole ++ parts.digits ++
      List.replicate (currencyScale - parts.digits.length) 0x30) :=
    digits_append.mpr ⟨digits_append.mpr ⟨h.whole, h.digits⟩,
      fun unit hmem => by rw [List.eq_of_mem_replicate hmem]; decide⟩
  refine readDigits_eq_some.mpr ⟨by simp [h.ne_nil], hdigits, ?_⟩
  rw [value_append, value_zeros, List.length_replicate, Nat.add_zero]

theorem fromDecimalString_eq (text : Text) :
    fromDecimalString text = (shape.read text).bind fun parts => ofCents (centsOf parts) := by
  have hstrip : (if (trim text).head? = some 0x2D then (trim text).tail else trim text) =
      (stripSign (trim text)).2 := by
    unfold stripSign
    split_ifs <;> rfl
  have hsign : (stripSign (trim text)).1 = decide ((trim text).head? = some 0x2D) := by
    unfold stripSign
    split_ifs with h <;> simp [h]
  unfold fromDecimalString Shape.read
  dsimp only
  rw [hstrip, shape_fraction]
  cases hfraction : fraction ((stripSign (trim text)).2.dropWhile isDigit) with
  | none => rfl
  | some digits =>
    rw [Option.bind_some, Option.filter_some]
    by_cases hwhole : (stripSign (trim text)).2.takeWhile isDigit = []
    · rw [if_pos (Or.inl hwhole)]
      split_ifs <;> rfl
    · by_cases hlength : digits.length ≤ currencyScale
      · have hshape : shape.fraction ((stripSign (trim text)).2.dropWhile isDigit) = some digits := by
          rw [shape_fraction, hfraction, Option.filter_some, if_pos (decide_eq_true hlength)]
        obtain ⟨-, hdigits, hmost⟩ := fraction_eq_some.mp hshape
        have hfits : shape.Fits ⟨(stripSign (trim text)).1,
            (stripSign (trim text)).2.takeWhile isDigit, digits⟩ :=
          ⟨hwhole, fun _ => List.mem_takeWhile_imp, hdigits, hmost⟩
        have hread := readDigits_parts hfits
        dsimp only at hread
        rw [if_neg (not_or.mpr ⟨hwhole, Nat.not_lt.mpr hlength⟩), if_pos (decide_eq_true hlength), hread,
          Option.bind_some, Option.bind_some, if_neg hwhole, Option.bind_some]
        refine congrArg ofCents ?_
        unfold centsOf Parts.numerator
        rw [hsign]
        by_cases hneg : (trim text).head? = some 0x2D
        · simp only [hneg, if_true, decide_true]
          push_cast
          ring
        · simp only [hneg, if_false, decide_false, Bool.false_eq_true]
          push_cast
          rfl
      · have hfalse : ¬ decide (digits.length ≤ currencyScale) = true := by simpa using hlength
        rw [if_pos (Or.inr (Nat.not_le.mp hlength)), if_neg hfalse]
        rfl

theorem ofCents_eq_some {cents result : Int} :
    ofCents cents = some result ↔ result = cents ∧ -maxSafeCents ≤ cents ∧ cents ≤ maxSafeCents := by
  unfold ofCents
  split_ifs with h
  · refine ⟨nofun, fun ⟨_, hlow, hhigh⟩ => ?_⟩
    omega
  · obtain ⟨hhigh, hlow⟩ := not_or.mp h
    rw [Option.some_inj]
    exact ⟨fun heq => ⟨heq.symm, Int.not_lt.mp hlow, Int.not_lt.mp hhigh⟩, fun heq => heq.1.symm⟩

theorem centsOf_eq_iff {parts : Parts} (hfits : shape.Fits parts) (cents : ℤ) :
    cents = centsOf parts ↔ parts.amount = cents / 100 := by
  have hpow : (10 : ℚ) ^ parts.digits.length * 10 ^ (currencyScale - parts.digits.length) = 100 := by
    rw [← pow_add, show parts.digits.length + (currencyScale - parts.digits.length) = 2 from
      Nat.add_sub_cancel' hfits.most]
    norm_num
  have hne : (10 : ℚ) ^ parts.digits.length ≠ 0 := pow_ne_zero _ (by norm_num)
  have hcast : cents = centsOf parts ↔
      (cents : ℚ) = parts.numerator * 10 ^ (currencyScale - parts.digits.length) := by
    unfold centsOf
    exact_mod_cast Iff.rfl
  rw [hcast, Parts.amount, div_eq_div_iff hne (by norm_num), ← hpow,
    mul_comm ((10 : ℚ) ^ parts.digits.length),
    ← mul_assoc, mul_left_inj' hne, eq_comm]

theorem fromDecimalString_iff {text : Text} {cents : Int} :
    fromDecimalString text = some cents ↔
      Spelled text (cents / 100) ∧ -maxSafeCents ≤ cents ∧ cents ≤ maxSafeCents := by
  rw [fromDecimalString_eq, Option.bind_eq_some_iff]
  constructor
  · rintro ⟨parts, hread, hcents⟩
    have hspells := (read_eq_some shape_apart).mp hread
    obtain ⟨hvalue, hlow, hhigh⟩ := ofCents_eq_some.mp hcents
    exact ⟨⟨parts, hspells, (centsOf_eq_iff hspells.1 cents).mp hvalue⟩, hvalue ▸ hlow, hvalue ▸ hhigh⟩
  · rintro ⟨⟨parts, hspells, hamount⟩, hlow, hhigh⟩
    have hvalue := (centsOf_eq_iff hspells.1 cents).mpr hamount
    exact ⟨parts, (read_eq_some shape_apart).mpr hspells,
      ofCents_eq_some.mpr ⟨hvalue, hvalue ▸ hlow, hvalue ▸ hhigh⟩⟩

theorem toDecimalString_eq (amount : Amount) :
    toDecimalString amount = (fixed currencyScale amount.cents).print := by
  have hne : (fixed currencyScale amount.cents).digits ≠ [] := by
    rw [← List.length_pos_iff, fixed_digits_length]
    decide
  rw [Parts.print, if_neg hne, ← List.append_assoc]
  rfl

theorem decimal_round_trip (amount : Amount) :
    fromDecimalString (toDecimalString amount) = some amount.cents := by
  have hfits : shape.Fits (fixed currencyScale amount.cents) := fixed_fits _ _ le_rfl
  have hcents : centsOf (fixed currencyScale amount.cents) = amount.cents := by
    rw [centsOf, fixed_numerator, fixed_digits_length, Nat.sub_self, pow_zero, mul_one]
  rw [toDecimalString_eq, fromDecimalString_eq,
    read_print shape_apart List.mem_cons_self hfits, Option.bind_some,
    hcents]
  exact ofCents_eq_some.mpr ⟨rfl, amount.atLeast, amount.atMost⟩

theorem canonicalSpelling_iff {amount : Amount} {text : Text} :
    CanonicalSpelling text (amount.cents / 100) ↔ text = toDecimalString amount := by
  rw [toDecimalString_eq]
  constructor
  · rintro ⟨parts, hfits, hcanonical, hlength, rfl, hamount⟩
    have hcents := (centsOf_eq_iff hfits amount.cents).mpr hamount
    rw [centsOf, hlength, Nat.sub_self, pow_zero, mul_one] at hcents
    have hfixed := hcanonical.fixed hfits
    rw [hlength, ← hcents] at hfixed
    rw [hfixed]
  · rintro rfl
    have hfits : shape.Fits (fixed currencyScale amount.cents) := fixed_fits _ _ le_rfl
    refine ⟨_, hfits, fixed_canonical _ _, fixed_digits_length _ _, rfl, (centsOf_eq_iff hfits _).mp ?_⟩
    rw [centsOf, fixed_numerator, fixed_digits_length, Nat.sub_self, pow_zero, mul_one]

theorem readInteger_minus {text : Text} {n : ℕ} (h : readDigits 10 text = some n) :
    readInteger (0x2D :: text) = some (-(n : ℤ)) := by
  obtain ⟨hne, hdigits, -⟩ := readDigits_eq_some.mp h
  have htrim : trim (0x2D :: text) = 0x2D :: text := by
    refine trim_solid fun unit hmem => ?_
    obtain rfl | hmem := List.mem_cons.mp hmem
    · decide
    · exact not_space_of_isDigit (hdigits unit hmem)
  unfold readInteger
  rw [htrim]
  cases text with
  | nil => exact absurd rfl hne
  | cons first text =>
    have hminus : ¬ (0x2D : UInt16) = 0x30 := by decide
    simp only [if_true, if_false, false_and, hminus, h]
    rfl

theorem json_round_trip (amount : Amount) : fromJSON (toJSON amount) = some amount.cents := by
  have hread : readInteger (toJSON amount).amount = some amount.cents := by
    unfold toJSON
    dsimp only
    by_cases hneg : amount.cents < 0
    · rw [decide_eq_true hneg, sign, if_pos rfl, List.singleton_append,
        readInteger_minus (readDigits_numeral _)]
      refine congrArg some ?_
      omega
    · rw [decide_eq_false hneg, sign, if_neg Bool.false_ne_true, List.nil_append,
        readInteger_digits (readDigits_numeral _)]
      refine congrArg some ?_
      omega
  unfold fromJSON
  rw [if_neg (fun h => h rfl), hread, Option.bind_some]
  exact ofCents_eq_some.mpr ⟨rfl, amount.atLeast, amount.atMost⟩

/-- The texts of amounts are read back, and the decimal parser takes the spellings of an amount to the
cent, and nothing else, to the amount that prints as its canonical spelling. -/
theorem money_text_round_trip :
    (∀ amount : Amount, fromDecimalString (toDecimalString amount) = some amount.cents ∧
      fromJSON (toJSON amount) = some amount.cents) ∧
    (∀ text cents, fromDecimalString text = some cents ↔
      Spelled text (cents / 100) ∧ -maxSafeCents ≤ cents ∧ cents ≤ maxSafeCents) ∧
    ∀ text cents, fromDecimalString text = some cents → ∃ amount : Amount, amount.cents = cents ∧
      ∀ printed, CanonicalSpelling printed (cents / 100) ↔ printed = toDecimalString amount := by
  refine ⟨fun amount => ⟨decimal_round_trip amount, json_round_trip amount⟩,
    fun text cents => fromDecimalString_iff, fun text cents h => ?_⟩
  obtain ⟨-, hlow, hhigh⟩ := fromDecimalString_iff.mp h
  exact ⟨⟨cents, hlow, hhigh⟩, rfl, fun printed => @canonicalSpelling_iff ⟨cents, hlow, hhigh⟩ printed⟩

end BaasConnector.Taxonomy.MoneyText
