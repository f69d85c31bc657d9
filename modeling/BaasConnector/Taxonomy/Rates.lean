import BaasConnector.Lib.DecimalTexts

namespace BaasConnector.Taxonomy.Rates

open BaasConnector.Lib.CodeUnits BaasConnector.Lib.DecimalTexts BaasConnector.Lib.Numerals

/-- A rate in units of the last of its decimals. -/
structure Rate where
  numerator : Int
  scale : Nat
deriving DecidableEq, Repr

/-- A point and one to nine decimals. -/
def shape : Shape := ⟨[0x2E], 9⟩

namespace Rate

def parse (text : Text) : Option Rate :=
  (shape.read text).bind fun parts =>
    (readDigits 10 (parts.whole ++ parts.digits)).map fun (digits : Nat) =>
      ⟨digits * (if parts.negative then -1 else 1), parts.digits.length⟩

def percent (text : Text) : Option Rate := (parse text).map fun base => ⟨base.numerator, base.scale + 2⟩

def zero : Rate := ⟨0, 0⟩

def denominator (rate : Rate) : Int := 10 ^ rate.scale

def toText (rate : Rate) : Text :=
  let negative := decide (rate.numerator < 0)
  if rate.scale = 0 then sign negative ++ numeral rate.numerator.natAbs
  else
    let digits := padStart (rate.scale + 1) (numeral rate.numerator.natAbs)
    let whole := digits.take (digits.length - rate.scale)
    let frac := digits.drop (digits.length - rate.scale)
    sign negative ++ whole ++ 0x2E :: frac

end Rate

/-- The ways to come by a rate. -/
inductive Construction
  | parse (text : Text)
  | percent (text : Text)
  | zero

def Construction.rate : Construction → Option Rate
  | .parse text => Rate.parse text
  | .percent text => Rate.percent text
  | .zero => some Rate.zero

/-- How many decimals a text has. -/
def decimals (text : Text) : ℕ := ((trim text).dropWhile (· ≠ 0x2E)).tail.length

/-- A percentage has seven decimals at most, two less than the parser reads. -/
def Construction.Short : Construction → Prop
  | .percent text => decimals text ≤ 7
  | _ => True

theorem shape_apart : shape.Apart :=
  forall_units (p := fun separator => isDigit separator = false ∧ isSpace separator = false) (by decide)

theorem toText_eq (rate : Rate) : rate.toText = (fixed rate.scale rate.numerator).print := by
  have hlength := fixed_digits_length rate.scale rate.numerator
  unfold Rate.toText Parts.print
  dsimp only
  by_cases hscale : rate.scale = 0
  · rw [if_pos hscale]
    rw [hscale] at hlength ⊢
    rw [if_pos (List.length_eq_zero_iff.mp hlength), List.append_nil]
    have hpad : padStart 1 (numeral rate.numerator.natAbs) = numeral rate.numerator.natAbs :=
      padStart_of_le (List.length_pos_iff.mpr (numeral_ne_nil _))
    unfold fixed
    dsimp only
    rw [hpad, Nat.sub_zero, List.take_length]
  · rw [if_neg hscale, if_neg fun hnil => hscale (by rw [← hlength, hnil]; rfl), ← List.append_assoc]
    rfl

theorem parse_eq (text : Text) : Rate.parse text =
    (shape.read text).map fun parts => ⟨parts.numerator, parts.digits.length⟩ := by
  unfold Rate.parse
  cases hread : shape.read text with
  | none => rfl
  | some parts =>
    have hfits := ((read_eq_some shape_apart).mp hread).1
    have hdigits : readDigits 10 (parts.whole ++ parts.digits) = some (value (parts.whole ++ parts.digits)) :=
      readDigits_eq_some.mpr ⟨by simp [hfits.ne_nil], digits_append.mpr ⟨hfits.whole, hfits.digits⟩, rfl⟩
    rw [Option.bind_some, hdigits, Option.map_some, Option.map_some, Parts.numerator]
    cases parts.negative <;> simp

theorem parse_eq_some {text : Text} {rate : Rate} (h : Rate.parse text = some rate) :
    ∃ parts, shape.Spells text parts ∧ rate = ⟨parts.numerator, parts.digits.length⟩ := by
  rw [parse_eq] at h
  obtain ⟨parts, hread, hrate⟩ := Option.map_eq_some_iff.mp h
  exact ⟨parts, (read_eq_some shape_apart).mp hread, hrate.symm⟩

theorem parse_toText {rate : Rate} : Rate.parse rate.toText = some rate ↔ rate.scale ≤ 9 := by
  constructor
  · intro h
    obtain ⟨parts, hspells, rfl⟩ := parse_eq_some h
    exact hspells.1.most
  · intro hscale
    have hfits : shape.Fits (fixed rate.scale rate.numerator) := fixed_fits _ _ hscale
    rw [toText_eq, parse_eq, read_print shape_apart List.mem_cons_self hfits, Option.map_some,
      fixed_numerator, fixed_digits_length]

theorem decimals_eq {text : Text} {parts : Parts} (h : shape.Spells text parts) :
    decimals text = parts.digits.length := by
  obtain ⟨frac, hfrac, htrim⟩ := h.trim_eq shape_apart
  have hfree : ∀ unit ∈ sign parts.negative ++ parts.whole, decide (unit ≠ 0x2E) = true := by
    intro unit hmem
    obtain hsign | hwhole := List.mem_append.mp hmem
    · unfold sign at hsign
      split_ifs at hsign
      · rw [List.mem_singleton.mp hsign]
        decide
      · cases hsign
    · refine decide_eq_true fun hdot => ?_
      have hdigit := h.1.whole unit hwhole
      rw [hdot] at hdigit
      cases hdigit
  rw [decimals, htrim, ← List.append_assoc, List.dropWhile_append_of_pos hfree]
  obtain ⟨rfl, hnil⟩ | ⟨separator, hseparator, -, rfl⟩ := hfrac
  · rw [hnil]
    rfl
  · rw [List.mem_singleton.mp hseparator]
    rfl

/-- The text of a rate is read back unless it is a percentage with more than seven decimals. -/
theorem rate_round_trip_iff {construction : Construction} {rate : Rate} (h : construction.rate = some rate) :
    Rate.parse rate.toText = some rate ↔ construction.Short := by
  rw [parse_toText]
  cases construction with
  | parse text =>
    obtain ⟨parts, hspells, rfl⟩ := parse_eq_some h
    exact iff_of_true hspells.1.most trivial
  | percent text =>
    obtain ⟨base, hbase, rfl⟩ := Option.map_eq_some_iff.mp h
    obtain ⟨parts, hspells, rfl⟩ := parse_eq_some hbase
    show parts.digits.length + 2 ≤ 9 ↔ decimals text ≤ 7
    rw [decimals_eq hspells]
    omega
  | zero =>
    cases h
    exact iff_of_true (Nat.zero_le 9) trivial

theorem rate_round_trip_iff_half_percent :
    Rate.parse (Rate.toText ⟨5, 3⟩) = some ⟨5, 3⟩ ↔ (Construction.percent (units "0.5")).Short :=
  rate_round_trip_iff (by decide)

/-- A percentage with eight decimals prints as a rate with ten, which is not read. -/
theorem fine_percentage_not_read :
    Rate.percent (units "0.00000001") = some ⟨1, 10⟩ ∧ Rate.parse (Rate.toText ⟨1, 10⟩) = none := by
  refine ⟨by decide, by decide⟩

end BaasConnector.Taxonomy.Rates
