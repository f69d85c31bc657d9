import BaasConnector.Reconciliation.Calendar

namespace BaasConnector.Reconciliation.Easter

open BaasConnector.Lib.CodeUnits BaasConnector.Lib.DecimalTexts BaasConnector.Lib.Gregorian
open BaasConnector.Lib.Numerals BaasConnector.Reconciliation.Calendar

/-- The days from the twenty-first of March to the full moon, before any correction. -/
def moonAge (year : ℤ) : ℤ :=
  let b := year / 100
  (19 * (year % 19) + b - b / 4 - (b - (b + 8) / 25 + 1) / 3 + 15) % 30

/-- The days from the day after the full moon to a Sunday. -/
def sundayAge (year : ℤ) : ℤ :=
  (32 + 2 * (year / 100 % 4) + 2 * (year % 100 / 4) - moonAge year - year % 100 % 4) % 7

def correction (year : ℤ) : ℤ := (year % 19 + 11 * moonAge year + 22 * sundayAge year) / 451

theorem moonAge_bounds (year : ℤ) : 0 ≤ moonAge year ∧ moonAge year < 30 :=
  ⟨Int.emod_nonneg _ (by decide), Int.emod_lt_of_pos _ (by decide)⟩

theorem sundayAge_bounds (year : ℤ) : 0 ≤ sundayAge year ∧ sundayAge year < 7 :=
  ⟨Int.emod_nonneg _ (by decide), Int.emod_lt_of_pos _ (by decide)⟩

/-- The days from the twenty-second of March to Easter. -/
def easterAge (year : ℤ) : ℤ := moonAge year + sundayAge year - 7 * correction year

theorem easterAge_bounds (year : ℤ) : 0 ≤ easterAge year ∧ easterAge year ≤ 34 := by
  have hmoon := moonAge_bounds year
  have hsunday := sundayAge_bounds year
  rw [easterAge, correction]
  omega

theorem easterSunday_eq {year : ℤ} (h : 0 ≤ year) : easterSunday year =
    ⟨(easterAge year + 114) / 31, (easterAge year + 114) % 31 + 1⟩ := by
  have hbounds := moonAge_bounds year
  have hage := easterAge_bounds year
  have hmoon : (19 * (year % 19) + year / 100 - year / 100 / 4 -
      (year / 100 - (year / 100 + 8) / 25 + 1) / 3 + 15).tmod 30 = moonAge year :=
    Int.tmod_eq_emod_of_nonneg (by omega)
  have hsunday : (32 + 2 * (year / 100 % 4) + 2 * (year % 100 / 4) - moonAge year - year % 100 % 4).tmod 7 =
      sundayAge year := Int.tmod_eq_emod_of_nonneg (by omega)
  have hcorrection : (year % 19 + 11 * moonAge year + 22 * sundayAge year) / 451 = correction year := rfl
  have hlast : (moonAge year + sundayAge year - 7 * correction year + 114).tmod 31 =
      (easterAge year + 114) % 31 := Int.tmod_eq_emod_of_nonneg (by rw [← easterAge]; omega)
  simp only [easterSunday, Int.tmod_eq_emod_of_nonneg h,
    Int.tmod_eq_emod_of_nonneg (show 0 ≤ year / 100 by omega),
    Int.tmod_eq_emod_of_nonneg (show 0 ≤ year % 100 by omega), hmoon, hsunday, hcorrection, hlast]
  rfl

theorem easterSunday_day {year : ℤ} (h : 0 ≤ year) :
    (Civil.mk year (easterSunday year).month (easterSunday year).day).toDay =
      dayFromYear (year + 1) + easterAge year - 285 := by
  have hbounds := easterAge_bounds year
  rw [easterSunday_eq h]
  dsimp only
  by_cases hmarch : easterAge year ≤ 9
  · have hmonth : (easterAge year + 114) / 31 = 3 := by omega
    rw [hmonth, toDay_march]
    omega
  · have hmonth : (easterAge year + 114) / 31 = 4 := by omega
    rw [hmonth, toDay_april]
    omega

/-- Whether the moon is taken a day back. -/
def early (year : ℤ) : Prop := moonAge year = 29 ∨ moonAge year = 28 ∧ 11 ≤ year % 19

instance (year : ℤ) : Decidable (early year) := by unfold early; infer_instance

theorem solar_eq (century : ℤ) : 3 * (century + 1) / 4 = century - century / 4 := by omega

/-- Two roundings of eight days in twenty-five centuries. -/
theorem lunar_eq (century : ℤ) : (8 * (century + 1) + 5) / 25 = (century - (century + 8) / 25 + 1) / 3 := by
  obtain ⟨q, r, hlow, hhigh, rfl⟩ : ∃ q r : ℤ, 0 ≤ r ∧ r < 25 ∧ century = 25 * q + r :=
    ⟨century / 25, century % 25, by omega, by omega, by omega⟩
  interval_cases r <;> omega

/-- The epact and the age of the moon run against each other. -/
theorem epact_moonAge (year : ℤ) :
    (if epact year ≤ 23 then 44 - epact year else 74 - epact year) =
      21 + if early year then moonAge year - 1 else moonAge year := by
  have hage : (11 * (year % 19 + 1) + 20 + ((8 * (year / 100 + 1) + 5) / 25 - 5) -
      (3 * (year / 100 + 1) / 4 - 12)) % 30 = (23 - moonAge year) % 30 := by
    rw [solar_eq, lunar_eq, moonAge]
    omega
  have hmoon := moonAge_bounds year
  simp only [epact, hage, early]
  split_ifs <;> omega

theorem leapDays_eq (year : ℤ) : dayFromYear (year + 1) = 365 * (year - 1969) +
    (25 * (year / 100) + year % 100 / 4 - 492) - (year / 100 - 19) + (year / 100 / 4 - 4) := by
  have hfour : (year + 1 - 1969) / 4 = 25 * (year / 100) + year % 100 / 4 - 492 := by omega
  have hhundred : (year + 1 - 1901) / 100 = year / 100 - 19 := by omega
  have hcentury : (year + 1 - 1601) / 400 = year / 100 / 4 - 4 := by omega
  rw [dayFromYear, hfour, hhundred, hcentury]
  ring

/-- The full moon falls so many days before the last day but one of a week. -/
theorem sundayAge_eq (year : ℤ) : (dayFromYear (year + 1) + moonAge year - 282) % 7 = 6 - sundayAge year := by
  have hsunday := sundayAge_bounds year
  have hsum : (dayFromYear (year + 1) + moonAge year - 282 + sundayAge year) % 7 = 6 := by
    rw [sundayAge, leapDays_eq]
    omega
  omega

theorem correction_eq (year : ℤ) : correction year = if early year ∧ sundayAge year = 6 then 1 else 0 := by
  have hmoon := moonAge_bounds year
  have hsunday := sundayAge_bounds year
  have hgolden : 0 ≤ year % 19 ∧ year % 19 ≤ 18 := by omega
  simp only [correction, early]
  split_ifs <;> omega

theorem easter_eq_computus (year : ℤ) : dayFromYear (year + 1) + easterAge year - 285 = computus year := by
  have hsunday := sundayAge_bounds year
  have hweek := sundayAge_eq year
  rw [computus, weekDay, paschalMoon, epact_moonAge, toDay_march, easterAge, correction_eq]
  by_cases hearly : early year
  · have hback : (dayFromYear (year + 1) + (21 + (moonAge year - 1)) - 307 + 4) % 7 =
        if sundayAge year = 6 then 6 else 5 - sundayAge year := by
      split_ifs <;> omega
    rw [if_pos hearly, hback]
    by_cases hlast : sundayAge year = 6
    · rw [if_pos ⟨hearly, hlast⟩, if_pos hlast]
      omega
    · rw [if_neg fun h => hlast h.2, if_neg hlast]
      omega
  · have hkept : (dayFromYear (year + 1) + (21 + moonAge year) - 307 + 4) % 7 = 6 - sundayAge year := by
      rw [← hweek]
      congr 1
      ring
    rw [if_neg fun h => hearly h.1, if_neg hearly, hkept]
    ring

theorem weekDay_computus (year : ℤ) : weekDay (computus year) = 0 := by
  rw [computus, weekDay, weekDay]
  omega

/-- Easter as a date of its year. -/
def easter (year : ℤ) : Civil := ⟨year, (easterSunday year).month, (easterSunday year).day⟩

theorem easter_range {year : ℤ} (h : 0 ≤ year) :
    (easter year).month = 3 ∧ 22 ≤ (easter year).day ∧ (easter year).day ≤ 31 ∨
      (easter year).month = 4 ∧ 1 ≤ (easter year).day ∧ (easter year).day ≤ 25 := by
  have hbounds := easterAge_bounds year
  rw [easter, easterSunday_eq h]
  dsimp only
  omega

theorem easter_toDay {year : ℤ} (h : 0 ≤ year) : (easter year).toDay = computus year :=
  (easterSunday_day h).trans (easter_eq_computus year)

theorem easter_valid {year : ℤ} (h : 0 ≤ year) : (easter year).Valid := by
  have hyear : (easter year).year = year := rfl
  have hmarch : daysIn (isLeap year) 2 = 31 := by cases isLeap year <;> rfl
  have hapril : daysIn (isLeap year) 3 = 30 := by cases isLeap year <;> rfl
  obtain ⟨hmonth, hlow, hhigh⟩ | ⟨hmonth, hlow, hhigh⟩ := easter_range h
  · refine ⟨by omega, by omega, by omega, ?_⟩
    rw [hmonth, hyear, show (3 - 1 : ℤ).toNat = 2 from rfl, hmarch]
    exact hhigh
  · refine ⟨by omega, by omega, by omega, ?_⟩
    rw [hmonth, hyear, show (4 - 1 : ℤ).toNat = 3 from rfl, hapril]
    exact hhigh.trans (by decide)

theorem pascoa_eq {year : ℤ} (h : 0 ≤ year) : pascoa (some year) = text (computus year) := by
  rw [text, ← easter_toDay h, civil_toDay (easter_valid h)]
  rfl

/-- A holiday without its year names a day of the year on a day of the week. -/
def FallsOn (year : ℤ) (holiday : Text) (week : ℤ) : Prop :=
  ∃ day, (civil day).year = year ∧ weekDay day = week ∧
    holiday = pad2 (civil day).month ++ 0x2D :: pad2 (civil day).day

theorem computus_bounds (year : ℤ) : dayFromYear (year + 1) - 285 ≤ computus year ∧
    computus year ≤ dayFromYear (year + 1) - 251 := by
  have hbounds := easterAge_bounds year
  rw [← easter_eq_computus]
  omega

theorem year_around {year offset : ℤ} (hlow : -48 ≤ offset) (hhigh : offset ≤ 60) :
    (civil (computus year + offset)).year = year := by
  have hbounds := computus_bounds year
  have hlength := dayFromYear_succ year
  have hlong : monthStart (isLeap year) 12 = 365 ∨ monthStart (isLeap year) 12 = 366 := by
    cases isLeap year
    · exact Or.inl rfl
    · exact Or.inr rfl
  exact yearOf_eq (by omega) (by omega)

theorem drop_text {day : ℤ} (h : InYears day) :
    (text day).drop 5 = pad2 (civil day).month ++ 0x2D :: pad2 (civil day).day := by
  have hlen := integer_length (show 1000 ≤ (civil day).year from Int.le_trans (by decide) h.1) h.2
  rw [text, join_some, List.drop_append, hlen, List.drop_eq_nil_of_le (by rw [hlen]; decide), List.nil_append]
  rfl

theorem fallsOn_offset {year offset : ℤ} (hyear : 1583 ≤ year) (hyear' : year ≤ 9999)
    (hlow : -48 ≤ offset) (hhigh : offset ≤ 60) :
    FallsOn year ((shift (pascoa (some year)) offset).drop 5) (offset % 7) := by
  have haround := @year_around year offset hlow hhigh
  have hsame := @year_around year 0 (by decide) (by decide)
  rw [add_zero] at hsame
  have hin : InYears (computus year + offset) := by
    rw [InYears, haround]
    exact ⟨hyear, hyear'⟩
  have hsunday := weekDay_computus year
  obtain ⟨hstart, hend⟩ := inYears_iff.mp hin
  have hstart' : -141349 ≤ computus year + offset := hstart
  have hend' : computus year + offset < 2932897 := hend
  refine ⟨computus year + offset, haround, ?_, ?_⟩
  · rw [weekDay] at hsunday ⊢
    omega
  · rw [pascoa_eq (by omega), shift_text (by omega) (by omega), drop_text hin]

/-- Easter is the Sunday of the computus, and the holidays that move with it fall on
their days of the week. -/
theorem easter_and_movable_holidays :
    (∀ year : ℤ, 1583 ≤ year → (easter year).Valid ∧ (easter year).toDay = computus year ∧
      weekDay (easter year).toDay = 0 ∧
      ((easter year).month = 3 ∧ 22 ≤ (easter year).day ∨ (easter year).month = 4 ∧ (easter year).day ≤ 25)) ∧
    ∀ year : ℤ, 1583 ≤ year → year ≤ 9999 →
      List.Forall₂ (FallsOn year) (moveis (some year)) [1, 2, 5, 4] := by
  refine ⟨fun year hyear => ?_, fun year hyear hyear' => ?_⟩
  · have hpos : 0 ≤ year := by omega
    refine ⟨easter_valid hpos, easter_toDay hpos, ?_, ?_⟩
    · rw [easter_toDay hpos, weekDay_computus]
    · obtain ⟨hmonth, hlow, -⟩ | ⟨hmonth, -, hhigh⟩ := easter_range hpos
      · exact Or.inl ⟨hmonth, hlow⟩
      · exact Or.inr ⟨hmonth, hhigh⟩
  · have hfalls := fun offset hlow hhigh => @fallsOn_offset year offset hyear hyear' hlow hhigh
    exact .cons (hfalls (-48) (by decide) (by decide)) <| .cons (hfalls (-47) (by decide) (by decide)) <|
      .cons (hfalls (-2) (by decide) (by decide)) <| .cons (hfalls 60 (by decide) (by decide)) .nil

theorem easter_and_movable_holidays_2024 :
    (easter 2024).toDay = computus 2024 ∧ List.Forall₂ (FallsOn 2024) (moveis (some 2024)) [1, 2, 5, 4] :=
  ⟨(easter_and_movable_holidays.1 2024 (by decide)).2.1,
    easter_and_movable_holidays.2 2024 (by decide) (by decide)⟩

/-- The holidays of a year of five digits name no day. -/
theorem five_digit_year_loses_holidays :
    ¬∀ year : ℤ, 1583 ≤ year → List.Forall₂ (FallsOn year) (moveis (some year)) [1, 2, 5, 4] := by
  intro h
  have hholidays : moveis (some 10000) = ["-02-28", "-02-29", "-04-14", "-06-15"].map units := by
    decide
  have hfalls := h 10000 (by decide)
  rw [hholidays] at hfalls
  cases hfalls with
  | cons hfirst hrest =>
    obtain ⟨day, -, -, hname⟩ := hfirst
    have hdigits := digits_pad2 (Int.le_trans (by decide) (civil_valid day).1)
    cases hpad : pad2 (civil day).month with
    | nil =>
      have hlen := pad2_length (Int.le_trans (by decide) (civil_valid day).1)
        (Int.lt_of_le_of_lt (civil_valid day).2.1 (by decide))
      rw [hpad] at hlen
      cases hlen
    | cons unit rest =>
      rw [hpad] at hname hdigits
      have hunit := (digits_cons.mp hdigits).1
      rw [← (List.cons.inj hname).1] at hunit
      exact absurd hunit (by decide)

end BaasConnector.Reconciliation.Easter
