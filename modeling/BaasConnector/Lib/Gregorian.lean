import Mathlib.Order.Monotone.Basic
import Mathlib.Tactic.Common

namespace BaasConnector.Lib.Gregorian

def isLeap (year : ℤ) : Bool := year % 4 = 0 && (year % 100 ≠ 0 || year % 400 = 0)

/-- The day of the first of January of a year, counted from that of 1970. -/
def dayFromYear (year : ℤ) : ℤ :=
  365 * (year - 1970) + (year - 1969) / 4 - (year - 1901) / 100 + (year - 1601) / 400

/-- The days of a year before a month, the months counted from zero. -/
def monthStart (leap : Bool) (month : ℕ) : ℕ :=
  [0, 31, 59, 90, 120, 151, 181, 212, 243, 273, 304, 334].getD month 365 + if leap && 2 ≤ month then 1 else 0

def daysIn (leap : Bool) (month : ℕ) : ℕ := monthStart leap (month + 1) - monthStart leap month

/-- The month of a day of the year: the first that ends after it. -/
def monthOf (leap : Bool) (day : ℕ) : ℕ :=
  ((List.range 11).find? fun month => decide (day < monthStart leap (month + 1))).getD 11

/-- The day of a date whose month counts from zero and may lie outside its year, as may the day its month. -/
def makeDay (year month date : ℤ) : ℤ :=
  dayFromYear (year + month / 12) + monthStart (isLeap (year + month / 12)) (month % 12).toNat + date - 1

def yearOf (day : ℤ) : ℤ :=
  let guess := 1970 + day * 400 / 146097
  if day < dayFromYear guess then guess - 1
  else if dayFromYear (guess + 1) ≤ day then guess + 1 else guess

structure Civil where
  year : ℤ
  month : ℤ
  day : ℤ
deriving DecidableEq, Repr

def civil (day : ℤ) : Civil :=
  let year := yearOf day
  let rest := (day - dayFromYear year).toNat
  let month := monthOf (isLeap year) rest
  ⟨year, month + 1, rest - monthStart (isLeap year) month + 1⟩

/-- The milliseconds of a date and a time of day, where instants reach that far. The years of two digits
are those of the twentieth century. -/
def instantOf (year month date hour minute : ℤ) : Option ℤ :=
  let time := makeDay (if 0 ≤ year ∧ year ≤ 99 then 1900 + year else year) month date * 86400000 +
    (hour * 3600000 + minute * 60000)
  if time.natAbs ≤ 8640000000000000 then some time else none

def dayOf (instant : ℤ) : ℤ := instant / 86400000

def hourOf (instant : ℤ) : ℤ := instant / 3600000 % 24

def minuteOf (instant : ℤ) : ℤ := instant / 60000 % 60

/-- Sunday is zero. -/
def weekDay (day : ℤ) : ℤ := (day + 4) % 7

def Civil.Valid (date : Civil) : Prop :=
  1 ≤ date.month ∧ date.month ≤ 12 ∧ 1 ≤ date.day ∧
    date.day ≤ daysIn (isLeap date.year) (date.month - 1).toNat

instance (date : Civil) : Decidable date.Valid := by unfold Civil.Valid; infer_instance

def Civil.toDay (date : Civil) : ℤ := makeDay date.year (date.month - 1) date.day

theorem isLeap_eq_true {year : ℤ} :
    isLeap year = true ↔ year % 4 = 0 ∧ (year % 100 ≠ 0 ∨ year % 400 = 0) := by
  simp only [isLeap, Bool.and_eq_true, Bool.or_eq_true, decide_eq_true_eq]

theorem dayFromYear_succ (year : ℤ) :
    dayFromYear (year + 1) = dayFromYear year + monthStart (isLeap year) 12 := by
  have hlength : (monthStart (isLeap year) 12 : ℤ) = 365 + if isLeap year then 1 else 0 := by
    cases isLeap year <;> rfl
  rw [hlength, dayFromYear, dayFromYear]
  by_cases h : isLeap year = true
  · rw [if_pos h]
    rw [isLeap_eq_true] at h
    omega
  · rw [if_neg h]
    rw [isLeap_eq_true] at h
    omega

theorem dayFromYear_lt_iff {year other : ℤ} : dayFromYear year < dayFromYear other ↔ year < other := by
  have hmono : StrictMono dayFromYear := by
    refine strictMono_int_of_lt_succ fun year => ?_
    rw [dayFromYear_succ]
    have hpos : 0 < monthStart (isLeap year) 12 := by cases isLeap year <;> decide
    omega
  exact hmono.lt_iff_lt

theorem dayFromYear_le_iff {year other : ℤ} : dayFromYear year ≤ dayFromYear other ↔ year ≤ other := by
  rw [← not_lt, dayFromYear_lt_iff, not_lt]

/-- A year has 365.2425 days on average, and is never more than two days off. -/
theorem dayFromYear_near (year : ℤ) :
    146097 * (year - 1970) - 600 ≤ 400 * dayFromYear year ∧
      400 * dayFromYear year ≤ 146097 * (year - 1970) + 600 := by
  rw [dayFromYear]
  omega

theorem yearOf_bounds (day : ℤ) : dayFromYear (yearOf day) ≤ day ∧ day < dayFromYear (yearOf day + 1) := by
  have hbefore := dayFromYear_near (1970 + day * 400 / 146097 - 1)
  have hafter := dayFromYear_near (1970 + day * 400 / 146097 + 1 + 1)
  simp only [yearOf]
  split_ifs with hlow hhigh
  · rw [Int.sub_add_cancel]
    exact ⟨by omega, hlow⟩
  · exact ⟨hhigh, by omega⟩
  · exact ⟨not_lt.mp hlow, not_le.mp hhigh⟩

theorem yearOf_eq {day year : ℤ} (hlow : dayFromYear year ≤ day) (hhigh : day < dayFromYear (year + 1)) :
    yearOf day = year := by
  obtain ⟨hlow', hhigh'⟩ := yearOf_bounds day
  have hle := dayFromYear_lt_iff.mp (hlow.trans_lt hhigh')
  have hge := dayFromYear_lt_iff.mp (hlow'.trans_lt hhigh)
  omega

theorem month_within (leap : Bool) {month : ℕ} (h : month < 12) :
    monthStart leap month + daysIn leap month = monthStart leap (month + 1) ∧
      monthStart leap (month + 1) ≤ monthStart leap 12 := by
  revert h month
  cases leap <;> decide

theorem daysIn_le (leap : Bool) {month : ℕ} (h : month < 12) : daysIn leap month ≤ 31 := by
  revert h month
  cases leap <;> decide

theorem monthStart_le (leap : Bool) (month : ℕ) : monthStart leap month ≤ 366 := by
  by_cases h : month < 12
  · revert h month
    cases leap <;> decide
  · have hend : [0, 31, 59, 90, 120, 151, 181, 212, 243, 273, 304, 334].getD month 365 = 365 :=
      by rw [List.getD_eq_getElem?_getD, List.getElem?_eq_none (Nat.not_lt.mp h), Option.getD_none]
    rw [monthStart, hend]
    split_ifs <;> decide

theorem monthStart_mono (leap : Bool) {m n : ℕ} (h : m < n) (hn : n < 12) :
    monthStart leap (m + 1) ≤ monthStart leap n := by
  have hall : ∀ n < 12, ∀ m < n, monthStart leap (m + 1) ≤ monthStart leap n := by
    cases leap <;> decide
  exact hall n hn m h

theorem monthOf_bounds (leap : Bool) {day : ℕ} (h : day < monthStart leap 12) :
    monthOf leap day < 12 ∧ monthStart leap (monthOf leap day) ≤ day ∧
      day < monthStart leap (monthOf leap day + 1) := by
  rw [monthOf]
  cases hfind : (List.range 11).find? fun month => decide (day < monthStart leap (month + 1)) with
  | none =>
    rw [List.find?_range_eq_none] at hfind
    have hlast := hfind 10 (by decide)
    rw [Bool.not_eq_true', decide_eq_false_iff_not] at hlast
    exact ⟨by decide, Nat.not_lt.mp hlast, h⟩
  | some month =>
    rw [List.find?_range_eq_some, decide_eq_true_eq, List.mem_range] at hfind
    obtain ⟨hend, hmonth, hbefore⟩ := hfind
    refine ⟨Nat.lt_succ_of_lt hmonth, ?_, hend⟩
    cases month with
    | zero =>
      have hzero : monthStart leap 0 = 0 := by cases leap <;> rfl
      rw [Option.getD_some, hzero]
      exact Nat.zero_le day
    | succ month =>
      have hprevious := hbefore month (Nat.lt_succ_self month)
      rw [Bool.not_eq_true', decide_eq_false_iff_not] at hprevious
      exact Nat.not_lt.mp hprevious

theorem monthOf_start (leap : Bool) {month date : ℕ} (hmonth : month < 12)
    (hdate : date < daysIn leap month) :
    monthOf leap (monthStart leap month + date) = month := by
  obtain ⟨hsum, hle⟩ := month_within leap hmonth
  obtain ⟨hbound, hlow, hhigh⟩ := monthOf_bounds leap (show monthStart leap month + date < _ by omega)
  obtain hlt | heq | hgt := Nat.lt_trichotomy (monthOf leap (monthStart leap month + date)) month
  · have hmono := monthStart_mono leap hlt hmonth
    omega
  · exact heq
  · have hmono := monthStart_mono leap hgt hbound
    omega

theorem makeDay_of_valid {date : Civil} (h : date.Valid) :
    date.toDay =
      dayFromYear date.year + monthStart (isLeap date.year) (date.month - 1).toNat + date.day - 1 := by
  obtain ⟨hmonth, hmonth', -, -⟩ := h
  have hdiv : (date.month - 1) / 12 = 0 := by omega
  have hmod : (date.month - 1) % 12 = date.month - 1 := by omega
  rw [Civil.toDay, makeDay, hdiv, hmod, Int.add_zero]

theorem toDay_bounds {date : Civil} (h : date.Valid) :
    dayFromYear date.year ≤ date.toDay ∧ date.toDay < dayFromYear (date.year + 1) := by
  rw [makeDay_of_valid h, dayFromYear_succ]
  obtain ⟨hmonth, hmonth', hday, hday'⟩ := h
  obtain ⟨hsum, hle⟩ := month_within (isLeap date.year) (show (date.month - 1).toNat < 12 by omega)
  omega

theorem civil_toDay {date : Civil} (h : date.Valid) : civil date.toDay = date := by
  obtain ⟨hlow, hhigh⟩ := toDay_bounds h
  have hyear := yearOf_eq hlow hhigh
  have heq := makeDay_of_valid h
  obtain ⟨hmonth, hmonth', hday, hday'⟩ := h
  have hrest : (date.toDay - dayFromYear date.year).toNat =
      monthStart (isLeap date.year) (date.month - 1).toNat + (date.day - 1).toNat := by omega
  have hmonthOf := monthOf_start (isLeap date.year) (show (date.month - 1).toNat < 12 by omega)
    (show (date.day - 1).toNat < _ by omega)
  obtain ⟨year, month, day⟩ := date
  simp only [civil, hyear, hrest, hmonthOf] at *
  congr 1 <;> omega

theorem civil_valid (day : ℤ) : (civil day).Valid := by
  obtain ⟨hlow, hhigh⟩ := yearOf_bounds day
  rw [dayFromYear_succ] at hhigh
  obtain ⟨hmonth, hstart, hend⟩ := monthOf_bounds (isLeap (yearOf day))
    (show (day - dayFromYear (yearOf day)).toNat < _ by omega)
  obtain ⟨hsum, -⟩ := month_within (isLeap (yearOf day)) hmonth
  simp only [Civil.Valid, civil, Int.add_sub_cancel, Int.toNat_natCast]
  omega

theorem instantOf_eq {year month date hour minute : ℤ} (hyear : 100 ≤ year)
    (hreach : (makeDay year month date * 86400000 + (hour * 3600000 + minute * 60000)).natAbs ≤
      8640000000000000) :
    instantOf year month date hour minute =
      some (makeDay year month date * 86400000 + (hour * 3600000 + minute * 60000)) := by
  simp only [instantOf, if_neg (show ¬(0 ≤ year ∧ year ≤ 99) by omega), if_pos hreach]

theorem toDay_civil (day : ℤ) : (civil day).toDay = day := by
  have hvalid := makeDay_of_valid (civil_valid day)
  obtain ⟨hlow, hhigh⟩ := yearOf_bounds day
  rw [dayFromYear_succ] at hhigh
  obtain ⟨-, hstart, -⟩ := monthOf_bounds (isLeap (yearOf day))
    (show (day - dayFromYear (yearOf day)).toNat < _ by omega)
  rw [hvalid]
  simp only [civil, Int.add_sub_cancel, Int.toNat_natCast]
  omega

theorem toDay_lt_of_lt {a b : Civil} (ha : a.Valid) (hb : b.Valid)
    (h : a.year < b.year ∨ a.year = b.year ∧ (a.month < b.month ∨ a.month = b.month ∧ a.day < b.day)) :
    a.toDay < b.toDay := by
  obtain hyear | ⟨hyear, h⟩ := h
  · have hle := dayFromYear_le_iff.mpr (Int.add_one_le_iff.mpr hyear)
    exact (toDay_bounds ha).2.trans_le (hle.trans (toDay_bounds hb).1)
  · rw [makeDay_of_valid ha, makeDay_of_valid hb, hyear]
    obtain ⟨hmonth, hmonth', hday, hday'⟩ := ha
    obtain ⟨hmonth₂, hmonth₂', hday₂, hday₂'⟩ := hb
    rw [hyear] at hday'
    obtain hlt | ⟨heq, hlt⟩ := h
    · obtain ⟨hsum, -⟩ := month_within (isLeap b.year) (show (a.month - 1).toNat < 12 by omega)
      have hmono := monthStart_mono (isLeap b.year)
        (show (a.month - 1).toNat < (b.month - 1).toNat by omega) (by omega)
      omega
    · rw [heq]
      omega

/-- The days come in the order of years, months and days. -/
theorem toDay_lt_iff {a b : Civil} (ha : a.Valid) (hb : b.Valid) : a.toDay < b.toDay ↔
    a.year < b.year ∨ a.year = b.year ∧ (a.month < b.month ∨ a.month = b.month ∧ a.day < b.day) := by
  refine ⟨fun h => ?_, toDay_lt_of_lt ha hb⟩
  by_contra hnot
  by_cases hback : b.year < a.year ∨ b.year = a.year ∧ (b.month < a.month ∨ b.month = a.month ∧ b.day < a.day)
  · exact absurd (toDay_lt_of_lt hb ha hback) (by omega)
  · have hsame : a = b := by
      obtain ⟨year, month, day⟩ := a
      obtain ⟨year', month', day'⟩ := b
      simp only [Civil.mk.injEq] at hnot hback ⊢
      omega
    exact absurd h (by rw [hsame]; exact lt_irrefl _)

/-- A day of March comes at one distance from the end of its year. -/
theorem toDay_march (year day : ℤ) : (Civil.mk year 3 day).toDay = dayFromYear (year + 1) + day - 307 := by
  have hmarch : (Civil.mk year 3 day).toDay =
      dayFromYear (year + 0) + monthStart (isLeap (year + 0)) 2 + day - 1 := rfl
  have hlength : monthStart (isLeap year) 12 = monthStart (isLeap year) 2 + 306 := by
    cases isLeap year <;> rfl
  rw [hmarch, Int.add_zero, dayFromYear_succ, hlength]
  omega

theorem toDay_april (year day : ℤ) : (Civil.mk year 4 day).toDay = dayFromYear (year + 1) + day - 276 := by
  have hapril : (Civil.mk year 4 day).toDay =
      dayFromYear (year + 0) + monthStart (isLeap (year + 0)) 3 + day - 1 := rfl
  have hlength : monthStart (isLeap year) 12 = monthStart (isLeap year) 3 + 275 := by
    cases isLeap year <;> rfl
  rw [hapril, Int.add_zero, dayFromYear_succ, hlength]
  omega

/-- The age of the moon of the calendar at the beginning of a year, by its golden number and the
corrections for the leap days and for the moon that the centuries bring. -/
def epact (year : ℤ) : ℤ :=
  let golden := year % 19 + 1
  let century := year / 100 + 1
  let solar := 3 * century / 4 - 12
  let lunar := (8 * century + 5) / 25 - 5
  let age := (11 * golden + 20 + lunar - solar) % 30
  if age = 24 ∨ age = 25 ∧ 11 < golden then age + 1 else age

/-- The day of the full moon on or after the twenty-first of March. -/
def paschalMoon (year : ℤ) : ℤ :=
  (Civil.mk year 3 (if epact year ≤ 23 then 44 - epact year else 74 - epact year)).toDay

/-- The Sunday after the paschal full moon. -/
def computus (year : ℤ) : ℤ := paschalMoon year + 7 - weekDay (paschalMoon year)

example : (Civil.mk 2024 2 29).Valid ∧ civil (Civil.mk 2024 2 30).toDay = ⟨2024, 3, 1⟩ := by decide

end BaasConnector.Lib.Gregorian
