import BaasConnector.Lib.DecimalTexts
import BaasConnector.Lib.Gregorian
import BaasConnector.Lib.Loops

namespace BaasConnector.Reconciliation.Calendar

open BaasConnector.Lib.CodeUnits BaasConnector.Lib.DecimalTexts BaasConnector.Lib.Gregorian
open BaasConnector.Lib.Loops BaasConnector.Lib.Numerals

structure MonthDay where
  month : ℤ
  day : ℤ
deriving DecidableEq, Repr

def easterSunday (year : ℤ) : MonthDay :=
  let a := year.tmod 19
  let b := year / 100
  let c := year.tmod 100
  let d := b / 4
  let e := b.tmod 4
  let f := (b + 8) / 25
  let g := (b - f + 1) / 3
  let h := (19 * a + b - d - g + 15).tmod 30
  let i := c / 4
  let k := c.tmod 4
  let l := (32 + 2 * e + 2 * i - h - k).tmod 7
  let m := (a + 11 * h + 22 * l) / 451
  ⟨(h + l - 7 * m + 114) / 31, (h + l - 7 * m + 114).tmod 31 + 1⟩

structure CalendarOptions where
  treatChristmasEveAsHoliday : Bool := false

/-- A number as text, of which nothing is known where it is not one. -/
def number (value : Option ℤ) : Text :=
  value.elim (units "NaN") integer

def pad (value : Option ℤ) : Text := padStart 2 (number value)

def join (year month day : Option ℤ) : Text := number year ++ 0x2D :: (pad month ++ 0x2D :: pad day)

def parse (date : Text) : Option ℤ × Option ℤ × Option ℤ :=
  let parts := (date.splitOn 0x2D).map readInteger
  (parts[0]?.join, parts[1]?.join, parts[2]?.join)

/-- The day of a date, the months counted from zero, none where a part is missing. -/
def dateUTC (year month date : Option ℤ) : Option ℤ := do
  let year ← year
  let month ← month
  let date ← date
  (instantOf year month date 0 0).map dayOf

def shift (date : Text) (days : ℤ) : Text :=
  let (year, month, day) := parse date
  let movido := (dateUTC year (month.map (· - 1)) (day.map (· + days))).map civil
  join (movido.map (·.year)) (movido.map (·.month)) (movido.map (·.day))

def fixos : List Text :=
  ["01-01", "04-21", "05-01", "09-07", "10-12", "11-02", "11-15", "12-25"].map units

def conscienciaNegraDesde : ℤ := 2024

def offsets : List ℤ := [-48, -47, -2, 60]

def pascoa (year : Option ℤ) : Text :=
  let easter := year.map easterSunday
  join year (easter.map (·.month)) (easter.map (·.day))

def moveis (year : Option ℤ) : List Text := offsets.map fun offset => (shift (pascoa year) offset).drop 5

def holidays (options : CalendarOptions) (year : Option ℤ) : List Text :=
  fixos ++ (if year.any (conscienciaNegraDesde ≤ ·) then [units "11-20"] else []) ++
    (if options.treatChristmasEveAsHoliday then [units "12-24", units "12-31"] else []) ++
    moveis year

def isBusinessDay (options : CalendarOptions) (date : Text) : Bool :=
  let (year, month, day) := parse date
  let semana := (dateUTC year (month.map (· - 1)) day).map weekDay
  if semana = some 0 ∨ semana = some 6 then false
  else !(holidays options year).contains (pad month ++ 0x2D :: pad day)

structure Stepper where
  atual : Text
  restantes : ℕ
deriving DecidableEq

def Stepper.turn (options : CalendarOptions) (passo : ℤ) (s : Stepper) : Stepper :=
  let atual := shift s.atual passo
  ⟨atual, if isBusinessDay options atual then s.restantes - 1 else s.restantes⟩

def passo (days : ℤ) : ℤ := if 0 < days then 1 else -1

def addBusinessDays (options : CalendarOptions) (fuel : ℕ) (date : Text) (days : ℤ) : Option Text :=
  if days = 0 then some date
  else
    (whileLoop (fun s : Stepper => decide (0 < s.restantes)) (Stepper.turn options (passo days)) fuel
      ⟨date, days.natAbs⟩).map (·.atual)

structure Counter where
  atual : Text
  total : ℕ
deriving DecidableEq

def Counter.turn (options : CalendarOptions) (s : Counter) : Counter :=
  let atual := shift s.atual 1
  ⟨atual, if isBusinessDay options atual then s.total + 1 else s.total⟩

def businessDaysBetween (options : CalendarOptions) (fuel : ℕ) (start stop : Text) : Option ℕ :=
  if start = stop then some 0
  else
    let inicio := if less start stop then start else stop
    let fim := if less start stop then stop else start
    (whileLoop (fun s : Counter => less s.atual fim) (Counter.turn options) fuel ⟨inicio, 0⟩).map (·.total)

def text (day : ℤ) : Text :=
  join (some (civil day).year) (some (civil day).month) (some (civil day).day)

/-- The days of the years whose dates the calendar is for. -/
def InYears (day : ℤ) : Prop := 1583 ≤ (civil day).year ∧ (civil day).year ≤ 9999

instance (day : ℤ) : Decidable (InYears day) := by unfold InYears; infer_instance

theorem dash_notMem {text : Text} (h : Digits text) : 0x2D ∉ text := by
  intro hmem
  have hdigit := h _ hmem
  exact absurd hdigit (by decide)

theorem join_some (year month day : ℤ) :
    join (some year) (some month) (some day) = integer year ++ 0x2D :: (pad2 month ++ 0x2D :: pad2 day) := rfl

theorem parse_join {year month day : ℤ} (hyear : 0 ≤ year) (hmonth : 0 ≤ month) (hday : 0 ≤ day) :
    parse (join (some year) (some month) (some day)) = (some year, some month, some day) := by
  have hsplit : (join (some year) (some month) (some day)).splitOn 0x2D =
      [integer year, pad2 month, pad2 day] := by
    rw [join_some, List.splitOn_append_cons_self_of_not_mem (dash_notMem (digits_integer hyear)),
      List.splitOn_append_cons_self_of_not_mem (dash_notMem (digits_pad2 hmonth)),
      List.splitOn_eq_singleton (dash_notMem (digits_pad2 hday))]
  simp only [parse, hsplit, List.map_cons, List.map_nil, readInteger_integer hyear, readInteger_pad2 hmonth,
    readInteger_pad2 hday]
  rfl

theorem parse_text {day : ℤ} (h : 0 ≤ (civil day).year) :
    parse (text day) = (some (civil day).year, some (civil day).month, some (civil day).day) := by
  obtain ⟨hmonth, -, hday, -⟩ := civil_valid day
  exact parse_join h (Int.le_trans (by decide) hmonth) (Int.le_trans (by decide) hday)

theorem inYears_iff {day : ℤ} : InYears day ↔ dayFromYear 1583 ≤ day ∧ day < dayFromYear 10000 := by
  obtain ⟨hlow, hhigh⟩ := yearOf_bounds day
  constructor
  · rintro ⟨hsince, huntil⟩
    exact ⟨(dayFromYear_le_iff.mpr hsince).trans hlow,
      hhigh.trans_le (dayFromYear_le_iff.mpr (Int.add_le_add_right huntil 1))⟩
  · rintro ⟨hsince, huntil⟩
    refine ⟨Int.lt_add_one_iff.mp (dayFromYear_lt_iff.mp (hsince.trans_lt hhigh)), ?_⟩
    exact Int.lt_add_one_iff.mp (dayFromYear_lt_iff.mp (hlow.trans_lt huntil))

theorem year_nonneg {day : ℤ} (h : -719528 ≤ day) : 0 ≤ (civil day).year := by
  have hlt := (yearOf_bounds day).2
  have hstart : dayFromYear 0 ≤ day := h
  exact Int.lt_add_one_iff.mp (dayFromYear_lt_iff.mp (hstart.trans_lt hlt))

theorem shift_text {day days : ℤ} (hyear : 100 ≤ (civil day).year)
    (hreach : (day + days).natAbs ≤ 100000000) :
    shift (text day) days = text (day + days) := by
  have hmoved : makeDay (civil day).year ((civil day).month - 1) ((civil day).day + days) = day + days := by
    have h := toDay_civil day
    rw [Civil.toDay] at h
    simp only [makeDay] at h ⊢
    omega
  have hdate : dateUTC (some (civil day).year) (some ((civil day).month - 1))
      (some ((civil day).day + days)) = some (day + days) := by
    simp only [dateUTC, Option.bind_eq_bind, Option.bind_some]
    rw [instantOf_eq hyear (by omega), hmoved, Option.map_some, dayOf]
    congr 1
    omega
  simp only [shift, parse_text (show 0 ≤ (civil day).year by omega), Option.map_some, hdate]
  rfl

/-- The texts of dates with years of four digits are ordered as the dates. -/
theorem less_text {m n : ℤ} (hm : InYears m) (hn : InYears n) : less (text m) (text n) = true ↔ m < n := by
  obtain ⟨hyear, hyear'⟩ := hm
  obtain ⟨hyear₂, hyear₂'⟩ := hn
  obtain ⟨hmonth, hmonth', hday, hday'⟩ := civil_valid m
  obtain ⟨hmonth₂, hmonth₂', hday₂, hday₂'⟩ := civil_valid n
  have hlong := daysIn_le (isLeap (civil m).year) (show ((civil m).month - 1).toNat < 12 by omega)
  have hlong₂ := daysIn_le (isLeap (civil n).year) (show ((civil n).month - 1).toNat < 12 by omega)
  have hnumber := integer_length (show 1000 ≤ (civil m).year by omega) hyear'
  have hnumber₂ := integer_length (show 1000 ≤ (civil n).year by omega) hyear₂'
  have hpad := pad2_length (show 0 ≤ (civil m).month by omega) (by omega)
  have hpad₂ := pad2_length (show 0 ≤ (civil n).month by omega) (by omega)
  have hdays := toDay_lt_iff (civil_valid m) (civil_valid n)
  rw [toDay_civil, toDay_civil] at hdays
  rw [hdays, text, text, join_some, join_some, less_append (by rw [hnumber, hnumber₂]), less_cons,
    less_append (by rw [hpad, hpad₂]), less_cons,
    less_integer (by omega) (by omega) (by rw [hnumber, hnumber₂]),
    less_pad2 (by omega) (by omega) (by omega) (by omega),
    less_pad2 (by omega) (by omega) (by omega) (by omega)]
  have hirrefl : ¬(0x2D : UInt16) < 0x2D := by decide
  simp only [hirrefl, false_or, true_and]
  have hyears : integer (civil m).year = integer (civil n).year ↔
      (civil m).year = (civil n).year :=
    ⟨integer_inj (by omega) (by omega), fun h => by rw [h]⟩
  have hmonths : pad2 (civil m).month = pad2 (civil n).month ↔
      (civil m).month = (civil n).month :=
    ⟨pad2_inj (by omega) (by omega), fun h => by rw [h]⟩
  rw [hyears, hmonths]

theorem text_inj {m n : ℤ} (hm : 0 ≤ (civil m).year) (hn : 0 ≤ (civil n).year) (h : text m = text n) :
    m = n := by
  have hparse := parse_text hm
  rw [h, parse_text hn] at hparse
  simp only [Prod.mk.injEq, Option.some.injEq] at hparse
  obtain ⟨hyear, hmonth, hday⟩ := hparse
  have hcivil : civil m = civil n := by
    cases hm' : civil m
    cases hn' : civil n
    simp only [hm', hn'] at hyear hmonth hday
    rw [hyear, hmonth, hday]
  rw [← toDay_civil m, hcivil, toDay_civil]

end BaasConnector.Reconciliation.Calendar
