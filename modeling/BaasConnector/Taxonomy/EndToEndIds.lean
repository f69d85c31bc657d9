import BaasConnector.Lib.DecimalTexts
import BaasConnector.Lib.Gregorian
import BaasConnector.Taxonomy.PixKeys

namespace BaasConnector.Taxonomy.EndToEndIds

open BaasConnector.Lib.CodeUnits BaasConnector.Lib.DecimalTexts BaasConnector.Lib.Gregorian
open BaasConnector.Lib.JsonText BaasConnector.Lib.Numerals
open BaasConnector.Taxonomy.Errors BaasConnector.Taxonomy.PixKeys

/-- The letter of a payment or of a return. -/
inductive Letter
  | E | D
deriving DecidableEq, Repr

def Letter.unit : Letter → UInt16
  | .E => 0x45
  | .D => 0x44

def isAlphanumeric (unit : UInt16) : Bool := isDigit unit || (0x61 ≤ lower unit && lower unit ≤ 0x7A)

def idClasses (letter : Letter) : List (UInt16 → Bool) :=
  [(· == letter.unit)] ++ (List.replicate 8 isDigit ++ (List.replicate 12 isDigit ++
    List.replicate 11 isAlphanumeric))

def isValidEndToEndId (value : Text) : Bool := fits (idClasses .E) value

def isValidReturnId (value : Text) : Bool := fits (idClasses .D) value

def isValidIspb (value : Text) : Bool := fits (List.replicate 8 isDigit) value

structure ParsedEndToEndId where
  letter : Letter
  ispb : Text
  createdAt : Option ℤ
  sequence : Text
deriving DecidableEq

def parseEndToEndId (value : Text) : Except Refusal ParsedEndToEndId :=
  if !isValidEndToEndId value && !isValidReturnId value then
    .error ⟨.INVALID_END_TO_END_ID, units "EndToEndId fora do formato do BACEN: " ++ quote value⟩
  else
    let year : ℤ := Lib.Numerals.value (slice 9 13 value)
    let month : ℤ := Lib.Numerals.value (slice 13 15 value)
    let day : ℤ := Lib.Numerals.value (slice 15 17 value)
    let hour : ℤ := Lib.Numerals.value (slice 17 19 value)
    let minute : ℤ := Lib.Numerals.value (slice 19 21 value)
    .ok {
      letter := if value.head? = some Letter.D.unit then .D else .E
      ispb := slice 1 9 value
      createdAt := instantOf year (month - 1) day hour minute
      sequence := value.drop 21
    }

def ALPHANUM : Text := units "ABCDEFGHIJKLMNOPQRSTUVWXYZabcdefghijklmnopqrstuvwxyz0123456789"

structure BuildOptions where
  ispb : Text
  time : ℤ
  letter : Letter := .E
  randomSuffix : Text := []

def stamp (time : ℤ) : Text :=
  let date := civil (dayOf time)
  integer date.year ++ (pad2 date.month ++ (pad2 date.day ++ (pad2 (hourOf time) ++ pad2 (minuteOf time))))

/-- An id whose suffix is drawn, letter by letter, where none is given. -/
def buildEndToEndId (draw : ℕ → ℕ) (options : BuildOptions) : Except Refusal Text :=
  if !isValidIspb options.ispb then .error ⟨.VALIDATION_ERROR, units "ISPB invalido: " ++ options.ispb⟩
  else
    let suffix :=
      if options.randomSuffix = [] then (List.range 11).map fun place => ALPHANUM.getD (draw place) 0
      else options.randomSuffix
    if suffix.length ≠ 11 || !fits (List.replicate 11 isAlphanumeric) suffix then
      .error ⟨.VALIDATION_ERROR, units "randomSuffix deve ter 11 caracteres alfanumericos"⟩
    else .ok (options.letter.unit :: (options.ispb ++ (stamp options.time ++ suffix)))

example : buildEndToEndId id ⟨units "99999001", 1787925780000, .E, units "ABCDE123456"⟩ =
    .ok (units "E99999001202608281403ABCDE123456") := by decide

/-- An id by its parts. -/
structure Spelling where
  letter : Letter
  ispb : Text
  year : Text
  month : Text
  day : Text
  hour : Text
  minute : Text
  sequence : Text
  ispb_fits : fits (List.replicate 8 isDigit) ispb = true
  year_fits : fits (List.replicate 4 isDigit) year = true
  month_fits : fits (List.replicate 2 isDigit) month = true
  day_fits : fits (List.replicate 2 isDigit) day = true
  hour_fits : fits (List.replicate 2 isDigit) hour = true
  minute_fits : fits (List.replicate 2 isDigit) minute = true
  sequence_fits : fits (List.replicate 11 isAlphanumeric) sequence = true

def Spelling.stamp (s : Spelling) : Text := s.year ++ (s.month ++ (s.day ++ (s.hour ++ s.minute)))

def Spelling.text (s : Spelling) : Text := s.letter.unit :: (s.ispb ++ (s.stamp ++ s.sequence))

theorem fits_digits {length : ℕ} {text : Text} :
    fits (List.replicate length isDigit) text = true ↔ text.length = length ∧ Digits text := fits_replicate

theorem split_digits_at {m n : ℕ} {text : Text} (h : fits (List.replicate (m + n) isDigit) text = true) :
    ∃ a b, text = a ++ b ∧ fits (List.replicate m isDigit) a = true ∧
      fits (List.replicate n isDigit) b = true := by
  rw [List.replicate_add] at h
  exact fits_append.mp h

/-- What is accepted with a letter are the spellings with that letter. -/
theorem fits_idClasses {letter : Letter} {value : Text} :
    fits (idClasses letter) value = true ↔ ∃ s : Spelling, s.letter = letter ∧ s.text = value := by
  constructor
  · intro h
    obtain ⟨first, rest, rfl, hfirst, h⟩ := fits_append.mp h
    obtain ⟨ispb, rest, rfl, hispb, h⟩ := fits_append.mp h
    obtain ⟨digits, sequence, rfl, hdigits, hsequence⟩ := fits_append.mp h
    obtain ⟨year, rest, rfl, hyear, hrest⟩ := @split_digits_at 4 8 digits hdigits
    obtain ⟨month, rest, rfl, hmonth, hrest⟩ := @split_digits_at 2 6 rest hrest
    obtain ⟨day, rest, rfl, hday, hrest⟩ := @split_digits_at 2 4 rest hrest
    obtain ⟨hour, minute, rfl, hhour, hminute⟩ := @split_digits_at 2 2 rest hrest
    refine ⟨⟨letter, ispb, year, month, day, hour, minute, sequence, hispb, hyear, hmonth, hday, hhour,
      hminute, hsequence⟩, rfl, ?_⟩
    obtain ⟨unit, rfl⟩ := List.length_eq_one_iff.mp (length_of_fits hfirst)
    rw [fits, Bool.and_eq_true, beq_iff_eq] at hfirst
    rw [hfirst.1]
    rfl
  · rintro ⟨s, rfl, rfl⟩
    have hstamp : fits (List.replicate 12 isDigit) s.stamp = true := by
      rw [fits_digits, Spelling.stamp]
      simp only [List.length_append, digits_append, fits_digits.mp s.year_fits, fits_digits.mp s.month_fits,
        fits_digits.mp s.day_fits, fits_digits.mp s.hour_fits, fits_digits.mp s.minute_fits, and_self]
    refine fits_append.mpr ⟨[s.letter.unit], _, rfl, ?_, ?_⟩
    · rw [fits, beq_self_eq_true]
      rfl
    · exact fits_append.mpr ⟨_, _, rfl, s.ispb_fits, fits_append.mpr ⟨_, _, rfl, hstamp, s.sequence_fits⟩⟩

theorem accepted_iff {value : Text} :
    isValidEndToEndId value = true ∨ isValidReturnId value = true ↔ ∃ s : Spelling, s.text = value := by
  rw [isValidEndToEndId, isValidReturnId, fits_idClasses, fits_idClasses]
  constructor
  · rintro (⟨s, -, h⟩ | ⟨s, -, h⟩)
    · exact ⟨s, h⟩
    · exact ⟨s, h⟩
  · rintro ⟨s, h⟩
    cases hletter : s.letter with
    | E => exact Or.inl ⟨s, hletter, h⟩
    | D => exact Or.inr ⟨s, hletter, h⟩

/-- The instant that the digits of an id give. -/
def Spelling.instant (s : Spelling) : Option ℤ :=
  instantOf (value s.year) (value s.month - 1) (value s.day) (value s.hour) (value s.minute)

theorem Spelling.lengths (s : Spelling) : s.ispb.length = 8 ∧ s.year.length = 4 ∧ s.month.length = 2 ∧
    s.day.length = 2 ∧ s.hour.length = 2 ∧ s.minute.length = 2 :=
  ⟨length_of_fits s.ispb_fits, length_of_fits s.year_fits, length_of_fits s.month_fits,
    length_of_fits s.day_fits, length_of_fits s.hour_fits, length_of_fits s.minute_fits⟩

theorem Spelling.slice_eq (s : Spelling) {start stop : ℕ} {before part after : Text}
    (htext : s.text = before ++ part ++ after) (hbefore : before.length = start)
    (hpart : start + part.length = stop) : slice start stop s.text = part := by
  rw [htext]
  exact slice_middle after hbefore hpart

/-- The parts of an id stand at their places. -/
theorem Spelling.slices (s : Spelling) : slice 1 9 s.text = s.ispb ∧ slice 9 13 s.text = s.year ∧
    slice 13 15 s.text = s.month ∧ slice 15 17 s.text = s.day ∧ slice 17 19 s.text = s.hour ∧
    slice 19 21 s.text = s.minute ∧ s.text.drop 21 = s.sequence := by
  obtain ⟨hispb, hyear, hmonth, hday, hhour, hminute⟩ := s.lengths
  refine ⟨?_, ?_, ?_, ?_, ?_, ?_, ?_⟩
  · exact @Spelling.slice_eq s 1 9 [s.letter.unit] _ (s.stamp ++ s.sequence) rfl rfl (by omega)
  · exact @Spelling.slice_eq s 9 13 (s.letter.unit :: s.ispb) _
      (s.month ++ (s.day ++ (s.hour ++ s.minute)) ++ s.sequence)
      (by simp [Spelling.text, Spelling.stamp]) (by simp [hispb]) (by omega)
  · exact @Spelling.slice_eq s 13 15 (s.letter.unit :: (s.ispb ++ s.year)) _
      (s.day ++ (s.hour ++ s.minute) ++ s.sequence)
      (by simp [Spelling.text, Spelling.stamp]) (by simp [hispb, hyear]) (by omega)
  · exact @Spelling.slice_eq s 15 17 (s.letter.unit :: (s.ispb ++ (s.year ++ s.month))) _
      (s.hour ++ s.minute ++ s.sequence)
      (by simp [Spelling.text, Spelling.stamp]) (by simp [hispb, hyear, hmonth]) (by omega)
  · exact @Spelling.slice_eq s 17 19 (s.letter.unit :: (s.ispb ++ (s.year ++ (s.month ++ s.day)))) _
      (s.minute ++ s.sequence)
      (by simp [Spelling.text, Spelling.stamp]) (by simp [hispb, hyear, hmonth, hday]) (by omega)
  · exact @Spelling.slice_eq s 19 21
      (s.letter.unit :: (s.ispb ++ (s.year ++ (s.month ++ (s.day ++ s.hour))))) _
      s.sequence (by simp [Spelling.text, Spelling.stamp])
      (by simp [hispb, hyear, hmonth, hday, hhour]) (by omega)
  · have htext : s.text = (s.letter.unit :: (s.ispb ++ s.stamp)) ++ s.sequence := by simp [Spelling.text]
    rw [htext, List.drop_left']
    simp [Spelling.stamp, hispb, hyear, hmonth, hday, hhour, hminute]

theorem parse_spelling (s : Spelling) :
    parseEndToEndId s.text = .ok ⟨s.letter, s.ispb, s.instant, s.sequence⟩ := by
  obtain ⟨hispb, hyear, hmonth, hday, hhour, hminute, hsequence⟩ := s.slices
  have haccepted : ¬(!isValidEndToEndId s.text && !isValidReturnId s.text) = true := by
    have h := accepted_iff.mpr ⟨s, rfl⟩
    rw [Bool.and_eq_true, Bool.not_eq_true', Bool.not_eq_true']
    rintro ⟨hpayment, hreturn⟩
    rw [hpayment, hreturn] at h
    obtain h | h := h <;> cases h
  have hletter : (if s.text.head? = some Letter.D.unit then Letter.D else Letter.E) = s.letter := by
    rw [Spelling.text, List.head?_cons]
    cases s.letter <;> decide
  rw [parseEndToEndId, if_neg haccepted]
  simp only [hispb, hyear, hmonth, hday, hhour, hminute, hsequence, hletter]
  rfl

theorem build_spelling (draw : ℕ → ℕ) (s : Spelling) (time : ℤ) :
    buildEndToEndId draw ⟨s.ispb, time, s.letter, s.sequence⟩ =
      .ok (s.letter.unit :: (s.ispb ++ (stamp time ++ s.sequence))) := by
  have hlen := length_of_fits s.sequence_fits
  have hne : s.sequence ≠ [] := fun h => by rw [h] at hlen; cases hlen
  have hfits : (s.sequence.length ≠ 11 || !fits (List.replicate 11 isAlphanumeric) s.sequence) = false := by
    rw [hlen, s.sequence_fits]
    rfl
  simp only [buildEndToEndId, isValidIspb, s.ispb_fits, Bool.not_true, Bool.false_eq_true, if_false,
    if_neg hne, hfits]

/-- The timestamp of an id is a date and a time of day of a calendar. -/
def RealTimestamp (id : Text) : Prop :=
  (Civil.mk (value (slice 9 13 id)) (value (slice 13 15 id)) (value (slice 15 17 id))).Valid ∧
    value (slice 17 19 id) < 24 ∧ value (slice 19 21 id) < 60

instance (id : Text) : Decidable (RealTimestamp id) := by unfold RealTimestamp; infer_instance

/-- The date and the time of day of an id are those of a calendar. -/
def NamesMinute (s : Spelling) : Prop :=
  (Civil.mk (value s.year) (value s.month) (value s.day)).Valid ∧ value s.hour < 24 ∧ value s.minute < 60

theorem integer_value {text : Text} (h : fits (List.replicate 4 isDigit) text = true)
    (hyear : 1000 ≤ value text) :
    integer (value text) = text := by
  obtain ⟨hlen, hdigits⟩ := fits_digits.mp h
  rw [integer_of_nonneg (Int.natCast_nonneg _), Int.toNat_natCast]
  have hne : text ≠ [] := fun hnil => by rw [hnil] at hlen; cases hlen
  refine numeral_value hdigits hne (Or.inl fun hzero => ?_)
  obtain ⟨unit, rest, rfl⟩ := List.exists_cons_of_ne_nil hne
  rw [List.head?_cons, Option.some.injEq] at hzero
  have hrest := value_lt (digits_cons.mp hdigits).2
  rw [Nat.succ.inj hlen] at hrest
  rw [value_cons, hzero, show (0x30 : UInt16).toNat - 0x30 = 0 from rfl, Nat.zero_mul, Nat.zero_add] at hyear
  omega

theorem pad2_value {text : Text} (h : fits (List.replicate 2 isDigit) text = true) :
    pad2 (value text) = text := by
  obtain ⟨hlen, hdigits⟩ := fits_digits.mp h
  rw [pad2, integer_of_nonneg (Int.natCast_nonneg _), Int.toNat_natCast, pad_value hdigits (by decide) hlen]

theorem value_pad2 {n : ℤ} (h : 0 ≤ n) : (value (pad2 n) : ℤ) = n := by
  rw [pad2, value_padStart, value_integer h, Int.toNat_of_nonneg h]

theorem integer_nonneg {n : ℤ} (h : Digits (integer n)) : 0 ≤ n := by
  by_contra hneg
  rw [integer, decide_eq_true (not_le.mp hneg), sign, if_pos rfl] at h
  exact absurd (digits_cons.mp h).1 (by decide)

theorem time_bounds (time : ℤ) : 0 ≤ hourOf time ∧ hourOf time < 24 ∧ 0 ≤ minuteOf time ∧
    minuteOf time < 60 := by
  rw [hourOf, minuteOf]
  omega

/-- The parts of a stamp are two digits each, behind the year. -/
theorem stamp_lengths (time : ℤ) : (pad2 (civil (dayOf time)).month).length = 2 ∧
    (pad2 (civil (dayOf time)).day).length = 2 ∧ (pad2 (hourOf time)).length = 2 ∧
    (pad2 (minuteOf time)).length = 2 := by
  obtain ⟨hmonth, hmonth', hday, hday'⟩ := civil_valid (dayOf time)
  have hlong := daysIn_le (isLeap (civil (dayOf time)).year)
    (show ((civil (dayOf time)).month - 1).toNat < 12 by omega)
  have htime := time_bounds time
  exact ⟨pad2_length (by omega) (by omega), pad2_length (by omega) (by omega),
    pad2_length (by omega) (by omega), pad2_length (by omega) (by omega)⟩

/-- The spelling of an instant in a year of four digits. -/
theorem spelling_of_time (letter : Letter) {ispb sequence : Text} {time : ℤ}
    (hispb : isValidIspb ispb = true) (hsequence : fits (List.replicate 11 isAlphanumeric) sequence = true)
    (hlow : 1000 ≤ (civil (dayOf time)).year) (hhigh : (civil (dayOf time)).year ≤ 9999) :
    ∃ s : Spelling, s.letter = letter ∧ s.ispb = ispb ∧ s.sequence = sequence ∧ s.stamp = stamp time ∧
      s.instant = instantOf (civil (dayOf time)).year ((civil (dayOf time)).month - 1)
        (civil (dayOf time)).day (hourOf time) (minuteOf time) := by
  obtain ⟨hmonth, -, hday, -⟩ := civil_valid (dayOf time)
  obtain ⟨hhour, -, hminute, -⟩ := time_bounds time
  obtain ⟨hmonth₂, hday₂, hhour₂, hminute₂⟩ := stamp_lengths time
  refine ⟨⟨letter, ispb, integer (civil (dayOf time)).year, pad2 (civil (dayOf time)).month,
    pad2 (civil (dayOf time)).day, pad2 (hourOf time), pad2 (minuteOf time), sequence, hispb,
    fits_digits.mpr ⟨integer_length hlow hhigh, digits_integer (by omega)⟩,
    fits_digits.mpr ⟨hmonth₂, digits_pad2 (by omega)⟩, fits_digits.mpr ⟨hday₂, digits_pad2 (by omega)⟩,
    fits_digits.mpr ⟨hhour₂, digits_pad2 hhour⟩, fits_digits.mpr ⟨hminute₂, digits_pad2 hminute⟩,
    hsequence⟩, rfl, rfl, rfl, rfl, ?_⟩
  rw [Spelling.instant]
  simp only [value_pad2 hhour, value_pad2 hminute, value_pad2 (show 0 ≤ (civil (dayOf time)).month by omega),
    value_pad2 (show 0 ≤ (civil (dayOf time)).day by omega),
    value_integer (show 0 ≤ (civil (dayOf time)).year by omega)]
  rw [Int.toNat_of_nonneg (by omega)]

theorem parts_of_time (time : ℤ) :
    dayOf time * 86400000 + (hourOf time * 3600000 + minuteOf time * 60000) = time - time % 60000 := by
  rw [dayOf, hourOf, minuteOf]
  omega

theorem instant_of_time {time : ℤ} (hlow : 1000 ≤ (civil (dayOf time)).year)
    (hhigh : (civil (dayOf time)).year ≤ 9999) :
    instantOf (civil (dayOf time)).year ((civil (dayOf time)).month - 1) (civil (dayOf time)).day
      (hourOf time) (minuteOf time) = some (time - time % 60000) := by
  have hday : makeDay (civil (dayOf time)).year ((civil (dayOf time)).month - 1) (civil (dayOf time)).day =
      dayOf time := toDay_civil (dayOf time)
  have hparts := parts_of_time time
  obtain ⟨hstart, hend⟩ := yearOf_bounds (dayOf time)
  have hstart' : dayFromYear 1000 ≤ dayOf time := (dayFromYear_le_iff.mpr hlow).trans hstart
  have hend' : dayOf time < dayFromYear 10000 :=
    hend.trans_le (dayFromYear_le_iff.mpr (Int.add_le_add_right hhigh 1))
  have hstart₂ : -354285 ≤ dayOf time := hstart'
  have hend₂ : dayOf time < 2932897 := hend'
  have hbounds := time_bounds time
  rw [instantOf_eq (by omega) (by rw [hday]; omega), hday, hparts]

/-- An id that is built is parsed back, down to the minute. -/
theorem parse_build (draw : ℕ → ℕ) (letter : Letter) {ispb sequence : Text} {time : ℤ}
    (hispb : isValidIspb ispb = true) (hsequence : fits (List.replicate 11 isAlphanumeric) sequence = true)
    (hlow : 1000 ≤ (civil (dayOf time)).year) (hhigh : (civil (dayOf time)).year ≤ 9999) :
    ∃ id, buildEndToEndId draw ⟨ispb, time, letter, sequence⟩ = .ok id ∧
      parseEndToEndId id = .ok ⟨letter, ispb, some (time - time % 60000), sequence⟩ := by
  obtain ⟨s, rfl, rfl, rfl, hstamp, hinstant⟩ := spelling_of_time letter hispb hsequence hlow hhigh
  refine ⟨s.text, ?_, ?_⟩
  · rw [build_spelling, ← hstamp]
    rfl
  · rw [parse_spelling, hinstant, instant_of_time hlow hhigh]

theorem value_of_fits {length : ℕ} {text : Text} (h : fits (List.replicate length isDigit) text = true) :
    value text < 10 ^ length := by
  obtain ⟨rfl, hdigits⟩ := fits_digits.mp h
  exact value_lt hdigits

/-- The instant that any digits give, out of the range of dates too. -/
theorem exists_instant (s : Spelling) (hyear : 1000 ≤ value s.year) : ∃ time, s.instant = some time ∧
    time = makeDay (value s.year) (value s.month - 1) (value s.day) * 86400000 +
      (value s.hour * 3600000 + value s.minute * 60000) := by
  have hlong := value_of_fits s.year_fits
  have hmonth := value_of_fits s.month_fits
  have hday := value_of_fits s.day_fits
  have hhour := value_of_fits s.hour_fits
  have hminute := value_of_fits s.minute_fits
  have hnear := dayFromYear_near ((value s.year : ℤ) + ((value s.month : ℤ) - 1) / 12)
  have hstart := monthStart_le (isLeap ((value s.year : ℤ) + ((value s.month : ℤ) - 1) / 12))
    (((value s.month : ℤ) - 1) % 12).toNat
  refine ⟨_, instantOf_eq (by omega) ?_, rfl⟩
  rw [makeDay]
  omega

theorem stamp_of_names {s : Spelling} (hyear : 1000 ≤ value s.year) (h : NamesMinute s) {time : ℤ}
    (htime : time = makeDay (value s.year) (value s.month - 1) (value s.day) * 86400000 +
      (value s.hour * 3600000 + value s.minute * 60000)) : stamp time = s.stamp := by
  obtain ⟨hdate, hhour, hminute⟩ := h
  have hday : dayOf time = (Civil.mk (value s.year) (value s.month) (value s.day)).toDay := by
    change dayOf time = makeDay (value s.year) (value s.month - 1) (value s.day)
    rw [dayOf, htime]
    omega
  have hhour' : hourOf time = value s.hour := by
    rw [hourOf, htime]
    omega
  have hminute' : minuteOf time = value s.minute := by
    rw [minuteOf, htime]
    omega
  rw [stamp]
  simp only [hday, civil_toDay hdate, hhour', hminute']
  rw [integer_value s.year_fits hyear, pad2_value s.month_fits, pad2_value s.day_fits, pad2_value s.hour_fits,
    pad2_value s.minute_fits, Spelling.stamp]

theorem names_of_stamp {s : Spelling} {time : ℤ} (h : stamp time = s.stamp) : NamesMinute s := by
  obtain ⟨-, hyear, hmonth, hday, hhour, hminute⟩ := s.lengths
  obtain ⟨hmonth₂, hday₂, hhour₂, hminute₂⟩ := stamp_lengths time
  have hvalid := civil_valid (dayOf time)
  obtain ⟨hlow, hhigh, hlow', hhigh'⟩ := time_bounds time
  have hlen := congrArg List.length h
  simp only [stamp, Spelling.stamp, List.length_append] at hlen
  obtain ⟨hy, h⟩ := List.append_inj h (by omega)
  obtain ⟨hmo, h⟩ := List.append_inj h (by omega)
  obtain ⟨hd, h⟩ := List.append_inj h (by omega)
  obtain ⟨hh, hmi⟩ := List.append_inj h (by omega)
  have hpos := integer_nonneg (hy ▸ (fits_digits.mp s.year_fits).2)
  have hyear' : (value s.year : ℤ) = (civil (dayOf time)).year := by
    rw [← hy, value_integer hpos, Int.toNat_of_nonneg hpos]
  have hmonth' : (value s.month : ℤ) = (civil (dayOf time)).month := by
    rw [← hmo, value_pad2 (by have := hvalid.1; omega)]
  have hday' : (value s.day : ℤ) = (civil (dayOf time)).day := by
    rw [← hd, value_pad2 (by have := hvalid.2.2.1; omega)]
  have hhour' : (value s.hour : ℤ) = hourOf time := by rw [← hh, value_pad2 hlow]
  have hminute' : (value s.minute : ℤ) = minuteOf time := by rw [← hmi, value_pad2 hlow']
  refine ⟨?_, by omega, by omega⟩
  rw [hyear', hmonth', hday']
  exact hvalid

theorem rebuild_iff (draw : ℕ → ℕ) (s : Spelling) (hyear : 1000 ≤ value s.year) :
    ∃ time, parseEndToEndId s.text = .ok ⟨s.letter, s.ispb, some time, s.sequence⟩ ∧
      (buildEndToEndId draw ⟨s.ispb, time, s.letter, s.sequence⟩ = .ok s.text ↔ NamesMinute s) := by
  obtain ⟨time, hinstant, htime⟩ := exists_instant s hyear
  refine ⟨time, by rw [parse_spelling, hinstant], ?_⟩
  rw [build_spelling, Spelling.text, Except.ok.injEq, List.cons.injEq, List.append_right_inj,
    List.append_left_inj]
  exact ⟨fun h => names_of_stamp h.2, fun h => ⟨rfl, stamp_of_names hyear h htime⟩⟩

theorem realTimestamp_iff (s : Spelling) : RealTimestamp s.text ↔ NamesMinute s := by
  obtain ⟨-, hyear, hmonth, hday, hhour, hminute, -⟩ := s.slices
  rw [RealTimestamp, hyear, hmonth, hday, hhour, hminute, NamesMinute]

/-- What is built is parsed back, and what is parsed is built back where its timestamp is a real one. -/
theorem end_to_end_round_trip (draw : ℕ → ℕ) :
    (∀ (letter : Letter) (ispb sequence : Text) (time : ℤ), isValidIspb ispb = true →
      fits (List.replicate 11 isAlphanumeric) sequence = true →
      1000 ≤ (civil (dayOf time)).year → (civil (dayOf time)).year ≤ 9999 →
      ∃ id, buildEndToEndId draw ⟨ispb, time, letter, sequence⟩ = .ok id ∧
        parseEndToEndId id = .ok ⟨letter, ispb, some (time - time % 60000), sequence⟩) ∧
    ∀ id : Text, isValidEndToEndId id = true ∨ isValidReturnId id = true → 1000 ≤ value (slice 9 13 id) →
      ((∃ letter ispb time sequence, parseEndToEndId id = .ok ⟨letter, ispb, some time, sequence⟩ ∧
        buildEndToEndId draw ⟨ispb, time, letter, sequence⟩ = .ok id) ↔ RealTimestamp id) := by
  refine ⟨fun letter ispb sequence time => parse_build draw letter, fun id hid hyear => ?_⟩
  obtain ⟨s, rfl⟩ := accepted_iff.mp hid
  rw [s.slices.2.1] at hyear
  obtain ⟨time, hparse, hbuild⟩ := rebuild_iff draw s hyear
  rw [realTimestamp_iff, ← hbuild]
  constructor
  · rintro ⟨letter, ispb, other, sequence, hother, h⟩
    rw [hparse, Except.ok.injEq, ParsedEndToEndId.mk.injEq, Option.some.injEq] at hother
    obtain ⟨rfl, rfl, rfl, rfl⟩ := hother
    exact h
  · exact fun h => ⟨_, _, _, _, hparse, h⟩

theorem end_to_end_round_trip_payment :
    ∃ id, buildEndToEndId (fun place => place) ⟨units "99999001", 1787925780000, .E, units "ABCDE123456"⟩ =
      .ok id ∧
      parseEndToEndId id = .ok ⟨.E, units "99999001", some (1787925780000 - 1787925780000 % 60000),
        units "ABCDE123456"⟩ :=
  (end_to_end_round_trip fun place => place).1 .E (units "99999001") (units "ABCDE123456") 1787925780000
    (by decide) (by decide) (by decide) (by decide)

/-- An id of a thirteenth month is accepted, and is built back as one of the next year's first. -/
theorem thirteenth_month_not_given_back :
    isValidEndToEndId (units "E99999001202613281403ABCDE123456") = true ∧
      parseEndToEndId (units "E99999001202613281403ABCDE123456") =
        .ok ⟨.E, units "99999001", some 1801144980000, units "ABCDE123456"⟩ ∧
      buildEndToEndId (fun place => place) ⟨units "99999001", 1801144980000, .E, units "ABCDE123456"⟩ =
        .ok (units "E99999001202701281403ABCDE123456") ∧
      units "E99999001202701281403ABCDE123456" ≠ units "E99999001202613281403ABCDE123456" := by
  refine ⟨?_, ?_, ?_, ?_⟩ <;> decide

end BaasConnector.Taxonomy.EndToEndIds
