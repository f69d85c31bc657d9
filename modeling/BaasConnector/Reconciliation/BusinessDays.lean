import BaasConnector.Reconciliation.Calendar
import Mathlib.Data.Nat.Count

namespace BaasConnector.Reconciliation.BusinessDays

open BaasConnector.Lib.CodeUnits BaasConnector.Lib.DecimalTexts BaasConnector.Lib.Gregorian
open BaasConnector.Lib.Loops BaasConnector.Lib.Numerals BaasConnector.Reconciliation.Calendar

/-- A date of a year from 1583 to 9999. -/
structure BankDate where
  date : Civil
  valid : date.Valid
  since : 1583 ≤ date.year
  last : date.year ≤ 9999

def BankDate.text (date : BankDate) : Text :=
  join (some date.date.year) (some date.date.month) (some date.date.day)

def BankDate.day (date : BankDate) : ℤ := date.date.toDay

theorem BankDate.civil_day (date : BankDate) : civil date.day = date.date := civil_toDay date.valid

theorem BankDate.text_eq (date : BankDate) : date.text = Calendar.text date.day := by
  rw [BankDate.text, Calendar.text, date.civil_day]

theorem BankDate.inYears (date : BankDate) : InYears date.day := by
  rw [InYears, date.civil_day]
  exact ⟨date.since, date.last⟩

/-- The date of a day. -/
def dated (day : ℤ) (h : InYears day) : BankDate := ⟨civil day, civil_valid day, h.1, h.2⟩

theorem dated_text {day : ℤ} (h : InYears day) : (dated day h).text = text day := rfl

variable (options : CalendarOptions)

/-- The loop of a stepper that has something left. -/
def AddsTo (date : Text) (days : ℤ) (result : Text) : Prop :=
  ∃ fuel, addBusinessDays options fuel date days = some result

def Counts (start stop : Text) (total : ℕ) : Prop :=
  ∃ fuel, businessDaysBetween options fuel start stop = some total

abbrev left (s : Stepper) : Bool := decide (0 < s.restantes)

/-- Every date that the stepper comes to is one of the calendar's. -/
def Stays (date : BankDate) (days : ℤ) : Prop :=
  ∀ turns, Running left (Stepper.turn options (passo days)) turns ⟨date.text, days.natAbs⟩ →
    ∃ visited : BankDate,
      ((Stepper.turn options (passo days))^[turns] ⟨date.text, days.natAbs⟩).atual = visited.text

/-- Whether a turn from a day ends on a business day. -/
def opens (day step : ℤ) (turn : ℕ) : Prop := isBusinessDay options (text (day + (turn + 1) * step)) = true

instance (day step : ℤ) : DecidablePred (opens options day step) := fun _ =>
  inferInstanceAs (Decidable (_ = true))

def within (day step : ℤ) (turns : ℕ) : ℕ := Nat.count (opens options day step) turns

variable {options}

theorem shift_once {day step : ℤ} (h : InYears day) (hstep : step = 1 ∨ step = -1) :
    shift (text day) step = text (day + step) := by
  have hyear : 100 ≤ (civil day).year := Int.le_trans (by decide) h.1
  obtain ⟨hlow, hhigh⟩ := inYears_iff.mp h
  have hlow' : -141349 ≤ day := hlow
  have hhigh' : day < 2932897 := hhigh
  refine shift_text hyear ?_
  omega

theorem stepper_iterate {day step : ℤ} (hstep : step = 1 ∨ step = -1) {turns : ℕ} (rest : ℕ)
    (h : ∀ turn < turns, InYears (day + turn * step)) :
    (Stepper.turn options step)^[turns] ⟨text day, rest⟩ =
      ⟨text (day + turns * step), rest - within options day step turns⟩ := by
  induction turns with
  | zero => simp [within]
  | succ turns ih =>
    have hnext : day + turns * step + step = day + (turns + 1) * step := by ring
    rw [Function.iterate_succ_apply', ih fun turn hturn => h turn (Nat.lt_succ_of_lt hturn), Stepper.turn]
    simp only [shift_once (h turns (Nat.lt_succ_self turns)) hstep, hnext, within, Nat.count_succ]
    push_cast
    split_ifs with hbusiness hopen hopen
    · rw [Nat.sub_sub]
    · exact absurd hbusiness hopen
    · exact absurd hopen hbusiness
    · rfl

theorem passo_cases (days : ℤ) : passo days = 1 ∨ passo days = -1 := by
  rw [passo]
  split_ifs
  · exact Or.inl rfl
  · exact Or.inr rfl

/-- A count that comes so far comes so far for the first time. -/
theorem first_count {p : ℕ → Prop} [DecidablePred p] {n m : ℕ} (h : m ≤ Nat.count p n) :
    ∃ first ≤ n, Nat.count p first = m ∧ ∀ k < first, Nat.count p k < m := by
  have hex : ∃ k, m ≤ Nat.count p k := ⟨n, h⟩
  refine ⟨Nat.find hex, Nat.find_min' hex h, ?_, fun k hk => not_le.mp (Nat.find_min hex hk)⟩
  refine Nat.le_antisymm ?_ (Nat.find_spec hex)
  cases hfirst : Nat.find hex with
  | zero => exact Nat.zero_le _
  | succ k =>
    have hlt := not_le.mp (Nat.find_min hex (show k < Nat.find hex by omega))
    rw [Nat.count_succ]
    split_ifs <;> omega

theorem left_eq {s : Stepper} : left s = true ↔ 0 < s.restantes := decide_eq_true_iff

/-- The stepper stops at the day on which so many business days have come. -/
theorem addsTo_of_within {day step days : ℤ} {turns : ℕ} (hpasso : passo days = step)
    (hdays : ∀ turn ≤ turns, InYears (day + turn * step))
    (hcount : within options day step turns = days.natAbs)
    (hfirst : ∀ turn < turns, within options day step turn < days.natAbs) :
    AddsTo options (text day) days (text (day + turns * step)) := by
  have hstep := passo_cases days
  rw [hpasso] at hstep
  have hiterate : ∀ turn ≤ turns, (Stepper.turn options step)^[turn] ⟨text day, days.natAbs⟩ =
      ⟨text (day + turn * step), days.natAbs - within options day step turn⟩ := fun turn hturn =>
    stepper_iterate hstep _ fun earlier hearlier => hdays earlier (hearlier.le.trans hturn)
  by_cases hzero : days = 0
  · have hturns : turns = 0 := by
      by_contra hne
      have hlt := hfirst 0 (Nat.pos_of_ne_zero hne)
      rw [hzero] at hlt
      exact Nat.not_lt_zero _ hlt
    refine ⟨0, ?_⟩
    rw [addBusinessDays, if_pos hzero, hturns, Nat.cast_zero, zero_mul, add_zero]
  · have hends : Ends left (Stepper.turn options step) ⟨text day, days.natAbs⟩
      ⟨text (day + turns * step), 0⟩ := by
      refine ends_iff.mpr ⟨turns, fun turn hturn => ?_, rfl, ?_⟩
      · rw [hiterate turn hturn.le, left_eq]
        exact Nat.sub_pos_of_lt (hfirst turn hturn)
      · rw [hiterate turns le_rfl, hcount, Nat.sub_self]
    obtain ⟨fuel, hfuel⟩ := hends
    refine ⟨fuel, ?_⟩
    rw [addBusinessDays, if_neg hzero, hpasso, hfuel, Option.map_some]

/-- A stepper that stays among the calendar's dates has a date of theirs at every turn. -/
theorem Stays.inYears {date : BankDate} {days : ℤ} (h : Stays options date days) {turns : ℕ}
    (hrun : Running left (Stepper.turn options (passo days)) turns ⟨date.text, days.natAbs⟩) :
    ∀ turn ≤ turns, InYears (date.day + turn * passo days) := by
  have hstep := passo_cases days
  intro turn hturn
  induction turn using Nat.strong_induction_on with
  | _ turn ih =>
    obtain ⟨visited, hvisited⟩ := h turn (hrun.mono hturn)
    rw [date.text_eq, stepper_iterate hstep _ fun earlier hearlier => ih earlier hearlier
      (hearlier.le.trans hturn),
      visited.text_eq] at hvisited
    have hlow : -719528 ≤ date.day + turn * passo days := by
      cases turn with
      | zero =>
        have hday := (inYears_iff.mp date.inYears).1
        have hday' : -141349 ≤ date.day := hday
        omega
      | succ turn =>
        have hday := (inYears_iff.mp (ih turn (Nat.lt_succ_self turn) (Nat.le_of_succ_le hturn))).1
        have hday' : -141349 ≤ date.day + turn * passo days := hday
        obtain hpasso | hpasso := hstep
        · rw [hpasso] at hday' ⊢
          omega
        · rw [hpasso] at hday' ⊢
          omega
    have hyear : 0 ≤ (civil visited.day).year := Int.le_trans (by decide) visited.inYears.1
    rw [text_inj (year_nonneg hlow) hyear hvisited]
    exact visited.inYears

theorem within_of_stays {date : BankDate} {days : ℤ} (h : Stays options date days) :
    ∃ turns : ℕ, (∀ turn ≤ turns, InYears (date.day + turn * passo days)) ∧
      within options date.day (passo days) turns = days.natAbs ∧
      ∀ turn < turns, within options date.day (passo days) turn < days.natAbs := by
  have hstep := passo_cases days
  have hbound : ∀ turns, Running left (Stepper.turn options (passo days)) turns ⟨date.text, days.natAbs⟩ →
      turns ≤ 4000000 := by
    intro turns hrun
    obtain ⟨hlow, hhigh⟩ := inYears_iff.mp (h.inYears hrun turns le_rfl)
    have hlow' : -141349 ≤ date.day + turns * passo days := hlow
    have hhigh' : date.day + turns * passo days < 2932897 := hhigh
    obtain ⟨hday, hday'⟩ := inYears_iff.mp date.inYears
    have hday₂ : -141349 ≤ date.day := hday
    have hday₂' : date.day < 2932897 := hday'
    obtain hpasso | hpasso := hstep
    · rw [hpasso] at hlow' hhigh'
      omega
    · rw [hpasso] at hlow' hhigh'
      omega
  obtain ⟨turns, hrun, hstop⟩ := exists_stop hbound
  have hdays := h.inYears hrun
  have hiterate := @stepper_iterate options _ _ hstep turns days.natAbs fun turn hturn =>
    hdays turn (Nat.le_of_lt hturn)
  rw [← date.text_eq] at hiterate
  have hcount : days.natAbs ≤ within options date.day (passo days) turns := by
    rw [hiterate] at hstop
    exact Nat.sub_eq_zero_iff_le.mp (Nat.eq_zero_of_not_pos (of_decide_eq_false hstop))
  obtain ⟨first, hle, hfirst, hbefore⟩ := first_count hcount
  exact ⟨first, fun turn hturn => hdays turn (hturn.trans hle), hfirst, hbefore⟩

theorem within_succ (day step : ℤ) (turns : ℕ) : within options day step (turns + 1) =
    within options day step turns +
      if isBusinessDay options (text (day + (turns + 1) * step)) = true then 1 else 0 :=
  Nat.count_succ _ _

theorem opens_last {day step : ℤ} {turns days : ℕ} (hpos : 0 < days)
    (hcount : within options day step turns = days)
    (hfirst : ∀ turn < turns, within options day step turn < days) :
    isBusinessDay options (text (day + turns * step)) = true := by
  cases turns with
  | zero => exact absurd hcount (Nat.ne_of_lt hpos)
  | succ turns =>
    have hlt := hfirst turns (Nat.lt_succ_self turns)
    rw [within_succ] at hcount
    by_contra hclosed
    rw [← Nat.cast_succ] at hcount
    rw [if_neg hclosed] at hcount
    exact absurd hcount (Nat.ne_of_lt hlt)

theorem inYears_between {day last x : ℤ} (hday : InYears day) (hlast : InYears last) (hlow : day ≤ x)
    (hhigh : x ≤ last) : InYears x := by
  rw [inYears_iff] at hday hlast ⊢
  exact ⟨hday.1.trans hlow, hhigh.trans_lt hlast.2⟩

theorem counter_iterate {day : ℤ} {turns : ℕ} (h : ∀ turn < turns, InYears (day + turn * 1)) :
    (Counter.turn options)^[turns] ⟨text day, 0⟩ =
      ⟨text (day + turns * 1), within options day 1 turns⟩ := by
  induction turns with
  | zero => simp [within]
  | succ turns ih =>
    have hnext : day + turns * 1 + 1 = day + (turns + 1) * 1 := by ring
    rw [Function.iterate_succ_apply', ih fun turn hturn => h turn (Nat.lt_succ_of_lt hturn), Counter.turn,
      within_succ]
    simp only [shift_once (h turns (Nat.lt_succ_self turns)) (Or.inl rfl), hnext]
    push_cast
    split_ifs <;> rfl

/-- The counter counts the business days after the earlier date, up to the later one. -/
theorem counts_within {day last : ℤ} {turns : ℕ} (hday : InYears day) (hlast : InYears last)
    (hturns : last = day + turns) :
    Counts options (text day) (text last) (within options day 1 turns) ∧
      Counts options (text last) (text day) (within options day 1 turns) := by
  obtain rfl | hpos := Nat.eq_zero_or_pos turns
  · rw [Nat.cast_zero, add_zero] at hturns
    subst hturns
    exact ⟨⟨0, if_pos rfl⟩, ⟨0, if_pos rfl⟩⟩
  · have hless : less (text day) (text last) = true := (less_text hday hlast).mpr (by omega)
    have hmore : ¬less (text last) (text day) = true := fun h => by
      have hlt := (less_text hlast hday).mp h
      omega
    have hne : text day ≠ text last := by
      intro heq
      rw [heq] at hless
      exact hmore (heq ▸ hless)
    have hiterate : ∀ turn ≤ turns, (Counter.turn options)^[turn] ⟨text day, 0⟩ =
        ⟨text (day + turn * 1), within options day 1 turn⟩ := fun turn hturn =>
      counter_iterate fun earlier hearlier =>
        inYears_between hday hlast (by omega) (by omega)
    have hends : Ends (fun s : Counter => less s.atual (text last)) (Counter.turn options) ⟨text day, 0⟩
        ⟨text last, within options day 1 turns⟩ := by
      refine ends_iff.mpr ⟨turns, fun turn hturn => ?_, ?_, ?_⟩
      · rw [hiterate turn hturn.le]
        exact (less_text (inYears_between hday hlast (by omega) (by omega)) hlast).mpr (by omega)
      · refine Bool.eq_false_iff.mpr fun h => ?_
        exact absurd ((less_text hlast hlast).mp h) (lt_irrefl _)
      · rw [hiterate turns le_rfl, hturns, mul_one]
    obtain ⟨fuel, hfuel⟩ := hends
    constructor
    · refine ⟨fuel, ?_⟩
      rw [businessDaysBetween, if_neg hne, if_pos hless, if_pos hless]
      exact congrArg (Option.map _) hfuel
    · refine ⟨fuel, ?_⟩
      rw [businessDaysBetween, if_neg hne.symm, if_neg hmore, if_neg hmore]
      exact congrArg (Option.map _) hfuel

theorem counts_dates (a b : BankDate) (h : a.day ≤ b.day) :
    Counts options a.text b.text (within options a.day 1 (b.day - a.day).toNat) ∧
      Counts options b.text a.text (within options a.day 1 (b.day - a.day).toNat) := by
  rw [a.text_eq, b.text_eq]
  exact counts_within a.inYears b.inYears (by omega)

theorem within_add (day : ℤ) (m n : ℕ) :
    within options day 1 (m + n) = within options day 1 m + within options (day + m * 1) 1 n := by
  induction n with
  | zero => rfl
  | succ n ih =>
    have hday : day + ((m + n : ℕ) + 1) * 1 = day + m * 1 + (n + 1) * 1 := by
      push_cast
      ring
    rw [← Nat.add_assoc, within_succ, within_succ, ih, hday, Nat.add_assoc]

theorem passo_of_pos {n : ℕ} (h : 0 < n) : passo n = 1 := if_pos (Int.natCast_pos.mpr h)

theorem forward_of_stays {date : BankDate} {n : ℕ} (h : Stays options date n) :
    ∃ turns : ℕ, (∀ turn ≤ turns, InYears (date.day + turn * 1)) ∧ within options date.day 1 turns = n ∧
      ∀ turn < turns, within options date.day 1 turn < n := by
  obtain rfl | hpos := Nat.eq_zero_or_pos n
  · refine ⟨0, fun turn hturn => ?_, rfl, nofun⟩
    rw [Nat.le_zero.mp hturn, Nat.cast_zero, zero_mul, add_zero]
    exact date.inYears
  · have hreach := within_of_stays h
    rw [passo_of_pos hpos] at hreach
    exact hreach

theorem addsTo_forward {day : ℤ} {n turns : ℕ} (hdays : ∀ turn ≤ turns, InYears (day + turn * 1))
    (hcount : within options day 1 turns = n) (hfirst : ∀ turn < turns, within options day 1 turn < n) :
    AddsTo options (text day) n (text (day + turns * 1)) := by
  obtain rfl | hpos := Nat.eq_zero_or_pos n
  · have hturns : turns = 0 := by
      by_contra hne
      exact Nat.not_lt_zero _ (hfirst 0 (Nat.pos_of_ne_zero hne))
    refine ⟨0, ?_⟩
    rw [addBusinessDays, if_pos Nat.cast_zero, hturns, Nat.cast_zero, zero_mul, add_zero]
  · exact addsTo_of_within (passo_of_pos hpos) hdays hcount hfirst

/-- A stepper stays among the calendar's dates where these have business days enough. -/
theorem stays_of_room {date : BankDate} {days : ℤ} {turns : ℕ}
    (hdays : ∀ turn ≤ turns, InYears (date.day + turn * passo days))
    (hroom : days.natAbs ≤ within options date.day (passo days) turns) : Stays options date days := by
  have hiterate : ∀ turn ≤ turns, (Stepper.turn options (passo days))^[turn] ⟨date.text, days.natAbs⟩ =
      ⟨text (date.day + turn * passo days), days.natAbs - within options date.day (passo days) turn⟩ := by
    intro turn hturn
    rw [date.text_eq]
    exact stepper_iterate (passo_cases days) _ fun earlier hearlier => hdays earlier (hearlier.le.trans hturn)
  intro turn hrun
  have hturn : turn ≤ turns := by
    by_contra hlt
    have hguard := hrun turns (not_le.mp hlt)
    rw [hiterate turns le_rfl, left_eq] at hguard
    exact absurd hguard (Nat.not_lt.mpr (Nat.sub_eq_zero_of_le hroom).le)
  refine ⟨dated _ (hdays turn hturn), ?_⟩
  rw [hiterate turn hturn, dated_text]

theorem AddsTo.unique {date a b : Text} {days : ℤ} (ha : AddsTo options date days a)
    (hb : AddsTo options date days b) : a = b := by
  obtain ⟨m, ha⟩ := ha
  obtain ⟨n, hb⟩ := hb
  rw [addBusinessDays] at ha hb
  split_ifs at ha hb with hzero
  · exact (Option.some.inj ha).symm.trans (Option.some.inj hb)
  · obtain ⟨s, hs, rfl⟩ := Option.map_eq_some_iff.mp ha
    obtain ⟨t, ht, rfl⟩ := Option.map_eq_some_iff.mp hb
    rw [Ends.unique ⟨m, hs⟩ ⟨n, ht⟩]

theorem Counts.unique {start stop : Text} {m n : ℕ} (hm : Counts options start stop m)
    (hn : Counts options start stop n) : m = n := by
  obtain ⟨i, hm⟩ := hm
  obtain ⟨j, hn⟩ := hn
  rw [businessDaysBetween] at hm hn
  split_ifs at hm hn with hsame hless
  · exact (Option.some.inj hm).symm.trans (Option.some.inj hn)
  all_goals
    obtain ⟨s, hs, rfl⟩ := Option.map_eq_some_iff.mp hm
    obtain ⟨t, ht, rfl⟩ := Option.map_eq_some_iff.mp hn
    rw [Ends.unique ⟨i, hs⟩ ⟨j, ht⟩]

theorem lands_on_business_day {date : BankDate} {days : ℤ} (hdays : days ≠ 0) (h : Stays options date days) :
    ∃ result : BankDate, AddsTo options date.text days result.text ∧
      isBusinessDay options result.text = true := by
  obtain ⟨turns, hyears, hcount, hfirst⟩ := within_of_stays h
  refine ⟨dated _ (hyears turns le_rfl), ?_, ?_⟩
  · rw [date.text_eq]
    exact addsTo_of_within rfl hyears hcount hfirst
  · exact opens_last (Int.natAbs_pos.mpr hdays) hcount hfirst

theorem counts_what_is_added {date : BankDate} {n : ℕ} (h : Stays options date n) :
    ∃ result : BankDate, AddsTo options date.text n result.text ∧ Counts options date.text result.text n := by
  obtain ⟨turns, hyears, hcount, hfirst⟩ := forward_of_stays h
  refine ⟨dated _ (hyears turns le_rfl), ?_, ?_⟩
  · rw [date.text_eq]
    exact addsTo_forward hyears hcount hfirst
  · rw [date.text_eq, ← hcount]
    exact (counts_within date.inYears (hyears turns le_rfl) (by rw [mul_one])).1

theorem adds_in_two_parts {date : BankDate} {m n : ℕ} (h : Stays options date (m + n : ℕ)) :
    ∃ middle result : BankDate, AddsTo options date.text m middle.text ∧
      AddsTo options middle.text n result.text ∧ AddsTo options date.text (m + n : ℕ) result.text := by
  obtain ⟨turns, hyears, hcount, hfirst⟩ := forward_of_stays h
  obtain ⟨first, hle, hmiddle, hbefore⟩ := first_count (show m ≤ within options date.day 1 turns by omega)
  obtain ⟨rest, rfl⟩ := Nat.exists_eq_add_of_le hle
  have hday : ∀ turn : ℕ, date.day + first * 1 + turn * 1 = date.day + (first + turn : ℕ) * 1 := by
    intro turn
    push_cast
    ring
  have hadd : ∀ turn, within options date.day 1 (first + turn) =
      m + within options (date.day + first * 1) 1 turn := by
    intro turn
    rw [within_add, show within options date.day 1 first = m from hmiddle]
  refine ⟨dated _ (hyears first hle), dated _ (hyears _ le_rfl), ?_, ?_, ?_⟩
  · rw [date.text_eq]
    exact addsTo_forward (fun turn hturn => hyears turn (hturn.trans hle)) hmiddle hbefore
  · rw [dated_text, dated_text, ← hday]
    refine addsTo_forward (fun turn hturn => ?_) ?_ fun turn hturn => ?_
    · rw [hday]
      exact hyears _ (Nat.add_le_add_left hturn first)
    · have hrest := hadd rest
      omega
    · have hlt := hfirst (first + turn) (Nat.add_lt_add_left hturn first)
      rw [hadd turn] at hlt
      omega
  · rw [date.text_eq]
    exact addsTo_forward hyears hcount hfirst

theorem counts_add {a b c : BankDate} (hab : less b.text a.text = false) (hbc : less c.text b.text = false) :
    ∃ m n, Counts options a.text b.text m ∧ Counts options b.text c.text n ∧
      Counts options a.text c.text (m + n) := by
  have hle : ∀ x y : BankDate, less y.text x.text = false → x.day ≤ y.day := by
    intro x y h
    by_contra hlt
    rw [x.text_eq, y.text_eq, (less_text y.inYears x.inYears).mpr (not_le.mp hlt)] at h
    cases h
  have hfirst := hle a b hab
  have hsecond := hle b c hbc
  refine ⟨_, _, (counts_dates a b hfirst).1, (counts_dates b c hsecond).1, ?_⟩
  have hadd := @within_add options a.day (b.day - a.day).toNat (c.day - b.day).toNat
  have hmiddle : a.day + (b.day - a.day).toNat * 1 = b.day := by omega
  have hall : (b.day - a.day).toNat + (c.day - b.day).toNat = (c.day - a.day).toNat := by omega
  rw [hmiddle, hall] at hadd
  rw [← hadd]
  exact (counts_dates a c (hfirst.trans hsecond)).1

theorem counts_both_ways (a b : BankDate) :
    ∃ total, Counts options a.text b.text total ∧ Counts options b.text a.text total := by
  obtain hle | hle := le_total a.day b.day
  · exact ⟨_, counts_dates a b hle⟩
  · exact ⟨_, (counts_dates b a hle).symm⟩

/-- Adding business days and counting them agree with one another. -/
theorem business_days_consistent (options : CalendarOptions) :
    (∀ (date : BankDate) (days : ℤ), days ≠ 0 → Stays options date days →
      ∃ result : BankDate, AddsTo options date.text days result.text ∧
        isBusinessDay options result.text = true) ∧
    (∀ (date : BankDate) (n : ℕ), Stays options date n →
      ∃ result : BankDate, AddsTo options date.text n result.text ∧
        Counts options date.text result.text n) ∧
    (∀ (date : BankDate) (m n : ℕ), Stays options date (m + n : ℕ) →
      ∃ middle result : BankDate, AddsTo options date.text m middle.text ∧
        AddsTo options middle.text n result.text ∧ AddsTo options date.text (m + n : ℕ) result.text) ∧
    (∀ a b : BankDate, ∃ total,
      Counts options a.text b.text total ∧ Counts options b.text a.text total) ∧
    ∀ a b c : BankDate, less b.text a.text = false → less c.text b.text = false →
      ∃ m n, Counts options a.text b.text m ∧ Counts options b.text c.text n ∧
        Counts options a.text c.text (m + n) :=
  ⟨fun _ _ => lands_on_business_day, fun _ _ => counts_what_is_added, fun _ _ _ => adds_in_two_parts,
    counts_both_ways, fun _ _ _ => counts_add⟩

/-- The Friday before a carnival. -/
def carnivalFriday : BankDate := ⟨⟨2024, 2, 9⟩, by decide, by decide, by decide⟩

theorem business_days_consistent_carnival :
    Stays {} carnivalFriday 1 ∧ ∃ result : BankDate, AddsTo {} carnivalFriday.text 1 result.text ∧
      isBusinessDay {} result.text = true :=
  have hyears : ∀ turn ≤ 5, InYears (carnivalFriday.day + (turn : ℕ) * passo 1) := by decide
  have hroom : (1 : ℤ).natAbs ≤ within {} carnivalFriday.day (passo 1) 5 := by decide
  have hstays : Stays {} carnivalFriday 1 := stays_of_room hyears hroom
  ⟨hstays, (business_days_consistent {}).1 carnivalFriday 1 (by decide) hstays⟩

end BaasConnector.Reconciliation.BusinessDays
