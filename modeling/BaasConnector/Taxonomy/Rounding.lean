import BaasConnector.Lib.Rounding
import BaasConnector.Taxonomy.Money
import BaasConnector.Taxonomy.Rates
import Mathlib.Data.Rat.Cast.Order
import Mathlib.Tactic.FieldSimp

namespace BaasConnector.Taxonomy.Rounding

open BaasConnector.Lib.Rounding BaasConnector.Taxonomy.Amounts BaasConnector.Taxonomy.Rates

inductive RoundingMode
  | HALF_EVEN | HALF_UP | DOWN | UP
deriving DecidableEq, Repr

def magnitude (quotient remainder denominator : Int) : RoundingMode → Int
  | .DOWN => quotient
  | .UP => quotient + 1
  | .HALF_UP => if remainder * 2 ≥ denominator then quotient + 1 else quotient
  | .HALF_EVEN =>
    let twice := remainder * 2
    if twice > denominator then quotient + 1
    else if twice < denominator then quotient
    else if quotient.tmod 2 = 0 then quotient else quotient + 1

/-- Quotients and remainders are truncated. -/
def divideRounded (numerator denominator : Int) (mode : RoundingMode) : Except String Int :=
  if denominator ≤ 0 then .error "denominator deve ser positivo"
  else
    let negative := numerator < 0
    let abs := if negative then -numerator else numerator
    let quotient := abs.tdiv denominator
    let remainder := abs.tmod denominator
    let magnitude := if remainder = 0 then quotient else magnitude quotient remainder denominator mode
    .ok (if negative then -magnitude else magnitude)

def applyRate (amount : Amount) (rate : Rate) (mode : RoundingMode) : Except String Amount :=
  (divideRounded (amount.cents * rate.numerator) rate.denominator mode).bind Amount.of

/-- What a mode makes of a number. -/
def Rounds : RoundingMode → ℚ → ℤ → Prop
  | .DOWN => TowardZero
  | .UP => AwayFromZero
  | .HALF_UP => NearestAway
  | .HALF_EVEN => NearestEven

theorem Rounds.neg {mode : RoundingMode} {x : ℚ} {n : ℤ} (h : Rounds mode x n) : Rounds mode (-x) (-n) := by
  cases mode with
  | HALF_EVEN => exact NearestEven.neg h
  | HALF_UP => exact NearestAway.neg h
  | DOWN => exact TowardZero.neg h
  | UP => exact AwayFromZero.neg h

theorem Rounds.mono {mode : RoundingMode} {x y : ℚ} {m n : ℤ} (hx : Rounds mode x m) (hy : Rounds mode y n)
    (hxy : x ≤ y) : m ≤ n := by
  cases mode with
  | HALF_EVEN => exact NearestEven.mono hx hy hxy
  | HALF_UP => exact NearestAway.mono hx hy hxy
  | DOWN => exact TowardZero.mono hx hy hxy
  | UP => exact AwayFromZero.mono hx hy hxy

theorem Rounds.unique {mode : RoundingMode} {x : ℚ} {m n : ℤ} (hm : Rounds mode x m) (hn : Rounds mode x n) :
    m = n :=
  Int.le_antisymm (hm.mono hn le_rfl) (hn.mono hm le_rfl)

def RoundingMode.Nearest (mode : RoundingMode) : Prop := mode = .HALF_EVEN ∨ mode = .HALF_UP

theorem Rounds.near {mode : RoundingMode} {x : ℚ} {n : ℤ} (h : Rounds mode x n) : |n - x| < 1 := by
  cases mode with
  | HALF_EVEN => exact h.1.trans_lt (by norm_num)
  | HALF_UP => exact h.1.trans_lt (by norm_num)
  | DOWN => exact TowardZero.near h
  | UP => exact AwayFromZero.near h

theorem Rounds.nearest {mode : RoundingMode} {x : ℚ} {n : ℤ} (h : Rounds mode x n) (hmode : mode.Nearest) :
    |n - x| ≤ 1 / 2 := by
  obtain rfl | rfl := hmode
  · exact h.1
  · exact h.1

theorem rounds_whole {q : ℤ} (hq : 0 ≤ q) (mode : RoundingMode) : Rounds mode q q := by
  have hq' : (0 : ℚ) ≤ q := Int.cast_nonneg hq
  cases mode with
  | HALF_EVEN => norm_num [Rounds, NearestEven]
  | HALF_UP => norm_num [Rounds, NearestAway]
  | DOWN => exact Or.inl ⟨hq', le_rfl, by linarith⟩
  | UP => exact Or.inl ⟨hq', le_rfl, by linarith⟩

section Fraction

variable {q : ℤ} {f : ℚ}

theorem up_error (hf : f < 1) : |((q + 1 : ℤ) : ℚ) - (q + f)| = 1 - f := by
  push_cast
  rw [abs_of_nonneg] <;> linarith

theorem down_error (h : 0 ≤ f) : |(q : ℚ) - (q + f)| = f := by
  rw [abs_of_nonpos] <;> linarith

theorem nearestAway_up (hq : 0 ≤ q) (h : 1 / 2 ≤ f) (hf : f < 1) : NearestAway (q + f) (q + 1) := by
  have hq' : (0 : ℚ) ≤ q := Int.cast_nonneg hq
  rw [NearestAway, up_error hf]
  refine ⟨by linarith, fun _ => ?_⟩
  push_cast
  rw [abs_of_nonneg, abs_of_nonneg] <;> linarith

theorem nearestAway_down (h : 0 ≤ f) (hf : f < 1 / 2) : NearestAway (q + f) q := by
  rw [NearestAway, down_error h]
  exact ⟨hf.le, fun heq => absurd heq hf.ne⟩

theorem nearestEven_up (h : 1 / 2 ≤ f) (hf : f < 1) (htie : f = 1 / 2 → Even (q + 1)) :
    NearestEven (q + f) (q + 1) := by
  rw [NearestEven, up_error hf]
  exact ⟨by linarith, fun heq => htie (by linarith)⟩

theorem nearestEven_down (h : 0 ≤ f) (hf : f ≤ 1 / 2) (htie : f = 1 / 2 → Even q) :
    NearestEven (q + f) q := by
  rw [NearestEven, down_error h]
  exact ⟨hf, htie⟩

end Fraction

/-- A quotient and a remainder below the divisor round as the modes say. -/
theorem rounds_magnitude {q r d : ℤ} (hq : 0 ≤ q) (hr : 0 ≤ r) (hrd : r < d) (mode : RoundingMode) :
    Rounds mode (q + r / d) (if r = 0 then q else magnitude q r d mode) := by
  split_ifs with hzero
  · rw [hzero, Int.cast_zero, zero_div, add_zero]
    exact rounds_whole hq mode
  have hd : (0 : ℚ) < d := by exact_mod_cast hr.trans_lt hrd
  have hpos : (0 : ℚ) < r / d := div_pos (by exact_mod_cast lt_of_le_of_ne hr (Ne.symm hzero)) hd
  have hone : (r / d : ℚ) < 1 := (div_lt_one hd).mpr (by exact_mod_cast hrd)
  have hq' : (0 : ℚ) ≤ q := Int.cast_nonneg hq
  have hhalf : (1 / 2 : ℚ) ≤ r / d ↔ d ≤ r * 2 := by
    rw [div_le_div_iff₀ two_pos hd, one_mul]
    exact_mod_cast Iff.rfl
  have htie : (r / d : ℚ) = 1 / 2 ↔ r * 2 = d := by
    rw [div_eq_div_iff hd.ne' two_ne_zero, one_mul]
    exact_mod_cast Iff.rfl
  cases mode with
  | DOWN =>
    refine Or.inl ⟨by linarith, ?_, ?_⟩ <;> simp only [magnitude] <;> linarith
  | UP =>
    refine Or.inl ⟨by linarith, ?_, ?_⟩ <;> simp only [magnitude] <;> push_cast <;> linarith
  | HALF_UP =>
    simp only [magnitude]
    split_ifs with h
    · exact nearestAway_up hq (hhalf.mpr h) hone
    · exact nearestAway_down hpos.le (lt_of_not_ge fun hge => h (hhalf.mp hge))
  | HALF_EVEN =>
    simp only [magnitude]
    split_ifs with hgt hlt heven
    · refine nearestEven_up (hhalf.mpr hgt.le) hone fun heq => absurd (htie.mp heq) hgt.ne'
    · refine nearestEven_down hpos.le (le_of_lt (lt_of_not_ge fun hge => ?_)) fun heq =>
        absurd (htie.mp heq) hlt.ne
      exact absurd (hhalf.mp hge) (not_le.mpr hlt)
    · rw [Int.tmod_eq_emod_of_nonneg hq, ← Int.even_iff] at heven
      have heq : (r / d : ℚ) = 1 / 2 := htie.mpr (le_antisymm (not_lt.mp hgt) (not_lt.mp hlt))
      exact nearestEven_down hpos.le heq.le fun _ => heven
    · rw [Int.tmod_eq_emod_of_nonneg hq, ← Int.even_iff] at heven
      have heq : (r / d : ℚ) = 1 / 2 := htie.mpr (le_antisymm (not_lt.mp hgt) (not_lt.mp hlt))
      exact nearestEven_up heq.ge hone fun _ => Int.even_add_one.mpr heven

theorem quotient_add_remainder (n : ℤ) {d : ℤ} (hd : 0 < d) :
    ((n.tdiv d : ℤ) : ℚ) + (n.tmod d : ℤ) / d = n / d := by
  have hd' : (d : ℚ) ≠ 0 := Int.cast_ne_zero.mpr hd.ne'
  have hdiv : (d : ℚ) * (n.tdiv d : ℤ) + (n.tmod d : ℤ) = n := by exact_mod_cast Int.mul_tdiv_add_tmod n d
  rw [eq_div_iff hd', add_mul, div_mul_cancel₀ _ hd', mul_comm]
  exact hdiv

theorem divideRounded_rounds (numerator : ℤ) {denominator : ℤ} (h : 0 < denominator) (mode : RoundingMode) :
    ∃ result, divideRounded numerator denominator mode = .ok result ∧
      Rounds mode (numerator / denominator) result := by
  have hall : ∀ n : ℤ, 0 ≤ n → Rounds mode (n / denominator)
    (if n.tmod denominator = 0 then n.tdiv denominator
      else magnitude (n.tdiv denominator) (n.tmod denominator) denominator mode) := by
    intro n hn
    rw [← quotient_add_remainder n h]
    exact rounds_magnitude (Int.tdiv_nonneg hn h.le) (Int.tmod_nonneg _ hn)
      (Int.tmod_lt_of_pos n h) mode
  unfold divideRounded
  rw [if_neg (not_le.mpr h)]
  refine ⟨_, rfl, ?_⟩
  by_cases hneg : numerator < 0
  · have hrounds := (hall (-numerator) (by omega)).neg
    rw [Int.cast_neg, neg_div, neg_neg] at hrounds
    simpa only [hneg, if_true] using hrounds
  · simpa only [hneg, if_false] using hall numerator (not_lt.mp hneg)

theorem denominator_pos (rate : Rate) : 0 < rate.denominator := pow_pos (by decide) rate.scale

theorem applyRate_rounds (amount : Amount) (rate : Rate) (mode : RoundingMode) :
    ∃ cents, applyRate amount rate mode = Amount.of cents ∧
      Rounds mode (amount.cents * rate.numerator / rate.denominator) cents := by
  obtain ⟨cents, hok, hrounds⟩ :=
    divideRounded_rounds (amount.cents * rate.numerator) (denominator_pos rate) mode
  refine ⟨cents, by rw [applyRate, hok]; rfl, ?_⟩
  push_cast at hrounds
  exact hrounds

/-- Division gives the whole number that the mode makes of the exact quotient, and a rate applied to an
amount is off by less than a cent. -/
theorem divideRounded_correct (numerator : ℤ) {denominator : ℤ} (h : 0 < denominator) (mode : RoundingMode) :
    (∃ result, divideRounded numerator denominator mode = .ok result ∧
      (∀ n, Rounds mode (numerator / denominator) n ↔ n = result) ∧
      divideRounded (-numerator) denominator mode = .ok (-result) ∧
      ∀ larger, numerator ≤ larger →
        ∃ other, divideRounded larger denominator mode = .ok other ∧ result ≤ other) ∧
    ∀ (amount : Amount) (rate : Rate), ∃ cents, applyRate amount rate mode = Amount.of cents ∧
      |cents - (amount.cents * rate.numerator / rate.denominator : ℚ)| < 1 ∧
      (mode.Nearest → |cents - (amount.cents * rate.numerator / rate.denominator : ℚ)| ≤ 1 / 2) := by
  obtain ⟨result, hok, hrounds⟩ := divideRounded_rounds numerator h mode
  obtain ⟨opposite, hopposite, hneg⟩ := divideRounded_rounds (-numerator) h mode
  refine ⟨⟨result, hok, fun n => ⟨fun hn => hn.unique hrounds, fun hn => hn ▸ hrounds⟩, ?_, ?_⟩, ?_⟩
  · rw [Int.cast_neg, neg_div] at hneg
    rw [hopposite, hneg.unique hrounds.neg]
  · intro larger hle
    obtain ⟨other, hother, hlarger⟩ := divideRounded_rounds larger h mode
    refine ⟨other, hother, hrounds.mono hlarger ?_⟩
    have hpos : (0 : ℚ) < denominator := Int.cast_pos.mpr h
    exact (div_le_div_iff_of_pos_right hpos).mpr (Int.cast_le.mpr hle)
  · intro amount rate
    obtain ⟨cents, hok, hrounds⟩ := applyRate_rounds amount rate mode
    exact ⟨cents, hok, hrounds.near, hrounds.nearest⟩

theorem divideRounded_correct_halves :
    ∃ result, divideRounded (-5) 2 .HALF_EVEN = .ok result ∧
      ∀ n, Rounds .HALF_EVEN ((-5 : ℤ) / (2 : ℤ)) n ↔ n = result := by
  obtain ⟨⟨result, hok, hrounds, -⟩, -⟩ := divideRounded_correct (-5) (show (0 : ℤ) < 2 by decide) .HALF_EVEN
  exact ⟨result, hok, hrounds⟩

end BaasConnector.Taxonomy.Rounding
