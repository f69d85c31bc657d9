import BaasConnector.Lib.CodeUnits
import Mathlib.Data.List.Infix
import Mathlib.Data.Nat.Digits.Defs
import Mathlib.Tactic.IntervalCases
import Mathlib.Tactic.Ring

namespace BaasConnector.Lib.Decimals

theorem digits_without {c : Char} (hc : c.isDigit = false) (n : Nat) : c ∉ Nat.toDigits 10 n := by
  intro h
  have hdigit := Nat.isDigit_of_mem_toDigits (by decide) (by decide) h
  rw [hc] at hdigit
  cases hdigit

theorem digits_inj {m n : Nat} : Nat.toDigits 10 m = Nat.toDigits 10 n ↔ m = n := by
  refine ⟨fun h => ?_, fun h => h ▸ rfl⟩
  have hvalue := congrArg (Nat.ofDigitChars 10 · 0) h
  simpa only [Nat.ofDigitChars_ten_toDigits] using hvalue

theorem digits_prefix_digit {m n : Nat} (hn : n < 10) :
    Nat.toDigits 10 m <+: Nat.toDigits 10 n ↔ m = n := by
  refine ⟨fun h => ?_, fun h => h ▸ List.prefix_refl _⟩
  rw [Nat.toDigits_of_lt_base hn] at h
  have hlen : 0 < (Nat.toDigits 10 m).length := Nat.length_toDigits_pos
  have heq := h.eq_of_length_le (by rw [List.length_singleton]; exact hlen)
  rw [← Nat.toDigits_of_lt_base hn] at heq
  exact digits_inj.mp heq

theorem digits_prefix_step {m n : Nat} (hn : 10 ≤ n) :
    Nat.toDigits 10 m <+: Nat.toDigits 10 n ↔ m = n ∨ Nat.toDigits 10 m <+: Nat.toDigits 10 (n / 10) := by
  have hsplit := Nat.toDigits_of_base_le (by decide) hn
  rw [← digits_inj, hsplit, List.prefix_concat_iff]

end BaasConnector.Lib.Decimals

namespace BaasConnector.Lib.Numerals

open BaasConnector.Lib.CodeUnits

def digit (d : Nat) : UInt16 := UInt16.ofNat (0x30 + d)

/-- A number in decimal digits. -/
def numeral (n : Nat) : Text := (Nat.toDigits 10 n).map fun char => char.val.toUInt16

/-- The number that decimal digits stand for. -/
def value (text : Text) : Nat := text.foldl (fun total unit => total * 10 + (unit.toNat - 0x30)) 0

def padStart (width : Nat) (text : Text) : Text := List.replicate (width - text.length) 0x30 ++ text

def Digits (text : Text) : Prop := ∀ unit ∈ text, isDigit unit = true

instance (text : Text) : Decidable (Digits text) :=
  decidable_of_iff (text.all isDigit = true) List.all_eq_true

theorem isDigit_iff {unit : UInt16} : isDigit unit = true ↔ ∃ d < 10, unit = digit d := by
  rw [isDigit, Bool.and_eq_true, decide_eq_true_eq, decide_eq_true_eq, UInt16.le_iff_toNat_le,
    UInt16.le_iff_toNat_le]
  constructor
  · rintro ⟨hlow, hhigh⟩
    have hlow' : 48 ≤ unit.toNat := hlow
    have hhigh' : unit.toNat ≤ 57 := hhigh
    refine ⟨unit.toNat - 0x30, by omega, ?_⟩
    rw [digit, Nat.add_sub_cancel' hlow', UInt16.ofNat_toNat]
  · rintro ⟨d, hd, rfl⟩
    interval_cases d <;> decide

theorem digit_toNat {d : Nat} (hd : d < 10) : (digit d).toNat = 0x30 + d := by
  interval_cases d <;> rfl

theorem isDigit_digit {d : Nat} (hd : d < 10) : isDigit (digit d) = true := isDigit_iff.mpr ⟨d, hd, rfl⟩

theorem not_space_of_isDigit {unit : UInt16} (h : isDigit unit = true) : isSpace unit = false := by
  obtain ⟨d, hd, rfl⟩ := isDigit_iff.mp h
  interval_cases d <;> decide

theorem digits_append {a b : Text} : Digits (a ++ b) ↔ Digits a ∧ Digits b := List.forall_mem_append

theorem digits_cons {unit : UInt16} {a : Text} : Digits (unit :: a) ↔ isDigit unit = true ∧ Digits a :=
  List.forall_mem_cons

theorem value_foldl (text : Text) (start : Nat) :
    text.foldl (fun total unit => total * 10 + (unit.toNat - 0x30)) start =
      start * 10 ^ text.length + value text := by
  induction text generalizing start with
  | nil => simp [value]
  | cons unit text ih =>
    rw [value, List.foldl_cons, List.foldl_cons, ih, ih (0 * 10 + (unit.toNat - 0x30)), List.length_cons,
      Nat.pow_succ]
    ring

theorem value_append (a b : Text) : value (a ++ b) = value a * 10 ^ b.length + value b := by
  rw [value, List.foldl_append, value_foldl]
  rfl

theorem value_cons (unit : UInt16) (text : Text) :
    value (unit :: text) = (unit.toNat - 0x30) * 10 ^ text.length + value text := by
  rw [value, List.foldl_cons, value_foldl, Nat.zero_mul, Nat.zero_add]

theorem value_lt {text : Text} (h : Digits text) : value text < 10 ^ text.length := by
  induction text with
  | nil => exact Nat.one_pos
  | cons unit text ih =>
    obtain ⟨hunit, htext⟩ := digits_cons.mp h
    obtain ⟨d, hd, rfl⟩ := isDigit_iff.mp hunit
    have hlt := ih htext
    rw [value_cons, digit_toNat hd, Nat.add_sub_cancel_left, List.length_cons, Nat.pow_succ]
    nlinarith

theorem value_zeros (k : Nat) : value (List.replicate k 0x30) = 0 := by
  induction k with
  | zero => rfl
  | succ k ih => rw [List.replicate_succ, value_cons, ih]; simp

theorem value_padStart (width : Nat) (text : Text) : value (padStart width text) = value text := by
  rw [padStart, value_append, value_zeros, Nat.zero_mul, Nat.zero_add]

theorem padStart_length (width : Nat) (text : Text) :
    (padStart width text).length = max width text.length := by
  rw [padStart, List.length_append, List.length_replicate]
  omega

theorem padStart_of_le {width : Nat} {text : Text} (h : width ≤ text.length) :
    padStart width text = text := by
  rw [padStart, Nat.sub_eq_zero_of_le h]
  rfl

theorem digits_padStart {width : Nat} {text : Text} (h : Digits text) : Digits (padStart width text) :=
  digits_append.mpr ⟨fun unit hmem => by rw [List.eq_of_mem_replicate hmem]; decide, h⟩

theorem leading_inj {d e m n base : Nat} (hm : m < base) (hn : n < base) (h : d * base + m = e * base + n) :
    d = e := by
  have hpos : 0 < base := Nat.lt_of_le_of_lt (Nat.zero_le m) hm
  have hd : (d * base + m) / base = d := by
    rw [Nat.add_comm, Nat.add_mul_div_right _ _ hpos, Nat.div_eq_of_lt hm, Nat.zero_add]
  have he : (e * base + n) / base = e := by
    rw [Nat.add_comm, Nat.add_mul_div_right _ _ hpos, Nat.div_eq_of_lt hn, Nat.zero_add]
  rw [← hd, h, he]

/-- Digits of one length are known by the number they stand for. -/
theorem value_inj {a b : Text} (ha : Digits a) (hb : Digits b) (hlen : a.length = b.length)
    (h : value a = value b) : a = b := by
  induction a generalizing b with
  | nil => exact (List.length_eq_zero_iff.mp hlen.symm).symm
  | cons unit a ih =>
    cases b with
    | nil => exact absurd hlen (Nat.succ_ne_zero _)
    | cons other b =>
      have hlen' := Nat.succ.inj hlen
      obtain ⟨hunit, htail⟩ := digits_cons.mp ha
      obtain ⟨hother, htail'⟩ := digits_cons.mp hb
      obtain ⟨d, hd, rfl⟩ := isDigit_iff.mp hunit
      obtain ⟨e, he, rfl⟩ := isDigit_iff.mp hother
      have hva := value_lt htail
      have hvb := value_lt htail'
      rw [value_cons, value_cons, digit_toNat hd, digit_toNat he, Nat.add_sub_cancel_left,
        Nat.add_sub_cancel_left, hlen'] at h
      rw [hlen'] at hva
      have hde : d = e := leading_inj hva hvb h
      subst hde
      rw [ih htail htail' hlen' (Nat.add_left_cancel h)]

theorem leading_lt {d e m n base : Nat} (hm : m < base) (hn : n < base) :
    d * base + m < e * base + n ↔ d < e ∨ d = e ∧ m < n := by
  obtain hlt | rfl | hgt := Nat.lt_trichotomy d e
  · have hmul := Nat.mul_le_mul_right base hlt
    rw [Nat.succ_mul] at hmul
    exact ⟨fun _ => Or.inl hlt, fun _ => by omega⟩
  · omega
  · have hmul := Nat.mul_le_mul_right base hgt
    rw [Nat.succ_mul] at hmul
    omega

/-- Digits of one length are ordered as the numbers they stand for. -/
theorem less_digits {a b : Text} (ha : Digits a) (hb : Digits b) (hlen : a.length = b.length) :
    less a b = true ↔ value a < value b := by
  induction a generalizing b with
  | nil =>
    rw [List.length_eq_zero_iff.mp hlen.symm]
    simp [less]
  | cons unit a ih =>
    cases b with
    | nil => exact absurd hlen (Nat.succ_ne_zero _)
    | cons other b =>
      have hlen' := Nat.succ.inj hlen
      obtain ⟨hunit, htail⟩ := digits_cons.mp ha
      obtain ⟨hother, htail'⟩ := digits_cons.mp hb
      obtain ⟨d, hd, rfl⟩ := isDigit_iff.mp hunit
      obtain ⟨e, he, rfl⟩ := isDigit_iff.mp hother
      have hva := value_lt htail
      rw [hlen'] at hva
      have horder : digit d < digit e ↔ d < e := by
        rw [UInt16.lt_iff_toNat_lt, digit_toNat hd, digit_toNat he, Nat.add_lt_add_iff_left]
      have hsame : digit d = digit e ↔ d = e := by
        rw [← UInt16.toNat_inj, digit_toNat hd, digit_toNat he, Nat.add_left_cancel_iff]
      rw [less_cons, ih htail htail' hlen', horder, hsame, value_cons, value_cons, digit_toNat hd,
        digit_toNat he, Nat.add_sub_cancel_left, Nat.add_sub_cancel_left, hlen',
        leading_lt hva (value_lt htail')]

theorem numeral_of_lt {n : Nat} (h : n < 10) : numeral n = [digit n] := by
  interval_cases n <;> rfl

theorem numeral_step {n : Nat} (h : 10 ≤ n) : numeral n = numeral (n / 10) ++ [digit (n % 10)] := by
  have hlt := Nat.mod_lt n (show 0 < 10 by decide)
  rw [numeral, Nat.toDigits_of_base_le (by decide) h, List.map_append, numeral, List.map_singleton]
  congr 2
  interval_cases n % 10 <;> rfl

theorem digits_numeral (n : Nat) : Digits (numeral n) := by
  induction n using Nat.strong_induction_on with
  | _ n ih =>
    obtain h | h := Nat.lt_or_ge n 10
    · rw [numeral_of_lt h]
      exact digits_cons.mpr ⟨isDigit_digit h, nofun⟩
    · rw [numeral_step h]
      exact digits_append.mpr ⟨ih _ (by omega), digits_cons.mpr ⟨isDigit_digit (by omega), nofun⟩⟩

theorem value_numeral (n : Nat) : value (numeral n) = n := by
  induction n using Nat.strong_induction_on with
  | _ n ih =>
    obtain h | h := Nat.lt_or_ge n 10
    · rw [numeral_of_lt h, value_cons, digit_toNat h]
      simp [value]
    · have hlast : value [digit (n % 10)] = n % 10 := by
        rw [value_cons, digit_toNat (by omega)]
        simp [value]
      rw [numeral_step h, value_append, ih _ (by omega), hlast, List.length_singleton]
      omega

theorem numeral_ne_nil (n : Nat) : numeral n ≠ [] := by
  obtain h | h := Nat.lt_or_ge n 10
  · rw [numeral_of_lt h]
    exact List.cons_ne_nil _ _
  · rw [numeral_step h]
    exact List.append_ne_nil_of_right_ne_nil _ (List.cons_ne_nil _ _)

theorem numeral_head {n : Nat} (h : 0 < n) : (numeral n).head? ≠ some 0x30 := by
  induction n using Nat.strong_induction_on with
  | _ n ih =>
    obtain hn | hn := Nat.lt_or_ge n 10
    · rw [numeral_of_lt hn]
      interval_cases n <;> decide
    · rw [numeral_step hn, List.head?_append_of_ne_nil _ (numeral_ne_nil _)]
      exact ih (n / 10) (by omega) (by omega)

theorem numeral_length_le {n k : Nat} (hk : 0 < k) (h : n < 10 ^ k) : (numeral n).length ≤ k := by
  induction k generalizing n with
  | zero => exact absurd hk (Nat.lt_irrefl 0)
  | succ k ih =>
    obtain hn | hn := Nat.lt_or_ge n 10
    · rw [numeral_of_lt hn]
      exact hk
    · have hpos : 0 < k := by
        by_contra hzero
        have hk0 : k = 0 := Nat.le_zero.mp (Nat.not_lt.mp hzero)
        subst hk0
        omega
      have hle := ih hpos (show n / 10 < 10 ^ k by rw [Nat.pow_succ] at h; omega)
      rw [numeral_step hn, List.length_append, List.length_singleton]
      omega

theorem le_value {unit : UInt16} {text : Text} (h : isDigit unit = true) (hne : unit ≠ 0x30) :
    10 ^ text.length ≤ value (unit :: text) := by
  obtain ⟨d, hd, rfl⟩ := isDigit_iff.mp h
  have hpos : 0 < d := Nat.pos_of_ne_zero fun hzero => hne (by rw [hzero]; rfl)
  rw [value_cons, digit_toNat hd, Nat.add_sub_cancel_left]
  exact (Nat.le_mul_of_pos_left _ hpos).trans (Nat.le_add_right _ _)

/-- Digits without a leading zero are the numeral of their number. -/
theorem numeral_value {text : Text} (h : Digits text) (hne : text ≠ [])
    (hlead : text.head? ≠ some 0x30 ∨ text.length = 1) : numeral (value text) = text := by
  refine value_inj (digits_numeral _) h (Nat.le_antisymm ?_ ?_) (value_numeral _)
  · exact numeral_length_le (List.length_pos_iff.mpr hne) (value_lt h)
  · have hlt := value_lt (digits_numeral (value text))
    rw [value_numeral] at hlt
    cases text with
    | nil => exact absurd rfl hne
    | cons unit text =>
      obtain hlead | hone := hlead
      · have hle := @le_value unit text (digits_cons.mp h).1 fun hzero => hlead (congrArg some hzero)
        exact (Nat.pow_lt_pow_iff_right (by decide)).mp (hle.trans_lt hlt)
      · rw [hone]
        exact List.length_pos_iff.mpr (numeral_ne_nil _)

theorem pad_value {text : Text} {width : Nat} (h : Digits text) (hpos : 0 < width)
    (hlen : text.length = width) : padStart width (numeral (value text)) = text := by
  refine value_inj (digits_padStart (digits_numeral _)) h ?_ ?_
  · have hle := numeral_length_le hpos (hlen ▸ value_lt h)
    rw [padStart_length, hlen]
    omega
  · rw [value_padStart, value_numeral]

theorem readDigit_eq (unit : UInt16) :
    readDigit 10 unit = if isDigit unit then some (unit.toNat - 0x30) else none := by
  unfold readDigit digitValue
  split_ifs with hdigit hlower hupper
  · obtain ⟨d, hd, rfl⟩ := isDigit_iff.mp hdigit
    rw [Option.filter_some, digit_toNat hd, if_pos (by simpa using hd)]
  · have hlow : 0x61 ≤ unit.toNat := hlower.1
    rw [Option.filter_some, if_neg (by simp; omega)]
  · have hlow : 0x41 ≤ unit.toNat := hupper.1
    rw [Option.filter_some, if_neg (by simp; omega)]
  · rfl

theorem foldlM_eq_some {text : Text} {start n : Nat} :
    text.foldlM (fun total unit => (readDigit 10 unit).map (total * 10 + ·)) start = some n ↔
      Digits text ∧ start * 10 ^ text.length + value text = n := by
  induction text generalizing start with
  | nil => simp [value, Digits]
  | cons unit text ih =>
    rw [List.foldlM_cons, readDigit_eq, digits_cons]
    by_cases h : isDigit unit = true
    · rw [if_pos h, value_cons, List.length_cons]
      have hsum : (start * 10 + (unit.toNat - 0x30)) * 10 ^ text.length + value text =
          start * 10 ^ (text.length + 1) + ((unit.toNat - 0x30) * 10 ^ text.length + value text) := by
        ring
      simp only [Option.map_some, Option.bind_eq_bind, Option.bind_some, ih, hsum, h, true_and]
    · rw [if_neg h]
      exact ⟨nofun, fun hdigits => absurd hdigits.1.1 h⟩

theorem readDigits_eq_some {text : Text} {n : Nat} :
    readDigits 10 text = some n ↔ text ≠ [] ∧ Digits text ∧ value text = n := by
  cases text with
  | nil => exact ⟨nofun, fun h => absurd rfl h.1⟩
  | cons unit text =>
    rw [readDigits.eq_2 _ _ (List.cons_ne_nil _ _), foldlM_eq_some, Nat.zero_mul, Nat.zero_add]
    exact ⟨fun h => ⟨List.cons_ne_nil _ _, h⟩, fun h => h.2⟩

theorem readDigits_numeral (n : ℕ) : readDigits 10 (numeral n) = some n :=
  readDigits_eq_some.mpr ⟨numeral_ne_nil n, digits_numeral n, value_numeral n⟩

theorem trim_digits {text : Text} (h : Digits text) : trim text = text :=
  trim_solid fun unit hunit => not_space_of_isDigit (h unit hunit)

theorem ne_of_isDigit {unit other : UInt16} (h : isDigit unit = true) (hother : isDigit other = false) :
    unit ≠ other := by
  rintro rfl
  rw [h] at hother
  cases hother

theorem readInteger_digits {text : Text} {n : ℕ} (h : readDigits 10 text = some n) :
    readInteger text = some (n : ℤ) := by
  obtain ⟨hne, hdigits, -⟩ := readDigits_eq_some.mp h
  unfold readInteger
  rw [trim_digits hdigits]
  cases text with
  | nil => exact absurd rfl hne
  | cons first text =>
    cases text with
    | nil => simp only [h, Option.map_some, Int.ofNat_eq_natCast]
    | cons second text =>
      obtain ⟨hfirst, hsecond, -⟩ := (digits_cons.trans (and_congr_right' digits_cons)).mp hdigits
      simp only [ne_of_isDigit hfirst, ne_of_isDigit hsecond, show isDigit 0x2D = false by decide,
        show isDigit 0x2B = false by decide, show isDigit 0x78 = false by decide,
        show isDigit 0x58 = false by decide, show isDigit 0x6F = false by decide,
        show isDigit 0x4F = false by decide, show isDigit 0x62 = false by decide,
        show isDigit 0x42 = false by decide, h]
      simp only [or_self, and_false, if_false, Option.map_some, Int.ofNat_eq_natCast]

end BaasConnector.Lib.Numerals
