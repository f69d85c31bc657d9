import Mathlib

namespace BaasConnector.Lib.Floats

open Float.Model Float.Model.UnpackedFloat

def valueOf : UnpackedFloat → Option ℚ
  | .finite sign mantissa exponent _ => some (sign.apply mantissa * 2 ^ exponent)
  | .zero _ => some 0
  | _ => none

/-- The number that a float stands for, none when it is infinite or not a number. -/
def value (x : Float) : Option ℚ := valueOf x.toModel.unpack

/-- The whole number nearest to a float, the greater one of two. -/
def nearestInt (x : Float) : Option Int := (value x).map fun v => ⌊v + 1 / 2⌋

theorem value_of_isFinite {x : Float} : x.isFinite = true ↔ ∃ v, value x = some v := by
  have hmodel : x.isFinite = x.toModel.unpack.isFinite := rfl
  rw [hmodel, value]
  cases x.toModel.unpack <;> simp [UnpackedFloat.isFinite, valueOf]

theorem valueOf_eq_zero {f : UnpackedFloat} : valueOf f = some 0 ↔ ∃ sign, f = .zero sign := by
  cases f with
  | infinity sign => exact ⟨nofun, nofun⟩
  | notANumber => exact ⟨nofun, nofun⟩
  | zero sign => exact ⟨fun _ => ⟨sign, rfl⟩, fun _ => rfl⟩
  | finite sign mantissa exponent hpos =>
    refine ⟨fun h => ?_, nofun⟩
    have hmantissa : (mantissa : ℚ) ≠ 0 := Nat.cast_ne_zero.mpr hpos.ne'
    have hpower : (2 : ℚ) ^ exponent ≠ 0 := zpow_ne_zero exponent (by norm_num)
    have hsigned : ((sign.apply mantissa : ℤ) : ℚ) ≠ 0 := by cases sign <;> simpa [Sign.apply] using hmantissa
    exact absurd (Option.some.inj h) (mul_ne_zero hsigned hpower)

theorem value_zero_mul {x y : Float} {v : ℚ} (hx : value x = some 0) (hy : value y = some v) :
    value (x * y) = some 0 := by
  obtain ⟨s, hs⟩ := valueOf_eq_zero.mp hx
  have hmul : (x * y).toModel.unpack =
      (Float.Model.pack (UnpackedFloat.mul Format.binary64 x.toModel.unpack y.toModel.unpack)).unpack := rfl
  have hzero : ∃ t, UnpackedFloat.mul Format.binary64 (.zero s) y.toModel.unpack = .zero t := by
    unfold value at hy
    cases h : y.toModel.unpack with
    | infinity sign => rw [h] at hy; cases hy
    | notANumber => rw [h] at hy; cases hy
    | zero sign => exact ⟨_, rfl⟩
    | finite sign mantissa exponent hpos => exact ⟨_, rfl⟩
  obtain ⟨t, ht⟩ := hzero
  rw [value, hmul, hs, ht]
  cases t <;> rfl

end BaasConnector.Lib.Floats
