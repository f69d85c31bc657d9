import Mathlib.Algebra.Order.Field.Basic
import Mathlib.Algebra.Group.Int.Even
import Mathlib.Algebra.Order.Ring.Cast
import Mathlib.Tactic.Linarith
import Mathlib.Tactic.Ring

namespace BaasConnector.Lib.Rounding

variable {K : Type} [Field K] [LinearOrder K] [IsStrictOrderedRing K]

local instance (priority := high) orderedRing : IsOrderedRing K := IsStrictOrderedRing.toIsOrderedRing

local instance (priority := high) orderedAddMonoid : IsOrderedAddMonoid K :=
  IsOrderedRing.toIsOrderedAddMonoid

/-- The last whole number on the way from zero to a number. -/
def TowardZero (x : K) (n : ℤ) : Prop :=
  (0 ≤ x ∧ (n : K) ≤ x ∧ x < n + 1) ∨ (x ≤ 0 ∧ x ≤ n ∧ (n : K) - 1 < x)

/-- The first whole number that is not nearer to zero. -/
def AwayFromZero (x : K) (n : ℤ) : Prop :=
  (0 ≤ x ∧ x ≤ n ∧ (n : K) - 1 < x) ∨ (x ≤ 0 ∧ (n : K) ≤ x ∧ x < n + 1)

/-- The nearest whole number, the one further from zero of two. -/
def NearestAway (x : K) (n : ℤ) : Prop := |n - x| ≤ 1 / 2 ∧ (|n - x| = 1 / 2 → |x| ≤ |(n : K)|)

/-- The nearest whole number, the even one of two. -/
def NearestEven (x : K) (n : ℤ) : Prop := |n - x| ≤ 1 / 2 ∧ (|n - x| = 1 / 2 → Even n)

variable {x y : K} {m n : ℤ}

theorem TowardZero.neg (h : TowardZero x n) : TowardZero (-x) (-n) := by
  unfold TowardZero
  push_cast
  obtain ⟨h0, h1, h2⟩ | ⟨h0, h1, h2⟩ := h
  · exact Or.inr ⟨by linarith, by linarith, by linarith⟩
  · exact Or.inl ⟨by linarith, by linarith, by linarith⟩

theorem AwayFromZero.neg (h : AwayFromZero x n) : AwayFromZero (-x) (-n) := by
  unfold AwayFromZero
  push_cast
  obtain ⟨h0, h1, h2⟩ | ⟨h0, h1, h2⟩ := h
  · exact Or.inr ⟨by linarith, by linarith, by linarith⟩
  · exact Or.inl ⟨by linarith, by linarith, by linarith⟩

omit [IsStrictOrderedRing K] in
theorem abs_neg_error (x : K) (n : ℤ) : |((-n : ℤ) : K) - -x| = |n - x| := by
  rw [← abs_neg]
  push_cast
  ring_nf

omit [IsStrictOrderedRing K] in
theorem NearestAway.neg (h : NearestAway x n) : NearestAway (-x) (-n) := by
  rw [NearestAway, abs_neg_error]
  push_cast
  rw [abs_neg, abs_neg]
  exact h

omit [IsStrictOrderedRing K] in
theorem NearestEven.neg (h : NearestEven x n) : NearestEven (-x) (-n) := by
  rw [NearestEven, abs_neg_error, even_neg]
  exact h

theorem TowardZero.near (h : TowardZero x n) : |n - x| < 1 := by
  rw [abs_sub_lt_iff]
  obtain ⟨-, h1, h2⟩ | ⟨-, h1, h2⟩ := h
  · exact ⟨by linarith, by linarith⟩
  · exact ⟨by linarith, by linarith⟩

theorem AwayFromZero.near (h : AwayFromZero x n) : |n - x| < 1 := by
  rw [abs_sub_lt_iff]
  obtain ⟨-, h1, h2⟩ | ⟨-, h1, h2⟩ := h
  · exact ⟨by linarith, by linarith⟩
  · exact ⟨by linarith, by linarith⟩

/-- Of whole numbers in the wrong order the second is one more than the first at least. -/
theorem add_one_le (h : n < m) : (n : K) + 1 ≤ m := by
  exact_mod_cast h

theorem nonneg_of_lt (h : (0 : K) < n + 1) : (0 : K) ≤ n := by
  have hint : 0 < n + 1 := by exact_mod_cast h
  exact_mod_cast Int.lt_add_one_iff.mp hint

theorem TowardZero.mono (hx : TowardZero x m) (hy : TowardZero y n) (hxy : x ≤ y) : m ≤ n := by
  by_contra hlt
  have hle := add_one_le (K := K) (Int.not_le.mp hlt)
  obtain ⟨hx0, hx1, hx2⟩ | ⟨hx0, hx1, hx2⟩ := hx
  · obtain ⟨hy0, hy1, hy2⟩ | ⟨hy0, hy1, hy2⟩ := hy <;> linarith
  · obtain ⟨hy0, hy1, hy2⟩ | ⟨hy0, hy1, hy2⟩ := hy
    · have hn := nonneg_of_lt (hy0.trans_lt hy2)
      linarith
    · linarith

theorem AwayFromZero.mono (hx : AwayFromZero x m) (hy : AwayFromZero y n) (hxy : x ≤ y) : m ≤ n := by
  by_contra hlt
  have hle := add_one_le (K := K) (Int.not_le.mp hlt)
  obtain ⟨hx0, hx1, hx2⟩ | ⟨hx0, hx1, hx2⟩ := hx
  · obtain ⟨hy0, hy1, hy2⟩ | ⟨hy0, hy1, hy2⟩ := hy
    · linarith
    · have hn := nonneg_of_lt ((hx0.trans hxy).trans_lt hy2)
      linarith
  · obtain ⟨hy0, hy1, hy2⟩ | ⟨hy0, hy1, hy2⟩ := hy <;> linarith

/-- Nearest whole numbers come in the wrong order only from one number between the two. -/
theorem half_between (hx : |(m : K) - x| ≤ 1 / 2) (hy : |(n : K) - y| ≤ 1 / 2) (hxy : x ≤ y) (hlt : n < m) :
    x = n + 1 / 2 ∧ y = n + 1 / 2 ∧ m = n + 1 := by
  have hle := add_one_le (K := K) hlt
  have hm := abs_le.mp hx
  have hn := abs_le.mp hy
  have hxn : x = n + 1 / 2 := by linarith
  refine ⟨hxn, by linarith, ?_⟩
  have hmn : (m : K) = n + 1 := by linarith
  exact_mod_cast hmn

theorem half_above (n : ℤ) : |((n + 1 : ℤ) : K) - (n + 1 / 2)| = 1 / 2 := by
  push_cast
  rw [abs_of_nonneg] <;> linarith

theorem half_below (n : ℤ) : |(n : K) - (n + 1 / 2)| = 1 / 2 := by
  rw [abs_of_nonpos] <;> linarith

theorem NearestAway.mono (hx : NearestAway x m) (hy : NearestAway y n) (hxy : x ≤ y) : m ≤ n := by
  by_contra hlt
  obtain ⟨rfl, rfl, rfl⟩ := half_between hx.1 hy.1 hxy (Int.not_le.mp hlt)
  have hup := hx.2 (half_above n)
  have hdown := hy.2 (half_below n)
  push_cast at hup
  obtain hn | hn := lt_or_ge n 0
  · have hneg : (n : K) + 1 ≤ 0 := by exact_mod_cast hn
    rw [abs_of_nonpos (by linarith), abs_of_nonpos hneg] at hup
    linarith
  · have hpos : (0 : K) ≤ n := by exact_mod_cast hn
    rw [abs_of_nonneg (by linarith), abs_of_nonneg hpos] at hdown
    linarith

theorem NearestEven.mono (hx : NearestEven x m) (hy : NearestEven y n) (hxy : x ≤ y) : m ≤ n := by
  by_contra hlt
  obtain ⟨rfl, rfl, rfl⟩ := half_between hx.1 hy.1 hxy (Int.not_le.mp hlt)
  exact Int.even_add_one.mp (hx.2 (half_above n)) (hy.2 (half_below n))

end BaasConnector.Lib.Rounding
