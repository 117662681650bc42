import Mathlib.Algebra.Order.Field.Rat
import Mathlib.Algebra.Order.Field.Power
import Mathlib.Tactic.Positivity
import Mathlib.Tactic.Ring
import DocumentQuery.Binary64

/-!
# Floating-point numbers as rational numbers

What the three fields of an encoding denote under the standard, as a rational number. The main
statement is that a number is read as an integer exactly when this rational number is that integer.
-/

namespace DocumentQuery
set_option autoImplicit false

namespace Binary64

/-- What the exponent and the fraction denote: subnormal numbers have the least exponent and no
leading one. -/
def magnitude (x : Binary64) : ℚ :=
  if x.exponentField = 0 then x.fraction / 2 ^ 52 * 2 ^ (-1022 : ℤ)
  else (1 + x.fraction / 2 ^ 52) * 2 ^ (x.exponentField - 1023 : ℤ)

/-- The rational number that an encoding denotes. The greatest exponent is that of the infinities
and of the NaNs, which denote none. -/
def toRat? (x : Binary64) : Option ℚ :=
  if x.exponentField = 2047 then none
  else some (if x.isNegative then -x.magnitude else x.magnitude)

/-- The unit of the last place, fifty-two binary places behind the leading one. -/
theorem two_zpow_unit (e : ℤ) : (2 : ℚ) ^ (e - 1075) = 2 ^ (e - 1023) / 2 ^ 52 := by
  have hsplit : e - 1075 = e - 1023 - 52 := by ring
  rw [hsplit, zpow_sub₀ two_ne_zero]
  norm_cast

/-- A magnitude counts units of the last place. -/
theorem magnitude_eq_significand (x : Binary64) :
    x.magnitude = x.significand * 2 ^ (x.scale - 1075 : ℤ) := by
  rw [two_zpow_unit, magnitude, significand, scale]
  by_cases h : x.exponentField = 0
  · have hleast : ((max x.exponentField 1 : ℕ) : ℤ) - 1023 = -1022 := by omega
    rw [if_pos h, if_pos h, hleast]
    ring
  · have hscale : max x.exponentField 1 = x.exponentField := by omega
    rw [if_neg h, if_neg h, hscale, Nat.pow_eq, Nat.cast_add, Nat.cast_pow, Nat.cast_ofNat]
    ring

/-- The magnitude is read as the natural number that it is. -/
theorem wholeMagnitude?_eq_some {x : Binary64} {n : Nat} :
    x.wholeMagnitude? = some n ↔ x.magnitude = n := by
  rw [magnitude_eq_significand, wholeMagnitude?, Nat.pow_eq, Nat.pow_eq]
  by_cases hscale : 1075 ≤ x.scale
  · -- The unit is an integer.
    obtain ⟨k, hk⟩ := Nat.exists_eq_add_of_le hscale
    have hunit : (x.scale - 1075 : ℤ) = k := by omega
    rw [if_pos hscale, hunit, zpow_natCast, hk, Nat.add_sub_cancel_left, Option.some_inj]
    norm_cast
  · -- The unit is a fraction of one, and the significand a multiple of its inverse.
    obtain ⟨k, hk⟩ := Nat.exists_eq_add_of_le (Nat.le_of_not_le hscale)
    have hunit : (x.scale - 1075 : ℤ) = -k := by omega
    have hinverse : 1075 - x.scale = k := by omega
    have hcast : (x.significand : ℚ) * 2 ^ (-k : ℤ) = n ↔ x.significand = n * 2 ^ k := by
      rw [zpow_neg, zpow_natCast, ← div_eq_mul_inv, div_eq_iff (by positivity)]
      norm_cast
    rw [if_neg hscale, hunit, hinverse, hcast]
    constructor
    · intro h
      split at h
      · next hmod =>
        cases h
        exact (Nat.div_mul_cancel (Nat.dvd_of_mod_eq_zero hmod)).symm
      · cases h
    · intro h
      rw [h, if_pos (Nat.mul_mod_left n _), Nat.mul_div_cancel n (Nat.two_pow_pos k)]

theorem magnitude_nonneg (x : Binary64) : 0 ≤ x.magnitude := by
  rw [magnitude_eq_significand]
  positivity

theorem exists_wholeMagnitude? {x : Binary64} {n : Int} :
    (∃ m : Nat, x.wholeMagnitude? = some m ∧ (m : Int) = n) ↔ x.magnitude = n := by
  simp only [wholeMagnitude?_eq_some]
  constructor
  · rintro ⟨m, hm, rfl⟩
    exact_mod_cast hm
  · intro h
    have hnonneg : 0 ≤ n := by exact_mod_cast h ▸ magnitude_nonneg x
    obtain ⟨m, rfl⟩ := Int.eq_ofNat_of_zero_le hnonneg
    exact ⟨m, by exact_mod_cast h, rfl⟩

/-- A number is read as the integer that it denotes, and as none where it denotes none. -/
theorem toInt?_eq_some {x : Binary64} {n : Int} : x.toInt? = some n ↔ x.toRat? = some (n : ℚ) := by
  rw [toInt?, toRat?, isFinite]
  by_cases hfinite : x.exponentField = 2047
  · simp [hfinite]
  · cases x.isNegative with
    | false => simp [hfinite, Option.bind_eq_some_iff, exists_wholeMagnitude?]
    | true => simp [hfinite, Option.bind_eq_some_iff, neg_eq_iff_eq_neg, exists_wholeMagnitude?]

end Binary64

end DocumentQuery
