import Mathlib.Algebra.Order.Floor.Semifield
import PlcGateway.Ieee.Decimal
import PlcGateway.Proofs.Ieee.Rounding
import PlcGateway.Proofs.Text.Numeral

/-!
# Rounding of decimal numbers

A decimal number is rounded once: the shortcuts for exponents far out of the range of a format give
what rounding gives (`Decimal.bits_eq`). So its bit pattern stands for the rounded number
(`Decimal.exists_datum_bits`), and a multiple of a number stands for the rounded product
(`Format.exists_times`).
-/

namespace PlcGateway.Ieee

open PlcGateway.Text (decimal)

variable {f : Format} {d : Decimal}

/-- Ten is more than eight. -/
theorem two_zpow_le_ten_zpow {k : ℤ} (h : 0 ≤ k) : (2 : ℚ) ^ (3 * k) ≤ 10 ^ k := by
  rw [zpow_mul]
  exact zpow_le_zpow_left₀ h (by norm_num) (by norm_num)

theorem ten_zpow_le_two_zpow {k : ℤ} (h : k ≤ 0) : (10 : ℚ) ^ k ≤ 2 ^ (3 * k) := by
  have hinv := two_zpow_le_ten_zpow (k := -k) (by omega)
  rw [mul_neg, zpow_neg, zpow_neg] at hinv
  exact (inv_le_inv₀ (two_zpow_pos _) (by positivity)).1 hinv

namespace Decimal

/-- A number without its sign. -/
def magnitude (d : Decimal) : ℚ := d.coefficient * 10 ^ d.exponent

/-- The number that was written. -/
def value (d : Decimal) : ℚ := if d.negative then -d.magnitude else d.magnitude

theorem magnitude_nonneg (d : Decimal) : 0 ≤ d.magnitude := by
  unfold magnitude
  positivity

/-- A number that is not below zero has a sign only if it is zero. -/
theorem value_of_nonneg (low : 0 ≤ d.value) :
    d.value = d.magnitude ∧ (d.negative = true → d.magnitude = 0) := by
  unfold value at low ⊢
  split
  · next negative =>
    rw [if_pos negative] at low
    have hzero : d.magnitude = 0 := le_antisymm (by linarith) d.magnitude_nonneg
    rw [hzero]
    exact ⟨neg_zero, fun _ => rfl⟩
  · next positive => exact ⟨rfl, fun negative => absurd negative positive⟩

theorem magnitude_eq_div (d : Decimal) : d.magnitude =
    ((d.coefficient * 10 ^ d.exponent.toNat : ℕ) : ℚ) / ((10 ^ (-d.exponent).toNat : ℕ) : ℚ) := by
  have hbase := zpow_eq_div 10 d.exponent
  rw [Nat.cast_ofNat] at hbase
  rw [magnitude, hbase, Nat.cast_mul, mul_div_assoc]

/-- A number is within the powers of ten that the number of its digits gives. -/
theorem magnitude_bounds (pos : 0 < d.coefficient) :
    (10 : ℚ) ^ ((decimal d.coefficient).length - 1 + d.exponent) ≤ d.magnitude ∧
      d.magnitude < 10 ^ ((decimal d.coefficient).length + d.exponent) := by
  have hlength : 0 < (decimal d.coefficient).length := Nat.length_toDigits_pos
  constructor
  · have hlow := Text.pow_length_decimal_le pos
    have hsub : ((decimal d.coefficient).length : ℤ) - 1 =
        (((decimal d.coefficient).length - 1 : ℕ) : ℤ) := by omega
    rw [zpow_add₀ (by norm_num), hsub, zpow_natCast]
    apply mul_le_mul_of_nonneg_right _ (by positivity)
    exact_mod_cast hlow
  · have hhigh := Text.lt_pow_length_decimal d.coefficient
    rw [zpow_add₀ (by norm_num), zpow_natCast]
    apply mul_lt_mul_of_pos_right _ (by positivity)
    exact_mod_cast hhigh

/-- The bit pattern of a number is the nearest one, with the sign. -/
theorem bits_eq (wide : 2 ≤ f.exponentBits) (d : Decimal) : d.bits f =
    f.signed d.negative
      (f.nearest (d.coefficient * 10 ^ d.exponent.toNat) (10 ^ (-d.exponent).toNat)) := by
  have hden : 0 < 10 ^ (-d.exponent).toNat := Nat.pow_pos (by decide)
  unfold bits
  simp only [Nat.pow_eq]
  congr 1
  split
  · next hzero =>
    unfold Format.nearest
    simp [hzero]
  · next hne =>
    obtain ⟨hlow, hhigh⟩ := magnitude_bounds (Nat.pos_of_ne_zero hne)
    split
    · next large =>
      refine (f.nearest_eq_infinityBits wide hden ?_).symm
      rw [← magnitude_eq_div]
      calc (2 : ℚ) ^ (f.bias + 1) = 2 ^ ((f.bias : ℤ) + 1) := by norm_cast
        _ ≤ 2 ^ (3 * (((decimal d.coefficient).length : ℤ) - 1 + d.exponent)) :=
          zpow_le_zpow_right₀ (by norm_num) large
        _ ≤ 10 ^ (((decimal d.coefficient).length : ℤ) - 1 + d.exponent) :=
          two_zpow_le_ten_zpow (by omega)
        _ ≤ d.magnitude := hlow
    · split
      · next small =>
        refine (f.nearest_eq_zero hden ?_).symm
        rw [← magnitude_eq_div]
        have hnonpos : ((decimal d.coefficient).length : ℤ) + d.exponent ≤ 0 := by
          unfold Format.leastExponent at small
          omega
        calc d.magnitude < 10 ^ (((decimal d.coefficient).length : ℤ) + d.exponent) := hhigh
          _ ≤ 2 ^ (3 * (((decimal d.coefficient).length : ℤ) + d.exponent)) :=
            ten_zpow_le_two_zpow hnonpos
          _ ≤ 2 ^ (f.leastExponent - 1) := zpow_le_zpow_right₀ (by norm_num) (by omega)
      · rfl

theorem bits_lt (wide : 2 ≤ f.exponentBits) (d : Decimal) : d.bits f < 2 * f.signBit := by
  rw [bits_eq wide]
  exact Format.signed_lt (f.nearest_le_infinityBits _ _) d.negative

/-- The bit pattern of a number that is not too great stands for the rounded number. -/
theorem exists_datum_bits (wide : 2 ≤ f.exponentBits) (fits : d.magnitude ≤ f.greatest) :
    ∃ significand exponent, f.datum (d.bits f) = .finite d.negative significand exponent ∧
      f.Rounds d.magnitude (significand * 2 ^ exponent) := by
  rw [magnitude_eq_div] at fits ⊢
  rw [bits_eq wide]
  exact f.exists_datum_nearest wide (Nat.pow_pos (by decide)) fits d.negative

end Decimal

namespace Format

/-- A multiple of a number, if it is not too great, stands for the rounded product. -/
theorem exists_times (wide : 2 ≤ f.exponentBits) {significand n : ℕ} {exponent : ℤ}
    (fits : (significand : ℚ) * 2 ^ exponent * n ≤ f.greatest) (negative : Bool) :
    ∃ significand' exponent', f.times (.finite negative significand exponent) n =
        .finite negative significand' exponent' ∧
      f.Rounds (significand * 2 ^ exponent * n) (significand' * 2 ^ exponent') := by
  have hproduct : (significand : ℚ) * 2 ^ exponent * n =
      ((significand * n : ℕ) : ℚ) * 2 ^ exponent := by
    push_cast
    ring
  rw [hproduct, mul_two_zpow_eq_div] at fits ⊢
  exact f.exists_datum_nearest wide (Nat.two_pow_pos _) fits negative

end Format

/-- Clamping a number takes the integer part, up to the limit. -/
theorem Datum.clamp_finite (limit significand : ℕ) (exponent : ℤ) :
    Datum.clamp limit (.finite false significand exponent) =
      min limit ⌊(significand : ℚ) * 2 ^ exponent⌋₊ := by
  rw [mul_two_zpow_eq_div, Nat.floor_div_eq_div]
  rfl

end PlcGateway.Ieee
