import PlcGateway.Proofs.Ieee.Decimal
import PlcGateway.Proofs.Text.Numeral

/-!
# Texts with a fixed number of places

A finite number is rounded to a multiple of the last place (`Datum.exists_fixed`), and the text of
the multiple is the digits of its whole part, a point, and one digit for each place
(`exists_placed`).
-/

namespace PlcGateway.Ieee

open PlcGateway.Text (decimal)

/-- The digits in front of the point and those behind it are the digits of the number of units. -/
theorem exists_placed (places : ℕ) (pos : 0 < places) (n : ℕ) : ∃ part : List Char,
    placed places n = decimal (n / 10 ^ places) ++ '.' :: part ∧ part.length = places ∧
    Text.IsDecimal (decimal (n / 10 ^ places) ++ part) n := by
  have hlength : (decimal (n % 10 ^ places)).length ≤ places :=
    (Nat.length_toDigits_le_iff (by decide) pos).2 (Nat.mod_lt _ (Nat.pow_pos (by decide)))
  have whole := Text.isDecimal_decimal (n / 10 ^ places)
  have rest := Text.isDecimal_decimal (n % 10 ^ places)
  set zeros := places - (decimal (n % 10 ^ places)).length with hzeros
  have hpart : (List.replicate zeros '0' ++ decimal (n % 10 ^ places)).length = places := by
    rw [List.length_append, List.length_replicate]
    omega
  refine ⟨List.replicate zeros '0' ++ decimal (n % 10 ^ places), rfl, hpart, ?_, ?_, ?_⟩
  · exact fun hnil => whole.ne_nil (List.append_eq_nil_iff.1 hnil).1
  · refine List.forall_mem_append.2 ⟨whole.isDigit, List.forall_mem_append.2 ⟨?_, rest.isDigit⟩⟩
    intro c hc
    rw [List.eq_of_mem_replicate hc]
    decide
  · have hvalue : Nat.ofDigitChars 10 (List.replicate zeros '0' ++ decimal (n % 10 ^ places)) 0 =
        n % 10 ^ places := by
      rw [Nat.ofDigitChars_append, Nat.ofDigitChars_replicate_zero, Nat.mul_zero, rest.value_eq]
    rw [Nat.ofDigitChars_append, whole.value_eq, Nat.ofDigitChars_eq_ofDigitChars_zero, hpart,
      hvalue]
    exact Nat.div_add_mod n _

/-- A finite number is written as the multiple of the last place that is nearest, a half going to
the even one. -/
theorem Datum.exists_fixed (places : ℕ) (negative : Bool) (significand : ℕ) (exponent : ℤ) :
    ∃ n, IsNearest ((significand : ℚ) * 2 ^ exponent * 10 ^ places) n ∧
      (Datum.finite negative significand exponent).fixed places =
        (if negative then ['-'] else []) ++ placed places n := by
  refine ⟨_, ?_, rfl⟩
  have hproduct : (significand : ℚ) * 2 ^ exponent * 10 ^ places =
      ((significand * 10 ^ places : ℕ) : ℚ) * 2 ^ exponent := by
    push_cast
    ring
  rw [hproduct, mul_two_zpow_eq_div]
  exact roundDiv_isNearest _ (Nat.two_pow_pos _)

end PlcGateway.Ieee
