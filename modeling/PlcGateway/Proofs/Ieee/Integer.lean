import PlcGateway.Proofs.Ieee.Rounding

/-!
# Natural numbers in a binary format

A natural number of more bits than a significand has is rounded to a multiple of a power of two
(`Format.roundNat`). It is kept just if it is such a multiple (`Format.roundNat_eq_self_iff`), so
all numbers that a significand holds are kept, and the greater ones with few significant bits.
-/

namespace PlcGateway.Ieee

theorem roundDiv_mul_eq_iff {n unit : ℕ} (pos : 0 < unit) :
    roundDiv n unit * unit = n ↔ unit ∣ n := by
  constructor
  · intro h
    exact Dvd.intro_left _ h
  · rintro ⟨k, rfl⟩
    have hround : roundDiv (unit * k) unit = k := by
      unfold roundDiv
      simp [Nat.mul_div_cancel_left k pos, pos]
    rw [hround, Nat.mul_comm]

theorem div_le_roundDiv (num den : ℕ) : num / den ≤ roundDiv num den := by
  unfold roundDiv
  simp only
  split_ifs <;> omega

namespace Format

variable {f : Format} {n : ℕ}

/-- The number of a format that is nearest to a natural number, where the range of the format does
not end before. -/
def roundNat (f : Format) (n : ℕ) : ℕ :=
  roundDiv n (2 ^ (n.log2 - f.fractionBits)) * 2 ^ (n.log2 - f.fractionBits)

theorem roundNat_eq_self_iff : f.roundNat n = n ↔ 2 ^ (n.log2 - f.fractionBits) ∣ n :=
  roundDiv_mul_eq_iff (Nat.two_pow_pos _)

theorem log2_sub_eq_zero (fits : n < 2 ^ (f.fractionBits + 1)) : n.log2 - f.fractionBits = 0 := by
  rcases Nat.eq_zero_or_pos n with rfl | pos
  · rw [Nat.log2_zero, Nat.zero_sub]
  · have := (Nat.log2_lt pos.ne').2 fits
    omega

/-- What a significand holds is kept. -/
theorem roundNat_of_lt (fits : n < 2 ^ (f.fractionBits + 1)) : f.roundNat n = n := by
  rw [roundNat_eq_self_iff, log2_sub_eq_zero fits]
  exact one_dvd n

/-- No number is rounded to its half or below. -/
theorem lt_two_mul_roundNat (f : Format) (pos : 0 < n) : n < 2 * f.roundNat n := by
  have hunit : 2 ^ (n.log2 - f.fractionBits) ≤ n :=
    (Nat.pow_le_pow_right Nat.two_pos (Nat.sub_le _ _)).trans (Nat.log2_self_le pos.ne')
  have hpos : 0 < 2 ^ (n.log2 - f.fractionBits) := Nat.two_pow_pos _
  unfold roundNat
  generalize 2 ^ (n.log2 - f.fractionBits) = unit at hunit hpos
  have hone : unit ≤ n / unit * unit :=
    Nat.le_mul_of_pos_left unit (Nat.div_pos hunit hpos)
  calc n = n / unit * unit + n % unit := (Nat.div_add_mod' n unit).symm
    _ < n / unit * unit + unit := Nat.add_lt_add_left (Nat.mod_lt n hpos) _
    _ ≤ 2 * (n / unit * unit) := by omega
    _ ≤ 2 * (roundDiv n unit * unit) :=
      Nat.mul_le_mul_left 2 (Nat.mul_le_mul_right unit (div_le_roundDiv n unit))

theorem natCast_div_two_pow (n k : ℕ) : (n : ℚ) / 2 ^ (k : ℤ) = (n : ℚ) / ((2 ^ k : ℕ) : ℚ) := by
  rw [zpow_natCast, Nat.cast_pow, Nat.cast_ofNat]

/-- A natural number is rounded to a natural number. -/
theorem Rounds.eq_roundNat {y : ℚ} (h : f.Rounds n y) (low : f.leastExponent ≤ 0) :
    y = f.roundNat n := by
  rcases Nat.lt_or_ge n (2 ^ (f.fractionBits + 1)) with fits | wide
  · rw [h.eq_natCast low fits, roundNat_of_lt fits]
  · have pos : 0 < n := (Nat.two_pow_pos _).trans_le wide
    have hlog : f.fractionBits + 1 ≤ n.log2 := (Nat.le_log2 pos.ne').2 wide
    have hunit : f.unit n = ((n.log2 - f.fractionBits : ℕ) : ℤ) := by
      have hcast : Int.log 2 (n : ℚ) = n.log2 := by
        rw [Int.log_natCast, Nat.log2_eq_log_two]
      unfold unit
      rw [hcast]
      omega
    obtain ⟨m, rfl, nearest⟩ := h
    rw [hunit, natCast_div_two_pow] at nearest
    rw [hunit, nearest.unique (roundDiv_isNearest n (Nat.two_pow_pos _)), roundNat, Nat.cast_mul,
      zpow_natCast, Nat.cast_pow, Nat.cast_ofNat]

end Format

end PlcGateway.Ieee
