import PlcGateway.Json5.Number
import PlcGateway.Proofs.Ieee.Decimal
import PlcGateway.Proofs.Ieee.Integer

/-!
# Integers in JSON5 text

An integer is not read as it is written: it is made a double first, and the double is brought into
the range of what is read (`Number.unsigned?_eq`). So an integer below zero becomes zero, one that
is too great becomes the greatest, and one of more than 53 bits may be moved to a neighbour. Kept
are just the integers in range that a double holds, and the greatest one of 64 bits, which is moved
out of the range and back again (`min_roundNat_eq_iff`).
-/

namespace PlcGateway.Json5.Number

open Ieee (binary64 ofDigits)

variable {n : Number} {i : ℤ} {limit v : ℕ}

/-! ## Decimal numbers -/

/-- Decimal digits stand for a finite double only, and for the nearest one. -/
theorem of_decimal?_eq_some {negative : Bool} {whole part : List Char} {exponent : ℤ}
    {x : Ieee.Datum} (h : decimal? negative whole part exponent = some x) :
    ∃ significand exponent', x = .finite negative significand exponent' ∧
      binary64.Rounds (Ieee.Decimal.magnitude
        ⟨negative, ofDigits (whole ++ part), exponent - part.length⟩)
        (significand * 2 ^ exponent') := by
  unfold decimal? at h
  simp only at h
  set decimal : Ieee.Decimal :=
    ⟨negative, ofDigits (whole ++ part), exponent - part.length⟩
  have hden : 0 < 10 ^ (-decimal.exponent).toNat := Nat.pow_pos (by decide)
  rw [decimal.bits_eq (f := binary64) (by decide)] at h
  rcases Nat.lt_or_eq_of_le (binary64.nearest_le_infinityBits
    (decimal.coefficient * 10 ^ decimal.exponent.toNat) (10 ^ (-decimal.exponent).toNat)) with
    finite | infinite
  · obtain ⟨significand, exponent', hfinite, hrounds⟩ :=
      binary64.exists_datum_of_lt_infinityBits hden finite decimal.negative
    rw [hfinite] at h
    refine ⟨significand, exponent', (Option.some.inj h).symm, ?_⟩
    rw [decimal.magnitude_eq_div]
    exact hrounds
  · -- past the greatest double, there is none
    have hinfinite : ∀ negative, binary64.datum (binary64.signed negative binary64.infinityBits) =
        .infinite negative := by
      intro negative
      cases negative <;> rfl
    rw [infinite, hinfinite] at h
    cases h

/-- The double of decimal digits without a point and an exponent. -/
theorem of_decimal?_integer {negative : Bool} {whole : List Char} {x : Ieee.Datum}
    (h : decimal? negative whole [] 0 = some x) :
    x.clamp limit = min limit (if negative then 0 else binary64.roundNat (ofDigits whole)) := by
  obtain ⟨significand, exponent, rfl, hrounds⟩ := of_decimal?_eq_some h
  have hmagnitude : Ieee.Decimal.magnitude ⟨negative, ofDigits (whole ++ []),
      0 - ([] : List Char).length⟩ = (ofDigits whole : ℚ) := by
    simp [Ieee.Decimal.magnitude]
  rw [hmagnitude] at hrounds
  cases negative with
  | true => exact (Nat.min_zero limit).symm
  | false =>
    rw [Ieee.Datum.clamp_finite, hrounds.eq_roundNat (by decide), Nat.floor_natCast]
    rfl

/-! ## Integers -/

/-- What an integer is read as. -/
theorem unsigned?_eq (integer : n.integer? = some i) (h : n.unsigned? limit = some v) :
    v = min limit (binary64.roundNat i.toNat) := by
  obtain ⟨sign, magnitude⟩ := n
  obtain ⟨x, hx, rfl⟩ := Option.map_eq_some_iff.1 h
  cases magnitude with
  | infinity => cases integer
  | nan => cases integer
  | hexadecimal digits =>
    cases sign with
    | plus => cases hx
    | minus => cases hx
    | none =>
      obtain rfl : (ofHexDigits digits : ℤ) = i := Option.some.inj integer
      simp only [datum?] at hx
      split at hx
      · next hle =>
        obtain rfl := Option.some.inj hx
        have hlt : ofHexDigits digits < 2 ^ (binary64.fractionBits + 1) :=
          hle.trans_lt (by decide)
        rw [Int.toNat_natCast, Ieee.Format.roundNat_of_lt hlt, Ieee.Datum.clamp_finite, zpow_zero,
          mul_one, Nat.floor_natCast]
      · cases hx
  | decimal whole part exponent =>
    cases part with
    | some part => cases integer
    | none =>
      cases exponent with
      | some exponent => cases integer
      | none =>
        have hdecimal : decimal? (sign == .minus) whole [] 0 = some x := by
          cases sign <;> exact hx
        rw [of_decimal?_integer hdecimal]
        obtain rfl := Option.some.inj integer
        cases sign with
        | none => rfl
        | plus => rfl
        | minus =>
          have hzero : (-(ofDigits whole : ℤ)).toNat = 0 := by omega
          show min limit 0 = min limit (binary64.roundNat (-(ofDigits whole : ℤ)).toNat)
          rw [hzero]
          rfl

/-- The greatest number of 64 bits is rounded up, out of their range, which brings it back. -/
theorem min_roundNat_greatest :
    min (2 ^ 64 - 1) (binary64.roundNat (2 ^ 64 - 1)) = 2 ^ 64 - 1 := by
  decide

/-- Within 16 or 64 bits, an integer is kept just if it is in range and a double holds it, or if it
is the greatest of 64 bits. -/
theorem min_roundNat_eq_iff (width : limit = 2 ^ 16 - 1 ∨ limit = 2 ^ 64 - 1) :
    ((min limit (binary64.roundNat i.toNat) : ℕ) : ℤ) = i ↔
      0 ≤ i ∧ i ≤ limit ∧ (2 ^ (i.toNat.log2 - 52) ∣ i.toNat ∨ i = 2 ^ 64 - 1) := by
  have hdvd (n : ℕ) : 2 ^ (n.log2 - 52) ∣ n ↔ binary64.roundNat n = n :=
    (Ieee.Format.roundNat_eq_self_iff (f := binary64)).symm
  constructor
  · intro h
    obtain ⟨n, rfl⟩ := Int.eq_ofNat_of_zero_le (h ▸ Int.natCast_nonneg _)
    rw [Int.toNat_natCast, Int.natCast_inj] at h
    rw [Int.toNat_natCast, hdvd]
    refine ⟨Int.natCast_nonneg n, ?_, ?_⟩
    · exact Int.ofNat_le.2 (h ▸ Nat.min_le_left _ _)
    · rcases Nat.le_total (binary64.roundNat n) limit with hle | hge
      · exact .inl (by rwa [Nat.min_eq_right hle] at h)
      · -- only the limit itself is cut off and kept
        rw [Nat.min_eq_left hge] at h
        subst h
        rcases width with rfl | rfl
        · exact .inl (Ieee.Format.roundNat_of_lt (by decide))
        · exact .inr rfl
  · rintro ⟨hnonneg, hle, hdouble⟩
    obtain ⟨n, rfl⟩ := Int.eq_ofNat_of_zero_le hnonneg
    rw [Int.toNat_natCast, hdvd] at hdouble
    rw [Int.toNat_natCast, Int.natCast_inj]
    have hn : n ≤ limit := Int.ofNat_le.1 hle
    rcases hdouble with hround | hgreatest
    · rw [hround, Nat.min_eq_right hn]
    · obtain rfl : n = 2 ^ 64 - 1 := by omega
      obtain rfl : limit = 2 ^ 64 - 1 := by omega
      exact min_roundNat_greatest

end PlcGateway.Json5.Number
