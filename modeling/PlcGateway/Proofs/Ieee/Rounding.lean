import Mathlib.Algebra.Order.Field.Power
import Mathlib.Data.Int.Log
import Mathlib.Data.Rat.Floor
import Mathlib.Tactic.FieldSimp
import Mathlib.Tactic.Linarith
import Mathlib.Tactic.Positivity
import PlcGateway.Ieee.Basic

/-!
# Rounding to nearest

`IsNearest` is what rounding to an integer means: no further away than a half, and even where it is
a half. `roundDiv` rounds a quotient so (`roundDiv_isNearest`). A format rounds a number on the grid
of its binade, or on its finest grid if that is coarser (`Format.Rounds`). The bit pattern that
`Format.nearest` finds stands for the rounded number, as long as the number is not beyond the
greatest finite one (`Format.exists_datum_nearest`).
-/

namespace PlcGateway.Ieee

/-! ## Rounding to an integer -/

/-- A natural number is nearest to a number, and even if another one is as near. -/
structure IsNearest (x : ℚ) (n : ℕ) : Prop where
  close : |x - n| ≤ 1 / 2
  even : |x - n| = 1 / 2 → n % 2 = 0

namespace IsNearest

variable {x : ℚ} {n m : ℕ}

theorem le_of_le (nearest : IsNearest x n) (h : (m : ℚ) ≤ x) : m ≤ n := by
  by_contra hlt
  have hle : (n : ℚ) + 1 ≤ m := by exact_mod_cast Nat.lt_of_not_le hlt
  obtain ⟨-, hclose⟩ := abs_le.1 nearest.close
  linarith

theorem ge_of_ge (nearest : IsNearest x n) (h : x ≤ m) : n ≤ m := by
  by_contra hlt
  have hle : (m : ℚ) + 1 ≤ n := by exact_mod_cast Nat.lt_of_not_le hlt
  obtain ⟨hclose, -⟩ := abs_le.1 nearest.close
  linarith

/-- Rounding goes up to an even number that is no more than a half above. -/
theorem even_le (nearest : IsNearest x n) (even : m % 2 = 0) (h : (m : ℚ) - 1 / 2 ≤ x) :
    m ≤ n := by
  by_contra hlt
  have hle : (n : ℚ) + 1 ≤ m := by exact_mod_cast Nat.lt_of_not_le hlt
  obtain ⟨-, hclose⟩ := abs_le.1 nearest.close
  -- so it is a half away from both
  have htie : |x - n| = 1 / 2 := by
    rw [abs_of_nonneg (by linarith)]
    linarith
  have hm : m = n + 1 := by
    have : (m : ℚ) = n + 1 := by linarith
    exact_mod_cast this
  have hn := nearest.even htie
  omega

/-- Rounding goes down to an even number that is no more than a half below. -/
theorem le_even (nearest : IsNearest x n) (even : m % 2 = 0) (h : x ≤ (m : ℚ) + 1 / 2) :
    n ≤ m := by
  by_contra hlt
  have hle : (m : ℚ) + 1 ≤ n := by exact_mod_cast Nat.lt_of_not_le hlt
  obtain ⟨hclose, -⟩ := abs_le.1 nearest.close
  have htie : |x - n| = 1 / 2 := by
    rw [abs_of_nonpos (by linarith)]
    linarith
  have hn : n = m + 1 := by
    have : (n : ℚ) = m + 1 := by linarith
    exact_mod_cast this
  have hn' := nearest.even htie
  omega

/-- Only one number is nearest. -/
theorem unique (h : IsNearest x n) (h' : IsNearest x m) : n = m := by
  wlog hle : n ≤ m generalizing n m
  · exact (this h' h (Nat.le_of_not_le hle)).symm
  by_contra hne
  have hlt : (n : ℚ) + 1 ≤ m := by exact_mod_cast Nat.lt_of_le_of_ne hle hne
  obtain ⟨-, hn⟩ := abs_le.1 h.close
  obtain ⟨hm, -⟩ := abs_le.1 h'.close
  have hn' := h.even (by rw [abs_of_nonneg (by linarith)]; linarith)
  have hm' := h'.even (by rw [abs_of_nonpos (by linarith)]; linarith)
  have hsucc : m = n + 1 := by
    have : (m : ℚ) = n + 1 := by linarith
    exact_mod_cast this
  omega

/-- A quotient that is rounded down has a rest, and no more than half of one. -/
theorem mod_bounds {a b : ℕ} (nearest : IsNearest ((a : ℚ) / b) n) (pos : 0 < b)
    (below : (n : ℚ) < (a : ℚ) / b) : 0 < a % b ∧ 2 * (a % b) ≤ b := by
  have hb : (0 : ℚ) < b := by exact_mod_cast pos
  have hlow : n * b < a := by exact_mod_cast (lt_div_iff₀ hb).1 below
  have hhigh : 2 * a ≤ 2 * (n * b) + b := by
    obtain ⟨-, hclose⟩ := abs_le.1 nearest.close
    have hle : (a : ℚ) / b ≤ n + 1 / 2 := by linarith
    rw [div_le_iff₀ hb] at hle
    have hcast : ((2 * a : ℕ) : ℚ) ≤ ((2 * (n * b) + b : ℕ) : ℚ) := by
      push_cast
      linarith
    exact_mod_cast hcast
  obtain ⟨rest, rfl⟩ := Nat.exists_eq_add_of_lt hlow
  have hmod : (n * b + rest + 1) % b = rest + 1 := by
    rw [Nat.add_assoc, Nat.mul_comm, Nat.mul_add_mod, Nat.mod_eq_of_lt]
    omega
  rw [hmod]
  omega

end IsNearest

theorem roundDiv_isNearest (num : ℕ) {den : ℕ} (pos : 0 < den) :
    IsNearest ((num : ℚ) / den) (roundDiv num den) := by
  have hden : (0 : ℚ) < den := by exact_mod_cast pos
  have hparts : (num : ℚ) = den * (num / den : ℕ) + (num % den : ℕ) := by
    exact_mod_cast (Nat.div_add_mod num den).symm
  have hquotient : (num : ℚ) / den = (num / den : ℕ) + ((num % den : ℕ) : ℚ) / den := by
    rw [hparts]
    field_simp
  have hrest : (0 : ℚ) ≤ ((num % den : ℕ) : ℚ) / den := by positivity
  unfold roundDiv
  simp only
  split
  · next hlow =>
    have hhalf : ((num % den : ℕ) : ℚ) / den < 1 / 2 := by
      rw [div_lt_div_iff₀ hden (by norm_num)]
      have : (2 : ℚ) * (num % den : ℕ) < den := by exact_mod_cast hlow
      linarith
    have hdist : |(num : ℚ) / den - (num / den : ℕ)| < 1 / 2 := by
      rw [hquotient, add_sub_cancel_left, abs_of_nonneg hrest]
      exact hhalf
    exact ⟨hdist.le, fun h => absurd h hdist.ne⟩
  · split
    · next _ hhigh =>
      have hhalf : 1 / 2 < ((num % den : ℕ) : ℚ) / den := by
        rw [div_lt_div_iff₀ (by norm_num) hden]
        have : (den : ℚ) < 2 * (num % den : ℕ) := by exact_mod_cast hhigh
        linarith
      have hone : ((num % den : ℕ) : ℚ) / den < 1 := by
        rw [div_lt_one hden]
        exact_mod_cast Nat.mod_lt num pos
      have hdist : |(num : ℚ) / den - ((num / den + 1 : ℕ) : ℚ)| < 1 / 2 := by
        rw [hquotient, abs_lt]
        push_cast
        constructor <;> linarith
      exact ⟨hdist.le, fun h => absurd h hdist.ne⟩
    · next hlow hhigh =>
      have htie : ((num % den : ℕ) : ℚ) / den = 1 / 2 := by
        rw [div_eq_div_iff hden.ne' (by norm_num)]
        have : (den : ℚ) = 2 * (num % den : ℕ) := by
          exact_mod_cast Nat.le_antisymm (Nat.le_of_not_lt hlow) (Nat.le_of_not_lt hhigh)
        linarith
      rw [hquotient, htie]
      rcases Nat.mod_two_eq_zero_or_one (num / den) with heven | hodd
      · rw [heven, Nat.add_zero]
        refine ⟨?_, fun _ => heven⟩
        rw [add_sub_cancel_left]
        norm_num
      · rw [hodd]
        refine ⟨?_, fun _ => by omega⟩
        push_cast
        norm_num [abs_le]

/-! ## Powers of two -/

theorem two_zpow_pos (k : ℤ) : (0 : ℚ) < 2 ^ k := zpow_pos (by norm_num) k

/-- A power of a number is a quotient of natural numbers. -/
theorem zpow_eq_div (base : ℕ) (k : ℤ) :
    (base : ℚ) ^ k = ((base ^ k.toNat : ℕ) : ℚ) / ((base ^ (-k).toNat : ℕ) : ℚ) := by
  rcases Int.le_total 0 k with h | h
  · obtain ⟨n, rfl⟩ := Int.eq_ofNat_of_zero_le h
    simp
  · obtain ⟨n, hn⟩ := Int.eq_ofNat_of_zero_le (Int.neg_nonneg_of_nonpos h)
    obtain rfl : k = -(n : ℤ) := by omega
    simp

theorem mul_two_zpow_eq_div (n : ℕ) (k : ℤ) :
    (n : ℚ) * 2 ^ k = ((n * 2 ^ k.toNat : ℕ) : ℚ) / ((2 ^ (-k).toNat : ℕ) : ℚ) := by
  have hbase := zpow_eq_div 2 k
  rw [Nat.cast_ofNat] at hbase
  rw [hbase, Nat.cast_mul, mul_div_assoc]

namespace Format

variable {f : Format} {num den : ℕ} {x : ℚ}

/-- The binade of a number is the one whose bounds it is within. -/
theorem eq_log_of_bounds {k : ℤ} (pos : 0 < x) (low : 2 ^ k ≤ x) (high : x < 2 ^ (k + 1)) :
    k = Int.log 2 x := by
  have hlow := (Int.zpow_le_iff_le_log (b := 2) (by norm_num) pos).1 (by exact_mod_cast low)
  have hhigh := (Int.lt_zpow_iff_log_lt (b := 2) (by norm_num) pos).1 (by exact_mod_cast high)
  omega

theorem two_zpow_log2_le {n : ℕ} (pos : 0 < n) : (2 : ℚ) ^ (n.log2 : ℤ) ≤ n := by
  rw [zpow_natCast]
  exact_mod_cast Nat.log2_self_le pos.ne'

theorem lt_two_zpow_log2 (n : ℕ) : (n : ℚ) < 2 ^ ((n.log2 : ℤ) + 1) := by
  have hlt : (n : ℚ) < 2 ^ (n.log2 + 1) := by exact_mod_cast Nat.lt_log2_self
  exact_mod_cast hlt

/-- The logarithms of both sides of a quotient leave two binades. -/
theorem quotient_bounds (hnum : 0 < num) (hden : 0 < den) :
    (2 : ℚ) ^ ((num.log2 : ℤ) - den.log2 - 1) ≤ num / den ∧
      (num : ℚ) / den < 2 ^ ((num.log2 : ℤ) - den.log2 + 1) := by
  have hden' : (0 : ℚ) < den := by exact_mod_cast hden
  constructor
  · rw [le_div_iff₀ hden']
    calc (2 : ℚ) ^ ((num.log2 : ℤ) - den.log2 - 1) * den
        ≤ 2 ^ ((num.log2 : ℤ) - den.log2 - 1) * 2 ^ ((den.log2 : ℤ) + 1) :=
          mul_le_mul_of_nonneg_left (lt_two_zpow_log2 den).le (two_zpow_pos _).le
      _ = 2 ^ (num.log2 : ℤ) := by
          rw [← zpow_add₀ (by norm_num)]
          congr 1
          ring
      _ ≤ num := two_zpow_log2_le hnum
  · rw [div_lt_iff₀ hden']
    calc (num : ℚ) < 2 ^ ((num.log2 : ℤ) + 1) := lt_two_zpow_log2 num
      _ = 2 ^ ((num.log2 : ℤ) - den.log2 + 1) * 2 ^ (den.log2 : ℤ) := by
          rw [← zpow_add₀ (by norm_num)]
          congr 1
          ring
      _ ≤ 2 ^ ((num.log2 : ℤ) - den.log2 + 1) * den :=
          mul_le_mul_of_nonneg_left (two_zpow_log2_le hden) (two_zpow_pos _).le

theorem floorLog_eq (hnum : 0 < num) (hden : 0 < den) :
    floorLog num den = Int.log 2 ((num : ℚ) / den) := by
  have hnum' : (0 : ℚ) < num := by exact_mod_cast hnum
  have hden' : (0 : ℚ) < den := by exact_mod_cast hden
  have hpos : (0 : ℚ) < (num : ℚ) / den := div_pos hnum' hden'
  obtain ⟨hbelow, habove⟩ := quotient_bounds hnum hden
  have hguess : den * Nat.pow 2 ((num.log2 : ℤ) - den.log2).toNat ≤
      num * Nat.pow 2 (-((num.log2 : ℤ) - den.log2)).toNat ↔
      (2 : ℚ) ^ ((num.log2 : ℤ) - den.log2) ≤ num / den := by
    have hbase := zpow_eq_div 2 ((num.log2 : ℤ) - den.log2)
    rw [Nat.cast_ofNat] at hbase
    rw [hbase, div_le_div_iff₀ (by positivity) hden', Nat.pow_eq, Nat.pow_eq, mul_comm den]
    exact_mod_cast Iff.rfl
  unfold floorLog
  simp only
  split
  · next h => exact eq_log_of_bounds hpos (hguess.1 h) habove
  · next h =>
    apply eq_log_of_bounds hpos hbelow
    rw [sub_add_cancel]
    exact lt_of_not_ge fun hle => h (hguess.2 hle)

/-- The unit of the grid on which a number is rounded: that of its binade, or the least one. -/
def unit (f : Format) (x : ℚ) : ℤ := max (Int.log 2 x - f.fractionBits) f.leastExponent

/-- A number is rounded to one on its grid that is nearest. -/
def Rounds (f : Format) (x y : ℚ) : Prop :=
  ∃ n : ℕ, y = n * 2 ^ f.unit x ∧ IsNearest (x / 2 ^ f.unit x) n

/-- The exponent of the unit of the greatest numbers. -/
def greatestExponent (f : Format) : ℤ := f.leastExponent + (2 ^ f.exponentBits - 3)

/-- The greatest finite number. -/
def greatest (f : Format) : ℚ := (2 ^ (f.fractionBits + 1) - 1) * 2 ^ f.greatestExponent

/-! ## Bit patterns of finite numbers -/

theorem signBit_eq (f : Format) : f.signBit = 2 ^ f.fractionBits * 2 ^ f.exponentBits := by
  show 2 ^ (f.fractionBits + f.exponentBits) = _
  rw [Nat.pow_add]

theorem infinityBits_lt_signBit (f : Format) : f.infinityBits < f.signBit := by
  have hpos : 0 < 2 ^ f.exponentBits := Nat.two_pow_pos _
  rw [signBit_eq, Nat.mul_comm]
  exact Nat.mul_lt_mul_of_pos_right (Nat.sub_lt hpos Nat.one_pos) (Nat.two_pow_pos _)

theorem nearest_le_infinityBits (f : Format) (num den : ℕ) :
    f.nearest num den ≤ f.infinityBits := by
  unfold nearest
  split
  · exact Nat.zero_le _
  · exact Nat.min_le_right _ _

theorem signed_lt {m : ℕ} (h : m ≤ f.infinityBits) (negative : Bool) :
    f.signed negative m < 2 * f.signBit := by
  have hlt := f.infinityBits_lt_signBit
  unfold signed
  split
  · omega
  · omega

section Magnitude

variable {m : ℕ} (finite : m < f.infinityBits)

include finite

theorem field_lt_of_finite : m / 2 ^ f.fractionBits < 2 ^ f.exponentBits - 1 := by
  apply Nat.div_lt_of_lt_mul
  rw [mul_comm]
  exact finite

theorem lt_signBit_of_finite : m < f.signBit := finite.trans f.infinityBits_lt_signBit

theorem signed_sign (negative : Bool) :
    (f.signed negative m / f.signBit % 2 == 1) = negative := by
  have hlt := lt_signBit_of_finite finite
  have hpos : 0 < f.signBit := Nat.zero_lt_of_lt hlt
  unfold signed
  cases negative with
  | true => rw [if_pos rfl, Nat.add_div_left _ hpos, Nat.div_eq_of_lt hlt]; rfl
  | false => rw [if_neg Bool.false_ne_true, Nat.div_eq_of_lt hlt]; rfl

theorem signed_exponent (negative : Bool) :
    f.signed negative m / 2 ^ f.fractionBits % 2 ^ f.exponentBits = m / 2 ^ f.fractionBits := by
  have hfield := Nat.mod_eq_of_lt (Nat.lt_of_lt_of_le (field_lt_of_finite finite) (Nat.sub_le _ _))
  unfold signed
  cases negative with
  | true =>
    rw [if_pos rfl, signBit_eq, Nat.mul_add_div (Nat.two_pow_pos _), Nat.add_mod_left, hfield]
  | false => rw [if_neg Bool.false_ne_true, hfield]

/-- Below infinity, a magnitude is an exponent field and a fraction. -/
theorem datum_signed (negative : Bool) : f.datum (f.signed negative m) =
      if m / 2 ^ f.fractionBits = 0 then
        .finite negative (m % 2 ^ f.fractionBits) f.leastExponent
      else
        .finite negative (2 ^ f.fractionBits + m % 2 ^ f.fractionBits)
          (f.leastExponent + ((m / 2 ^ f.fractionBits : ℕ) - 1)) := by
  have hpart : f.signed negative m % 2 ^ f.fractionBits = m % 2 ^ f.fractionBits := by
    unfold signed
    cases negative with
    | true => rw [if_pos rfl, signBit_eq, Nat.mul_add_mod]
    | false => rw [if_neg Bool.false_ne_true]
  unfold datum
  simp only [Nat.pow_eq, signed_sign finite, signed_exponent finite, hpart]
  rw [if_neg (field_lt_of_finite finite).ne]

end Magnitude

/-- A significand with its unit makes up a bit pattern. A significand that rounding has carried out
of its binade is one of the next binade. -/
theorem exists_datum_parts (negative : Bool) {a n : ℕ} (high : n ≤ 2 * 2 ^ f.fractionBits)
    (normal : a = 0 ∨ 2 ^ f.fractionBits ≤ n)
    (finite : a * 2 ^ f.fractionBits + n < f.infinityBits) :
    ∃ significand exponent, f.datum (f.signed negative (a * 2 ^ f.fractionBits + n)) =
        .finite negative significand exponent ∧
      (significand : ℚ) * 2 ^ exponent = n * 2 ^ (f.leastExponent + a) := by
  have hpos : 0 < 2 ^ f.fractionBits := Nat.two_pow_pos _
  have hdiv : (a * 2 ^ f.fractionBits + n) / 2 ^ f.fractionBits = a + n / 2 ^ f.fractionBits := by
    rw [Nat.add_comm, Nat.add_mul_div_right _ _ hpos, Nat.add_comm]
  have hmod : (a * 2 ^ f.fractionBits + n) % 2 ^ f.fractionBits = n % 2 ^ f.fractionBits := by
    rw [Nat.add_comm, Nat.add_mul_mod_self_right]
  rw [datum_signed finite, hdiv, hmod]
  rcases Nat.lt_or_ge n (2 ^ f.fractionBits) with hlow | hge
  · obtain rfl : a = 0 := normal.resolve_right (Nat.not_le.2 hlow)
    rw [Nat.div_eq_of_lt hlow, if_pos rfl, Nat.mod_eq_of_lt hlow]
    exact ⟨n, f.leastExponent, rfl, by simp⟩
  · rcases Nat.eq_or_lt_of_le high with rfl | hlt
    · rw [Nat.mul_div_cancel _ hpos, Nat.mul_mod_left, if_neg (by omega)]
      refine ⟨_, _, rfl, ?_⟩
      have hexponent : f.leastExponent + (((a + 2 : ℕ) : ℤ) - 1) = f.leastExponent + a + 1 := by
        push_cast
        ring
      rw [hexponent, zpow_add_one₀ (by norm_num)]
      push_cast
      ring
    · have hone : n / 2 ^ f.fractionBits = 1 := by
        apply Nat.div_eq_of_lt_le
        · omega
        · omega
      have hrest : 2 ^ f.fractionBits + n % 2 ^ f.fractionBits = n := by
        have := Nat.div_add_mod n (2 ^ f.fractionBits)
        rw [hone, Nat.mul_one] at this
        exact this
      rw [hone, hrest, if_neg (by omega)]
      refine ⟨_, _, rfl, ?_⟩
      push_cast
      ring_nf

/-! ## The nearest bit pattern -/

theorem lt_unit (f : Format) (x : ℚ) : x < 2 * 2 ^ f.fractionBits * 2 ^ f.unit x := by
  have hlog := Int.lt_zpow_succ_log_self (b := 2) (by norm_num) x
  rw [Nat.cast_ofNat] at hlog
  calc x < 2 ^ (Int.log 2 x + 1) := hlog
    _ ≤ 2 ^ (f.unit x + f.fractionBits + 1) := by
      apply zpow_le_zpow_right₀ (by norm_num)
      have := le_max_left (Int.log 2 x - f.fractionBits) f.leastExponent
      unfold unit
      omega
    _ = 2 * 2 ^ f.fractionBits * 2 ^ f.unit x := by
      rw [zpow_add_one₀ (by norm_num), zpow_add₀ (by norm_num), zpow_natCast]
      ring

/-- Above the finest grid, a number is rounded to a significand of full width. -/
theorem unit_eq_or_le (hx : 0 < x) :
    f.unit x = f.leastExponent ∨ 2 ^ f.fractionBits * 2 ^ f.unit x ≤ x := by
  unfold unit
  rcases max_cases (Int.log 2 x - (f.fractionBits : ℤ)) f.leastExponent with ⟨h, -⟩ | ⟨h, -⟩
  · right
    rw [h, ← zpow_natCast, ← zpow_add₀ (by norm_num), add_sub_cancel]
    have hlog := Int.zpow_log_le_self (b := 2) (by norm_num) hx
    rw [Nat.cast_ofNat] at hlog
    exact hlog
  · left
    exact h

theorem leastExponent_le_unit (f : Format) (x : ℚ) : f.leastExponent ≤ f.unit x :=
  le_max_right _ _

theorem unit_le_greatestExponent (wide : 2 ≤ f.exponentBits) (hx : 0 < x) (fits : x ≤ f.greatest) :
    f.unit x ≤ f.greatestExponent := by
  have hfield : (4 : ℤ) ≤ 2 ^ f.exponentBits := by
    exact_mod_cast Nat.pow_le_pow_right (n := 2) (by norm_num) wide
  rcases f.unit_eq_or_le hx with h | h
  · rw [h]
    unfold greatestExponent
    omega
  · have hlt : (2 : ℚ) ^ ((f.fractionBits : ℤ) + f.unit x) <
        2 ^ ((f.fractionBits : ℤ) + 1 + f.greatestExponent) := by
      calc (2 : ℚ) ^ ((f.fractionBits : ℤ) + f.unit x) ≤ x := by
            rw [zpow_add₀ (by norm_num), zpow_natCast]
            exact h
        _ ≤ f.greatest := fits
        _ < 2 ^ (f.fractionBits + 1) * 2 ^ f.greatestExponent := by
          unfold greatest
          have := two_zpow_pos f.greatestExponent
          linarith
        _ = 2 ^ ((f.fractionBits : ℤ) + 1 + f.greatestExponent) := by
          rw [zpow_add₀ (by norm_num)]
          norm_cast
    have := (zpow_lt_zpow_iff_right₀ (by norm_num : (1 : ℚ) < 2)).1 hlt
    omega

/-- A rounded number has at most the greatest finite magnitude if the number itself has. -/
theorem magnitude_lt_infinityBits (wide : 2 ≤ f.exponentBits) (hx : 0 < x) (fits : x ≤ f.greatest)
    {n : ℕ} (nearest : IsNearest (x / 2 ^ f.unit x) n) (high : n ≤ 2 * 2 ^ f.fractionBits) :
    (f.unit x - f.leastExponent).toNat * 2 ^ f.fractionBits + n < f.infinityBits := by
  have hunit := f.unit_le_greatestExponent wide hx fits
  have hfield : 4 ≤ 2 ^ f.exponentBits := Nat.pow_le_pow_right (n := 2) (by norm_num) wide
  have hfield' : ((2 ^ f.exponentBits : ℕ) : ℤ) = 2 ^ f.exponentBits := by push_cast; rfl
  have hpos : 0 < 2 ^ f.fractionBits := Nat.two_pow_pos _
  have hinfinity : f.infinityBits = (2 ^ f.exponentBits - 1) * 2 ^ f.fractionBits := rfl
  rw [hinfinity]
  unfold greatestExponent at hunit
  rcases Int.lt_or_eq_of_le hunit with hlt | heq
  · have ha : (f.unit x - f.leastExponent).toNat + 3 ≤ 2 ^ f.exponentBits - 1 := by omega
    calc (f.unit x - f.leastExponent).toNat * 2 ^ f.fractionBits + n
        < ((f.unit x - f.leastExponent).toNat + 3) * 2 ^ f.fractionBits := by
          rw [Nat.add_mul]
          omega
      _ ≤ (2 ^ f.exponentBits - 1) * 2 ^ f.fractionBits := Nat.mul_le_mul_right _ ha
  · -- on the coarsest grid there is no carry
    have hn : n ≤ 2 ^ (f.fractionBits + 1) - 1 := by
      apply nearest.ge_of_ge
      rw [div_le_iff₀ (two_zpow_pos _), Nat.cast_sub Nat.one_le_two_pow, heq]
      push_cast
      exact fits
    have ha : (f.unit x - f.leastExponent).toNat + 2 = 2 ^ f.exponentBits - 1 := by omega
    have hpow : 2 ^ (f.fractionBits + 1) = 2 * 2 ^ f.fractionBits := Nat.pow_succ'
    rw [← ha, Nat.add_mul]
    omega

/-- The magnitude nearest to a quotient is made of the rounded significand and its unit. -/
theorem exists_nearest_eq (f : Format) (hnum : 0 < num) (hden : 0 < den) :
    ∃ n, IsNearest ((num : ℚ) / den / 2 ^ f.unit ((num : ℚ) / den)) n ∧ f.nearest num den =
      min ((f.unit ((num : ℚ) / den) - f.leastExponent).toNat * 2 ^ f.fractionBits + n)
        f.infinityBits := by
  set unit := f.unit ((num : ℚ) / den) with hunit
  refine ⟨roundDiv (num * 2 ^ (-unit).toNat) (den * 2 ^ unit.toNat), ?_, ?_⟩
  · have h := roundDiv_isNearest (num * 2 ^ (-unit).toNat)
      (Nat.mul_pos hden (Nat.two_pow_pos unit.toNat))
    have hbase := zpow_eq_div 2 unit
    rw [Nat.cast_ofNat] at hbase
    have hquotient : (num : ℚ) / den / 2 ^ unit =
        ((num * 2 ^ (-unit).toNat : ℕ) : ℚ) / ((den * 2 ^ unit.toNat : ℕ) : ℚ) := by
      rw [hbase]
      push_cast
      field_simp
    rw [hquotient]
    exact h
  · unfold Format.nearest
    rw [if_neg hnum.ne']
    simp only [floorLog_eq hnum hden]
    rfl

/-- A rounded significand is at most carried out of its binade. -/
theorem significand_le {n : ℕ} (nearest : IsNearest (x / 2 ^ f.unit x) n) :
    n ≤ 2 * 2 ^ f.fractionBits := by
  apply nearest.ge_of_ge
  rw [div_le_iff₀ (two_zpow_pos _)]
  push_cast
  exact (f.lt_unit _).le

/-- The bit pattern nearest to a quotient is finite if the quotient is not too great. -/
theorem nearest_lt_infinityBits (wide : 2 ≤ f.exponentBits) (hden : 0 < den)
    (fits : (num : ℚ) / den ≤ f.greatest) : f.nearest num den < f.infinityBits := by
  rcases Nat.eq_zero_or_pos num with rfl | hnum
  · have hzero : f.nearest 0 den = 0 := if_pos rfl
    have hfield : 4 ≤ 2 ^ f.exponentBits := Nat.pow_le_pow_right (n := 2) (by norm_num) wide
    rw [hzero]
    exact Nat.mul_pos (Nat.sub_pos_of_lt (by rw [Nat.pow_eq]; omega)) (Nat.two_pow_pos _)
  · have hx : (0 : ℚ) < (num : ℚ) / den :=
      div_pos (by exact_mod_cast hnum) (by exact_mod_cast hden)
    obtain ⟨n, nearest, hnearest⟩ := f.exists_nearest_eq hnum hden
    have finite := f.magnitude_lt_infinityBits wide hx fits nearest (significand_le nearest)
    rw [hnearest, Nat.min_eq_left finite.le]
    exact finite

/-- A finite bit pattern nearest to a quotient stands for the rounded quotient. -/
theorem exists_datum_of_lt_infinityBits (hden : 0 < den)
    (finite : f.nearest num den < f.infinityBits) (negative : Bool) :
    ∃ significand exponent, f.datum (f.signed negative (f.nearest num den)) =
        .finite negative significand exponent ∧
      f.Rounds ((num : ℚ) / den) (significand * 2 ^ exponent) := by
  rcases Nat.eq_zero_or_pos num with rfl | hnum
  · have hzero : f.nearest 0 den = 0 * 2 ^ f.fractionBits + 0 := by
      unfold nearest
      simp
    rw [hzero] at finite
    obtain ⟨significand, exponent, hdatum, hvalue⟩ :=
      f.exists_datum_parts negative (Nat.zero_le _) (.inl rfl) finite
    refine ⟨significand, exponent, ?_, 0, ?_, ?_⟩
    · rw [hzero, hdatum]
    · rw [hvalue]
      simp
    · exact ⟨by simp, fun _ => rfl⟩
  · have hx : (0 : ℚ) < (num : ℚ) / den :=
      div_pos (by exact_mod_cast hnum) (by exact_mod_cast hden)
    obtain ⟨n, nearest, hnearest⟩ := f.exists_nearest_eq hnum hden
    have normal : (f.unit ((num : ℚ) / den) - f.leastExponent).toNat = 0 ∨
        2 ^ f.fractionBits ≤ n := by
      rcases f.unit_eq_or_le hx with h | h
      · left
        rw [h, sub_self]
        rfl
      · right
        apply nearest.le_of_le
        rw [le_div_iff₀ (two_zpow_pos _)]
        push_cast
        exact h
    -- a finite magnitude is not the one that is cut off at infinity
    rw [hnearest] at finite
    have hmagnitude := (min_lt_iff.1 finite).resolve_right (Nat.lt_irrefl _)
    obtain ⟨significand, exponent, hdatum, hvalue⟩ :=
      f.exists_datum_parts negative (significand_le nearest) normal hmagnitude
    refine ⟨significand, exponent, ?_, n, ?_, nearest⟩
    · rw [hnearest, Nat.min_eq_left hmagnitude.le]
      exact hdatum
    · rw [hvalue]
      congr 2
      have := f.leastExponent_le_unit ((num : ℚ) / den)
      omega

/-- The bit pattern nearest to a quotient stands for the rounded quotient. -/
theorem exists_datum_nearest (wide : 2 ≤ f.exponentBits) (hden : 0 < den)
    (fits : (num : ℚ) / den ≤ f.greatest) (negative : Bool) :
    ∃ significand exponent, f.datum (f.signed negative (f.nearest num den)) =
        .finite negative significand exponent ∧
      f.Rounds ((num : ℚ) / den) (significand * 2 ^ exponent) :=
  f.exists_datum_of_lt_infinityBits hden (f.nearest_lt_infinityBits wide hden fits) negative

/-! ## Rounded numbers -/

/-- Rounding moves a number by half its unit at most. -/
theorem Rounds.abs_sub_le {y : ℚ} (h : f.Rounds x y) : |x - y| ≤ 2 ^ f.unit x / 2 := by
  obtain ⟨n, rfl, nearest⟩ := h
  have hpos := two_zpow_pos (f.unit x)
  have hscaled : x - n * 2 ^ f.unit x = (x / 2 ^ f.unit x - n) * 2 ^ f.unit x := by
    rw [sub_mul, div_mul_cancel₀ _ hpos.ne']
  rw [hscaled, abs_mul, abs_of_pos hpos]
  have hclose := nearest.close
  nlinarith

theorem Rounds.abs_sub_le_of_unit_le {y : ℚ} {k : ℕ} (h : f.Rounds x y) (hunit : f.unit x ≤ -k) :
    |x - y| ≤ 1 / 2 ^ (k + 1) := by
  calc |x - y| ≤ 2 ^ f.unit x / 2 := h.abs_sub_le
    _ ≤ 2 ^ (-(k : ℤ)) / 2 :=
      div_le_div_of_nonneg_right (zpow_le_zpow_right₀ (by norm_num) hunit) (by norm_num)
    _ = 1 / 2 ^ (k + 1) := by
      rw [zpow_neg, zpow_natCast, pow_succ]
      field_simp

theorem Rounds.nonneg {y : ℚ} (h : f.Rounds x y) : 0 ≤ y := by
  obtain ⟨n, rfl, -⟩ := h
  positivity

theorem unit_le_of_lt {k : ℤ} (pos : 0 < k) (hx : x < 2 ^ k)
    (low : f.leastExponent ≤ k - 1 - f.fractionBits) : f.unit x ≤ k - 1 - f.fractionBits := by
  have hlog : Int.log 2 x ≤ k - 1 := by
    rcases lt_or_ge 0 x with hpos | hnonpos
    · have := (Int.lt_zpow_iff_log_lt (b := 2) (by norm_num) hpos).1 (by exact_mod_cast hx)
      omega
    · rw [Int.log_of_right_le_zero 2 hnonpos]
      omega
  exact max_le (by omega) low

/-- Rounding moves a number by a part of itself, or by half the least unit. -/
theorem Rounds.abs_sub_le_add {y : ℚ} (h : f.Rounds x y) (hx : 0 < x) :
    |x - y| ≤ (2 ^ f.leastExponent + x / 2 ^ f.fractionBits) / 2 := by
  have hunit : (2 : ℚ) ^ f.unit x ≤ 2 ^ f.leastExponent + x / 2 ^ f.fractionBits := by
    rcases f.unit_eq_or_le hx with hleast | hnormal
    · rw [hleast]
      exact le_add_of_nonneg_right (by positivity)
    · rw [mul_comm] at hnormal
      exact le_add_of_nonneg_of_le (two_zpow_pos _).le ((le_div_iff₀ (by positivity)).2 hnormal)
  exact h.abs_sub_le.trans (div_le_div_of_nonneg_right hunit (by norm_num))

/-- A number is rounded to one number. -/
theorem Rounds.unique {y z : ℚ} (h : f.Rounds x y) (h' : f.Rounds x z) : y = z := by
  obtain ⟨n, rfl, nearest⟩ := h
  obtain ⟨m, rfl, nearest'⟩ := h'
  rw [nearest.unique nearest']

/-- An integer that the significand holds is not rounded. -/
theorem Rounds.eq_natCast {m : ℕ} {y : ℚ} (h : f.Rounds m y) (low : f.leastExponent ≤ 0)
    (fits : m < 2 ^ (f.fractionBits + 1)) : y = m := by
  have hunit : f.unit m ≤ 0 := by
    have hlt : (m : ℚ) < 2 ^ ((f.fractionBits : ℤ) + 1) := by exact_mod_cast fits
    have hle := f.unit_le_of_lt (by omega) hlt (by omega)
    omega
  obtain ⟨n, rfl, nearest⟩ := h
  obtain ⟨k, hk⟩ := Int.eq_ofNat_of_zero_le (Int.neg_nonneg_of_nonpos hunit)
  have hexact : (m : ℚ) / 2 ^ f.unit m = (m * 2 ^ k : ℕ) := by
    rw [div_eq_mul_inv, ← zpow_neg, hk, zpow_natCast]
    push_cast
    rfl
  have hn : n = m * 2 ^ k := by
    apply nearest.unique
    rw [hexact]
    exact ⟨by simp, by simp⟩
  rw [hn, ← hexact, div_mul_cancel₀ _ (two_zpow_pos _).ne']

/-! ## Out of the range -/

/-- Half the least unit is never reached by what is rounded to nothing. -/
theorem nearest_eq_zero (hden : 0 < den) (small : (num : ℚ) / den < 2 ^ (f.leastExponent - 1)) :
    f.nearest num den = 0 := by
  rcases Nat.eq_zero_or_pos num with rfl | hnum
  · unfold nearest
    simp
  · have hx : (0 : ℚ) < (num : ℚ) / den :=
      div_pos (by exact_mod_cast hnum) (by exact_mod_cast hden)
    have hlog : Int.log 2 ((num : ℚ) / den) < f.leastExponent - 1 :=
      (Int.lt_zpow_iff_log_lt (b := 2) (by norm_num) hx).1 (by exact_mod_cast small)
    have hunit : f.unit ((num : ℚ) / den) = f.leastExponent := max_eq_right (by omega)
    obtain ⟨n, nearest, hnearest⟩ := f.exists_nearest_eq hnum hden
    have hn : n ≤ 0 := by
      apply nearest.le_even rfl
      rw [hunit, div_le_iff₀ (two_zpow_pos _)]
      calc (num : ℚ) / den ≤ 2 ^ (f.leastExponent - 1) := small.le
        _ = ((0 : ℕ) + 1 / 2) * 2 ^ f.leastExponent := by
          rw [zpow_sub_one₀ (by norm_num)]
          push_cast
          ring
    rw [hnearest, hunit, Nat.le_zero.1 hn, sub_self, Int.toNat_zero, Nat.zero_mul]
    exact Nat.zero_min _

/-- What is past the greatest binade is rounded to infinity. -/
theorem nearest_eq_infinityBits (wide : 2 ≤ f.exponentBits) (hden : 0 < den)
    (large : 2 ^ (f.bias + 1) ≤ (num : ℚ) / den) : f.nearest num den = f.infinityBits := by
  have hx : (0 : ℚ) < (num : ℚ) / den := lt_of_lt_of_le (by positivity) large
  have hnum : 0 < num := by
    rcases Nat.eq_zero_or_pos num with rfl | h
    · simp at hx
    · exact h
  have hlog : (f.bias : ℤ) + 1 ≤ Int.log 2 ((num : ℚ) / den) :=
    (Int.zpow_le_iff_le_log (b := 2) (by norm_num) hx).1 (by exact_mod_cast large)
  have hbias : 2 ^ f.exponentBits = 2 * (f.bias + 1) := by
    have hpos : 0 < 2 ^ (f.exponentBits - 1) := Nat.two_pow_pos _
    have hsucc : f.bias + 1 = 2 ^ (f.exponentBits - 1) := Nat.sub_add_cancel hpos
    rw [hsucc, ← Nat.pow_succ']
    congr 1
    omega
  have hunit : (f.bias : ℤ) + 1 - f.fractionBits ≤ f.unit ((num : ℚ) / den) :=
    le_trans (by omega) (le_max_left _ _)
  obtain ⟨n, nearest, hnearest⟩ := f.exists_nearest_eq hnum hden
  have normal : 2 ^ f.fractionBits ≤ n := by
    apply nearest.le_of_le
    rw [le_div_iff₀ (two_zpow_pos _)]
    push_cast
    rcases f.unit_eq_or_le hx with h | h
    · have hfield : 4 ≤ 2 ^ f.exponentBits := Nat.pow_le_pow_right (n := 2) (by norm_num) wide
      unfold leastExponent at h
      omega
    · exact h
  rw [hnearest]
  apply Nat.min_eq_right
  have hexponent : 2 * f.bias ≤ (f.unit ((num : ℚ) / den) - f.leastExponent).toNat := by
    unfold leastExponent
    omega
  calc f.infinityBits = (2 * f.bias + 1) * 2 ^ f.fractionBits := by
        show (2 ^ f.exponentBits - 1) * 2 ^ f.fractionBits = _
        congr 1
        omega
    _ = 2 * f.bias * 2 ^ f.fractionBits + 2 ^ f.fractionBits := by ring
    _ ≤ (f.unit ((num : ℚ) / den) - f.leastExponent).toNat * 2 ^ f.fractionBits + n :=
      Nat.add_le_add (Nat.mul_le_mul_right _ hexponent) normal

end Format

end PlcGateway.Ieee
