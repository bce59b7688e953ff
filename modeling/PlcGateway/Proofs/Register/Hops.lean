import Mathlib.Data.Nat.Log
import PlcGateway.Proofs.Register.Places

/-!
# Real numbers from one PLC to the next

A text of six numerals is written as the nearest single-precision number, and this may lie below the
number that was spelt. As long as it does so by no more than half a millionth, rounding to
millionths makes up for it and the same text is read; otherwise the last place is one unit lower
(`hop_eq`). The second happens to no number below sixteen and to no whole number, and not more than
twelve times in a row, since the rests of the numbers of units on the grid of their binade move on
with each (`Fits.exists_not_lowered`). So a number that is handed on settles after twelve hops at
most (`real_settles`).
-/

namespace PlcGateway.RegisterFormat

open Ieee (IsNearest binary32)

variable {negative : Bool} {places k n : ℕ} {y : ℚ}

/-! ## One hop -/

/-- The nearest single-precision number is so far below a number of units that rounding to
millionths does not make up for it. -/
def Lowered (places k : ℕ) : Prop :=
  ∃ y, binary32.Rounds ((k : ℚ) / 10 ^ places) y ∧ 1 / 2 / 10 ^ 6 < (k : ℚ) / 10 ^ places - y

theorem Fits.quotient_mul (fits : Fits places k) :
    (k : ℚ) / 10 ^ places * 10 ^ 6 = ((k * 10 ^ (6 - places) : ℕ) : ℚ) := by
  have hsum : places + (6 - places) = 6 := by
    have := fits.places_lt
    omega
  have hpow : (10 : ℚ) ^ 6 = 10 ^ places * 10 ^ (6 - places) := by rw [← pow_add, hsum]
  rw [hpow]
  push_cast
  field_simp

/-- Rounding never takes a number as far as the next unit. -/
theorem Fits.abs_sub_le (fits : Fits places k)
    (rounds : binary32.Rounds ((k : ℚ) / 10 ^ places) y) :
    |(k : ℚ) / 10 ^ places - y| * 10 ^ 6 ≤ 10 ^ (6 - places) - 1 := by
  have hten : (10 : ℚ) ≤ 10 ^ (6 - places) := by
    have hlt := fits.places_lt
    calc (10 : ℚ) = 10 ^ 1 := (pow_one _).symm
      _ ≤ 10 ^ (6 - places) := pow_le_pow_right₀ (by norm_num) (by omega)
  rcases Nat.eq_zero_or_pos k with rfl | hpos
  · rw [Nat.cast_zero, zero_div] at rounds ⊢
    have hy : y = ((0 : ℕ) : ℚ) := Ieee.Format.Rounds.eq_natCast (f := binary32)
      (by rw [Nat.cast_zero]; exact rounds) (by decide) (by decide)
    rw [hy, Nat.cast_zero, sub_zero, abs_zero, zero_mul]
    linarith
  · have hx : (0 : ℚ) < (k : ℚ) / 10 ^ places := div_pos (by exact_mod_cast hpos) (by positivity)
    have hlt := fits.quotient_lt
    have hleast : (2 : ℚ) ^ binary32.leastExponent ≤ 1 / 10 ^ 6 := by
      show (2 : ℚ) ^ (-149 : ℤ) ≤ 1 / 10 ^ 6
      norm_num
    calc |(k : ℚ) / 10 ^ places - y| * 10 ^ 6
        ≤ (2 ^ binary32.leastExponent + (k : ℚ) / 10 ^ places / 2 ^ binary32.fractionBits) / 2 *
            10 ^ 6 := mul_le_mul_of_nonneg_right (rounds.abs_sub_le_add hx) (by positivity)
      _ ≤ (1 / 10 ^ 6 + 10 ^ (6 - places) / 2 ^ 23) / 2 * 10 ^ 6 := by
        apply mul_le_mul_of_nonneg_right _ (by positivity)
        apply div_le_div_of_nonneg_right _ (by norm_num)
        exact add_le_add hleast (div_le_div_of_nonneg_right hlt.le (by positivity))
      _ ≤ 10 ^ (6 - places) - 1 := by linarith

/-- A whole number is not rounded. -/
theorem Fits.eq_of_dvd (fits : Fits places k) (whole : 10 ^ places ∣ k)
    (rounds : binary32.Rounds ((k : ℚ) / 10 ^ places) y) : y = (k : ℚ) / 10 ^ places := by
  have hk : (k : ℚ) / 10 ^ places = ((k / 10 ^ places : ℕ) : ℚ) := by
    rw [div_eq_iff (by positivity)]
    exact_mod_cast (Nat.div_mul_cancel whole).symm
  rw [hk] at rounds ⊢
  apply rounds.eq_natCast (by decide)
  calc k / 10 ^ places < 10 ^ (6 - places) := fits.whole_lt
    _ ≤ 10 ^ 6 := Nat.pow_le_pow_right (by decide) (Nat.sub_le 6 places)
    _ ≤ 2 ^ 24 := by decide

theorem Fits.not_dvd_of_lowered (fits : Fits places k) (lowered : Lowered places k) :
    ¬ 10 ^ places ∣ k := by
  intro whole
  obtain ⟨y, rounds, far⟩ := lowered
  rw [fits.eq_of_dvd whole rounds, sub_self] at far
  exact absurd far (by norm_num)

/-- One unit less leaves the whole part as it is. -/
theorem Fits.pred (fits : Fits places k) (lowered : Lowered places k) :
    0 < k ∧ (k - 1) / 10 ^ places = k / 10 ^ places ∧ Fits places (k - 1) := by
  have hne := fits.not_dvd_of_lowered lowered
  have hpos : 0 < k := Nat.pos_of_ne_zero fun hzero => hne (hzero ▸ Nat.dvd_zero _)
  have hwhole : (k - 1) / 10 ^ places = k / 10 ^ places := by
    have h := Nat.succ_div (a := k - 1) (b := 10 ^ places)
    rw [Nat.sub_add_cancel hpos, if_neg hne, Nat.add_zero] at h
    exact h.symm
  refine ⟨hpos, hwhole, ?_⟩
  unfold Fits
  rw [hwhole]
  exact fits

/-- The number of millionths of what was written is within a unit of the last place. -/
theorem Fits.millionths_bounds (fits : Fits places k)
    (rounds : binary32.Rounds ((k : ℚ) / 10 ^ places) y) (nearest : IsNearest (y * 10 ^ 6) n) :
    k * 10 ^ (6 - places) < n + 10 ^ (6 - places) ∧ n < (k + 1) * 10 ^ (6 - places) := by
  obtain ⟨hbelow, habove⟩ := abs_le.1 nearest.close
  have hscaled := fits.quotient_mul
  have herror : |((k * 10 ^ (6 - places) : ℕ) : ℚ) - y * 10 ^ 6| ≤ 10 ^ (6 - places) - 1 := by
    rw [← hscaled, ← sub_mul, abs_mul, abs_of_pos (by positivity : (0 : ℚ) < 10 ^ 6)]
    exact fits.abs_sub_le rounds
  obtain ⟨hlow, hhigh⟩ := abs_le.1 herror
  constructor
  · have hlt : ((k * 10 ^ (6 - places) : ℕ) : ℚ) < ((n + 10 ^ (6 - places) : ℕ) : ℚ) := by
      rw [Nat.cast_add, Nat.cast_pow, Nat.cast_ofNat]
      linarith
    exact_mod_cast hlt
  · have hlt : (n : ℚ) < ((k * 10 ^ (6 - places) + 10 ^ (6 - places) : ℕ) : ℚ) := by
      rw [Nat.cast_add, Nat.cast_pow 10, Nat.cast_ofNat]
      linarith
    rw [Nat.add_mul, Nat.one_mul]
    exact_mod_cast hlt

/-- Within half a millionth below, rounding to millionths gives the text again. -/
theorem Fits.numeralText_eq (fits : Fits places k)
    (rounds : binary32.Rounds ((k : ℚ) / 10 ^ places) y) (nearest : IsNearest (y * 10 ^ 6) n)
    (close : (k : ℚ) / 10 ^ places - y ≤ 1 / 2 / 10 ^ 6) (negative : Bool) :
    numeralText negative 6 n = numeralText negative places k := by
  obtain ⟨-, hhigh⟩ := fits.millionths_bounds rounds nearest
  have hlow : k * 10 ^ (6 - places) ≤ n := by
    apply nearest.even_le
    · have hplaces : 6 - places = 5 - places + 1 := by
        have := fits.places_lt
        omega
      rw [hplaces, Nat.pow_succ, ← Nat.mul_assoc, Nat.mul_mod]
      rfl
    · rw [← fits.quotient_mul]
      linarith
  have hn : n / 10 ^ (6 - places) = k := Nat.div_eq_of_lt_le hlow hhigh
  rw [Fits.numeralText_millionths (by rw [hn]; exact fits), hn]

/-- Further below, the text has one unit less. -/
theorem Fits.numeralText_pred (fits : Fits places k)
    (rounds : binary32.Rounds ((k : ℚ) / 10 ^ places) y) (nearest : IsNearest (y * 10 ^ 6) n)
    (far : 1 / 2 / 10 ^ 6 < (k : ℚ) / 10 ^ places - y) (negative : Bool) :
    numeralText negative 6 n = numeralText negative places (k - 1) := by
  obtain ⟨hpos, -, fits'⟩ := fits.pred ⟨y, rounds, far⟩
  obtain ⟨hlow, -⟩ := fits.millionths_bounds rounds nearest
  have hhigh : n < k * 10 ^ (6 - places) := by
    obtain ⟨hbelow, -⟩ := abs_le.1 nearest.close
    have hscaled := fits.quotient_mul
    have hlt : (n : ℚ) < ((k * 10 ^ (6 - places) : ℕ) : ℚ) := by
      rw [← hscaled]
      linarith
    exact_mod_cast hlt
  have hn : n / 10 ^ (6 - places) = k - 1 := by
    apply Nat.div_eq_of_lt_le
    · rw [Nat.sub_mul, Nat.one_mul]
      omega
    · rw [Nat.sub_add_cancel hpos]
      exact hhigh
  rw [Fits.numeralText_millionths (by rw [hn]; exact fits'), hn]

/-- The text that is read where a text was written. -/
def hop (text : String) : Except CodecError String := do
  let bytes ← real.encode text real.registers
  let value ← real.decode bytes
  return value.display

/-- A hop leaves a text as it is or lowers its last place by one unit. -/
theorem hop_eq (fits : Fits places k) (negative : Bool) :
    (¬ Lowered places k → hop (numeralText negative places k) =
      .ok (numeralText negative places k)) ∧
    (Lowered places k → hop (numeralText negative places k) =
      .ok (numeralText negative places (k - 1))) := by
  obtain ⟨c₀, c₁, c₂, c₃, significand, exponent, encoded, finite, rounds⟩ :=
    encode_numeralText fits negative real.registers
  obtain ⟨n, nearest, decoded⟩ := decode_real_datum finite []
  have hhop : hop (numeralText negative places k) = .ok (numeralText negative 6 n) := by
    unfold hop
    rw [encoded]
    show (real.decode [c₀, c₁, c₂, c₃] >>= fun value => .ok value.display) = _
    rw [decoded]
    rfl
  rw [hhop]
  constructor
  · intro kept
    have close : (k : ℚ) / 10 ^ places - significand * 2 ^ exponent ≤ 1 / 2 / 10 ^ 6 :=
      le_of_not_gt fun far => kept ⟨_, rounds, far⟩
    rw [fits.numeralText_eq rounds nearest close]
  · rintro ⟨y, rounds', far⟩
    rw [rounds'.unique rounds] at far
    rw [fits.numeralText_pred rounds nearest far]

/-! ## How often the last place is lowered -/

/-- Below sixteen, half a unit of single precision is less than half a millionth. -/
theorem not_lowered_of_lt (small : k < 16 * 10 ^ places) : ¬ Lowered places k := by
  rintro ⟨y, rounds, far⟩
  have hlt : (k : ℚ) / 10 ^ places < 2 ^ (4 : ℤ) := by
    rw [div_lt_iff₀ (by positivity)]
    exact_mod_cast small
  have hunit := binary32.unit_le_of_lt (by decide) hlt (by decide)
  have hclose := rounds.abs_sub_le_of_unit_le (k := 20) hunit
  obtain ⟨-, hhigh⟩ := abs_le.1 hclose
  norm_num at hhigh far
  linarith

theorem unit_eq (large : 10 ^ places ≤ k) :
    binary32.unit ((k : ℚ) / 10 ^ places) = (Nat.log 2 (k / 10 ^ places) : ℤ) - 23 := by
  have hone : 1 ≤ (k : ℚ) / 10 ^ places := by
    rw [le_div_iff₀ (by positivity), one_mul]
    exact_mod_cast large
  have hlog : Int.log 2 ((k : ℚ) / 10 ^ places) = (Nat.log 2 (k / 10 ^ places) : ℤ) := by
    rw [Int.log_of_one_le_right 2 hone, floor_div_ten_pow]
  have hleast : binary32.leastExponent = -149 := rfl
  have hbits : (binary32.fractionBits : ℤ) = 23 := rfl
  unfold Ieee.Format.unit
  rw [hlog, hleast, hbits]
  omega

/-- The binade of a number leaves room for its places. -/
theorem Fits.log_add_le (fits : Fits places k) (large : 10 ^ places ≤ k) :
    Nat.log 2 (k / 10 ^ places) + places ≤ 23 := by
  have hwhole : k / 10 ^ places ≠ 0 := (Nat.div_pos large (Nat.pow_pos (by decide))).ne'
  have hlt := fits.places_lt
  have hlog : Nat.log 2 (k / 10 ^ places) < 4 * (6 - places) := by
    apply Nat.log_lt_of_lt_pow hwhole
    calc k / 10 ^ places < 10 ^ (6 - places) := fits.whole_lt
      _ ≤ 16 ^ (6 - places) := Nat.pow_le_pow_left (by decide) _
      _ = 2 ^ (4 * (6 - places)) := by rw [Nat.pow_mul]
  omega

/-- A rest that is rounded down, and not for being none. -/
def InLowerHalf (modulus rest : ℕ) : Prop := 0 < rest ∧ 2 * rest < modulus

/-- On the grid of its binade a number of units leaves a rest by a power of five, which is in the
lower half if the number is lowered. -/
theorem Fits.rest_of_lowered (fits : Fits places k) (lowered : Lowered places k) {e : ℕ}
    (binade : Nat.log 2 (k / 10 ^ places) = e) :
    InLowerHalf (5 ^ places) (k * 2 ^ (23 - e - places) % 5 ^ places) := by
  have large : 16 * 10 ^ places ≤ k := Nat.le_of_not_lt fun small => not_lowered_of_lt small lowered
  have large' : 10 ^ places ≤ k := by omega
  have hroom := fits.log_add_le large'
  rw [binade] at hroom
  obtain ⟨y, ⟨m, rfl, nearest⟩, far⟩ := lowered
  rw [unit_eq large', binade] at nearest far
  have hgrid : (k : ℚ) / 10 ^ places / 2 ^ ((e : ℤ) - 23) =
      ((k * 2 ^ (23 - e - places) : ℕ) : ℚ) / ((5 ^ places : ℕ) : ℚ) := by
    have hsplit : (e : ℤ) - 23 = -((23 - e - places + places : ℕ) : ℤ) := by omega
    have hten : (10 : ℚ) ^ places = 2 ^ places * 5 ^ places := by
      rw [← mul_pow]
      norm_num
    rw [hsplit, zpow_neg, zpow_natCast, div_inv_eq_mul, pow_add, hten]
    push_cast
    field_simp
  rw [hgrid] at nearest
  have hbelow : (m : ℚ) < ((k * 2 ^ (23 - e - places) : ℕ) : ℚ) / ((5 ^ places : ℕ) : ℚ) := by
    rw [← hgrid, lt_div_iff₀ (Ieee.two_zpow_pos _)]
    have hpos : (0 : ℚ) < 1 / 2 / 10 ^ 6 := by norm_num
    linarith
  obtain ⟨hrest, hhalf⟩ := nearest.mod_bounds (Nat.pow_pos (by decide)) hbelow
  refine ⟨hrest, lt_of_le_of_ne hhalf fun heq => ?_⟩
  -- a power of five is odd
  have hodd : 5 ^ places % 2 = 1 := by
    rw [Nat.pow_mod]
    exact (Nat.pow_mod 1 places 2).symm.trans (by rw [Nat.one_pow])
  omega

section Rests

variable {a step modulus m : ℕ}

theorem mod_next (a step modulus i : ℕ) : (a + (i + 1) * step) % modulus =
    ((a + i * step) % modulus + step % modulus) % modulus := by
  rw [← Nat.add_mod]
  congr 1
  ring

variable (rests : ∀ i ≤ m, InLowerHalf modulus ((a + i * step) % modulus))

include rests

/-- Rests in the lower half that a small step moves on go up and never reach the modulus. -/
theorem rest_eq_add (small : 2 * (step % modulus) ≤ modulus) :
    ∀ i ≤ m, (a + i * step) % modulus = a % modulus + i * (step % modulus) := by
  intro i
  induction i with
  | zero =>
    intro _
    rw [Nat.zero_mul, Nat.zero_mul, Nat.add_zero, Nat.add_zero]
  | succ i ih =>
    intro hi
    obtain ⟨-, hhalf⟩ := rests i (by omega)
    rw [mod_next, Nat.mod_eq_of_lt (by omega), ih (by omega), Nat.succ_mul, Nat.add_assoc]

/-- Rests in the lower half that a large step moves on go down, since one that went up would be in
the upper half. -/
theorem rest_add_eq (large : modulus ≤ 2 * (step % modulus)) :
    ∀ i ≤ m, (a + i * step) % modulus + i * (modulus - step % modulus) = a % modulus := by
  intro i
  induction i with
  | zero =>
    intro _
    rw [Nat.zero_mul, Nat.zero_mul, Nat.add_zero, Nat.add_zero]
  | succ i ih =>
    intro hi
    obtain ⟨hpos, hhalf⟩ := rests i (by omega)
    obtain ⟨-, hhalf'⟩ := rests (i + 1) hi
    have hmod : step % modulus < modulus := Nat.mod_lt _ (by omega)
    have hwrap : modulus ≤ (a + i * step) % modulus + step % modulus := by
      by_contra hlt
      rw [mod_next, Nat.mod_eq_of_lt (by omega)] at hhalf'
      omega
    rw [mod_next, Nat.mod_eq_sub_mod hwrap, Nat.mod_eq_of_lt (by omega), Nat.succ_mul,
      ← ih (by omega)]
    omega

/-- Rests that stay in the lower half do not move on far. -/
theorem mul_min_le_of_rests :
    2 * (m * min (step % modulus) (modulus - step % modulus)) + 3 ≤ modulus := by
  obtain ⟨hfirst, hfirst'⟩ := rests 0 (Nat.zero_le m)
  obtain ⟨hlast, hlast'⟩ := rests m le_rfl
  rw [Nat.zero_mul, Nat.add_zero] at hfirst hfirst'
  rcases Nat.le_total (2 * (step % modulus)) modulus with hsmall | hlarge
  · have hmin := Nat.mul_le_mul_left m
      (Nat.min_le_left (step % modulus) (modulus - step % modulus))
    rw [rest_eq_add rests hsmall m le_rfl] at hlast'
    omega
  · have hmin := Nat.mul_le_mul_left m
      (Nat.min_le_right (step % modulus) (modulus - step % modulus))
    have hsum := rest_add_eq rests hlarge m le_rfl
    omega

end Rests

/-- In every binade from sixteen on, one unit of the last place moves the rest by so much that
twelve steps leave the lower half. -/
theorem rests_leave : ∀ places < 6, ∀ e < 24, 4 ≤ e → 2 ^ e < 10 ^ (6 - places) →
    10 ^ (5 - places) < 2 ^ (e + 1) → ¬ 2 * (12 * min (2 ^ (23 - e - places) % 5 ^ places)
      (5 ^ places - 2 ^ (23 - e - places) % 5 ^ places)) + 3 ≤ 5 ^ places := by
  decide

/-- As long as units are lost, the whole part stays. -/
theorem Fits.sub (fits : Fits places k) {j : ℕ} (lowered : ∀ i < j, Lowered places (k - i)) :
    j ≤ k ∧ (k - j) / 10 ^ places = k / 10 ^ places ∧ Fits places (k - j) := by
  induction j with
  | zero => exact ⟨Nat.zero_le k, rfl, fits⟩
  | succ j ih =>
    obtain ⟨hle, hwhole, fits'⟩ := ih fun i hi => lowered i (Nat.lt_succ_of_lt hi)
    obtain ⟨hpos, hwhole', fits''⟩ := fits'.pred (lowered j (Nat.lt_succ_self j))
    exact ⟨by omega, hwhole'.trans hwhole, fits''⟩

/-- Of thirteen numbers of units in a row, one comes back. -/
theorem Fits.exists_not_lowered (fits : Fits places k) : ∃ j ≤ 12, ¬ Lowered places (k - j) := by
  by_contra hall
  push Not at hall
  have large : 16 * 10 ^ places ≤ k := Nat.le_of_not_lt fun small =>
    not_lowered_of_lt small (hall 0 (Nat.zero_le 12))
  obtain ⟨hle, -, -⟩ := fits.sub fun i (hi : i < 12) => hall i hi.le
  set e := Nat.log 2 (k / 10 ^ places) with he
  have hrests : ∀ i ≤ 12, InLowerHalf (5 ^ places)
      (((k - 12) * 2 ^ (23 - e - places) + i * 2 ^ (23 - e - places)) % 5 ^ places) := by
    intro i hi
    obtain ⟨-, hwhole, fits'⟩ := fits.sub fun j (hj : j < 12 - i) => hall j (by omega)
    have hk : k - (12 - i) = k - 12 + i := by omega
    have hrest := fits'.rest_of_lowered (hall (12 - i) (Nat.sub_le 12 i)) (by rw [hwhole])
    rw [hk, Nat.add_mul] at hrest
    exact hrest
  have hpos : 0 < 10 ^ places := Nat.pow_pos (by decide)
  have hwhole : 16 ≤ k / 10 ^ places := (Nat.le_div_iff_mul_le hpos).2 large
  have hne : k / 10 ^ places ≠ 0 := by omega
  have hlow : 2 ^ e ≤ k / 10 ^ places := Nat.pow_log_le_self 2 hne
  have hhigh : k / 10 ^ places < 2 ^ (e + 1) := Nat.lt_pow_succ_log_self (by decide) _
  have hroom := fits.log_add_le (by omega : 10 ^ places ≤ k)
  apply rests_leave places fits.places_lt e _ _ _ _ (mul_min_le_of_rests hrests)
  · omega
  · exact Nat.le_log_of_pow_le (by decide) hwhole
  · exact lt_of_le_of_lt hlow fits.whole_lt
  · exact lt_of_le_of_lt (fits.pow_le_whole (by omega)) hhigh

/-! ## Any number of hops -/

/-- The text that is read after a number of hops. -/
def hops : ℕ → String → Except CodecError String
  | 0, text => .ok text
  | m + 1, text => hops m text >>= hop

theorem hops_succ {text next : String} {m : ℕ} (h : hops m text = .ok next) :
    hops (m + 1) text = hop next := by
  rw [hops, h]
  exact pure_bind next hop

/-- Every hop lowers the last place by one unit until one leaves the text as it is, and so do all
that follow. -/
theorem Fits.hops_eq (fits : Fits places k) {j : ℕ} (lowered : ∀ i < j, Lowered places (k - i))
    (kept : ¬ Lowered places (k - j)) (negative : Bool) (m : ℕ) :
    hops m (numeralText negative places k) = .ok (numeralText negative places (k - min m j)) := by
  induction m with
  | zero =>
    rw [Nat.zero_min, Nat.sub_zero]
    rfl
  | succ m ih =>
    rw [hops_succ ih]
    rcases Nat.lt_or_ge m j with hlt | hge
    · obtain ⟨-, -, fits'⟩ := fits.sub fun i (hi : i < m) => lowered i (hi.trans hlt)
      rw [Nat.min_eq_left hlt.le, Nat.min_eq_left hlt, (hop_eq fits' negative).2 (lowered m hlt),
        Nat.sub_sub]
    · obtain ⟨-, -, fits'⟩ := fits.sub lowered
      rw [Nat.min_eq_right hge, Nat.min_eq_right (Nat.le_succ_of_le hge),
        (hop_eq fits' negative).1 kept]

theorem Fits.exists_hops (fits : Fits places k) (negative : Bool) : ∃ j ≤ 12,
    (∀ m, hops m (numeralText negative places k) =
      .ok (numeralText negative places (k - min m j))) ∧
    (¬ Lowered places k → j = 0) := by
  classical
  obtain ⟨j₀, hle, kept₀⟩ := fits.exists_not_lowered
  have hexists : ∃ j, ¬ Lowered places (k - j) := ⟨j₀, kept₀⟩
  refine ⟨Nat.find hexists, (Nat.find_min' hexists kept₀).trans hle, ?_, ?_⟩
  · apply fits.hops_eq _ (Nat.find_spec hexists)
    intro i hi
    exact not_not.1 (Nat.find_min hexists hi)
  · intro kept
    exact (Nat.find_eq_zero hexists).2 kept

/-- Every finite number is read as so many units of the last of some places, with six numerals. The
text is written, as the nearest number and with the same sign, and it is read again exactly if this
number is not more than half a millionth nearer to zero than the one that the text spells; otherwise
one unit less is read. Handed on any number of times, the text loses one unit with each of the first
`j` hops, twelve at most, and stays from then on; below sixteen and if it spells a whole number it
loses none. -/
theorem real_settles {b₀ b₁ b₂ b₃ : UInt8} {negative : Bool} {significand : ℕ} {exponent : ℤ}
    (finite : binary32.datum (Bytes.number [b₀, b₁, b₂, b₃]) =
      .finite negative significand exponent) (rest : List UInt8) :
    ∃ places k, Fits places k ∧
      real.decode (b₀ :: b₁ :: b₂ :: b₃ :: rest) = .ok (.real (numeralText negative places k)) ∧
      Ieee.Spells (numeralText negative places k).toList
        (if negative then -((k : ℚ) / 10 ^ places) else (k : ℚ) / 10 ^ places) ∧
      (∀ registers, ∃ c₀ c₁ c₂ c₃ significand' exponent',
        real.encode (numeralText negative places k) registers = .ok [c₀, c₁, c₂, c₃] ∧
        binary32.datum (Bytes.number [c₀, c₁, c₂, c₃]) =
          .finite negative significand' exponent' ∧
        binary32.Rounds ((k : ℚ) / 10 ^ places) (significand' * 2 ^ exponent') ∧
        (real.decode [c₀, c₁, c₂, c₃] = .ok (.real (numeralText negative places k)) ↔
          (k : ℚ) / 10 ^ places - significand' * 2 ^ exponent' ≤ 1 / 2 / 10 ^ 6) ∧
        (1 / 2 / 10 ^ 6 < (k : ℚ) / 10 ^ places - significand' * 2 ^ exponent' →
          real.decode [c₀, c₁, c₂, c₃] = .ok (.real (numeralText negative places (k - 1))))) ∧
      ∃ j ≤ 12, (∀ m, hops m (numeralText negative places k) =
          .ok (numeralText negative places (k - min m j))) ∧
        (k < 16 * 10 ^ places ∨ 10 ^ places ∣ k → j = 0) := by
  obtain ⟨n, -, decoded⟩ := decode_real_datum finite rest
  obtain ⟨fits, htext⟩ := numeralText_millionths negative n
  rw [htext] at decoded
  refine ⟨_, _, fits, decoded, fits.spells negative, ?_, ?_⟩
  · intro registers
    obtain ⟨c₀, c₁, c₂, c₃, significand', exponent', encoded, finite', rounds⟩ :=
      encode_numeralText fits negative registers
    obtain ⟨n', nearest, decoded'⟩ := decode_real_datum finite' []
    refine ⟨c₀, c₁, c₂, c₃, significand', exponent', encoded, finite', rounds, ?_, ?_⟩
    · rw [decoded', Except.ok.injEq, RegisterValue.real.injEq]
      constructor
      · intro hsame
        by_contra hfar
        have far := lt_of_not_ge hfar
        obtain ⟨hpos, -, fits'⟩ := fits.pred ⟨_, rounds, far⟩
        rw [fits.numeralText_pred rounds nearest far] at hsame
        have hpred := fits'.eq_of_numeralText_eq fits hsame
        omega
      · intro close
        exact fits.numeralText_eq rounds nearest close negative
    · intro far
      rw [decoded', fits.numeralText_pred rounds nearest far]
  · obtain ⟨j, hj, hhops, hkept⟩ := fits.exists_hops negative
    refine ⟨j, hj, hhops, fun stable => hkept fun lowered => ?_⟩
    rcases stable with small | whole
    · exact not_lowered_of_lt small lowered
    · exact fits.not_dvd_of_lowered lowered whole

/-- The text `3.14159` is handed on unchanged. -/
theorem real_settles_pi :
    binary32.datum (Bytes.number [0xDB, 0x0F, 0x49, 0x40]) = .finite false 13176795 (-22) ∧
    real.decode [0xDB, 0x0F, 0x49, 0x40] = .ok (.real "3.14159") ∧
    ∀ m, hops m "3.14159" = .ok "3.14159" := by
  have finite : binary32.datum (Bytes.number [0xDB, 0x0F, 0x49, 0x40]) =
      .finite false 13176795 (-22) := rfl
  have decoded : real.decode [0xDB, 0x0F, 0x49, 0x40] = .ok (.real "3.14159") := rfl
  obtain ⟨places, k, -, decoded', spelt, -, j, -, hhops, hsmall⟩ := real_settles finite []
  have htext := RegisterValue.real.inj (Except.ok.inj (decoded'.symm.trans decoded))
  rw [htext] at spelt hhops
  have number : Text.IsDecimal (['3'] ++ ['1', '4', '1', '5', '9']) 314159 :=
    ⟨by decide, List.all_eq_true.1 (by decide), by decide⟩
  have hvalue := spelt.unique (.plain (.point number .none))
  have small : k < 16 * 10 ^ places := by
    have hlt : (k : ℚ) / 10 ^ places < 16 := by
      rw [if_neg Bool.false_ne_true] at hvalue
      rw [hvalue]
      norm_num
    rw [div_lt_iff₀ (by positivity)] at hlt
    exact_mod_cast hlt
  refine ⟨finite, decoded, fun m => ?_⟩
  rw [hhops, hsmall (.inl small), Nat.min_zero, Nat.sub_zero, htext]

/-- A text that loses a unit of the last place with each of twelve hops. -/
theorem real_lowered_twelve_times :
    ¬ (∀ b₀ b₁ b₂ b₃ negative significand exponent,
      binary32.datum (Bytes.number [b₀, b₁, b₂, b₃]) = .finite negative significand exponent →
      ∀ text, real.decode [b₀, b₁, b₂, b₃] = .ok (.real text) →
        ∃ bytes, real.encode text 2 = .ok bytes ∧ real.decode bytes = .ok (.real text)) ∧
    real.decode [0xD8, 0x03, 0x00, 0x45] = .ok (.real "2048.24") ∧
    hops 1 "2048.24" = .ok "2048.23" ∧ hops 12 "2048.24" = .ok "2048.12" := by
  refine ⟨?_, rfl, rfl, rfl⟩
  intro h
  obtain ⟨bytes, encoded, decoded⟩ := h 0xD8 0x03 0x00 0x45 false 8389592 (-12) rfl "2048.24" rfl
  have encoded' : real.encode "2048.24" 2 = .ok [0xD7, 0x03, 0x00, 0x45] := rfl
  obtain rfl := Except.ok.inj (encoded'.symm.trans encoded)
  exact absurd decoded (by decide)

end PlcGateway.RegisterFormat
