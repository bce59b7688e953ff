import Mathlib.Algebra.Order.Floor.Semifield
import PlcGateway.Proofs.Ieee.Fixed
import PlcGateway.Proofs.Ieee.Literal
import PlcGateway.Register.Codec

/-!
# The numerals of a real number

A finite single-precision number is read as a text of six places that is cut to six numerals. The
number of millionths is rounded, and of its digits the six leading ones are kept (`SixNumerals`):
with up to six digits in front of the point the text spells the rounded number cut off at the places
that are left, and with more digits the point stands behind the six (`decode_real_finite`).
-/

namespace PlcGateway.RegisterFormat

open Ieee (IsNearest)
open Text (decimal)

variable {front back : List Char} {n : ℕ}

/-! ## Keeping numerals -/

theorem keepNumerals_mark {c : Char} (mark : c = '-' ∨ c = '.') (limit : ℕ) (s : List Char) :
    keepNumerals limit (c :: s) = c :: keepNumerals limit s := by
  cases limit with
  | zero => rw [keepNumerals, if_pos mark]
  | succ limit => rw [keepNumerals, if_pos mark]

/-- Digits are kept up to the limit. -/
theorem keepNumerals_append (digits : ∀ c ∈ front, c.isDigit = true) (limit : ℕ)
    (rest : List Char) : keepNumerals limit (front ++ rest) =
      front.take limit ++ keepNumerals (limit - front.length) rest := by
  induction front generalizing limit with
  | nil =>
    rw [List.take_nil, List.length_nil, Nat.sub_zero]
    rfl
  | cons c front ih =>
    obtain ⟨hc, hfront⟩ := List.forall_mem_cons.1 digits
    have numeral : ¬ (c = '-' ∨ c = '.') := by
      rintro (rfl | rfl)
      · exact absurd hc (by decide)
      · exact absurd hc (by decide)
    cases limit with
    | zero =>
      have h := ih hfront 0
      rw [Nat.zero_sub] at h ⊢
      rw [List.cons_append, keepNumerals, if_neg numeral, h]
      rfl
    | succ limit =>
      rw [List.cons_append, keepNumerals, if_neg numeral]
      simp only [ih hfront limit]
      rw [List.take_succ_cons, List.length_cons, Nat.add_sub_add_right, List.cons_append]

/-- Cutting a text with a point cuts the digits on both sides of it. -/
theorem keepNumerals_point (hfront : ∀ c ∈ front, c.isDigit = true)
    (hback : ∀ c ∈ back, c.isDigit = true) (limit : ℕ) :
    keepNumerals limit (front ++ '.' :: back) =
      front.take limit ++ '.' :: back.take (limit - front.length) := by
  have hrest : keepNumerals (limit - front.length) back = back.take (limit - front.length) := by
    have h := keepNumerals_append hback (limit - front.length) []
    rw [keepNumerals, List.append_nil, List.append_nil] at h
    exact h
  rw [keepNumerals_append hfront, keepNumerals_mark (.inr rfl), hrest]

theorem keepNumerals_sign (negative : Bool) (limit : ℕ) (s : List Char) :
    keepNumerals limit ((if negative then ['-'] else []) ++ s) =
      (if negative then ['-'] else []) ++ keepNumerals limit s := by
  cases negative with
  | true => exact keepNumerals_mark (.inl rfl) limit s
  | false => rfl

/-! ## Six numerals -/

/-- A number cut off behind some places. -/
def cutOff (places : ℕ) (r : ℚ) : ℚ := ⌊r * 10 ^ places⌋₊ / 10 ^ places

/-- The digits in front of the point of a number. -/
def wholeDigits (r : ℚ) : List Char := decimal ⌊r⌋₊

/-- The text of a number in six numerals: its sign, and the whole part with as many places as are
left, or only the leading digits of a whole part that is too long. -/
structure SixNumerals (negative : Bool) (r : ℚ) (front back text : List Char) : Prop where
  layout : text = (if negative then ['-'] else []) ++ (front ++ '.' :: back)
  isDigit : ∀ c ∈ front ++ back, c.isDigit = true
  six : (front ++ back).length = 6
  short : (wholeDigits r).length ≤ 6 → front.length = (wholeDigits r).length ∧
    Ieee.Spells text (if negative then -cutOff (6 - (wholeDigits r).length) r
      else cutOff (6 - (wholeDigits r).length) r)
  long : 6 < (wholeDigits r).length → front = (wholeDigits r).take 6 ∧ back = []

theorem floor_div_ten_pow (n places : ℕ) : ⌊(n : ℚ) / 10 ^ places⌋₊ = n / 10 ^ places := by
  have h := Nat.floor_div_eq_div (K := ℚ) n (10 ^ places)
  rw [Nat.cast_pow, Nat.cast_ofNat] at h
  exact h

theorem cutOff_millionths {d : ℕ} (short : d ≤ 6) (n : ℕ) :
    cutOff (6 - d) ((n : ℚ) / 10 ^ 6) = (n / 10 ^ d : ℕ) * 10 ^ (0 - ((6 - d : ℕ) : ℤ)) := by
  have hpow : (10 : ℚ) ^ 6 = 10 ^ d * 10 ^ (6 - d) := by
    rw [← pow_add, Nat.add_sub_cancel' short]
  have hquotient : (n : ℚ) / 10 ^ 6 * 10 ^ (6 - d) = (n : ℚ) / ((10 ^ d : ℕ) : ℚ) := by
    rw [hpow]
    push_cast
    field_simp
  rw [cutOff, hquotient, Nat.floor_div_eq_div, zero_sub, zpow_neg, zpow_natCast]
  exact div_eq_mul_inv _ _

/-- Cutting the text of a number of millionths leaves its six leading digits, with the point where
it was or behind them. -/
theorem exists_cut (n : ℕ) : ∃ part,
    keepNumerals 6 (Ieee.placed 6 n) = (decimal (n / 10 ^ 6)).take 6 ++ '.' :: part ∧
    part.length = 6 - (decimal (n / 10 ^ 6)).length ∧
    Text.IsDecimal ((decimal (n / 10 ^ 6)).take 6 ++ part)
      (n / 10 ^ (decimal (n / 10 ^ 6)).length) := by
  obtain ⟨part, hplaced, hpart, number⟩ := Ieee.exists_placed 6 (by decide) n
  set whole := decimal (n / 10 ^ 6)
  obtain ⟨hdigits, hdigits'⟩ := List.forall_mem_append.1 number.isDigit
  refine ⟨part.take (6 - whole.length), ?_, ?_, ?_⟩
  · rw [hplaced, keepNumerals_point hdigits hdigits']
  · rw [List.length_take]
    omega
  · have hcut : whole.take 6 ++ part.take (6 - whole.length) = (whole ++ part).take 6 :=
      List.take_append.symm
    rw [hcut]
    refine ⟨?_, fun c hc => number.isDigit c (List.mem_of_mem_take hc), ?_⟩
    · rw [Ne, List.take_eq_nil_iff]
      exact fun h => number.ne_nil (h.resolve_left (by decide))
    · rw [Text.ofDigitChars_take number.isDigit, number.value_eq, List.length_append, hpart,
        Nat.add_sub_cancel]

/-- Cutting the text of a number of millionths leaves six numerals. -/
theorem exists_sixNumerals (negative : Bool) (n : ℕ) : ∃ front back,
    SixNumerals negative ((n : ℚ) / 10 ^ 6) front back
      (keepNumerals 6 ((if negative then ['-'] else []) ++ Ieee.placed 6 n)) := by
  obtain ⟨part, hcut, hpart, leading⟩ := exists_cut n
  have hwhole : wholeDigits ((n : ℚ) / 10 ^ 6) = decimal (n / 10 ^ 6) := by
    rw [wholeDigits, floor_div_ten_pow]
  rw [← hwhole] at hcut hpart leading
  set whole := wholeDigits ((n : ℚ) / 10 ^ 6) with hdef
  rw [keepNumerals_sign, hcut]
  refine ⟨whole.take 6, part, rfl, leading.isDigit, ?_, ?_, ?_⟩
  · rw [List.length_append, List.length_take]
    omega
  · intro short
    have magnitude := Ieee.IsMagnitude.point leading .none
    rw [List.append_nil, hpart, hdef, ← cutOff_millionths short] at magnitude
    refine ⟨by rw [List.take_of_length_le short], ?_⟩
    cases negative with
    | true => exact .minus magnitude
    | false => exact .plain magnitude
  · intro long
    refine ⟨rfl, List.length_eq_zero_iff.1 ?_⟩
    rw [hpart, Nat.sub_eq_zero_of_le long.le]

/-! ## Finite numbers -/

/-- Cutting off loses less than a unit of the last place. -/
theorem abs_cutOff_sub_lt {r : ℚ} (nonneg : 0 ≤ r) (places : ℕ) :
    |cutOff places r - r| < 1 / 10 ^ places := by
  have hpos : (0 : ℚ) < 10 ^ places := by positivity
  have hfloor := Nat.floor_le (mul_nonneg nonneg hpos.le)
  have hlt := Nat.lt_floor_add_one (r * 10 ^ places)
  have hscaled : cutOff places r - r =
      (⌊r * 10 ^ places⌋₊ - r * 10 ^ places) / 10 ^ places := by
    unfold cutOff
    field_simp
  rw [hscaled, abs_div, abs_of_pos hpos, div_lt_div_iff_of_pos_right hpos, abs_lt]
  constructor <;> linarith

/-- The sign of a number is the highest bit of its last byte. -/
theorem negative_iff {b₀ b₁ b₂ b₃ : UInt8} {negative : Bool} {significand : ℕ} {exponent : ℤ}
    (finite : Ieee.binary32.datum (Bytes.number [b₀, b₁, b₂, b₃]) =
      .finite negative significand exponent) : negative = true ↔ 128 ≤ b₃.toNat := by
  have hsign : (Bytes.number [b₀, b₁, b₂, b₃] / 2 ^ 31 % 2 == 1) = negative := by
    unfold Ieee.Format.datum at finite
    simp only at finite
    split at finite
    · split at finite <;> cases finite
    · split at finite
      · exact (Ieee.Datum.finite.inj finite).1
      · exact (Ieee.Datum.finite.inj finite).1
  have h₀ := b₀.toNat_lt
  have h₁ := b₁.toNat_lt
  have h₂ := b₂.toNat_lt
  have h₃ := b₃.toNat_lt
  rw [← hsign, beq_iff_eq]
  simp only [Bytes.number]
  omega

/-- A finite number is rounded to millionths, a half going to the even one, and read as a text of
six numerals with one point, and with a minus in front exactly if the sign bit is set. Unless the
whole part is too long, the text spells the rounded number cut off, which differs from the number by
less than a unit of the last place and a millionth. -/
theorem decode_real_finite {b₀ b₁ b₂ b₃ : UInt8} {negative : Bool} {significand : ℕ} {exponent : ℤ}
    (finite : Ieee.binary32.datum (Bytes.number [b₀, b₁, b₂, b₃]) =
      .finite negative significand exponent) (rest : List UInt8) :
    (negative = true ↔ 128 ≤ b₃.toNat) ∧
    ∃ n front back text, IsNearest ((significand : ℚ) * 2 ^ exponent * 10 ^ 6) n ∧
      real.decode (b₀ :: b₁ :: b₂ :: b₃ :: rest) = .ok (.real text) ∧
      SixNumerals negative ((n : ℚ) / 10 ^ 6) front back text.toList ∧
      ∀ d, d = (wholeDigits ((n : ℚ) / 10 ^ 6)).length → d ≤ 6 →
        |cutOff (6 - d) ((n : ℚ) / 10 ^ 6) - significand * 2 ^ exponent| <
          10 ^ ((d : ℤ) - 6) + 1 / 10 ^ 6 := by
  obtain ⟨n, nearest, hfixed⟩ := Ieee.Datum.exists_fixed 6 negative significand exponent
  obtain ⟨front, back, numerals⟩ := exists_sixNumerals negative n
  have htext : (realText (Bytes.number [b₀, b₁, b₂, b₃])).toList =
      keepNumerals 6 ((if negative then ['-'] else []) ++ Ieee.placed 6 n) := by
    unfold realText
    rw [String.toList_ofList, finite, hfixed]
  refine ⟨negative_iff finite, n, front, back, _, nearest, rfl, ?_, ?_⟩
  · rw [htext]
    exact numerals
  · intro d _ short
    have hunit : (10 : ℚ) ^ ((d : ℤ) - 6) = 1 / 10 ^ (6 - d) := by
      have hsub : (d : ℤ) - 6 = -((6 - d : ℕ) : ℤ) := by omega
      rw [hsub, zpow_neg, zpow_natCast, one_div]
    have hrounded : |(n : ℚ) / 10 ^ 6 - significand * 2 ^ exponent| ≤ 1 / 2 / 10 ^ 6 := by
      have hscaled : (n : ℚ) / 10 ^ 6 - significand * 2 ^ exponent =
          -(significand * 2 ^ exponent * 10 ^ 6 - n) / 10 ^ 6 := by
        field_simp
        ring
      rw [hscaled, abs_div, abs_neg, abs_of_pos (by positivity : (0 : ℚ) < 10 ^ 6)]
      exact div_le_div_of_nonneg_right nearest.close (by positivity)
    calc |cutOff (6 - d) ((n : ℚ) / 10 ^ 6) - significand * 2 ^ exponent|
        ≤ |cutOff (6 - d) ((n : ℚ) / 10 ^ 6) - (n : ℚ) / 10 ^ 6| +
          |(n : ℚ) / 10 ^ 6 - significand * 2 ^ exponent| := abs_sub_le _ _ _
      _ < 1 / 10 ^ (6 - d) + 1 / 10 ^ 6 := by
        apply add_lt_add (abs_cutOff_sub_lt (by positivity) _)
        exact lt_of_le_of_lt hrounded (by norm_num)
      _ = 10 ^ ((d : ℤ) - 6) + 1 / 10 ^ 6 := by rw [hunit]

/-- The text of `-12.5` has four places. -/
theorem decode_real_negative :
    Ieee.binary32.datum (Bytes.number [0, 0, 0x48, 0xC1]) = .finite true 13107200 (-20) ∧
    real.decode [0, 0, 0x48, 0xC1] = .ok (.real "-12.5000") ∧
    Ieee.Spells "-12.5000".toList (-cutOff 4 (25 / 2)) := by
  have finite : Ieee.binary32.datum (Bytes.number [0, 0, 0x48, 0xC1]) =
      .finite true 13107200 (-20) := rfl
  have decoded : real.decode [0, 0, 0x48, 0xC1] = .ok (.real "-12.5000") := rfl
  obtain ⟨-, n, front, back, text, nearest, decoded', numerals, -⟩ := decode_real_finite finite []
  obtain rfl := RegisterValue.real.inj (Except.ok.inj (decoded'.symm.trans decoded))
  have hn : n = 12500000 := by
    apply nearest.unique
    norm_num
    exact ⟨by norm_num, fun _ => rfl⟩
  have hrounded : ((12500000 : ℕ) : ℚ) / 10 ^ 6 = 25 / 2 := by norm_num
  have hwhole : wholeDigits (25 / 2) = ['1', '2'] := by
    have hfloor : ⌊(25 / 2 : ℚ)⌋₊ = 12 := (Nat.floor_eq_iff (by norm_num)).2 (by norm_num)
    rw [wholeDigits, hfloor]
    rfl
  rw [hn, hrounded] at numerals
  have spelt := (numerals.short (by rw [hwhole]; decide)).2
  rw [hwhole] at spelt
  exact ⟨finite, decoded, spelt⟩

end PlcGateway.RegisterFormat
