import PlcGateway.Proofs.Bytes.LittleEndian
import PlcGateway.Proofs.Register.Numerals

/-!
# Texts of real numbers as units of the last place

The text of a finite single-precision number is six digits with a point among them or behind them:
so many units of the last of some places (`numeralText_millionths`). It spells that many units
(`Fits.spells`), it is the only such text with these places (`Fits.eq_of_numeralText_eq`), and it is
written as the four bytes of the nearest single-precision number (`encode_numeralText`).
-/

namespace PlcGateway.RegisterFormat

open Ieee (IsNearest binary32)
open Text (decimal)

variable {negative : Bool} {places k n : ℕ}

/-! ## Units of the last place -/

/-- The text of a number of units of the last of some places, cut to six numerals. -/
def numeralText (negative : Bool) (places k : ℕ) : String :=
  String.ofList (keepNumerals 6 ((if negative then ['-'] else []) ++ Ieee.placed places k))

/-- The places of a number of units leave room for the digits in front of the point, and no more. -/
def Fits (places k : ℕ) : Prop := (decimal (k / 10 ^ places)).length + places = 6

theorem Fits.places_lt (fits : Fits places k) : places < 6 := by
  have hlength : 0 < (decimal (k / 10 ^ places)).length := Nat.length_toDigits_pos
  unfold Fits at fits
  omega

theorem Fits.length_whole (fits : Fits places k) :
    (decimal (k / 10 ^ places)).length = 6 - places := by
  unfold Fits at fits
  omega

theorem Fits.whole_lt (fits : Fits places k) : k / 10 ^ places < 10 ^ (6 - places) := by
  rw [← fits.length_whole]
  exact Text.lt_pow_length_decimal _

theorem Fits.pow_le_whole (fits : Fits places k) (pos : 0 < k / 10 ^ places) :
    10 ^ (5 - places) ≤ k / 10 ^ places := by
  have hpow := Text.pow_length_decimal_le pos
  have hplaces : 6 - places - 1 = 5 - places := by omega
  rw [fits.length_whole, hplaces] at hpow
  exact hpow

theorem Fits.exists_layout (fits : Fits places k) : ∃ part,
    keepNumerals 6 (Ieee.placed places k) = decimal (k / 10 ^ places) ++ '.' :: part ∧
    part.length = places ∧ Text.IsDecimal (decimal (k / 10 ^ places) ++ part) k := by
  have whole := Text.isDecimal_decimal (k / 10 ^ places)
  unfold Fits at fits
  have hshort : (decimal (k / 10 ^ places)).length ≤ 6 := by omega
  rcases Nat.eq_zero_or_pos places with rfl | hpos
  · -- without places, the zero behind the point is cut off
    have hplaced : Ieee.placed 0 k = decimal (k / 10 ^ 0) ++ '.' :: ['0'] := by
      unfold Ieee.placed
      rw [Nat.pow_eq, Nat.pow_zero, Nat.mod_one]
      rfl
    refine ⟨[], ?_, rfl, ?_⟩
    · rw [hplaced, keepNumerals_point whole.isDigit (List.forall_mem_singleton.2 rfl),
        List.take_of_length_le hshort]
      have hnone : 6 - (decimal (k / 10 ^ 0)).length = 0 := by omega
      rw [hnone, List.take_zero]
    · rw [List.append_nil]
      rw [Nat.pow_zero, Nat.div_one] at whole ⊢
      exact whole
  · obtain ⟨part, hplaced, hpart, number⟩ := Ieee.exists_placed places hpos k
    obtain ⟨hdigits, hdigits'⟩ := List.forall_mem_append.1 number.isDigit
    refine ⟨part, ?_, hpart, number⟩
    rw [hplaced, keepNumerals_point hdigits hdigits', List.take_of_length_le hshort,
      List.take_of_length_le]
    omega

theorem Fits.isMagnitude (fits : Fits places k) :
    Ieee.IsMagnitude (keepNumerals 6 (Ieee.placed places k)) ((k : ℚ) / 10 ^ places) := by
  obtain ⟨part, htext, hpart, number⟩ := fits.exists_layout
  have magnitude := Ieee.IsMagnitude.point number .none
  rw [List.append_nil, hpart, zero_sub, zpow_neg, zpow_natCast, ← div_eq_mul_inv] at magnitude
  rw [htext]
  exact magnitude

theorem toList_numeralText (negative : Bool) (places k : ℕ) :
    (numeralText negative places k).toList =
      (if negative then ['-'] else []) ++ keepNumerals 6 (Ieee.placed places k) := by
  rw [numeralText, String.toList_ofList, keepNumerals_sign]

/-- The text spells the number of units with its sign. -/
theorem Fits.spells (fits : Fits places k) (negative : Bool) :
    Ieee.Spells (numeralText negative places k).toList
      (if negative then -((k : ℚ) / 10 ^ places) else (k : ℚ) / 10 ^ places) := by
  rw [toList_numeralText]
  cases negative with
  | true => exact .minus fits.isMagnitude
  | false => exact .plain fits.isMagnitude

/-- Another number of units has another text. -/
theorem Fits.eq_of_numeralText_eq {k' : ℕ} (fits : Fits places k) (fits' : Fits places k')
    (h : numeralText negative places k = numeralText negative places k') : k = k' := by
  have spelt := fits.spells negative
  rw [h] at spelt
  have hvalue := spelt.unique (fits'.spells negative)
  have hpos : (10 : ℚ) ^ places ≠ 0 := by positivity
  have hquotient : (k : ℚ) / 10 ^ places = (k' : ℚ) / 10 ^ places := by
    cases negative with
    | true => exact neg_injective hvalue
    | false => exact hvalue
  exact_mod_cast (div_left_inj' hpos).1 hquotient

theorem trimmed_numeralText (fits : Fits places k) (negative : Bool) :
    Text.trimmed (numeralText negative places k) = numeralText negative places k := by
  obtain ⟨part, htext, -, number⟩ := fits.exists_layout
  have hblank : ∀ c ∈ (numeralText negative places k).toList, Text.isBlank c = false := by
    have hdigit : ∀ c ∈ decimal (k / 10 ^ places) ++ part, Text.isBlank c = false := fun c hc =>
      Text.isBlank_of_digit (Text.toNat_of_digit? (Text.digit?_eq_some_iff.2
        ⟨number.isDigit c hc, rfl⟩))
    obtain ⟨hfront, hback⟩ := List.forall_mem_append.1 hdigit
    rw [toList_numeralText, htext]
    refine List.forall_mem_append.2 ⟨?_, List.forall_mem_append.2 ⟨hfront, ?_⟩⟩
    · cases negative with
      | true => exact List.forall_mem_singleton.2 (by decide)
      | false => exact List.forall_mem_nil _
    · exact List.forall_mem_cons.2 ⟨by decide, hback⟩
  rw [Text.trimmed, Text.trim_eq_self, String.ofList_toList]
  · intro c hc
    exact hblank c (List.mem_of_mem_head? hc)
  · intro c hc
    exact hblank c (List.mem_of_mem_getLast? hc)

/-! ## Reading -/

/-- A number of millionths has the text of its six leading digits. -/
theorem numeralText_millionths (negative : Bool) (n : ℕ) :
    Fits (6 - (decimal (n / 10 ^ 6)).length) (n / 10 ^ (decimal (n / 10 ^ 6)).length) ∧
    numeralText negative 6 n = numeralText negative (6 - (decimal (n / 10 ^ 6)).length)
      (n / 10 ^ (decimal (n / 10 ^ 6)).length) := by
  obtain ⟨part, hcut, hpart, leading⟩ := exists_cut n
  set d := (decimal (n / 10 ^ 6)).length with hd
  have hfront : (decimal (n / 10 ^ 6)).take 6 = decimal (n / 10 ^ d / 10 ^ (6 - d)) := by
    have hsum : 6 + (d - 6) = d + (6 - d) := by omega
    rw [Text.take_decimal (by decide), ← hd, Nat.div_div_eq_div_mul, Nat.div_div_eq_div_mul,
      ← Nat.pow_add, ← Nat.pow_add, hsum]
  have fits : Fits (6 - d) (n / 10 ^ d) := by
    unfold Fits
    rw [← hfront, List.length_take, ← hd]
    omega
  refine ⟨fits, ?_⟩
  obtain ⟨part', htext, hpart', number⟩ := fits.exists_layout
  rw [hfront] at hcut leading
  have hparts : decimal (n / 10 ^ d / 10 ^ (6 - d)) ++ part =
      decimal (n / 10 ^ d / 10 ^ (6 - d)) ++ part' := by
    apply Text.eq_of_ofDigitChars_eq leading.isDigit number.isDigit
    · rw [List.length_append, List.length_append, hpart, hpart']
    · rw [leading.value_eq, number.value_eq]
  apply String.toList_inj.1
  rw [toList_numeralText, toList_numeralText, hcut, htext, List.append_cancel_left hparts]

theorem Fits.numeralText_millionths (fits : Fits places (n / 10 ^ (6 - places)))
    (negative : Bool) :
    numeralText negative 6 n = numeralText negative places (n / 10 ^ (6 - places)) := by
  have hlt := fits.places_lt
  have hsum : 6 - places + places = 6 := by omega
  have hlength : (decimal (n / 10 ^ 6)).length = 6 - places := by
    unfold Fits at fits
    rw [Nat.div_div_eq_div_mul, ← Nat.pow_add, hsum] at fits
    omega
  have h := (RegisterFormat.numeralText_millionths negative n).2
  rw [hlength] at h
  have hplaces : 6 - (6 - places) = places := by omega
  rw [hplaces] at h
  exact h

theorem decode_real_datum {b₀ b₁ b₂ b₃ : UInt8} {significand : ℕ} {exponent : ℤ}
    (finite : binary32.datum (Bytes.number [b₀, b₁, b₂, b₃]) =
      .finite negative significand exponent) (rest : List UInt8) :
    ∃ n, IsNearest ((significand : ℚ) * 2 ^ exponent * 10 ^ 6) n ∧
      real.decode (b₀ :: b₁ :: b₂ :: b₃ :: rest) = .ok (.real (numeralText negative 6 n)) := by
  obtain ⟨n, nearest, hfixed⟩ := Ieee.Datum.exists_fixed 6 negative significand exponent
  refine ⟨n, nearest, ?_⟩
  show Except.ok (RegisterValue.real (realText (Bytes.number [b₀, b₁, b₂, b₃]))) = _
  rw [realText, finite, hfixed]
  rfl

/-! ## Writing -/

theorem Fits.quotient_lt (fits : Fits places k) : (k : ℚ) / 10 ^ places < 10 ^ (6 - places) := by
  have hlt : k < (k / 10 ^ places + 1) * 10 ^ places :=
    Nat.lt_mul_of_div_lt (Nat.lt_succ_self _) (Nat.pow_pos (by decide))
  have hwhole := fits.whole_lt
  rw [div_lt_iff₀ (by positivity)]
  have hle : k < 10 ^ (6 - places) * 10 ^ places :=
    lt_of_lt_of_le hlt (Nat.mul_le_mul_right _ hwhole)
  exact_mod_cast hle

/-- A text of six numerals is written as the four bytes of the nearest number, with its sign. -/
theorem encode_numeralText (fits : Fits places k) (negative : Bool) (registers : UInt16) :
    ∃ c₀ c₁ c₂ c₃ significand exponent,
      real.encode (numeralText negative places k) registers = .ok [c₀, c₁, c₂, c₃] ∧
      binary32.datum (Bytes.number [c₀, c₁, c₂, c₃]) = .finite negative significand exponent ∧
      binary32.Rounds ((k : ℚ) / 10 ^ places) (significand * 2 ^ exponent) := by
  obtain ⟨d, hread, rfl, magnitude⟩ := fits.isMagnitude.exists_readLiteral negative
  have hgreatest : d.magnitude ≤ binary32.greatest := by
    rw [magnitude]
    calc (k : ℚ) / 10 ^ places ≤ 10 ^ (6 - places) := fits.quotient_lt.le
      _ ≤ 10 ^ 6 := pow_le_pow_right₀ (by norm_num) (Nat.sub_le 6 places)
      _ ≤ (2 ^ 24 - 1) * 2 ^ (104 : ℤ) := by norm_num
      _ = binary32.greatest := rfl
  obtain ⟨significand, exponent, hdatum, rounds⟩ :=
    Ieee.Decimal.exists_datum_bits (f := binary32) (by decide) hgreatest
  have hbytes : Bytes.number (Bytes.little 4 (d.bits binary32)) = d.bits binary32 := by
    rw [Bytes.number_little]
    exact Nat.mod_eq_of_lt (Ieee.Decimal.bits_lt (f := binary32) (by decide) d)
  refine ⟨_, _, _, _, significand, exponent, ?_, (congrArg binary32.datum hbytes).trans hdatum, ?_⟩
  · unfold encode
    simp only [trimmed_numeralText fits, toList_numeralText, Ieee.Format.read, hread]
    rfl
  · rw [← magnitude]
    exact rounds

end PlcGateway.RegisterFormat
