import PlcGateway.Proofs.Bytes.LittleEndian
import PlcGateway.Proofs.Ieee.Literal
import PlcGateway.Register.Codec

/-!
# Numbers in tenths

A number is written as a word of tenths, and of a word that is read each byte is divided by ten on
its own. The word is the integer part of ten times the number (`tenthsWord_bounds`): both the number
and the product are rounded, but the roundings never take the product below an integer that it
reaches (`Ieee.le_of_tenfold`), and only from just below an integer do they take it there. So what
comes back is the integer part of the number exactly if the high byte of the word is a multiple of
ten, apart from such a step to the next multiple of ten (`tenths_comes_back`).
-/

namespace PlcGateway

namespace Ieee

/-! ## Two roundings -/

/-- A rounded number times ten, rounded eight times as coarsely, is no less than an integer that the
exact product reaches: what the first rounding loses is less than half a unit of the second. -/
theorem le_of_tenfold {x : ℚ} {a b k m n : ℕ} (ha : 3 ≤ a) (hb : 1 ≤ b)
    (first : IsNearest (x * 2 ^ (a + b)) k) (second : IsNearest ((k : ℚ) * 10 / 2 ^ a) m)
    (h : (n : ℚ) ≤ 10 * x) : n * 2 ^ b ≤ m := by
  have even : n * 2 ^ b % 2 = 0 := by
    obtain ⟨b, rfl⟩ := Nat.exists_eq_add_of_le' hb
    rw [Nat.pow_succ, ← Nat.mul_assoc, Nat.mul_mod_left]
  -- the numbers of units are even, so of the five units that may be lost only four are
  have hlost : n * 2 ^ (a + b) ≤ k * 10 + 4 := by
    have hle : n * 2 ^ (a + b) ≤ k * 10 + 5 := by
      obtain ⟨-, hclose⟩ := abs_le.1 first.close
      have hscaled := mul_le_mul_of_nonneg_right h (by positivity : (0 : ℚ) ≤ 2 ^ (a + b))
      have hcast : ((n * 2 ^ (a + b) : ℕ) : ℚ) ≤ ((k * 10 + 5 : ℕ) : ℚ) := by
        push_cast
        linarith
      exact_mod_cast hcast
    have hunits : n * 2 ^ (a + b) % 2 = 0 := by
      rw [Nat.add_comm, Nat.pow_add, ← Nat.mul_assoc, Nat.mul_mod, even, Nat.zero_mul, Nat.zero_mod]
    omega
  apply second.even_le even
  rw [le_div_iff₀ (by positivity)]
  have height : (8 : ℚ) ≤ 2 ^ a := by
    calc (8 : ℚ) = 2 ^ 3 := by norm_num
      _ ≤ 2 ^ a := pow_le_pow_right₀ (by norm_num) ha
  have hlost' : (n : ℚ) * 2 ^ (a + b) ≤ k * 10 + 4 := by exact_mod_cast hlost
  push_cast
  calc ((n : ℚ) * 2 ^ b - 1 / 2) * 2 ^ a = n * 2 ^ (a + b) - 2 ^ a / 2 := by
        rw [pow_add]
        ring
    _ ≤ k * 10 := by linarith

/-- Ten times a rounded number is on a grid eight times as coarse at least. -/
theorem Format.unit_tenfold {f : Format} {x y : ℚ} (wide : 2 ≤ f.fractionBits)
    (normal : 2 ^ f.fractionBits * 2 ^ f.unit x ≤ x) (hy : f.Rounds x y) :
    f.unit x + 3 ≤ f.unit (y * 10) := by
  have hpos := two_zpow_pos (f.unit x)
  have hfraction : (4 : ℚ) ≤ 2 ^ f.fractionBits := by
    calc (4 : ℚ) = 2 ^ 2 := by norm_num
      _ ≤ 2 ^ f.fractionBits := pow_le_pow_right₀ (by norm_num) wide
  have hlarge : (2 : ℚ) ^ (f.fractionBits + f.unit x + 3) ≤ y * 10 := by
    obtain ⟨-, hclose⟩ := abs_le.1 hy.abs_sub_le
    rw [zpow_add₀ (by norm_num), zpow_add₀ (by norm_num), zpow_natCast]
    norm_num
    nlinarith
  have hy10 : 0 < y * 10 := lt_of_lt_of_le (two_zpow_pos _) hlarge
  have hlog := (Int.zpow_le_iff_le_log (b := 2) (by norm_num) hy10).1 (by exact_mod_cast hlarge)
  exact le_trans (by omega) (le_max_left _ _)

section Tenfold

variable {x y z : ℚ}

theorem le_binary64_greatest : (2 : ℚ) ^ (17 : ℤ) ≤ binary64.greatest := by
  show (2 : ℚ) ^ (17 : ℤ) ≤ (2 ^ 53 - 1) * 2 ^ (971 : ℤ)
  have hone : (1 : ℚ) ≤ 2 ^ (971 : ℤ) := one_le_zpow₀ (by norm_num) (by norm_num)
  exact le_trans (by norm_num) (le_mul_of_one_le_right (by norm_num) hone)

theorem normal_of_tenth_le (low : 1 / 10 ≤ x) :
    (2 : ℚ) ^ binary64.fractionBits * 2 ^ binary64.unit x ≤ x := by
  have hpos : 0 < x := lt_of_lt_of_le (by norm_num) low
  rcases binary64.unit_eq_or_le hpos with hleast | hnormal
  · have hlog : -4 ≤ Int.log 2 x := by
      apply (Int.zpow_le_iff_le_log (b := 2) (by norm_num) hpos).1
      exact le_trans (by norm_num) low
    have hunit : Int.log 2 x - 52 ≤ -1074 := le_trans (le_max_left _ _) hleast.le
    omega
  · exact hnormal

theorem abs_sub_le_of_lt (high : 10 * x < 65536) (hy : binary64.Rounds x y) :
    |x - y| ≤ 1 / 2 ^ 41 := by
  have hx : x < 2 ^ (13 : ℤ) := by
    norm_num
    linarith
  exact hy.abs_sub_le_of_unit_le (k := 40) (binary64.unit_le_of_lt (by decide) hx (by decide))

theorem tenfold_lt (high : 10 * x < 65536) (hy : binary64.Rounds x y) :
    y * 10 < 2 ^ (17 : ℤ) := by
  obtain ⟨hbelow, -⟩ := abs_le.1 (abs_sub_le_of_lt high hy)
  norm_num at hbelow ⊢
  linarith

/-- In double precision, the product of a number and ten keeps the integer part of the exact one, or
it is an integer from just below. -/
theorem tenfold_bounds (high : 10 * x < 65536) (hy : binary64.Rounds x y)
    (hz : binary64.Rounds (y * 10) z) :
    (∀ n : ℕ, (n : ℚ) ≤ 10 * x → (n : ℚ) ≤ z) ∧ z < 10 * x + 1 / 2 ^ 36 := by
  have hunit : binary64.unit (y * 10) ≤ -36 :=
    binary64.unit_le_of_lt (by decide) (tenfold_lt high hy) (by decide)
  constructor
  · intro n hn
    rcases Nat.eq_zero_or_pos n with rfl | hpos
    · exact_mod_cast hz.nonneg
    · have hone : (1 : ℚ) ≤ n := by exact_mod_cast hpos
      have hcoarse := Format.unit_tenfold (by decide) (normal_of_tenth_le (by linarith)) hy
      obtain ⟨k, rfl, first⟩ := hy
      obtain ⟨m, rfl, second⟩ := hz
      generalize binary64.unit (k * 2 ^ binary64.unit x * 10) = v at hunit hcoarse second ⊢
      generalize binary64.unit x = u at hcoarse first second
      -- both units are negative powers of two
      obtain ⟨b, hb⟩ := Int.eq_ofNat_of_zero_le (a := -v) (by omega)
      obtain ⟨a, ha⟩ := Int.eq_ofNat_of_zero_le (a := v - u) (by omega)
      obtain rfl : v = -(b : ℤ) := by omega
      obtain rfl : u = -((a + b : ℕ) : ℤ) := by omega
      rw [zpow_neg, zpow_natCast] at first second ⊢
      rw [zpow_neg, zpow_natCast] at second
      rw [div_inv_eq_mul] at first
      have hsecond : (k : ℚ) * (2 ^ (a + b))⁻¹ * 10 / (2 ^ b)⁻¹ = k * 10 / 2 ^ a := by
        rw [pow_add]
        field_simp
      rw [hsecond] at second
      have hle := le_of_tenfold (by omega) (by omega) first second hn
      rw [← div_eq_mul_inv, le_div_iff₀ (by positivity)]
      exact_mod_cast hle
  · obtain ⟨hybelow, -⟩ := abs_le.1 (abs_sub_le_of_lt high hy)
    obtain ⟨hzbelow, -⟩ := abs_le.1 (hz.abs_sub_le_of_unit_le (k := 36) hunit)
    norm_num at hybelow hzbelow ⊢
    linarith

end Tenfold

end Ieee

namespace RegisterFormat

open Ieee (Decimal binary64)

/-! ## The word -/

/-- The word of a number is the integer part of ten times the number, or the integer that it is just
below. -/
theorem tenthsWord_bounds {d : Decimal} (low : 0 ≤ d.value) (high : 10 * d.value < 65536) :
    ⌊10 * d.value⌋₊ ≤ tenthsWord (d.bits binary64) ∧
      (tenthsWord (d.bits binary64) : ℚ) < 10 * d.value + 1 / 2 ^ 36 := by
  obtain ⟨hvalue, hnegative⟩ := Decimal.value_of_nonneg low
  rw [hvalue] at low high ⊢
  have hfits : d.magnitude ≤ binary64.greatest := by
    apply le_trans _ Ieee.le_binary64_greatest
    norm_num
    linarith
  obtain ⟨s, e, hdatum, hy⟩ := d.exists_datum_bits (f := binary64) (by decide) hfits
  obtain ⟨s', e', htimes, hz⟩ := binary64.exists_times (by decide) (n := 10)
    (le_trans (Ieee.tenfold_lt high hy).le Ieee.le_binary64_greatest) d.negative
  have hword : tenthsWord (d.bits binary64) =
      Ieee.Datum.clamp 65535 (.finite d.negative s' e') := by
    unfold tenthsWord
    rw [hdatum, htimes]
  rw [hword]
  cases hsign : d.negative with
  | true =>
    rw [hnegative hsign, mul_zero, Nat.floor_zero]
    exact ⟨Nat.zero_le _, by norm_num [Ieee.Datum.clamp]⟩
  | false =>
    obtain ⟨reached, above⟩ := Ieee.tenfold_bounds high hy hz
    rw [Ieee.Datum.clamp_finite]
    have hfloor : (⌊10 * d.magnitude⌋₊ : ℚ) ≤ 10 * d.magnitude := Nat.floor_le (by linarith)
    constructor
    · apply le_min
      · apply Nat.le_of_lt_succ
        rw [Nat.floor_lt (by linarith)]
        exact_mod_cast high
      · exact Nat.le_floor (reached _ hfloor)
    · calc ((min 65535 ⌊(s' : ℚ) * 2 ^ e'⌋₊ : ℕ) : ℚ) ≤ (⌊(s' : ℚ) * 2 ^ e'⌋₊ : ℚ) := by
            exact_mod_cast Nat.min_le_right _ _
        _ ≤ s' * 2 ^ e' := Nat.floor_le hz.nonneg
        _ < 10 * d.magnitude + 1 / 2 ^ 36 := above

/-! ## The way there and back -/

variable {text : String} {registers : UInt16} {x : ℚ}

theorem encode_tenths {d : Decimal}
    (h : Ieee.readLiteral (Text.trim text.toList) = .ok (.finite d)) :
    tenths.encode text registers = .ok (Bytes.little 2 (tenthsWord (d.bits binary64))) := by
  have hread : binary64.read (Text.trim text.toList) = .ok (d.bits binary64) := by
    unfold Ieee.Format.read
    rw [h]
    rfl
  unfold encode Text.trimmed
  simp only [String.toList_ofList, hread]

/-- What is read where a word was written: each of its bytes divided by ten. -/
def bytewiseTenth (w : UInt16) : UInt16 :=
  UInt16.ofNat (w.toNat % 256 / 10 + 256 * (w.toNat / 256 / 10))

theorem decode_tenths (w : UInt16) :
    tenths.decode (Bytes.ofWord w) = .ok (.unsigned (bytewiseTenth w)) := by
  have hbyte : ∀ n < 256, (UInt8.ofNat n / 10).toNat = n / 10 := by
    intro n hn
    show (UInt8.ofNat n).toNat / 10 = n / 10
    rw [UInt8.toNat_ofNat_of_lt' hn]
  have hword : w.toNat / 256 < 256 := Nat.div_lt_of_lt_mul w.toNat_lt
  show Except.ok (RegisterValue.unsigned (UInt16.ofNat (Bytes.number
    [UInt8.ofNat (w.toNat % 256) / 10, UInt8.ofNat (w.toNat / 256 % 256) / 10]))) = _
  rw [Nat.mod_eq_of_lt hword, Bytes.number, Bytes.number, Bytes.number,
    hbyte _ (Nat.mod_lt _ (by decide)), hbyte _ hword]
  rfl

/-- Dividing each byte by ten divides the word by ten exactly if nothing is carried from the high
byte to the low one. The word may be one more than `n`. -/
theorem bytewiseTenth_eq_iff {w : UInt16} {n : ℕ} (above : n ≤ w.toNat) (below : w.toNat ≤ n + 1) :
    bytewiseTenth w = UInt16.ofNat (n / 10) ↔ 10 ∣ w.toNat / 256 ∧ w.toNat / 10 = n / 10 := by
  have hw := w.toNat_lt
  unfold bytewiseTenth
  rw [← UInt16.toNat_inj, UInt16.toNat_ofNat_of_lt' (by show _ < 65536; omega),
    UInt16.toNat_ofNat_of_lt' (by show _ < 65536; omega)]
  omega

/-- Every text that spells a number within the range is encoded as the word of its tenths: the
integer part of ten times the number, or the integer that the product is less than `2 ^ -36` below.
This word is read with each byte divided by ten, which is the integer part of the number exactly if
the high byte is a multiple of ten and the word has the tens of the exact product. -/
theorem tenths_comes_back (registers : UInt16)
    (spelt : Ieee.Spells (Text.trim text.toList) x) (low : 0 ≤ x) (high : 10 * x < 65536) :
    ∃ w : UInt16, tenths.encode text registers = .ok (Bytes.ofWord w) ∧
      ⌊10 * x⌋₊ ≤ w.toNat ∧ (w.toNat : ℚ) < 10 * x + 1 / 2 ^ 36 ∧
      tenths.decode (Bytes.ofWord w) = .ok (.unsigned (bytewiseTenth w)) ∧
      (tenths.decode (Bytes.ofWord w) = .ok (.unsigned (UInt16.ofNat ⌊x⌋₊)) ↔
        10 ∣ w.toNat / 256 ∧ w.toNat / 10 = ⌊x⌋₊) := by
  obtain ⟨d, hread, rfl⟩ := Ieee.exists_readLiteral_iff.2 spelt
  obtain ⟨above, below⟩ := tenthsWord_bounds low high
  have hfits : tenthsWord (d.bits binary64) < 65536 :=
    Nat.lt_succ_of_le (Ieee.Datum.clamp_le 65535 _)
  have hword : (UInt16.ofNat (tenthsWord (d.bits binary64))).toNat = tenthsWord (d.bits binary64) :=
    UInt16.toNat_ofNat_of_lt' hfits
  refine ⟨UInt16.ofNat (tenthsWord (d.bits binary64)), ?_, ?_, ?_, decode_tenths _, ?_⟩
  · rw [Bytes.ofWord, hword]
    exact encode_tenths hread
  · rw [hword]
    exact above
  · rw [hword]
    exact below
  · have hfloor : ⌊d.value⌋₊ = ⌊10 * d.value⌋₊ / 10 := by
      have h := Nat.floor_div_natCast (10 * d.value) 10
      rw [Nat.cast_ofNat, mul_div_cancel_left₀ _ (by norm_num)] at h
      exact h
    have hnext : tenthsWord (d.bits binary64) ≤ ⌊10 * d.value⌋₊ + 1 := by
      apply Nat.le_of_lt_succ
      have hlt := Nat.lt_floor_add_one (10 * d.value)
      have hcast : (tenthsWord (d.bits binary64) : ℚ) < ((⌊10 * d.value⌋₊ + 2 : ℕ) : ℚ) := by
        push_cast
        norm_num at below
        linarith
      exact_mod_cast hcast
    rw [decode_tenths, Except.ok.injEq, RegisterValue.unsigned.injEq, hfloor]
    apply bytewiseTenth_eq_iff
    · rw [hword]
      exact above
    · rw [hword]
      exact hnext

/-- The high byte of the word for `2560.5` is a hundred. -/
theorem tenths_comes_back_hundred :
    Ieee.Spells (Text.trim "2560.5".toList) (5121 / 2) ∧ (0 : ℚ) ≤ 5121 / 2 ∧
    (10 * (5121 / 2) : ℚ) < 65536 ∧ tenths.encode "2560.5" 1 = .ok [5, 100] ∧
    tenths.decode [5, 100] = .ok (.unsigned (UInt16.ofNat ⌊(5121 / 2 : ℚ)⌋₊)) := by
  have number : Text.IsDecimal (['2', '5', '6', '0'] ++ ['5']) 25605 :=
    ⟨by decide, List.all_eq_true.1 (by decide), by decide⟩
  have spelt : Ieee.Spells (Text.trim "2560.5".toList) (5121 / 2) := by
    have h := Ieee.Spells.plain (.point number .none)
    norm_num at h
    exact h
  have hlow : (0 : ℚ) ≤ 5121 / 2 := by norm_num
  have hhigh : (10 * (5121 / 2) : ℚ) < 65536 := by norm_num
  have hfloor : ⌊(5121 / 2 : ℚ)⌋₊ = 2560 := (Nat.floor_eq_iff hlow).2 (by norm_num)
  have encoded : tenths.encode "2560.5" 1 = .ok [5, 100] := rfl
  obtain ⟨w, encoded', -, -, -, whole⟩ := tenths_comes_back 1 spelt hlow hhigh
  have hbytes : Bytes.ofWord w = [5, 100] := Except.ok.inj (encoded'.symm.trans encoded)
  obtain ⟨low, high, hparts, rfl⟩ := Bytes.word_ofWord w
  rw [hparts] at hbytes
  obtain ⟨rfl, rfl⟩ : low = 5 ∧ high = 100 := by simpa using hbytes
  rw [hparts] at whole
  refine ⟨spelt, hlow, hhigh, encoded, whole.2 ?_⟩
  rw [hfloor]
  decide

/-- The tenths of `26` go into the high byte, and nothing of them is read. -/
theorem tenths_carried_lost :
    ¬ ∀ (text : String) (registers : UInt16) (x : ℚ), Ieee.Spells (Text.trim text.toList) x →
      0 ≤ x → 10 * x < 65536 → ∃ bytes, tenths.encode text registers = .ok bytes ∧
        tenths.decode bytes = .ok (.unsigned (UInt16.ofNat ⌊x⌋₊)) := by
  intro h
  have number : Text.IsDecimal ['2', '6'] 26 :=
    ⟨by decide, List.all_eq_true.1 (by decide), by decide⟩
  have spelt : Ieee.Spells (Text.trim "26".toList) 26 := by
    have h := Ieee.Spells.plain (.whole number .none)
    norm_num at h
    exact h
  obtain ⟨bytes, encoded, decoded⟩ := h "26" 1 26 spelt (by norm_num) (by norm_num)
  have encoded' : tenths.encode "26" 1 = .ok [4, 1] := rfl
  obtain rfl := Except.ok.inj (encoded'.symm.trans encoded)
  have hfloor : ⌊(26 : ℚ)⌋₊ = 26 := Nat.floor_ofNat 26
  rw [hfloor] at decoded
  exact absurd decoded (by decide)

end RegisterFormat

end PlcGateway
