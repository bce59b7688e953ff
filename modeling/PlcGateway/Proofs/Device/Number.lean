import PlcGateway.Device.Code
import PlcGateway.Proofs.Text.Hexadecimal

/-!
# Which numbers a device can have

A device number is decimal if it can be, and else hexadecimal; for `Y` it is always hexadecimal.
`Numbers` says so without reading: a number with nothing but decimal digits is never taken as
hexadecimal outside `Y`. That agrees with what is read (`readNumber_iff`), because decimal digits
that are too great in decimal are too great in hexadecimal as well.
-/

namespace PlcGateway.DeviceCode

open Text (IsDecimal IsHexadecimal dropPlus)

variable {code : DeviceCode} {s : List Char} {n m : ℕ} {offset : UInt32}

/-- What the digits of a device number are in an area. -/
inductive Numbers (code : DeviceCode) (s : List Char) (n : ℕ) : Prop where
  | decimal (other : code ≠ .y) (number : IsDecimal s n)
  | hexadecimal (other : code ≠ .y) (letter : ∃ c ∈ s, c.isDigit = false)
      (number : IsHexadecimal s n)
  | alwaysHexadecimal (same : code = .y) (number : IsHexadecimal s n)

/-- Outside `Y`, decimal digits stand for their decimal value only. -/
theorem Numbers.eq_of_isDecimal (h : code.Numbers s m) (other : code ≠ .y)
    (number : IsDecimal s n) : m = n := by
  cases h with
  | decimal _ number' => rw [← number'.value_eq, ← number.value_eq]
  | hexadecimal _ letter _ =>
    obtain ⟨c, hc, hletter⟩ := letter
    exact absurd (number.isDigit c hc) (by rw [hletter]; exact Bool.false_ne_true)
  | alwaysHexadecimal same _ => exact absurd same other

theorem isHexNumbered_iff : code.isHexNumbered = true ↔ code = .y := beq_iff_eq

/-! ## The order of the two readings -/

theorem toOption_readNat_ten_iff :
    (Text.readNat 10 maxOffset s).toOption = some n ↔ IsDecimal (dropPlus s) n ∧ n ≤ maxOffset := by
  rw [← Text.readNat_ten_iff]
  cases Text.readNat 10 maxOffset s <;> simp [Except.toOption]

theorem toOption_readNat_sixteen_iff : (Text.readNat 16 maxOffset s).toOption = some n ↔
    IsHexadecimal (dropPlus s) n ∧ n ≤ maxOffset := by
  rw [← Text.readNat_sixteen_iff]
  cases Text.readNat 16 maxOffset s <;> simp [Except.toOption]

/-- What cannot be read in decimal is read in hexadecimal only if there is a letter in it: were
there none, the number would be too great in either base. -/
theorem exists_letter (unread : (Text.readNat 10 maxOffset s).toOption = none)
    (number : IsHexadecimal (dropPlus s) n) (fits : n ≤ maxOffset) :
    ∃ c ∈ dropPlus s, c.isDigit = false := by
  by_contra none
  have digits : ∀ c ∈ dropPlus s, c.isDigit = true := by
    intro c hc
    by_contra hletter
    exact none ⟨c, hc, Bool.not_eq_true _ ▸ hletter⟩
  have decimal : IsDecimal (dropPlus s) (Nat.ofDigitChars 10 (dropPlus s) 0) :=
    ⟨number.ne_nil, digits, rfl⟩
  obtain ⟨m, hle, hexadecimal⟩ := decimal.exists_isHexadecimal
  obtain rfl := hexadecimal.unique number
  have read := toOption_readNat_ten_iff.2 ⟨decimal, hle.trans fits⟩
  rw [unread] at read
  cases read

theorem offset?_eq_some_iff :
    code.offset? s = some offset ↔ code.Numbers (dropPlus s) offset.toNat := by
  have hmax : offset.toNat ≤ maxOffset := Nat.le_pred_of_lt offset.toNat_lt
  have word : ∀ {n}, n ≤ maxOffset → UInt32.ofNat n = offset → n = offset.toNat := by
    rintro n hn rfl
    exact (UInt32.toNat_ofNat_of_lt' (Nat.lt_of_le_pred (by decide) hn)).symm
  unfold offset?
  simp only [Option.map_eq_some_iff]
  constructor
  · rintro ⟨n, hread, hoffset⟩
    split at hread
    · next same =>
      obtain ⟨number, hn⟩ := toOption_readNat_sixteen_iff.1 hread
      obtain rfl := word hn hoffset
      exact .alwaysHexadecimal (isHexNumbered_iff.1 same) number
    · next other =>
      rw [isHexNumbered_iff] at other
      rcases Option.or_eq_some_iff.1 hread with hdecimal | ⟨unread, hhexadecimal⟩
      · obtain ⟨number, hn⟩ := toOption_readNat_ten_iff.1 hdecimal
        obtain rfl := word hn hoffset
        exact .decimal other number
      · obtain ⟨number, hn⟩ := toOption_readNat_sixteen_iff.1 hhexadecimal
        obtain rfl := word hn hoffset
        exact .hexadecimal other (exists_letter unread number hn) number
  · intro h
    refine ⟨offset.toNat, ?_, UInt32.ofNat_toNat⟩
    cases h with
    | decimal other number =>
      rw [if_neg (mt isHexNumbered_iff.1 other), toOption_readNat_ten_iff.2 ⟨number, hmax⟩]
      rfl
    | hexadecimal other letter number =>
      have unread : (Text.readNat 10 maxOffset s).toOption = none := by
        rw [Option.eq_none_iff_forall_not_mem]
        intro n hn
        obtain ⟨c, hc, hletter⟩ := letter
        obtain ⟨decimal, -⟩ := toOption_readNat_ten_iff.1 hn
        exact absurd (decimal.isDigit c hc) (by rw [hletter]; exact Bool.false_ne_true)
      rw [if_neg (mt isHexNumbered_iff.1 other), unread, Option.none_or]
      exact toOption_readNat_sixteen_iff.2 ⟨number, hmax⟩
    | alwaysHexadecimal same number =>
      rw [if_pos (isHexNumbered_iff.2 same)]
      exact toOption_readNat_sixteen_iff.2 ⟨number, hmax⟩

theorem offset?_eq_none_iff :
    code.offset? s = none ↔ ∀ n, code.Numbers (dropPlus s) n → 2 ^ 32 ≤ n := by
  rw [Option.eq_none_iff_forall_ne_some]
  constructor
  · intro none n number
    by_contra hlt
    have hn : (UInt32.ofNat n).toNat = n := UInt32.toNat_ofNat_of_lt' (Nat.lt_of_not_le hlt)
    exact none (UInt32.ofNat n) (offset?_eq_some_iff.2 (by rw [hn]; exact number))
  · intro great offset hsome
    exact absurd offset.toNat_lt (Nat.not_lt.2 (great _ (offset?_eq_some_iff.1 hsome)))

/-! ## Device numbers as they are written -/

/-- A device number without the blanks around it and a plus sign in front is read as what its digits
are in the area, if that is below `2 ^ 32`, and refused otherwise. So decimal digits that are too
great are refused outside `Y`, and not read again in hexadecimal. -/
theorem readNumber_iff (code : DeviceCode) (text : String) :
    (∀ offset, code.readNumber text = .ok offset ↔
      code.Numbers (dropPlus (Text.trim text.toList)) offset.toNat) ∧
    (∀ e, code.readNumber text = .error e ↔ e = .invalidNumber code (Text.trimmed text) ∧
      ∀ n, code.Numbers (dropPlus (Text.trim text.toList)) n → 2 ^ 32 ≤ n) ∧
    ∀ n, code ≠ .y → IsDecimal (dropPlus (Text.trim text.toList)) n → 2 ^ 32 ≤ n →
      code.readNumber text = .error (.invalidNumber code (Text.trimmed text)) := by
  have refused : ∀ e, code.readNumber text = .error e ↔
      e = .invalidNumber code (Text.trimmed text) ∧
        ∀ n, code.Numbers (dropPlus (Text.trim text.toList)) n → 2 ^ 32 ≤ n := by
    intro e
    rw [← offset?_eq_none_iff]
    unfold readNumber
    split
    · next offset hsome => simp [hsome]
    · next hnone =>
      rw [Except.error.injEq, and_iff_left hnone]
      exact eq_comm
  refine ⟨?_, refused, ?_⟩
  · intro offset
    rw [← offset?_eq_some_iff]
    unfold readNumber
    split
    · next offset' hsome => rw [hsome, Except.ok.injEq, Option.some.injEq]
    · next hnone => simp [hnone]
  · intro n other number great
    apply (refused _).2
    refine ⟨rfl, fun m numbers => ?_⟩
    rw [numbers.eq_of_isDecimal other number]
    exact great

/-- The least number that is too great is refused, although it has a hexadecimal reading too. -/
theorem readNumber_too_great :
    (d ≠ .y ∧ IsDecimal (dropPlus (Text.trim " +4294967296".toList)) (2 ^ 32)) ∧
    d.readNumber " +4294967296" = .error (.invalidNumber d "+4294967296") := by
  have number : IsDecimal (dropPlus (Text.trim " +4294967296".toList)) (2 ^ 32) :=
    ⟨by decide, List.all_eq_true.1 (by decide), by decide⟩
  have other : d ≠ .y := by decide
  exact ⟨⟨other, number⟩, (readNumber_iff d " +4294967296").2.2 _ other number le_rfl⟩

end PlcGateway.DeviceCode
