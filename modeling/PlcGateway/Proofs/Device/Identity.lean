import PlcGateway.Proofs.Device.List
import PlcGateway.Proofs.Device.Number

/-!
# What an address stands for

An address is the mnemonic of an area with a number right behind it. Numbers may begin with letters,
and some mnemonics begin with others: `D` with `DX` and `DY` behind it. But a mnemonic that goes on
does so with a letter that no number has (`DeviceCode.mnemonic_append_inj`). So an address stands
for one area, one number and one offset, whatever texts the device was made from
(`Device.address_unique`).
-/

namespace PlcGateway

/-! ## The characters of numbers -/

/-- The characters that numbers are written in. -/
def DeviceCode.IsNumberChar (c : Char) : Prop := Text.IsHexDigit c ∨ c = '+'

namespace DeviceCode

variable {code other : DeviceCode} {number number' : List Char} {offset : UInt32}

theorem Numbers.isHexDigit {n : ℕ} (numbers : code.Numbers number n) :
    ∀ c ∈ number, Text.IsHexDigit c := by
  cases numbers with
  | decimal _ decimal => exact fun c hc => .inl (decimal.isDigit c hc)
  | hexadecimal _ _ hexadecimal => exact hexadecimal.isHexDigit
  | alwaysHexadecimal _ hexadecimal => exact hexadecimal.isHexDigit

/-- In whatever area, a number has digits up to `F` and a plus sign at most. -/
theorem isNumberChar_of_offset? (h : code.offset? number = some offset) :
    ∀ c ∈ number, IsNumberChar c := by
  have hdigits := (offset?_eq_some_iff.1 h).isHexDigit
  fun_cases Text.dropPlus number with
  | case1 rest =>
    exact List.forall_mem_cons.2 ⟨.inr rfl, fun c hc => .inl (hdigits c hc)⟩
  | case2 number hplus =>
    rw [Text.dropPlus] at hdigits
    · exact fun c hc => .inl (hdigits c hc)
    · exact hplus

/-! ## Mnemonics and what follows them -/

/-- A mnemonic that goes on as another one goes on with an `X` or a `Y`. -/
theorem letter_of_mnemonic_eq_append {letter : Char} {rest : List Char}
    (longer : other.mnemonic.toList = code.mnemonic.toList ++ letter :: rest) :
    letter = 'X' ∨ letter = 'Y' := by
  have hall : all.all (fun code => all.all fun other =>
      !code.mnemonic.toList.isPrefixOf other.mnemonic.toList ||
        (other.mnemonic.toList.drop code.mnemonic.toList.length).all
          fun letter => letter == 'X' || letter == 'Y') = true := by
    decide +kernel
  have hpair := List.all_eq_true.1 (List.all_eq_true.1 hall code (mem_all code)) other
    (mem_all other)
  have hfront : code.mnemonic.toList.isPrefixOf other.mnemonic.toList = true := by
    rw [longer, List.isPrefixOf_iff_prefix]
    exact List.prefix_append _ _
  rw [hfront, longer, List.drop_left] at hpair
  simpa using (Bool.and_eq_true_iff.1 hpair).1

theorem not_isNumberChar_of_mnemonic_eq_append {letter : Char} {rest : List Char}
    (longer : other.mnemonic.toList = code.mnemonic.toList ++ letter :: rest) :
    ¬ IsNumberChar letter := by
  unfold IsNumberChar Text.IsHexDigit
  rcases letter_of_mnemonic_eq_append longer with rfl | rfl <;> decide

theorem eq_of_mnemonic_eq (h : code.mnemonic.toList = other.mnemonic.toList) : code = other := by
  have hparse : ∀ c : DeviceCode, parse? c.mnemonic = some c := by
    intro c
    cases c <;> decide
  have hsame : code.mnemonic = other.mnemonic := String.toList_inj.1 h
  exact Option.some.inj (by rw [← hparse code, ← hparse other, hsame])

/-- A mnemonic does not go on as another one with characters that a number may have. -/
theorem eq_of_mnemonic_eq_append {rest : List Char}
    (longer : other.mnemonic.toList = code.mnemonic.toList ++ rest)
    (digits : ∀ c ∈ rest, IsNumberChar c) : code = other ∧ rest = [] := by
  cases rest with
  | nil =>
    rw [List.append_nil] at longer
    exact ⟨(eq_of_mnemonic_eq longer).symm, rfl⟩
  | cons letter rest =>
    exact absurd (digits letter List.mem_cons_self) (not_isNumberChar_of_mnemonic_eq_append longer)

/-- No mnemonic with a number behind it can be divided in a second way. -/
theorem mnemonic_append_inj (digits : ∀ c ∈ number, IsNumberChar c)
    (digits' : ∀ c ∈ number', IsNumberChar c)
    (h : code.mnemonic.toList ++ number = other.mnemonic.toList ++ number') :
    code = other ∧ number = number' := by
  -- where one of the mnemonics is longer, it goes on with the beginning of the other number
  rcases List.append_eq_append_iff.1 h with ⟨rest, longer, rfl⟩ | ⟨rest, longer, rfl⟩
  · obtain ⟨rfl, rfl⟩ := eq_of_mnemonic_eq_append longer
      fun c hc => digits c (List.mem_append_left _ hc)
    exact ⟨rfl, rfl⟩
  · obtain ⟨rfl, rfl⟩ := eq_of_mnemonic_eq_append longer
      fun c hc => digits' c (List.mem_append_left _ hc)
    exact ⟨rfl, rfl⟩

end DeviceCode

/-! ## Addresses -/

namespace Device

variable {device other : Device} {code code' number number' : String}
  {format format' : RegisterFormat} {registers registers' : UInt16}

theorem address_eq_iff :
    device.address = other.address ↔ device.code = other.code ∧ device.number = other.number := by
  constructor
  · intro h
    have hlist := congrArg String.toList h
    rw [address, address, String.toList_append, String.toList_append] at hlist
    obtain ⟨hcode, hnumber⟩ := DeviceCode.mnemonic_append_inj
      (DeviceCode.isNumberChar_of_offset? device.number_offset)
      (DeviceCode.isNumberChar_of_offset? other.number_offset) hlist
    exact ⟨hcode, String.toList_inj.1 hnumber⟩
  · rintro ⟨hcode, hnumber⟩
    rw [address, address, hcode, hnumber]

/-- The offset follows from the area and the number. -/
theorem offset_eq_of_address_eq (h : device.address = other.address) :
    device.offset = other.offset := by
  obtain ⟨hcode, hnumber⟩ := address_eq_iff.1 h
  have hoffset := device.number_offset
  rw [hcode, hnumber, other.number_offset] at hoffset
  exact (Option.some.inj hoffset).symm

/-- Two devices have one address just if their codes name one area and their numbers are the same
but for blanks around them, and then they have one offset as well. So a text is the address of
devices at one place only. -/
theorem address_unique (made : make code number format registers = .ok device)
    (made' : make code' number' format' registers' = .ok other) :
    (device.address = other.address → device.code = other.code ∧
      Text.trimmed number = Text.trimmed number' ∧ device.offset = other.offset) ∧
    (device.address = other.address ↔ DeviceCode.parse? code = DeviceCode.parse? code' ∧
      Text.trimmed number = Text.trimmed number') := by
  obtain ⟨hcode, hnumber, -, -⟩ := make_eq_ok_iff.1 made
  obtain ⟨hcode', hnumber', -, -⟩ := make_eq_ok_iff.1 made'
  rw [hcode, hcode', hnumber, hnumber', Option.some.injEq]
  refine ⟨fun h => ?_, address_eq_iff⟩
  obtain ⟨harea, hsame⟩ := address_eq_iff.1 h
  exact ⟨harea, hsame, offset_eq_of_address_eq h⟩

/-- The case of an area makes no difference, nor do blanks around it and around the number. -/
theorem address_unique_lower_case :
    make " d" "1F " .unsigned 1 = .ok ⟨.d, "1F", 31, .unsigned, 1, rfl, rfl, by decide⟩ ∧
    make "D" " 1F" .bit 0 = .ok ⟨.d, "1F", 31, .bit, 1, rfl, rfl, by decide⟩ ∧
    DeviceCode.parse? " d" = DeviceCode.parse? "D" ∧
    Text.trimmed "1F " = Text.trimmed " 1F" := by
  have made : make " d" "1F " .unsigned 1 =
      .ok ⟨.d, "1F", 31, .unsigned, 1, rfl, rfl, by decide⟩ := by decide +kernel
  have made' : make "D" " 1F" .bit 0 = .ok ⟨.d, "1F", 31, .bit, 1, rfl, rfl, by decide⟩ := by
    decide +kernel
  exact ⟨made, made', (address_unique made made').2.1 rfl⟩

end Device

end PlcGateway
