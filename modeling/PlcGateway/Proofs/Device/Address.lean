import PlcGateway.Device.Basic

/-!
# The characters of an address

The number of a device is kept as it was written, but it has been read as a numeral. So an address
holds letters, digits and plus signs only, whatever text the device was made from
(`Device.isAlphanum_of_mem_address`).
-/

namespace PlcGateway

/-! ## Numerals -/

namespace Text

variable {radix limit acc n : Nat} {past : NumeralError} {s : List Char}

/-- Digits are letters and decimal digits of ASCII, whatever the radix. -/
theorem isAlphanum_of_digit? {d : Nat} {c : Char} (h : digit? radix c = some d) :
    c.isAlphanum = true := by
  obtain ⟨hvalue, -⟩ := Option.filter_eq_some_iff.1 h
  split at hvalue
  · next hdigit =>
    have hc : c.isDigit = true :=
      Bool.and_eq_true_iff.2 ⟨decide_eq_true hdigit.1, decide_eq_true hdigit.2⟩
    exact Bool.or_eq_true_iff.2 (Or.inr hc)
  · split at hvalue
    · next hsmall =>
      have hc : c.isLower = true :=
        Bool.and_eq_true_iff.2 ⟨decide_eq_true hsmall.1, decide_eq_true hsmall.2⟩
      exact Bool.or_eq_true_iff.2 (Or.inl (Bool.or_eq_true_iff.2 (Or.inr hc)))
    · split at hvalue
      · next hcapital =>
        have hc : c.isUpper = true := decide_eq_true hcapital
        exact Bool.or_eq_true_iff.2 (Or.inl (Bool.or_eq_true_iff.2 (Or.inl hc)))
      · cases hvalue

theorem isAlphanum_of_readDigits (h : readDigits radix limit past acc s = .ok n) :
    ∀ c ∈ s, c.isAlphanum = true := by
  fun_induction readDigits radix limit past acc s with
  | case1 acc => exact List.forall_mem_nil _
  | case2 => cases h
  | case3 acc c rest d hd hle ih => exact List.forall_mem_cons.2 ⟨isAlphanum_of_digit? hd, ih h⟩
  | case4 => cases h

theorem isAlphanum_of_readUnsigned (h : readUnsigned radix limit past s = .ok n) :
    ∀ c ∈ s, c.isAlphanum = true := by
  unfold readUnsigned at h
  split at h
  · cases h
  · exact isAlphanum_of_readDigits h

/-- What is read as a natural number has no characters but letters, digits and plus signs. -/
theorem isAlphanum_of_readNat (h : readNat radix limit s = .ok n) :
    ∀ c ∈ s, c.isAlphanum = true ∨ c = '+' := by
  fun_cases readNat radix limit s with
  | case1 => cases h
  | case2 rest =>
    have hrest : readUnsigned radix limit .tooLarge rest = .ok n := h
    refine List.forall_mem_cons.2 ⟨Or.inr rfl, fun c hc => Or.inl ?_⟩
    exact isAlphanum_of_readUnsigned hrest c hc
  | case3 s hnil hplus =>
    have hread : readUnsigned radix limit .tooLarge s = .ok n := by
      rw [← h, readNat]
      · exact hnil
      · exact hplus
    exact fun c hc => Or.inl (isAlphanum_of_readUnsigned hread c hc)

end Text

/-! ## Addresses -/

/-- A text with an offset is read as a natural number, in decimal or in hexadecimal. -/
theorem DeviceCode.exists_readNat_of_offset? {code : DeviceCode} {number : List Char}
    {offset : UInt32} (h : code.offset? number = some offset) :
    ∃ radix n, Text.readNat radix maxOffset number = .ok n := by
  have ok : ∀ radix n, (Text.readNat radix maxOffset number).toOption = some n →
      ∃ radix n, Text.readNat radix maxOffset number = .ok n := by
    intro radix n hread
    cases hresult : Text.readNat radix maxOffset number with
    | error e =>
      rw [hresult] at hread
      cases hread
    | ok m => exact ⟨radix, m, hresult⟩
  obtain ⟨n, hread, -⟩ := Option.map_eq_some_iff.1 h
  split at hread
  · exact ok 16 n hread
  · rcases Option.or_eq_some_iff.1 hread with hdecimal | ⟨-, hhex⟩
    · exact ok 10 n hdecimal
    · exact ok 16 n hhex

theorem DeviceCode.isAlphanum_of_mem_mnemonic (code : DeviceCode) :
    ∀ c ∈ code.mnemonic.toList, c.isAlphanum = true := by
  have hall : code.mnemonic.toList.all Char.isAlphanum = true := by
    cases code <;> decide
  exact List.all_eq_true.1 hall

namespace Device

/-- An address is written in letters, digits and plus signs. -/
theorem isAlphanum_of_mem_address (device : Device) :
    ∀ c ∈ device.address.toList, c.isAlphanum = true ∨ c = '+' := by
  obtain ⟨radix, n, hread⟩ := DeviceCode.exists_readNat_of_offset? device.number_offset
  rw [address, String.toList_append, List.forall_mem_append]
  exact ⟨fun c hc => Or.inl (device.code.isAlphanum_of_mem_mnemonic c hc),
    Text.isAlphanum_of_readNat hread⟩

theorem address_ne_nil (device : Device) : device.address.toList ≠ [] := by
  have hmnemonic : device.code.mnemonic.toList ≠ [] := by
    cases device.code <;> decide
  rw [address, String.toList_append]
  exact List.append_ne_nil_of_left_ne_nil hmnemonic _

theorem slash_not_mem_address (device : Device) : '/' ∉ device.address.toList := by
  intro hmem
  exact absurd (device.isAlphanum_of_mem_address '/' hmem) (by decide)

end Device

end PlcGateway
