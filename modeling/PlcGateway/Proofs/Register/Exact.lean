import PlcGateway.Proofs.Register.Integer

/-!
# Values that survive the way through a text

A word, with or without a sign, and a bit are written as the text of a number, and read back as that
number. `Denotes` says which texts have bytes in these three formats and which value they have;
`Forwards` says with which bytes a value that was read is written again. Encoding a text, reading
the bytes and writing what was read gives the same bytes, and so does reading a payload and writing
what was read (`exact_round_trip`). Of the payload of a bit only the lowest bit is left.
-/

namespace PlcGateway

theorem Text.lowerAscii_eq_toLower (c : Char) : Text.lowerAscii c = c.toLower := by
  unfold lowerAscii Char.toLower
  by_cases h : c.val ≥ 'A'.val ∧ c.val ≤ 'Z'.val
  · rw [if_pos (show 'A' ≤ c ∧ c ≤ 'Z' from h), dif_pos h]
    have high : c.toNat ≤ 90 := UInt32.le_iff_toNat_le.1 h.2
    have valid : (c.toNat + 32).isValidChar := .inl (by omega)
    unfold Char.ofNat
    rw [dif_pos valid]
    apply Char.ext
    apply UInt32.toNat_inj.1
    show c.toNat + 32 = (c.toNat + 32) % 2 ^ 32
    omega
  · rw [if_neg (show ¬ ('A' ≤ c ∧ c ≤ 'Z') from h), dif_neg h]

namespace RegisterFormat

/-- The formats whose values are numbers of one word, or bits. -/
def isExact : RegisterFormat → Bool
  | unsigned => true
  | signed => true
  | bit => true
  | _ => false

/-- The words for a bit that is on and for one that is off, in small letters. -/
def bitWords : Bool → List String
  | true => ["true", "1", "on"]
  | false => ["false", "0", "off"]

/-- The value that a text has in a format: the number that it spells, if that is in the range of the
format, or the bit that it names in letters of either case. A word without a sign may have a plus
but no minus in front. -/
inductive Denotes : RegisterFormat → List Char → RegisterValue → Prop where
  | unsigned {digits : List Char} {n : Nat} (number : Text.IsDecimal digits n)
      (high : n ≤ 65535) : Denotes unsigned digits (.unsigned (UInt16.ofNat n))
  | plus {digits : List Char} {n : Nat} (number : Text.IsDecimal digits n)
      (high : n ≤ 65535) : Denotes unsigned ('+' :: digits) (.unsigned (UInt16.ofNat n))
  | signed {text : List Char} {i : Int} (spelt : Text.Spells text i) (low : -32768 ≤ i)
      (high : i ≤ 32767) : Denotes signed text (.signed (Int16.ofInt i))
  | bit {text : List Char} (on : Bool)
      (word : String.ofList (text.map Char.toLower) ∈ bitWords on) :
      Denotes bit text (.bit (if on then 1 else 0))

/-- A value that was read has one text when it is written, and in the format this text has these
bytes, whatever the number of registers. -/
def Forwards (format : RegisterFormat) (value : RegisterValue) (bytes : List UInt8) : Prop :=
  ∃ text, value.toWrite.strings = [text] ∧ ∀ registers, format.encode text registers = .ok bytes

/-- What a value of a format is read from at the start of a payload: the bytes of its word, or the
lowest bit. -/
def kept : RegisterFormat → List UInt8 → List UInt8
  | bit, payload => (payload.take 1).map (· &&& 1)
  | format, payload => payload.take format.width

variable {format : RegisterFormat} {text : String} {registers : UInt16} {bytes : List UInt8}
  {value : RegisterValue}

/-! ## Words -/

theorem ofWord_ofNat (n : Nat) : Bytes.ofWord (UInt16.ofNat n) = Bytes.little 2 n := by
  obtain ⟨low, high, hbytes, hword⟩ := word_little n
  rw [hbytes, ← hword, Bytes.ofWord_word]

/-- The word of a number with a sign is found again from that number. -/
theorem ofNat_emod_toInt (w : UInt16) : UInt16.ofNat (w.toInt16.toInt % 65536).toNat = w := by
  have hmod : w.toInt16.toInt % 65536 = (w.toNat : Int) := by
    show (BitVec.toInt w.toBitVec) % (65536 : Nat) = _
    rw [BitVec.toInt_eq_toNat_bmod]
    show (w.toNat : Int).bmod 65536 % (65536 : Nat) = _
    rw [Int.bmod_emod]
    exact Int.emod_eq_of_lt (Int.natCast_nonneg _) (Int.ofNat_lt.2 w.toNat_lt)
  rw [hmod, Int.toNat_natCast, UInt16.ofNat_toNat]

theorem decode_ofWord_unsigned (w : UInt16) :
    decode unsigned (Bytes.ofWord w) = .ok (.unsigned w) := by
  obtain ⟨low, high, hbytes, hword⟩ := Bytes.word_ofWord w
  rw [hbytes, ← hword]
  rfl

theorem decode_ofWord_signed (w : UInt16) :
    decode signed (Bytes.ofWord w) = .ok (.signed w.toInt16) := by
  obtain ⟨low, high, hbytes, hword⟩ := Bytes.word_ofWord w
  rw [hbytes, ← hword]
  rfl

theorem forwards_unsigned (w : UInt16) : Forwards unsigned (.unsigned w) (Bytes.ofWord w) := by
  refine ⟨_, RegisterValue.strings_toWrite _, fun registers => ?_⟩
  have hinteger : Text.integer? (Text.decimal w.toNat) = some (w.toNat : Int) :=
    Text.integer?_of_natural? (Text.natural?_decimal _)
  refine encode_unsigned_iff.2 ⟨w.toNat, ?_, rfl⟩
  rw [RegisterValue.display, String.toList_ofList, Text.trim_of_integer? hinteger]
  refine Text.readNat_eq_ok_iff.2 ⟨hinteger, Nat.le_of_lt_succ w.toNat_lt, fun hminus => ?_⟩
  -- the text of a number begins with a digit
  have hdigit := Text.toNat_of_natural? (Text.natural?_decimal w.toNat) '-'
    (List.mem_of_mem_head? hminus)
  exact absurd hdigit.1 (by decide)

theorem forwards_signed (w : UInt16) :
    Forwards signed (.signed w.toInt16) (Bytes.ofWord w) := by
  refine ⟨_, RegisterValue.strings_toWrite _, fun registers => ?_⟩
  have hinteger := Text.integer?_decimalInt w.toInt16.toInt
  refine encode_signed_iff.2 ⟨w.toInt16.toInt, ?_, ?_⟩
  · rw [RegisterValue.display, String.toList_ofList, Text.trim_of_integer? hinteger]
    have hlow := w.toInt16.le_toInt
    have hhigh := w.toInt16.toInt_lt
    exact Text.readInt_eq_ok_iff.2 ⟨hinteger, by omega, by omega⟩
  · rw [← ofWord_ofNat, ofNat_emod_toInt]

/-! ## Bits -/

theorem readBit?_eq_some_iff {text : List Char} {on : Bool} :
    readBit? text = some on ↔ String.ofList (text.map Char.toLower) ∈ bitWords on := by
  have hlower : text.map Text.lowerAscii = text.map Char.toLower :=
    List.map_congr_left fun c _ => Text.lowerAscii_eq_toLower c
  unfold readBit?
  rw [hlower]
  cases on <;> grind [bitWords]

theorem encode_bit_iff : encode bit text registers = .ok bytes ↔
    ∃ on, readBit? (Text.trim text.toList) = some on ∧ bytes = [if on then 1 else 0] := by
  unfold encode Text.trimmed
  simp only [String.toList_ofList]
  cases readBit? (Text.trim text.toList) with
  | none => simp
  | some on => simp [eq_comm]

theorem forwards_bit (on : Bool) :
    Forwards bit (.bit (if on then 1 else 0)) [if on then 1 else 0] := by
  refine ⟨_, RegisterValue.strings_toWrite _, fun registers => encode_bit_iff.2 ⟨on, ?_, rfl⟩⟩
  cases on <;> decide

/-! ## Texts -/

/-- A number with a plus or without a sign is what is read where there is no minus. -/
theorem denotes_unsigned_iff {s : List Char} : Denotes unsigned s value ↔
    ∃ n, Text.readNat 10 65535 s = .ok n ∧ value = .unsigned (UInt16.ofNat n) := by
  simp only [Text.readNat_eq_ok_iff, Text.integer?_eq_some_iff]
  constructor
  · intro h
    cases h with
    | unsigned number high =>
      refine ⟨_, ⟨.digits number, high, fun hminus => ?_⟩, rfl⟩
      exact absurd (number.isDigit '-' (List.mem_of_mem_head? hminus)) (by decide)
    | plus number high => exact ⟨_, ⟨.plus number, high, by simp⟩, rfl⟩
  · rintro ⟨n, ⟨spelt, high, hminus⟩, rfl⟩
    generalize hi : (n : Int) = i at spelt
    cases spelt with
    | digits number =>
      obtain rfl := Int.ofNat_inj.1 hi
      exact .unsigned number high
    | plus number =>
      obtain rfl := Int.ofNat_inj.1 hi
      exact .plus number high
    | minus => exact absurd rfl hminus

theorem denotes_signed_iff {s : List Char} : Denotes signed s value ↔
    ∃ i, Text.readInt 32768 32767 s = .ok i ∧ value = .signed (Int16.ofInt i) := by
  simp only [Text.readInt_eq_ok_iff, Text.integer?_eq_some_iff]
  constructor
  · intro h
    cases h with
    | signed spelt low high => exact ⟨_, ⟨spelt, low, high⟩, rfl⟩
  · rintro ⟨i, ⟨spelt, low, high⟩, rfl⟩
    exact .signed spelt low high

theorem denotes_bit_iff {s : List Char} : Denotes bit s value ↔
    ∃ on, readBit? s = some on ∧ value = .bit (if on then 1 else 0) := by
  simp only [readBit?_eq_some_iff]
  constructor
  · intro h
    cases h with
    | bit on word => exact ⟨on, word, rfl⟩
  · rintro ⟨on, word, rfl⟩
    exact .bit on word

/-- A text that has a value is encoded, the bytes are read as that value, and writing the value
gives them again. -/
theorem Denotes.exists_bytes (denotes : format.Denotes (Text.trim text.toList) value) :
    ∃ bytes, (∀ registers, format.encode text registers = .ok bytes) ∧
      format.decode bytes = .ok value ∧ format.Forwards value bytes := by
  cases format with
  | unsigned =>
    obtain ⟨n, hn, rfl⟩ := denotes_unsigned_iff.1 denotes
    refine ⟨Bytes.ofWord (UInt16.ofNat n), fun registers => ?_, decode_ofWord_unsigned _,
      forwards_unsigned _⟩
    exact encode_unsigned_iff.2 ⟨n, hn, ofWord_ofNat n⟩
  | signed =>
    obtain ⟨i, hi, rfl⟩ := denotes_signed_iff.1 denotes
    obtain ⟨-, low, high⟩ := Text.readInt_eq_ok_iff.1 hi
    have hvalue : (UInt16.ofNat (i % 65536).toNat).toInt16 = Int16.ofInt i := by
      rw [← Int16.ofInt_toInt (UInt16.ofNat _).toInt16, toInt_toInt16 (by omega) (by omega)]
    rw [← hvalue]
    refine ⟨Bytes.ofWord (UInt16.ofNat (i % 65536).toNat), fun registers => ?_,
      decode_ofWord_signed _, forwards_signed _⟩
    exact encode_signed_iff.2 ⟨i, hi, ofWord_ofNat _⟩
  | bit =>
    obtain ⟨on, hon, rfl⟩ := denotes_bit_iff.1 denotes
    refine ⟨_, fun registers => encode_bit_iff.2 ⟨on, hon, rfl⟩, ?_, forwards_bit on⟩
    cases on <;> rfl
  | _ => cases denotes

/-- In the exact formats, only texts that have a value are encoded. -/
theorem exists_denotes (exact : format.isExact = true)
    (encoded : format.encode text registers = .ok bytes) :
    ∃ value, format.Denotes (Text.trim text.toList) value := by
  cases format with
  | unsigned =>
    obtain ⟨n, hn, -⟩ := encode_unsigned_iff.1 encoded
    exact ⟨_, denotes_unsigned_iff.2 ⟨n, hn, rfl⟩⟩
  | signed =>
    obtain ⟨i, hi, -⟩ := encode_signed_iff.1 encoded
    exact ⟨_, denotes_signed_iff.2 ⟨i, hi, rfl⟩⟩
  | bit =>
    obtain ⟨on, hon, -⟩ := encode_bit_iff.1 encoded
    exact ⟨_, denotes_bit_iff.2 ⟨on, hon, rfl⟩⟩
  | _ => exact absurd exact Bool.false_ne_true

/-! ## Payloads -/

theorem and_one_eq (b : UInt8) : ∃ on : Bool, b &&& 1 = if on then 1 else 0 := by
  have hbit : (b &&& 1).toNat = b.toNat % 2 := by
    rw [UInt8.toNat_and]
    exact Nat.and_one_is_mod _
  rcases Nat.mod_two_eq_zero_or_one b.toNat with h | h
  · exact ⟨false, UInt8.toNat_inj.1 (hbit.trans h)⟩
  · exact ⟨true, UInt8.toNat_inj.1 (hbit.trans h)⟩

theorem exists_eq_cons_cons {payload : List UInt8} (long : 2 ≤ payload.length) :
    ∃ low high rest, payload = low :: high :: rest := by
  rcases payload with _ | ⟨low, _ | ⟨high, rest⟩⟩
  · simp at long
  · simp at long
  · exact ⟨low, high, rest, rfl⟩

/-- What is read of a payload is written with the bytes that it was read from. -/
theorem exists_forwards (exact : format.isExact = true) {payload : List UInt8}
    (long : format.width ≤ payload.length) :
    ∃ value, format.decode payload = .ok value ∧ format.Forwards value (format.kept payload) := by
  cases format with
  | unsigned =>
    obtain ⟨low, high, rest, rfl⟩ := exists_eq_cons_cons long
    refine ⟨_, rfl, ?_⟩
    rw [show kept unsigned (low :: high :: rest) = [low, high] from rfl, ← Bytes.ofWord_word]
    exact forwards_unsigned _
  | signed =>
    obtain ⟨low, high, rest, rfl⟩ := exists_eq_cons_cons long
    refine ⟨_, rfl, ?_⟩
    rw [show kept signed (low :: high :: rest) = [low, high] from rfl, ← Bytes.ofWord_word]
    exact forwards_signed _
  | bit =>
    obtain ⟨first, rest, rfl⟩ := List.exists_cons_of_length_pos long
    obtain ⟨on, hon⟩ := and_one_eq first
    refine ⟨_, rfl, ?_⟩
    rw [show kept bit (first :: rest) = [first &&& 1] from rfl, hon]
    exact forwards_bit on
  | _ => exact absurd exact Bool.false_ne_true

/-- In the formats for a word and for a bit: exactly the texts that have a value are encoded; the
bytes of such a text are read as its value, and the value is written with the same bytes again; and
what is read of any payload that is long enough is written with the bytes that it was read from. -/
theorem exact_round_trip (exact : format.isExact = true) :
    (∀ text registers, (∃ bytes, format.encode text registers = .ok bytes) ↔
      ∃ value, format.Denotes (Text.trim text.toList) value) ∧
    (∀ text registers bytes, format.encode text registers = .ok bytes →
      ∀ value, format.Denotes (Text.trim text.toList) value →
        format.decode bytes = .ok value ∧ format.Forwards value bytes) ∧
    ∀ payload, format.width ≤ payload.length →
      ∃ value, format.decode payload = .ok value ∧
        format.Forwards value (format.kept payload) := by
  refine ⟨fun text registers => ⟨?_, ?_⟩, ?_, fun payload long => exists_forwards exact long⟩
  · rintro ⟨bytes, encoded⟩
    exact exists_denotes exact encoded
  · rintro ⟨value, denotes⟩
    obtain ⟨bytes, encoded, -⟩ := denotes.exists_bytes
    exact ⟨bytes, encoded registers⟩
  · intro text registers bytes encoded value denotes
    obtain ⟨bytes', encoded', decoded, forwards⟩ := denotes.exists_bytes
    obtain rfl : bytes' = bytes := Except.ok.inj ((encoded' registers).symm.trans encoded)
    exact ⟨decoded, forwards⟩

/-- Blanks around a number, its sign and leading zeros are gone after the first hop, and the bytes
stay. -/
theorem exact_round_trip_signed :
    encode signed "\t-007 " 1 = .ok [0xF9, 0xFF] ∧
    decode signed [0xF9, 0xFF] = .ok (.signed (-7)) ∧
    Forwards signed (.signed (-7)) [0xF9, 0xFF] := by
  have number : Text.IsDecimal ['0', '0', '7'] 7 :=
    ⟨by decide, List.all_eq_true.1 (by decide), by decide⟩
  have denotes : Denotes signed (Text.trim "\t-007 ".toList) (.signed (-7)) :=
    .signed (.minus number) (by decide) (by decide)
  have encoded : encode signed "\t-007 " 1 = .ok [0xF9, 0xFF] := rfl
  exact ⟨encoded, (exact_round_trip rfl).2.1 _ _ _ encoded _ denotes⟩

end RegisterFormat

end PlcGateway
