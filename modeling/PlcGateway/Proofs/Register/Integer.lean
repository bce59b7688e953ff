import PlcGateway.Proofs.Bytes.LittleEndian
import PlcGateway.Proofs.Text.Numeral
import PlcGateway.Register.Codec
import PlcGateway.WriteBack.Engine

/-!
# Integers on their way to a register

The engine asks whether a value stands for an integer other than zero by reading its text as an
integer of 64 bits. The codec reads the same text again, without the blanks around it and as an
integer of 16 bits. Both find the integer that the text stands for (`Text.integer?`), so a value
that passes the gate of the engine is written as that integer or refused (`integers_kept`).

Zero makes a difference: `-0` stands for zero, and is refused where a word without a sign is wanted.
-/

namespace PlcGateway

namespace RegisterFormat

variable {text : String} {registers : UInt16} {bytes : List UInt8} {n : Int}

/-- In a format, a text has bytes exactly if the integer is in the range of the format, and these
bytes are read as that integer. -/
structure EncodesExactly (format : RegisterFormat) (low high : Int) (text : String) (n : Int) :
    Prop where
  succeeds_iff : ∀ registers, (∃ bytes, format.encode text registers = .ok bytes) ↔
    low ≤ n ∧ n ≤ high
  reads_back : ∀ registers bytes, format.encode text registers = .ok bytes →
    ∃ value, format.decode bytes = .ok value ∧ value.integer? = some n

theorem encode_unsigned_iff : encode .unsigned text registers = .ok bytes ↔
    ∃ m, Text.readNat 10 65535 (Text.trim text.toList) = .ok m ∧ bytes = Bytes.little 2 m := by
  unfold encode Text.trimmed
  simp only [String.toList_ofList]
  cases Text.readNat 10 65535 (Text.trim text.toList) with
  | error e => simp
  | ok m => simp [eq_comm]

theorem encode_signed_iff : encode .signed text registers = .ok bytes ↔
    ∃ i, Text.readInt 32768 32767 (Text.trim text.toList) = .ok i ∧
      bytes = Bytes.little 2 (i % 65536).toNat := by
  unfold encode Text.trimmed
  simp only [String.toList_ofList]
  cases Text.readInt 32768 32767 (Text.trim text.toList) with
  | error e => simp
  | ok i => simp [eq_comm]

/-- The two lowest bytes of a number make the word of that number. -/
theorem word_little (m : Nat) : ∃ low high, Bytes.little 2 m = [low, high] ∧
    Bytes.word low high = UInt16.ofNat m := by
  refine ⟨_, _, rfl, ?_⟩
  show UInt16.ofNat (Bytes.number (Bytes.little 2 m)) = _
  rw [Bytes.number_little]
  exact UInt16.ofNat_mod_size

theorem toInt_toInt16 (low : -32768 ≤ n) (high : n ≤ 32767) :
    (UInt16.ofNat (n % 65536).toNat).toInt16.toInt = n := by
  show (BitVec.ofNat 16 (n % 65536).toNat).toInt = n
  have hword : (n % 65536).toNat < 2 ^ 16 := by omega
  rw [BitVec.toInt_eq_toNat_bmod, BitVec.toNat_ofNat, Nat.mod_eq_of_lt hword,
    Int.toNat_of_nonneg (by omega)]
  show (n % (65536 : Nat)).bmod 65536 = n
  rw [Int.emod_bmod]
  exact Int.bmod_eq_of_le (by omega) (by omega)

/-- A text that stands for an integer is encoded in the format without a sign as that integer, if it
is in the range. The text of zero must not have a minus. -/
theorem encodesExactly_unsigned (h : Text.integer? text.toList = some n)
    (zero : n = 0 → text.toList.head? ≠ some '-') :
    EncodesExactly .unsigned 0 65535 text n where
  succeeds_iff registers := by
    simp only [encode_unsigned_iff, Text.trim_of_integer? h, Text.readNat_eq_ok_iff, h]
    constructor
    · rintro ⟨_, m, ⟨hm, hle, -⟩, -⟩
      have := Option.some.inj hm
      omega
    · rintro ⟨hlow, hhigh⟩
      refine ⟨_, n.toNat, ⟨?_, by omega, fun hminus => ?_⟩, rfl⟩
      · rw [Int.toNat_of_nonneg hlow]
      · have := Text.nonpos_of_minus hminus h
        exact zero (by omega) hminus
  reads_back registers bytes hbytes := by
    obtain ⟨m, hm, rfl⟩ := encode_unsigned_iff.1 hbytes
    rw [Text.trim_of_integer? h, Text.readNat_eq_ok_iff, h] at hm
    obtain ⟨hn, hle, -⟩ := hm
    obtain ⟨low, high, hbytes, hword⟩ := word_little m
    refine ⟨.unsigned (UInt16.ofNat m), ?_, ?_⟩
    · rw [hbytes, ← hword]
      rfl
    · rw [RegisterValue.integer?, UInt16.toNat_ofNat_of_lt' (by show m < 65536; omega)]
      exact hn.symm

/-- A text that stands for an integer is encoded in the format with a sign as that integer, if it is
in the range. -/
theorem encodesExactly_signed (h : Text.integer? text.toList = some n) :
    EncodesExactly .signed (-32768) 32767 text n where
  succeeds_iff registers := by
    simp only [encode_signed_iff, Text.trim_of_integer? h, Text.readInt_eq_ok_iff, h]
    constructor
    · rintro ⟨_, i, ⟨hi, hlow, hhigh⟩, -⟩
      have := Option.some.inj hi
      omega
    · rintro ⟨hlow, hhigh⟩
      exact ⟨_, n, ⟨rfl, by omega, by omega⟩, rfl⟩
  reads_back registers bytes hbytes := by
    obtain ⟨i, hi, rfl⟩ := encode_signed_iff.1 hbytes
    rw [Text.trim_of_integer? h, Text.readInt_eq_ok_iff, h] at hi
    obtain ⟨hn, hlow, hhigh⟩ := hi
    obtain ⟨low, high, hbytes, hword⟩ := word_little (i % 65536).toNat
    refine ⟨.signed (UInt16.ofNat (i % 65536).toNat).toInt16, ?_, ?_⟩
    · rw [hbytes, ← hword]
      rfl
    · rw [RegisterValue.integer?, toInt_toInt16 (by omega) (by omega)]
      exact hn.symm

end RegisterFormat

namespace RegisterValue

variable {value : RegisterValue} {n : Int}

/-- A value stands for an integer as its text does. -/
theorem integer?_display (h : value.integer? = some n) :
    Text.integer? value.display.toList = some n := by
  have htext : ∀ s : String,
      (Text.readInt (Nat.pow 2 63) (Nat.pow 2 63 - 1) s.toList).toOption = some n →
        Text.integer? s.toList = some n := by
    intro s hs
    cases hread : Text.readInt (Nat.pow 2 63) (Nat.pow 2 63 - 1) s.toList with
    | error e => simp [hread, Except.toOption] at hs
    | ok i =>
      rw [hread] at hs
      rw [← Option.some.inj hs]
      exact (Text.readInt_eq_ok_iff.1 hread).1
  cases value with
  | unsigned m =>
    rw [← h, display, String.toList_ofList]
    exact Text.integer?_of_natural? (Text.natural?_decimal m.toNat)
  | signed m =>
    rw [← h, display, String.toList_ofList]
    exact Text.integer?_decimalInt m.toInt
  | bit m =>
    rw [← h, display, String.toList_ofList]
    exact Text.integer?_of_natural? (Text.natural?_decimal m.toNat)
  | text s => exact htext s h
  | real s => exact htext s h

theorem isNonzero_iff : value.isNonzero = true ↔ ∃ n, value.integer? = some n ∧ n ≠ 0 := by
  unfold isNonzero
  cases value.integer? with
  | none => simp
  | some n => simp

end RegisterValue

namespace WriteValue

/-- The value has one text, and that is encoded and read back as `n` by the formats for a word
without and with a sign. -/
def WritesExactly (value : WriteValue) (n : Int) : Prop :=
  ∃ text, value.strings = [text] ∧ RegisterFormat.EncodesExactly .unsigned 0 65535 text n ∧
    RegisterFormat.EncodesExactly .signed (-32768) 32767 text n

theorem writesExactly_of_decimal {value : WriteValue} {n : Int}
    (h : value.strings = [String.ofList (Text.decimalInt n)]) : value.WritesExactly n := by
  have hinteger : Text.integer? (String.ofList (Text.decimalInt n)).toList = some n := by
    rw [String.toList_ofList]
    exact Text.integer?_decimalInt n
  refine ⟨_, h, RegisterFormat.encodesExactly_unsigned hinteger ?_,
    RegisterFormat.encodesExactly_signed hinteger⟩
  rintro rfl
  decide

/-- Whatever passes the gate of the engine, and every integer of 64 bits, is written as exactly that
integer or refused. -/
theorem integers_kept :
    (∀ (value : RegisterValue) (n : Int), value.integer? = some n → n ≠ 0 →
      value.toWrite.WritesExactly n) ∧
    (∀ value : RegisterValue, value.isNonzero = true ↔ ∃ n, value.integer? = some n ∧ n ≠ 0) ∧
    (∀ n : Int64, (int n).WritesExactly n.toInt) ∧
    ∀ n : UInt64, (uint n).WritesExactly n.toNat := by
  refine ⟨fun value n h hne => ?_, fun value => RegisterValue.isNonzero_iff, fun n => ?_,
    fun n => ?_⟩
  · have hinteger := RegisterValue.integer?_display h
    exact ⟨value.display, value.strings_toWrite,
      RegisterFormat.encodesExactly_unsigned hinteger fun hzero => absurd hzero hne,
      RegisterFormat.encodesExactly_signed hinteger⟩
  · exact writesExactly_of_decimal rfl
  · exact writesExactly_of_decimal rfl

/-- A sign and leading zeros do not matter. -/
theorem integers_kept_text : (RegisterValue.text "+0070").integer? = some 70 ∧
    (RegisterValue.text "+0070").toWrite.WritesExactly 70 :=
  ⟨by decide, integers_kept.1 (.text "+0070") 70 (by decide) (by decide)⟩

end WriteValue

end PlcGateway
