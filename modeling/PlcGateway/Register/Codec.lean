import PlcGateway.Register.Format
import PlcGateway.Register.Value
import PlcGateway.Bytes.LittleEndian
import PlcGateway.Text.Blank
import PlcGateway.Text.Utf8
import PlcGateway.Ieee.Decimal

/-!
# Register bytes and values

`decode` reads the bytes of a device in its format, and `encode` writes a text in the format of a
device. Only `encode` in the format `ascii` looks at the number of registers: it fills them with
zeros or cuts the text to them.
-/

namespace PlcGateway

/-- Why bytes or a text have no meaning in a register format. -/
inductive CodecError where
  | unknownFormat (code : Nat)
  | tooShort (format : RegisterFormat) (actual : Nat)
  | notUnsigned (text : String) (reason : Text.NumeralError)
  | notSigned (text : String) (reason : Text.NumeralError)
  | notReal (text : String) (reason : Ieee.LiteralError)
  | notTenths (text : String) (reason : Ieee.LiteralError)
  | notBit (text : String)
  deriving DecidableEq, Repr

/-- The wording of a refusal. -/
def CodecError.message : CodecError → String
  | .unknownFormat code => s!"Unknown register format {code}"
  | .tooShort format actual =>
    s!"Cannot decode register format {format.code}: need {format.width} bytes, got {actual}"
  | .notUnsigned text reason => encoding .unsigned s!"'{text}' is not a u16: {reason.message}"
  | .notSigned text reason => encoding .signed s!"'{text}' is not an i16: {reason.message}"
  | .notReal text reason => encoding .real s!"'{text}' is not a float: {reason.message}"
  | .notTenths text reason => encoding .tenths s!"'{text}' is not a number: {reason.message}"
  | .notBit text => encoding .bit s!"'{text}' is not a bit value"
where
  encoding (format : RegisterFormat) (reason : String) : String :=
    s!"Cannot encode register format {format.code}: {reason}"

/-- Whether an error is about bytes that were read, not about a text to be written. -/
def CodecError.isDecoding : CodecError → Bool
  | .tooShort .. => true
  | _ => false

namespace RegisterFormat

/-- The format with a given number, or the error that there is none. -/
def ofCode (code : Nat) : Except CodecError RegisterFormat :=
  match ofCode? code with
  | some format => .ok format
  | none => .error (.unknownFormat code)

/-- Keeps the sign and the point of a number's text and at most `limit` of its other
characters. -/
def keepNumerals : Nat → List Char → List Char
  | _, [] => []
  | limit, c :: rest =>
    if c = '-' ∨ c = '.' then c :: keepNumerals limit rest
    else
      match limit with
      | 0 => keepNumerals 0 rest
      | limit + 1 => c :: keepNumerals limit rest

/-- The text of a single-precision number: six places, cut to six numerals. -/
def realText (bits : Nat) : String :=
  String.ofList (keepNumerals 6 ((Ieee.binary32.datum bits).fixed 6))

/-- Reads a value from the bytes at the start of a payload. -/
def decode (format : RegisterFormat) (payload : List UInt8) : Except CodecError RegisterValue :=
  match format, payload with
  | .unsigned, b₀ :: b₁ :: _ => .ok (.unsigned (Bytes.word b₀ b₁))
  | .real, b₀ :: b₁ :: b₂ :: b₃ :: _ => .ok (.real (realText (Bytes.number [b₀, b₁, b₂, b₃])))
  | .bit, b₀ :: _ => .ok (.bit (b₀ &&& 1))
  | .ascii, b₀ :: b₁ :: _ => .ok (.text (String.ofList (Text.lossyText [b₀, b₁])))
  | .signed, b₀ :: b₁ :: _ => .ok (.signed (Bytes.word b₀ b₁).toInt16)
  | .tenths, b₀ :: b₁ :: _ => .ok (.unsigned (Bytes.word (b₀ / 10) (b₁ / 10)))
  | format, payload => .error (.tooShort format payload.length)

/-- The bit that a word stands for, in either case. -/
def readBit? (text : List Char) : Option Bool :=
  let word := String.ofList (text.map Text.lowerAscii)
  if word = "true" ∨ word = "1" ∨ word = "on" then some true
  else if word = "false" ∨ word = "0" ∨ word = "off" then some false
  else none

/-- The first `size` bytes of a list, filled up with zeros. -/
def resize (size : Nat) (bytes : List UInt8) : List UInt8 :=
  bytes.take size ++ List.replicate (size - bytes.length) 0

/-- The word for a number of tenths: ten times the number without its fraction, or the nearest
word if that is out of range. -/
def tenthsWord (bits : Nat) : Nat := (Ieee.binary64.times (Ieee.binary64.datum bits) 10).clamp 65535

/-- Writes a text, without the blanks around it, as the bytes of a device with `registers`
registers. -/
def encode (format : RegisterFormat) (text : String) (registers : UInt16) :
    Except CodecError (List UInt8) :=
  let value := Text.trimmed text
  match format with
  | .unsigned =>
    match Text.readNat 10 65535 value.toList with
    | .ok n => .ok (Bytes.little 2 n)
    | .error e => .error (.notUnsigned value e)
  | .signed =>
    match Text.readInt 32768 32767 value.toList with
    | .ok n => .ok (Bytes.little 2 (n % 65536).toNat)
    | .error e => .error (.notSigned value e)
  | .real =>
    match Ieee.binary32.read value.toList with
    | .ok bits => .ok (Bytes.little 4 bits)
    | .error e => .error (.notReal value e)
  | .tenths =>
    match Ieee.binary64.read value.toList with
    | .ok bits => .ok (Bytes.little 2 (tenthsWord bits))
    | .error e => .error (.notTenths value e)
  | .bit =>
    match readBit? value.toList with
    | some on => .ok [if on then 1 else 0]
    | none => .error (.notBit value)
  | .ascii => .ok (resize (2 * registers.toNat) (Text.utf8 value.toList))

@[simp] theorem length_resize (size : Nat) (bytes : List UInt8) :
    (resize size bytes).length = size := by
  simp only [resize, List.length_append, List.length_take, List.length_replicate]
  omega

/-- Reading fails exactly where the payload is shorter than the format needs. -/
theorem decode_eq_error_iff {format : RegisterFormat} {payload : List UInt8} {e : CodecError} :
    format.decode payload = .error e
      ↔ payload.length < format.width ∧ e = .tooShort format payload.length := by
  cases format <;>
    (rcases payload with _ | ⟨b₀, _ | ⟨b₁, _ | ⟨b₂, _ | ⟨b₃, rest⟩⟩⟩⟩ <;>
      simp only [decode, width, List.length_nil, List.length_cons, Except.error.injEq,
        reduceCtorEq, false_iff, not_and, @eq_comm _ _ e])
  all_goals grind

/-- A value is read wherever there are enough bytes. -/
theorem exists_decode {format : RegisterFormat} {payload : List UInt8}
    (long : format.width ≤ payload.length) : ∃ value, format.decode payload = .ok value := by
  cases h : format.decode payload with
  | ok value => exact ⟨value, rfl⟩
  | error e => exact absurd (decode_eq_error_iff.1 h).1 (Nat.not_lt_of_le long)

end RegisterFormat

end PlcGateway
