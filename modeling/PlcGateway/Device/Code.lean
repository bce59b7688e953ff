import PlcGateway.Text.Blank
import PlcGateway.Text.Numeral

/-!
# Device codes and device numbers

A device code names a memory area of a PLC. Each has a mnemonic, used in configuration and in
addresses, and a byte, used on the wire. Areas of bits are read and written sixteen bits to a word;
the other areas hold words.

The number of a device is written as text and sent as a 32-bit offset. Numbers are decimal, and
hexadecimal where they cannot be read as decimal; numbers of `Y` devices are always hexadecimal.
-/

namespace PlcGateway

/-- A memory area that a batch command can address. -/
inductive DeviceCode where
  | x | y | m | l | f | v | b | d | w
  | ts | tc | tn | ss | sc | sn | cs | cc | cn
  | sb | sw | dx | dy | r | zr
  deriving DecidableEq, Repr, Inhabited

namespace DeviceCode

/-- Every device code. -/
def all : List DeviceCode :=
  [x, y, m, l, f, v, b, d, w, ts, tc, tn, ss, sc, sn, cs, cc, cn, sb, sw, dx, dy, r, zr]

/-- The name of an area in configuration and in addresses. -/
def mnemonic : DeviceCode → String
  | x => "X" | y => "Y" | m => "M" | l => "L" | f => "F" | v => "V" | b => "B" | d => "D"
  | w => "W" | ts => "TS" | tc => "TC" | tn => "TN" | ss => "SS" | sc => "SC" | sn => "SN"
  | cs => "CS" | cc => "CC" | cn => "CN" | sb => "SB" | sw => "SW" | dx => "DX" | dy => "DY"
  | r => "R" | zr => "ZR"

/-- The name of an area on the wire. -/
def byte : DeviceCode → UInt8
  | x => 0x9C | y => 0x9D | m => 0x90 | l => 0x92 | f => 0x93 | v => 0x94 | b => 0xA0 | d => 0xA8
  | w => 0xB4 | ts => 0xC1 | tc => 0xC0 | tn => 0xC2 | ss => 0xC7 | sc => 0xC6 | sn => 0xC8
  | cs => 0xC4 | cc => 0xC3 | cn => 0xC5 | sb => 0xA1 | sw => 0xB5 | dx => 0xA2 | dy => 0xA3
  | r => 0xAF | zr => 0xB0

/-- The area with a given byte. -/
def ofByte? (n : UInt8) : Option DeviceCode := all.find? fun c => c.byte == n

/-- The area with a given mnemonic, in either case and with blanks around it. -/
def parse? (text : String) : Option DeviceCode :=
  let wanted := (Text.trim text.toList).map Text.upperAscii
  all.find? fun c => c.mnemonic.toList == wanted

/-- Whether numbers in this area are hexadecimal even where they look decimal. -/
def isHexNumbered (c : DeviceCode) : Bool := c == y

/-- Whether the area holds bits, packed sixteen to a word on the wire. -/
def holdsBits : DeviceCode → Bool
  | d | w | tn | sn | cn | sw | r | zr => false
  | _ => true

theorem mem_all (c : DeviceCode) : c ∈ all := by cases c <;> decide

/-- The byte of an area leads back to it. -/
theorem ofByte?_byte (c : DeviceCode) : ofByte? c.byte = some c := by cases c <;> decide

end DeviceCode

/-! ## Numbers -/

/-- Why a code and a number name no device. -/
inductive DeviceError where
  | unknownCode (code : String)
  | invalidNumber (code : DeviceCode) (number : String)
  deriving DecidableEq, Repr

/-- The wording of a refusal. -/
def DeviceError.message : DeviceError → String
  | .unknownCode code => s!"Unknown device code '{code}'"
  | .invalidNumber code number =>
    s!"Invalid device number '{number}' for device '{code.mnemonic}'"

namespace DeviceCode

/-- The greatest offset of a device. -/
def maxOffset : Nat := UInt32.size - 1

/-- The offset that a number without blanks around it stands for. -/
def offset? (code : DeviceCode) (number : List Char) : Option UInt32 :=
  let hex := (Text.readNat 16 maxOffset number).toOption
  let n? :=
    if code.isHexNumbered then hex
    else (Text.readNat 10 maxOffset number).toOption.or hex
  n?.map UInt32.ofNat

/-- Reads the number of a device in an area. -/
def readNumber (code : DeviceCode) (number : String) : Except DeviceError UInt32 :=
  match code.offset? (Text.trim number.toList) with
  | some offset => .ok offset
  | none => .error (.invalidNumber code (Text.trimmed number))

end DeviceCode

end PlcGateway
