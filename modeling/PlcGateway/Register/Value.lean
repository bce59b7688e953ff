import PlcGateway.Ieee.Decimal
import PlcGateway.Json.Basic
import PlcGateway.Text.Numeral

/-!
# Values read and values written

`RegisterValue` is what a device reads as, and a `Message` is such a value on its way from a scan to
a worker. `WriteValue` is what can be written to a device: every one is rendered to texts, and each
text is encoded in the format of the destination. A value that was read is written in the form
`RegisterValue.toWrite`. One that is given as JSON can be a string, a list of strings, a boolean or
a number; an integer without a sign that fits 64 bits is taken as such, one with a sign likewise,
and every other number is a double (`WriteValue.ofJson`).
-/

namespace PlcGateway

/-- A value read from a device. -/
inductive RegisterValue where
  | unsigned (n : UInt16)
  | signed (n : Int16)
  | bit (n : UInt8)
  | text (s : String)
  /-- A single-precision number, as text of at most six numerals. -/
  | real (s : String)
  deriving DecidableEq, Repr, Inhabited

/-- A value that can be written to a device. -/
inductive WriteValue where
  | text (s : String)
  /-- Texts to be written one after the other. -/
  | texts (list : List String)
  | bool (b : Bool)
  | int (n : Int64)
  | uint (n : UInt64)
  /-- A double-precision number, by its bit pattern. -/
  | double (bits : UInt64)
  deriving DecidableEq, Repr, Inhabited

namespace RegisterValue

/-- The integer that a value stands for. Text stands for one only if it is a decimal integer of 64
bits and nothing else. -/
def integer? : RegisterValue → Option Int
  | .unsigned n => some n.toNat
  | .signed n => some n.toInt
  | .bit n => some n.toNat
  | .text s => (Text.readInt (Nat.pow 2 63) (Nat.pow 2 63 - 1) s.toList).toOption
  | .real s => (Text.readInt (Nat.pow 2 63) (Nat.pow 2 63 - 1) s.toList).toOption

/-- The text of a value. -/
def display : RegisterValue → String
  | .unsigned n => String.ofList (Text.decimal n.toNat)
  | .signed n => String.ofList (Text.decimalInt n.toInt)
  | .bit n => String.ofList (Text.decimal n.toNat)
  | .text s => s
  | .real s => s

/-- The form in which a value that was read is written to a device. -/
def toWrite : RegisterValue → WriteValue
  | .unsigned n => .uint n.toUInt64
  | .signed n => .int n.toInt64
  | .bit n => .uint n.toUInt64
  | .text s => .text s
  | .real s => .text s

end RegisterValue

namespace WriteValue

/-- The texts of a value, in the order in which they are written. A double has six places. -/
def strings : WriteValue → List String
  | .text s => [s]
  | .texts list => list
  | .bool b => [if b then "true" else "false"]
  | .int n => [String.ofList (Text.decimalInt n.toInt)]
  | .uint n => [String.ofList (Text.decimal n.toNat)]
  | .double bits => [String.ofList ((Ieee.binary64.datum bits.toNat).fixed 6)]

end WriteValue

/-- A value that was read has one text when it is written, the text that it is displayed as. -/
theorem RegisterValue.strings_toWrite (v : RegisterValue) : v.toWrite.strings = [v.display] := by
  cases v <;> simp [toWrite, WriteValue.strings, display]

/-- A value that was read from a device of a PLC. -/
structure Message where
  address : String
  value : RegisterValue
  /-- The name of the PLC. -/
  source : String
  deriving DecidableEq, Repr, Inhabited

/-! ## Values given as JSON -/

/-- A value that cannot be written to a device, by its kind. -/
structure Unsupported where
  kind : String
  deriving DecidableEq, Repr

/-- The wording of the refusal. -/
def Unsupported.message (e : Unsupported) : String := s!"Unsupported value type: {e.kind}"

namespace WriteValue

/-- The strings of a list that holds nothing else. -/
def strings? : List Json → Option (List String)
  | [] => some []
  | .string s :: rest => (strings? rest).map (s :: ·)
  | _ => none

/-- The value to be written that a JSON value says. -/
def ofJson : Json → Except Unsupported WriteValue
  | .null => .error ⟨"null"⟩
  | .bool b => .ok (.bool b)
  | .int (.ofNat n) => .ok (.uint (UInt64.ofNat n))
  | .int (.negSucc n) => .ok (.int (Int64.ofInt (.negSucc n)))
  | .double bits => .ok (.double bits)
  | .string s => .ok (.text s)
  | .array items =>
    match strings? items with
    | some list => .ok (.texts list)
    | none => .error ⟨"array"⟩
  | .object _ => .error ⟨"object"⟩

end WriteValue

end PlcGateway
