/-!
# Register formats

A register format says how the bytes of a device are read as a value and written from text. It is
written in configuration as a number from one to six.
-/

namespace PlcGateway

/-- How the registers of a device are interpreted. -/
inductive RegisterFormat where
  /-- A word without a sign. -/
  | unsigned
  /-- Two words that hold a single-precision number. -/
  | real
  /-- The lowest bit. -/
  | bit
  /-- Two characters to a word, the first one in the low byte. -/
  | ascii
  /-- A word with a sign. -/
  | signed
  /-- A word that counts tenths, each byte on its own. -/
  | tenths
  deriving DecidableEq, Repr, Inhabited

namespace RegisterFormat

/-- The number of a format in configuration. -/
def code : RegisterFormat → Nat
  | unsigned => 1
  | real => 2
  | bit => 3
  | ascii => 4
  | signed => 5
  | tenths => 6

/-- The format with a given number. -/
def ofCode? : Nat → Option RegisterFormat
  | 1 => some unsigned
  | 2 => some real
  | 3 => some bit
  | 4 => some ascii
  | 5 => some signed
  | 6 => some tenths
  | _ => none

/-- How many bytes a value of this format is read from. -/
def width : RegisterFormat → Nat
  | real => 4
  | bit => 1
  | _ => 2

/-- How many registers a device of this format is read from. -/
def registers : RegisterFormat → UInt16
  | real => 2
  | _ => 1

theorem ofCode?_code (f : RegisterFormat) : ofCode? f.code = some f := by cases f <;> rfl

/-- The registers of a format hold the bytes that its values are read from. -/
theorem width_le_registers (f : RegisterFormat) : f.width ≤ 2 * f.registers.toNat := by
  cases f <;> decide

end RegisterFormat

end PlcGateway
