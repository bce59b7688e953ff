import PlcGateway.Bytes.LittleEndian
import PlcGateway.Device.Code

/-!
# The memory of a simulated PLC

A memory holds a word for every offset of an area of words and a bit for every offset of an area of
bits. A word of an area of bits is made of sixteen bits, the one at its own offset being the lowest.
Offsets go round at `2^32`.
-/

namespace PlcGateway

/-- The words and the bits of a PLC. -/
structure Memory where
  cell : DeviceCode → UInt32 → UInt16
  bit : DeviceCode → UInt32 → Bool

namespace Memory

/-- The memory in which nothing is set. -/
def zero : Memory := ⟨fun _ _ => 0, fun _ _ => false⟩

instance : Inhabited Memory := ⟨zero⟩

/-- Sets one word of an area of words. -/
def setCell (memory : Memory) (code : DeviceCode) (offset : UInt32) (value : UInt16) : Memory :=
  { memory with
    cell := fun c o => if c = code ∧ o = offset then value else memory.cell c o }

/-- Sets one bit of an area of bits. -/
def setBit (memory : Memory) (code : DeviceCode) (offset : UInt32) (on : Bool) : Memory :=
  { memory with
    bit := fun c o => if c = code ∧ o = offset then on else memory.bit c o }

/-- Sets sixteen bits to those of a word. -/
def setBits (memory : Memory) (code : DeviceCode) (offset : UInt32) (value : UInt16) : Memory :=
  { memory with
    bit := fun c o =>
      let place := (o - offset).toNat
      if c = code ∧ place < 16 then value.toNat.testBit place else memory.bit c o }

/-- The word that sixteen bits make, the first one being the lowest. -/
def packed (bits : Nat → Bool) : UInt16 :=
  UInt16.ofNat ((List.range 16).foldl (fun n i => if bits i then n + Nat.pow 2 i else n) 0)

/-- Reads a word. -/
def word (memory : Memory) (code : DeviceCode) (offset : UInt32) : UInt16 :=
  if code.holdsBits then packed fun i => memory.bit code (offset + UInt32.ofNat i)
  else memory.cell code offset

/-- Writes a word. -/
def setWord (memory : Memory) (code : DeviceCode) (offset : UInt32) (value : UInt16) : Memory :=
  if code.holdsBits then memory.setBits code offset value else memory.setCell code offset value

/-- The bytes of `count` words in a row. -/
def read (memory : Memory) (code : DeviceCode) (offset : UInt32) : Nat → List UInt8
  | 0 => []
  | count + 1 => Bytes.ofWord (memory.word code offset) ++ memory.read code (offset + 1) count

/-- Writes bytes as words in a row; a last byte without a partner is the low one of its word. -/
def write (memory : Memory) (code : DeviceCode) (offset : UInt32) : List UInt8 → Memory
  | [] => memory
  | [low] => memory.setWord code offset (Bytes.word low 0)
  | low :: high :: rest =>
    (memory.setWord code offset (Bytes.word low high)).write code (offset + 1) rest

end Memory

end PlcGateway
