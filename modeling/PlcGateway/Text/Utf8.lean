/-!
# UTF-8

`utf8` gives the bytes of a text. `lossyText` reads any bytes as text: whatever is no character
becomes U+FFFD, one for each longest beginning of a character that is not completed, and one for
each byte that begins none.
-/

namespace PlcGateway.Text

/-- The UTF-8 bytes of a text. -/
def utf8 (s : List Char) : List UInt8 := s.flatMap String.utf8EncodeChar

/-- The text of bytes that are UTF-8 throughout. -/
def ofUtf8? (bytes : List UInt8) : Option String := String.fromUTF8? ⟨bytes.toArray⟩

/-- U+FFFD, which stands for bytes that are no character. -/
def replacement : Char := '\uFFFD'

/-- A character that has begun: `missing` bytes are still to come, the next of them from `low` to
`high`, and the bytes so far make up `value`. -/
structure Begun where
  missing : Nat
  low : Nat
  high : Nat
  value : Nat
  deriving DecidableEq, Repr

/-- What a byte at the start of a character is: the characters it completes and the one it
begins. -/
def start (byte : UInt8) : List Char × Option Begun :=
  let b := byte.toNat
  if b < 0x80 then ([Char.ofNat b], none)
  else if b < 0xC2 then ([replacement], none)
  else if b < 0xE0 then ([], some ⟨1, 0x80, 0xBF, b % 0x20⟩)
  else if b = 0xE0 then ([], some ⟨2, 0xA0, 0xBF, 0⟩)
  else if b = 0xED then ([], some ⟨2, 0x80, 0x9F, 0xD⟩)
  else if b < 0xF0 then ([], some ⟨2, 0x80, 0xBF, b % 0x10⟩)
  else if b = 0xF0 then ([], some ⟨3, 0x90, 0xBF, 0⟩)
  else if b < 0xF4 then ([], some ⟨3, 0x80, 0xBF, b % 0x08⟩)
  else if b = 0xF4 then ([], some ⟨3, 0x80, 0x8F, 4⟩)
  else ([replacement], none)

/-- What a byte after a beginning does: it completes the character, goes on with it, or leaves it
incomplete and starts anew. -/
def Begun.next (p : Begun) (byte : UInt8) : List Char × Option Begun :=
  let b := byte.toNat
  if p.low ≤ b ∧ b ≤ p.high then
    let value := p.value * 64 + b % 64
    if p.missing = 1 then ([Char.ofNat value], none)
    else ([], some ⟨p.missing - 1, 0x80, 0xBF, value⟩)
  else
    let (chars, begun) := start byte
    (replacement :: chars, begun)

/-- Reads bytes after the beginning of a character, if there is one. -/
def lossyFrom : Option Begun → List UInt8 → List Char
  | none, [] => []
  | some _, [] => [replacement]
  | none, b :: rest => (start b).1 ++ lossyFrom (start b).2 rest
  | some p, b :: rest => (p.next b).1 ++ lossyFrom (p.next b).2 rest

/-- The text of any bytes, with U+FFFD for what is no character. -/
def lossyText (bytes : List UInt8) : List Char := lossyFrom none bytes

/-- The bytes of an ASCII text are its characters. -/
theorem lossyText_ascii {b : UInt8} (h : b.toNat < 0x80) (rest : List UInt8) :
    lossyText (b :: rest) = Char.ofNat b.toNat :: lossyText rest := by
  simp [lossyText, lossyFrom, start, h]

end PlcGateway.Text
