import PlcGateway.Json.Basic
import PlcGateway.Ieee.Power
import PlcGateway.Ieee.Decimal

/-!
# Numbers in JSON text

A number without a point and an exponent is an integer if it fits 64 bits with or without a sign;
`-0` and everything else is a double. A double is made in two roundings: the digits that together
fit 64 bits are rounded first, the rest of the digits only counts towards the power of ten that the
result is scaled by.
-/

namespace PlcGateway.Json

/-- The parts of a number as written. The exponent is `0` if none is written. -/
structure NumberText where
  negative : Bool
  whole : List Char
  /-- The digits after the point. -/
  part : List Char
  exponent : Int
  /-- Whether there is neither a point nor an exponent. -/
  isInteger : Bool
  deriving DecidableEq, Repr

/-- The greatest significand. -/
def maxSignificand : Nat := UInt64.size - 1

/-- Takes digits onto a significand as long as it fits 64 bits, and gives back the rest. -/
def significant : Nat → List Char → Nat × List Char
  | n, [] => (n, [])
  | n, c :: rest =>
    let n' := 10 * n + (c.toNat - 48)
    if n' ≤ maxSignificand then significant n' rest else (n, c :: rest)

namespace NumberText

/-- The double that a number stands for, if it is finite. -/
def double? (t : NumberText) : Option UInt64 :=
  let (whole, skippedWhole) := significant 0 t.whole
  let (significand, skippedPart) := significant whole t.part
  let exponent : Int :=
    t.exponent + skippedWhole.length - (t.part.length - skippedPart.length : Nat)
  (Ieee.binary64.decimalShift? significand exponent).map fun magnitude =>
    UInt64.ofNat (Ieee.binary64.signed t.negative magnitude)

/-- The value of a number. -/
def value? (t : NumberText) : Option Json :=
  let n := Ieee.ofDigits t.whole
  if t.isInteger && !t.negative && n ≤ maxSignificand then some (.int n)
  else if t.isInteger && t.negative && 0 < n && n ≤ Nat.pow 2 63 then some (.int (-(n : Int)))
  else t.double?.map .double

end NumberText

/-- Reads the digits before the point: no zero before other digits. -/
def readWhole? (s : List Char) : Option (List Char × List Char) :=
  let digits := s.takeWhile Char.isDigit
  let rest := s.dropWhile Char.isDigit
  match digits with
  | [] => none
  | '0' :: _ :: _ => none
  | _ => some (digits, rest)

/-- Reads a point and at least one digit, if there is a point. -/
def readPart? : List Char → Option (List Char × List Char)
  | '.' :: rest =>
    let digits := rest.takeWhile Char.isDigit
    if digits.isEmpty then none else some (digits, rest.dropWhile Char.isDigit)
  | s => some ([], s)

/-- Reads an exponent, if there is one. -/
def readExponent? : List Char → Option (Option Int × List Char)
  | [] => some (none, [])
  | c :: rest =>
    if c = 'e' ∨ c = 'E' then
      let (negative, rest) :=
        match rest with
        | '-' :: rest => (true, rest)
        | '+' :: rest => (false, rest)
        | rest => (false, rest)
      let digits := rest.takeWhile Char.isDigit
      if digits.isEmpty then none
      else
        let n : Int := Ieee.ofDigits digits
        some (some (if negative then -n else n), rest.dropWhile Char.isDigit)
    else some (none, c :: rest)

/-- Reads a number at the start of a text. -/
def readNumber? (s : List Char) : Option (Json × List Char) := do
  let (negative, s) :=
    match s with
    | '-' :: rest => (true, rest)
    | s => (false, s)
  let (whole, s) ← readWhole? s
  let (part, s) ← readPart? s
  let (exponent, s) ← readExponent? s
  let isInteger := part.isEmpty && exponent.isNone
  let value ← NumberText.value? ⟨negative, whole, part, exponent.getD 0, isInteger⟩
  some (value, s)

end PlcGateway.Json
