import PlcGateway.Ieee.Decimal
import PlcGateway.Text.Numeral

/-!
# Numbers in JSON5 text

A number keeps the form in which it is written: `Infinity`, `NaN`, hexadecimal digits after `0x`, or
decimal digits with an optional point and exponent, each with an optional sign. It stands for a
double. Not every number that can be written stands for one: `+` goes before decimal digits only, a
hexadecimal number takes no sign and has at most 32 bits, and a decimal number must be finite as a
double.
-/

namespace PlcGateway.Json5

/-- The sign of a number as written. -/
inductive Sign where
  | none
  | plus
  | minus
  deriving DecidableEq, Repr, Inhabited

/-- What follows the sign of a number. -/
inductive Magnitude where
  | infinity
  | nan
  | hexadecimal (digits : List Char)
  /-- The digits before the point, those after it if there is a point, and the exponent. -/
  | decimal (whole : List Char) (part : Option (List Char)) (exponent : Option Int)
  deriving DecidableEq, Repr, Inhabited

/-- A number as written. -/
structure Number where
  sign : Sign
  magnitude : Magnitude
  deriving DecidableEq, Repr, Inhabited

/-- The number that hexadecimal digits stand for. -/
def ofHexDigits (digits : List Char) : Nat :=
  digits.foldl (fun n c => 16 * n + (Text.digit? 16 c).getD 0) 0

/-- The greatest hexadecimal number. -/
def maxHexadecimal : Nat := UInt32.size - 1

namespace Number

/-- The double nearest to decimal digits, if it is finite. -/
def decimal? (negative : Bool) (whole part : List Char) (exponent : Int) : Option Ieee.Datum :=
  let decimal : Ieee.Decimal := ⟨negative, Ieee.ofDigits (whole ++ part), exponent - part.length⟩
  match Ieee.binary64.datum (decimal.bits Ieee.binary64) with
  | .finite negative significand exponent => some (.finite negative significand exponent)
  | _ => none

/-- The double that a number stands for, if it stands for one. -/
def datum? (n : Number) : Option Ieee.Datum :=
  match n.magnitude, n.sign with
  | .infinity, .none => some (.infinite false)
  | .infinity, .minus => some (.infinite true)
  | .infinity, .plus => none
  | .nan, .plus => none
  | .nan, _ => some .nan
  | .hexadecimal digits, .none =>
    let value := ofHexDigits digits
    if value ≤ maxHexadecimal then some (.finite false value 0) else none
  | .hexadecimal _, _ => none
  | .decimal whole part exponent, sign =>
    decimal? (sign == .minus) whole (part.getD []) (exponent.getD 0)

/-- The natural number nearest below the double that a number stands for, kept within `0` and
`limit`. -/
def unsigned? (limit : Nat) (n : Number) : Option Nat := n.datum?.map (Ieee.Datum.clamp limit)

/-- The integer that a number without a point and an exponent stands for. -/
def integer? (n : Number) : Option Int :=
  match n.magnitude with
  | .hexadecimal digits =>
    some (if n.sign = .minus then -ofHexDigits digits else ofHexDigits digits)
  | .decimal whole none none =>
    some (if n.sign = .minus then -Ieee.ofDigits whole else Ieee.ofDigits whole)
  | _ => none

/-- Whether a number is valid where nothing is read from it: decimal integers must fit 64 bits with
a sign, and other numbers must stand for a double. -/
def isValid (n : Number) : Bool :=
  match n.magnitude with
  | .decimal whole none none =>
    let value := Ieee.ofDigits whole
    if n.sign = .minus then value ≤ Nat.pow 2 63 else value < Nat.pow 2 63
  | _ => n.datum?.isSome

end Number

/-- Reads an exponent, if there is one. -/
def readExponent? : List Char → Option (Option Int × List Char)
  | [] => some (none, [])
  | c :: rest =>
    if c = 'e' ∨ c = 'E' then
      let (negative, rest) :=
        match rest with
        | '-' :: rest => (true, rest)
        | '+' :: rest => (false, rest)
        | rest => (false, rest)
      let digits := rest.takeWhile Char.isDigit
      if digits.isEmpty then none
      else
        let n : Int := Ieee.ofDigits digits
        some (some (if negative then -n else n), rest.dropWhile Char.isDigit)
    else some (none, c :: rest)

/-- Reads decimal digits. There is one at least on one side of the point, and no zero before other
digits. -/
def readDecimal? (s : List Char) : Option (Magnitude × List Char) := do
  let whole := s.takeWhile Char.isDigit
  let (part, rest) :=
    match s.dropWhile Char.isDigit with
    | '.' :: rest => (some (rest.takeWhile Char.isDigit), rest.dropWhile Char.isDigit)
    | rest => (none, rest)
  if whole.isEmpty && (part.getD []).isEmpty then none
  else if whole.head? == some '0' && 1 < whole.length then none
  else
    let (exponent, rest) ← readExponent? rest
    some (.decimal whole part exponent, rest)

/-- Reads hexadecimal digits, of which there is one at least. -/
def readHexadecimal? (s : List Char) : Option (Magnitude × List Char) :=
  let isDigit (c : Char) : Bool := (Text.digit? 16 c).isSome
  let digits := s.takeWhile isDigit
  if digits.isEmpty then none else some (.hexadecimal digits, s.dropWhile isDigit)

/-- Reads what follows the sign. -/
def readMagnitude? : List Char → Option (Magnitude × List Char)
  | '0' :: 'x' :: rest => readHexadecimal? rest
  | '0' :: 'X' :: rest => readHexadecimal? rest
  | 'I' :: 'n' :: 'f' :: 'i' :: 'n' :: 'i' :: 't' :: 'y' :: rest => some (.infinity, rest)
  | 'N' :: 'a' :: 'N' :: rest => some (.nan, rest)
  | s => readDecimal? s

/-- Reads a number at the start of a text. -/
def readNumber? (s : List Char) : Option (Number × List Char) := do
  let (sign, s) :=
    match s with
    | '+' :: rest => (Sign.plus, rest)
    | '-' :: rest => (Sign.minus, rest)
    | s => (Sign.none, s)
  let (magnitude, rest) ← readMagnitude? s
  some (⟨sign, magnitude⟩, rest)

end PlcGateway.Json5
