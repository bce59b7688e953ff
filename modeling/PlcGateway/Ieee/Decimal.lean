import PlcGateway.Ieee.Basic
import PlcGateway.Text.Blank
import PlcGateway.Text.Numeral

/-!
# Decimal text of floating-point numbers

Reading: an optional sign, then `inf`, `infinity` or `nan` in any case, or digits with an optional
point and exponent. A decimal number is rounded once, straight to the wanted format. Writing with a
fixed number of places expands the exact value and rounds a half to the even digit.

`shortest` finds the fewest digits, at most seventeen, that read back as a given magnitude: on the
grid of each length it tries the two neighbours of the exact value, the nearer one first.
-/

namespace PlcGateway.Ieee

open PlcGateway.Text

/-- A decimal number as written: `± coefficient * 10 ^ exponent`. -/
structure Decimal where
  negative : Bool
  coefficient : Nat
  exponent : Int
  deriving DecidableEq, Repr

/-- What the text of a floating-point number says. -/
inductive Literal where
  | nan (negative : Bool)
  | infinite (negative : Bool)
  | finite (d : Decimal)
  deriving DecidableEq, Repr

/-- Why a text is no floating-point number. -/
inductive LiteralError where
  | empty
  | invalid
  deriving DecidableEq, Repr

/-- The wording of a refusal. -/
def LiteralError.message : LiteralError → String
  | .empty => "cannot parse float from empty string"
  | .invalid => "invalid float literal"

/-- The number that decimal digits stand for. -/
def ofDigits (digits : List Char) : Nat := Nat.ofDigitChars 10 digits 0

/-- An exponent part up to the end of the text, or its absence. -/
def readExponent? : List Char → Option Int
  | [] => some 0
  | c :: rest =>
    if c = 'e' ∨ c = 'E' then
      let (negative, digits) :=
        match rest with
        | '-' :: digits => (true, digits)
        | '+' :: digits => (false, digits)
        | digits => (false, digits)
      if digits.isEmpty || !digits.all Char.isDigit then none
      else if negative then some (-(ofDigits digits : Int))
      else some (ofDigits digits)
    else none

/-- Digits with an optional point and exponent, up to the end of the text. -/
def readDecimal? (negative : Bool) (s : List Char) : Option Decimal :=
  let whole := s.takeWhile Char.isDigit
  let (part, rest) :=
    match s.dropWhile Char.isDigit with
    | '.' :: rest => (rest.takeWhile Char.isDigit, rest.dropWhile Char.isDigit)
    | rest => ([], rest)
  if whole.isEmpty && part.isEmpty then none
  else
    (readExponent? rest).map fun exponent =>
      ⟨negative, ofDigits (whole ++ part), exponent - part.length⟩

/-- What follows the sign. -/
def readMagnitude (negative : Bool) (s : List Char) : Except LiteralError Literal :=
  match readDecimal? negative s with
  | some d => .ok (.finite d)
  | none =>
    let name := String.ofList (s.map lowerAscii)
    if name = "inf" ∨ name = "infinity" then .ok (.infinite negative)
    else if name = "nan" then .ok (.nan negative)
    else .error .invalid

/-- Reads the text of a floating-point number. -/
def readLiteral : List Char → Except LiteralError Literal
  | [] => .error .empty
  | '+' :: rest => readMagnitude false rest
  | '-' :: rest => readMagnitude true rest
  | s => readMagnitude false s

/-- The bit pattern nearest to a decimal number. A number of `n` digits times `10 ^ e` is at least
`8 ^ (n - 1 + e)` if that exponent is not negative and below `8 ^ (n + e)` if this one is negative,
so powers of ten far out of the format's range are never formed. -/
def Decimal.bits (f : Format) (d : Decimal) : Nat :=
  let digits : Int := (decimal d.coefficient).length
  f.signed d.negative <|
    if d.coefficient = 0 then 0
    else if (f.bias : Int) + 1 ≤ 3 * (digits - 1 + d.exponent) then f.infinityBits
    else if 3 * (digits + d.exponent) < f.leastExponent then 0
    else f.nearest (d.coefficient * Nat.pow 10 d.exponent.toNat) (Nat.pow 10 (-d.exponent).toNat)

/-- The bit pattern that a text stands for in a format. -/
def Literal.bits (f : Format) : Literal → Nat
  | .nan negative => f.signed negative f.nanBits
  | .infinite negative => f.signed negative f.infinityBits
  | .finite d => d.bits f

/-- Reads a text as a bit pattern of a format. -/
def Format.read (f : Format) (s : List Char) : Except LiteralError Nat :=
  (readLiteral s).map (Literal.bits f)

/-- A number counted in units of the last of `places` places. -/
def placed (places n : Nat) : List Char :=
  let part := decimal (n % Nat.pow 10 places)
  decimal (n / Nat.pow 10 places) ++ '.' :: (List.replicate (places - part.length) '0' ++ part)

/-- The text of a number with a fixed number of places. A number keeps its sign even where its
text is all zeros, and a NaN has none. -/
def Datum.fixed (places : Nat) : Datum → List Char
  | .nan => ['N', 'a', 'N']
  | .infinite negative => (if negative then ['-'] else []) ++ ['i', 'n', 'f']
  | .finite negative significand exponent =>
    (if negative then ['-'] else [])
      ++ placed places (roundDiv (significand * Nat.pow 10 places * Nat.pow 2 exponent.toNat)
          (Nat.pow 2 (-exponent).toNat))

end PlcGateway.Ieee

/-! ## The shortest decimal -/

namespace PlcGateway.Ieee.Format

variable (f : Format)

/-- The number of decimal digits in front of the point of a quotient, less than one for a quotient
below one tenth. -/
def decimalMagnitude (num den : Nat) : Int :=
  let digits (n : Nat) : Int := (Text.decimal n).length
  let guess := digits num - digits den
  if den * Nat.pow 10 guess.toNat ≤ num * Nat.pow 10 (-guess).toNat then guess + 1 else guess

/-- The neighbours of a quotient on the grid of multiples of `10 ^ unit`, the nearer one first. -/
def gridNeighbours (num den : Nat) (unit : Int) : List Nat :=
  let num := num * Nat.pow 10 (-unit).toNat
  let den := den * Nat.pow 10 unit.toNat
  let low := num / den
  if den ≤ 2 * (num % den) then [low + 1, low] else [low, low + 1]

/-- The digits and the exponent of the shortest decimal that reads back as a finite magnitude. -/
def shortest (magnitude : Nat) : Nat × Int :=
  match f.datum magnitude with
  | .finite _ significand exponent =>
    if significand = 0 then (0, 0)
    else
      let num := significand * Nat.pow 2 exponent.toNat
      let den := Nat.pow 2 (-exponent).toNat
      let front := decimalMagnitude num den
      let candidates : List (Nat × Int) := (List.range 17).flatMap fun digits =>
        let unit := front - (digits + 1 : Nat)
        (gridNeighbours num den unit).map (·, unit)
      (candidates.find? fun (n, unit) => Decimal.bits f ⟨false, n, unit⟩ == magnitude).getD (0, 0)
  | _ => (0, 0)

end PlcGateway.Ieee.Format
