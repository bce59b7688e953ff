/-!
# Numerals

Reading of integers within a range, in decimal and hexadecimal, and their decimal text. One
leading `+` is allowed, a `-` only where the range holds negative numbers, and then there must be
digits and nothing else. A text is read from the left and refused at the first character that is
no digit or takes the number out of its range, so of two faults the one further left is reported.
-/

namespace PlcGateway.Text

/-- Why a text is not an integer of the wanted range. -/
inductive NumeralError where
  | empty
  | invalidDigit
  | tooLarge
  | tooSmall
  deriving DecidableEq, Repr

/-- The wording of a refusal. -/
def NumeralError.message : NumeralError → String
  | .empty => "cannot parse integer from empty string"
  | .invalidDigit => "invalid digit found in string"
  | .tooLarge => "number too large to fit in target type"
  | .tooSmall => "number too small to fit in target type"

/-- The value of a digit below `radix`; letters of either case stand for ten and more. -/
def digit? (radix : Nat) (c : Char) : Option Nat :=
  let value :=
    if '0' ≤ c ∧ c ≤ '9' then some (c.toNat - 48)
    else if 'a' ≤ c ∧ c ≤ 'z' then some (c.toNat - 87)
    else if 'A' ≤ c ∧ c ≤ 'Z' then some (c.toNat - 55)
    else none
  value.filter (· < radix)

/-- Reads digits from the left onto `acc`, which may not pass `limit`. -/
def readDigits (radix limit : Nat) (past : NumeralError) :
    Nat → List Char → Except NumeralError Nat
  | acc, [] => .ok acc
  | acc, c :: rest =>
    match digit? radix c with
    | none => .error .invalidDigit
    | some d =>
      if acc * radix + d ≤ limit then readDigits radix limit past (acc * radix + d) rest
      else .error past

/-- Reads the digits after a sign, of which there must be one at least. -/
def readUnsigned (radix limit : Nat) (past : NumeralError) (s : List Char) :
    Except NumeralError Nat :=
  if s.isEmpty then .error .invalidDigit else readDigits radix limit past 0 s

/-- Reads a natural number of at most `limit`. -/
def readNat (radix limit : Nat) : List Char → Except NumeralError Nat
  | [] => .error .empty
  | '+' :: rest => readUnsigned radix limit .tooLarge rest
  | s => readUnsigned radix limit .tooLarge s

/-- Reads a decimal integer from `-below` to `limit`. -/
def readInt (below limit : Nat) : List Char → Except NumeralError Int
  | [] => .error .empty
  | '+' :: rest => (readUnsigned 10 limit .tooLarge rest).map Int.ofNat
  | '-' :: rest => (readUnsigned 10 below .tooSmall rest).map fun n => -(n : Int)
  | s => (readUnsigned 10 limit .tooLarge s).map Int.ofNat

/-- The decimal digits of a natural number, without leading zeros. -/
def decimal (n : Nat) : List Char := Nat.toDigits 10 n

/-- The decimal text of an integer. -/
def decimalInt : Int → List Char
  | .ofNat n => decimal n
  | .negSucc n => '-' :: decimal (n + 1)

/-- The hexadecimal digits of a number in capitals, at least `width` of them. -/
def hexadecimal (width n : Nat) : List Char :=
  let digits := (Nat.toDigits 16 n).map fun c =>
    if 'a' ≤ c ∧ c ≤ 'f' then Char.ofNat (c.toNat - 32) else c
  List.replicate (width - digits.length) '0' ++ digits

end PlcGateway.Text
