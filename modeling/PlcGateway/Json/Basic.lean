import PlcGateway.Ieee.Decimal

/-!
# JSON values and their text

A number is an integer from `-2^63` to `2^64 - 1`, or else a double given by its bit pattern. An
object keeps its members in the order in which they were given.

The text of a value has no blanks between its parts. In strings the quote, the backslash and the
control characters below U+0020 are escaped, five of these by a letter, and nothing else is.
-/

namespace PlcGateway

/-- A JSON value. -/
inductive Json where
  | null
  | bool (b : Bool)
  | int (n : Int)
  | double (bits : UInt64)
  | string (s : String)
  | array (items : List Json)
  | object (members : List (String × Json))
  deriving Repr, Inhabited

namespace Json

/-- What kind of value this is, in the words of JSON. -/
def kind : Json → String
  | null => "null"
  | bool _ => "boolean"
  | int _ => "number"
  | double _ => "number"
  | string _ => "string"
  | array _ => "array"
  | object _ => "object"

/-- A natural number as a value. -/
def nat (n : Nat) : Json := int n

end Json

/-- Members in which every name has the last value that was given for it, in the place of the
first one. -/
def lastOfEach {α : Type} (members : List (String × α)) : List (String × α) :=
  members.foldl (fun kept (name, value) =>
    if kept.any (·.1 == name) then
      kept.map fun member => if member.1 == name then (name, value) else member
    else kept ++ [(name, value)]) []

/-! ## Text -/

namespace Json

/-- A character of a string as written. -/
def escape (c : Char) : List Char :=
  if c = '"' then ['\\', '"']
  else if c = '\\' then ['\\', '\\']
  else if c.toNat = 0x08 then ['\\', 'b']
  else if c.toNat = 0x09 then ['\\', 't']
  else if c.toNat = 0x0A then ['\\', 'n']
  else if c.toNat = 0x0C then ['\\', 'f']
  else if c.toNat = 0x0D then ['\\', 'r']
  else if c.toNat < 0x20 then
    '\\' :: 'u' :: '0' :: '0' :: Nat.digitChar (c.toNat / 16) :: [Nat.digitChar (c.toNat % 16)]
  else [c]

/-- A string in quotes. -/
def quoted (s : String) : List Char := '"' :: s.toList.flatMap escape ++ ['"']

/-- A double as written: without an exponent from `10^-5` up to `10^16`, and with the fewest digits
that read back. There is no text for a number that is not finite. -/
def doubleText (bits : UInt64) : List Char :=
  match Ieee.binary64.datum bits.toNat with
  | .finite negative _ _ =>
    let (n, unit) := Ieee.binary64.shortest (bits.toNat % Ieee.binary64.signBit)
    let digits := Text.decimal n
    let front := digits.length + unit
    let body :=
      if n = 0 then ['0', '.', '0']
      else if 0 ≤ unit ∧ front ≤ 16 then digits ++ List.replicate unit.toNat '0' ++ ['.', '0']
      else if 0 < front ∧ front ≤ 16 then
        digits.take front.toNat ++ '.' :: digits.drop front.toNat
      else if -5 < front ∧ front ≤ 0 then
        '0' :: '.' :: (List.replicate (-front).toNat '0' ++ digits)
      else
        let point := if digits.length = 1 then digits else digits.take 1 ++ '.' :: digits.drop 1
        point ++ 'e' :: Text.decimalInt (front - 1)
    if negative then '-' :: body else body
  | _ => ['n', 'u', 'l', 'l']

mutual

/-- The text of a value. -/
def text : Json → List Char
  | null => ['n', 'u', 'l', 'l']
  | bool true => ['t', 'r', 'u', 'e']
  | bool false => ['f', 'a', 'l', 's', 'e']
  | int n => Text.decimalInt n
  | double bits => doubleText bits
  | string s => quoted s
  | array items => '[' :: itemsText items ++ [']']
  | object members => '\x7b' :: membersText members ++ ['\x7d']

/-- The items of an array with commas between them. -/
def itemsText : List Json → List Char
  | [] => []
  | [item] => item.text
  | item :: items => item.text ++ ',' :: itemsText items

/-- The members of an object with commas between them. -/
def membersText : List (String × Json) → List Char
  | [] => []
  | [(name, value)] => quoted name ++ ':' :: value.text
  | (name, value) :: members => quoted name ++ ':' :: value.text ++ ',' :: membersText members

end

end Json

end PlcGateway
