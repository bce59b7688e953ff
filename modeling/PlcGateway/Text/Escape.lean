import PlcGateway.Text.Numeral

/-!
# Characters given by escapes

A quoted text is a row of characters and of 16-bit code units written as four hexadecimal digits.
A character above U+FFFF takes two units, a leading and a trailing surrogate; `join?` pairs them
and refuses a surrogate that stands alone. Which character a pair is depends on the format of the
text: `pairCode` is the answer of UTF-16.
-/

namespace PlcGateway.Text

/-- A character of a quoted text, or one code unit of a character. -/
inductive Piece where
  | char (c : Char)
  | unit (n : Nat)
  deriving DecidableEq, Repr

/-- Whether a code unit begins a pair. -/
def isLeading (n : Nat) : Bool := 0xD800 ≤ n && n < 0xDC00

/-- Whether a code unit ends a pair. -/
def isTrailing (n : Nat) : Bool := 0xDC00 ≤ n && n < 0xE000

/-- The code point of a pair of surrogates in UTF-16. -/
def pairCode (leading trailing : Nat) : Nat :=
  0x10000 + (leading - 0xD800) * 0x400 + (trailing - 0xDC00)

/-- The text of a row of pieces, if no surrogate stands alone, where `code` gives the code points of
pairs. -/
def join? (code : Nat → Nat → Nat) : List Piece → Option (List Char)
  | [] => some []
  | .char c :: rest => (join? code rest).map (c :: ·)
  | .unit n :: rest =>
    if isTrailing n then none
    else if isLeading n then
      match rest with
      | .unit m :: rest =>
        if isTrailing m then (join? code rest).map (Char.ofNat (code n m) :: ·) else none
      | _ => none
    else (join? code rest).map (Char.ofNat n :: ·)

/-- The number that exactly `count` hexadecimal digits at the start of a text stand for, and the
rest of the text. -/
def hexDigits? (count : Nat) (s : List Char) : Option (Nat × List Char) :=
  let digits := s.take count
  if digits.length = count ∧ digits.all fun c => (digit? 16 c).isSome then
    some (digits.foldl (fun n c => 16 * n + (digit? 16 c).getD 0) 0, s.drop count)
  else none

end PlcGateway.Text
