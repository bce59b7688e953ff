import PlcGateway.Json5.Basic
import PlcGateway.Text.Escape
import PlcGateway.Text.Letter

/-!
# Reading JSON5 text

`parse?` reads a whole text as one value. White space and comments may stand between any two tokens,
a comma may follow the last item, strings have either kind of quote, and names may be written
without quotes. The readers take a bound on their steps, which `parse?` sets to twice the length of
the text: of two steps in a row one reads a character.
-/

namespace PlcGateway.Json5

/-- Whether a character ends a line. -/
def endsLine (c : Char) : Bool := c == '\n' || c == '\r' || c == '\u2028' || c == '\u2029'

/-- Whether a character is white space. -/
def isSpace (c : Char) : Bool :=
  let n := c.toNat
  endsLine c || n == 0x09 || n == 0x0B || n == 0x0C || n == 0x20 || n == 0xA0 || n == 0x1680
    || (0x2000 ≤ n && n ≤ 0x200A) || n == 0x202F || n == 0x205F || n == 0x3000 || n == 0xFEFF

/-- What a reader stands in between two tokens. -/
inductive Gap where
  | space
  | lineComment
  | comment
  deriving DecidableEq, Repr

/-- The next token after white space and comments. A comment must be closed, and a slash that
begins no comment begins no token either. -/
def skip? : Gap → List Char → Option (List Char)
  | .comment, [] => none
  | _, [] => some []
  | .space, c :: rest =>
    if isSpace c then skip? .space rest
    else if c = '/' then
      match rest with
      | '/' :: rest => skip? .lineComment rest
      | '*' :: rest => skip? .comment rest
      | _ => none
    else some (c :: rest)
  | .lineComment, c :: rest =>
    if endsLine c then skip? .space rest else skip? .lineComment rest
  | .comment, '*' :: '/' :: rest => skip? .space rest
  | .comment, _ :: rest => skip? .comment rest

/-- The character that an escaped character stands for: itself, but for a few letters and the zero;
other digits cannot be escaped. -/
def escaped? (c : Char) : Option Char :=
  if c = 'b' then some (Char.ofNat 0x08)
  else if c = 't' then some (Char.ofNat 0x09)
  else if c = 'n' then some (Char.ofNat 0x0A)
  else if c = 'v' then some (Char.ofNat 0x0B)
  else if c = 'f' then some (Char.ofNat 0x0C)
  else if c = 'r' then some (Char.ofNat 0x0D)
  else if c = '0' then some (Char.ofNat 0)
  else if c.isDigit then none
  else some c

/-- Reads what follows a backslash: an escaped character, or the end of a line, which stands for
nothing. -/
def readEscape? : List Char → Option (Option Text.Piece × List Char)
  | [] => none
  | 'x' :: rest => do
    let (n, rest) ← Text.hexDigits? 2 rest
    some (some (.char (Char.ofNat n)), rest)
  | 'u' :: rest => do
    let (n, rest) ← Text.hexDigits? 4 rest
    some (some (.unit n), rest)
  | '\r' :: '\n' :: rest => some (none, rest)
  | c :: rest =>
    if endsLine c then some (none, rest)
    else (escaped? c).map fun c => (some (.char c), rest)

/-- Reads the pieces of a string up to its closing quote. -/
def readPieces? (quote : Char) : Nat → List Char → Option (List Text.Piece × List Char)
  | 0, _ => none
  | _ + 1, [] => none
  | steps + 1, c :: rest =>
    if c = quote then some ([], rest)
    else if c = '\\' then do
      let (piece, rest) ← readEscape? rest
      let (pieces, rest) ← readPieces? quote steps rest
      some (piece.toList ++ pieces, rest)
    else if endsLine c then none
    else do
      let (pieces, rest) ← readPieces? quote steps rest
      some (.char c :: pieces, rest)

/-- The code point of a pair of surrogates. Bit 16 is set in it and not added to it, so a pair in
which this bit is set already gives a code point that is lower by 0x10000 than in UTF-16. -/
def pairCode (leading trailing : Nat) : Nat :=
  (leading - 0xD800) * 0x400 ||| (0x10000 + (trailing - 0xDC00))

/-- The string that pieces make, if their surrogates pair. -/
def stringOf? (pieces : List Text.Piece) : Option String :=
  (Text.join? pairCode pieces).map String.ofList

/-- Reads a string after its opening quote. -/
def readString? (quote : Char) (steps : Nat) (s : List Char) :
    Option (Option String × List Char) := do
  let (pieces, rest) ← readPieces? quote steps s
  some (stringOf? pieces, rest)

/-- Whether a name may begin with a character. -/
def beginsName (c : Char) : Bool := c == '$' || c == '_' || Text.isLetter c

/-- Whether a name may go on with a character. -/
def continuesName (c : Char) : Bool := beginsName c || Text.isMark c

/-- Reads the next piece of a name: a character that may stand there, or the escape of any. -/
def namePiece? (allowed : Char → Bool) : List Char → Option (Text.Piece × List Char)
  | '\\' :: 'u' :: rest => do
    let (n, rest) ← Text.hexDigits? 4 rest
    some (.unit n, rest)
  | c :: rest => if allowed c then some (.char c, rest) else none
  | [] => none

/-- Reads the pieces of a name after the first one. -/
def namePieces : Nat → List Char → List Text.Piece × List Char
  | 0, s => ([], s)
  | steps + 1, s =>
    match namePiece? continuesName s with
    | none => ([], s)
    | some (piece, rest) =>
      let (pieces, rest) := namePieces steps rest
      (piece :: pieces, rest)

/-- Reads the name of a member, with or without quotes. -/
def readName? (steps : Nat) : List Char → Option (Option String × List Char)
  | '"' :: rest => readString? '"' steps rest
  | '\x27' :: rest => readString? '\x27' steps rest
  | s => do
    let (first, rest) ← namePiece? beginsName s
    let (pieces, rest) := namePieces steps rest
    some (stringOf? (first :: pieces), rest)

mutual

/-- Reads a value. -/
def readValue? (steps : Nat) (s : List Char) : Option (Json5 × List Char) :=
  match steps with
  | 0 => none
  | steps + 1 => do
    match ← skip? .space s with
    | 'n' :: 'u' :: 'l' :: 'l' :: rest => some (null, rest)
    | 't' :: 'r' :: 'u' :: 'e' :: rest => some (bool true, rest)
    | 'f' :: 'a' :: 'l' :: 's' :: 'e' :: rest => some (bool false, rest)
    | '"' :: rest =>
      let (s, rest) ← readString? '"' steps rest
      some (string s, rest)
    | '\x27' :: rest =>
      let (s, rest) ← readString? '\x27' steps rest
      some (string s, rest)
    | '[' :: rest =>
      let (items, rest) ← readItems? steps rest
      some (array items, rest)
    | '\x7b' :: rest =>
      let (members, rest) ← readMembers? steps rest
      some (object members, rest)
    | s =>
      let (n, rest) ← readNumber? s
      some (number n, rest)

/-- Reads the items of an array and its end. -/
def readItems? (steps : Nat) (s : List Char) : Option (List Json5 × List Char) :=
  match steps with
  | 0 => none
  | steps + 1 => do
    match ← skip? .space s with
    | ']' :: rest => some ([], rest)
    | s =>
      let (item, rest) ← readValue? steps s
      match ← skip? .space rest with
      | ']' :: rest => some ([item], rest)
      | ',' :: rest =>
        let (items, rest) ← readItems? steps rest
        some (item :: items, rest)
      | _ => none

/-- Reads the members of an object and its end. -/
def readMembers? (steps : Nat) (s : List Char) :
    Option (List (Option String × Json5) × List Char) :=
  match steps with
  | 0 => none
  | steps + 1 => do
    match ← skip? .space s with
    | '\x7d' :: rest => some ([], rest)
    | s =>
      let (name, rest) ← readName? steps s
      match ← skip? .space rest with
      | ':' :: rest =>
        let (value, rest) ← readValue? steps rest
        match ← skip? .space rest with
        | '\x7d' :: rest => some ([(name, value)], rest)
        | ',' :: rest =>
          let (members, rest) ← readMembers? steps rest
          some ((name, value) :: members, rest)
        | _ => none
      | _ => none

end

/-- Reads a whole text as one value. -/
def parse? (text : String) : Option Json5 := do
  let s := text.toList
  let (value, rest) ← readValue? (2 * s.length + 2) s
  match ← skip? .space rest with
  | [] => some value
  | _ => none

end PlcGateway.Json5
