import PlcGateway.Json.Number
import PlcGateway.Text.Escape

/-!
# Reading JSON text

`parse?` reads a whole text as one value. Blanks are the space, the tab, the line feed and the
carriage return; arrays and objects nest at most 127 deep. The readers take a bound on their steps,
which `parse?` sets to twice the length of the text: of two steps in a row one reads a character.
-/

namespace PlcGateway.Json

/-- A text without the blanks that it begins with. -/
def skipBlanks (s : List Char) : List Char :=
  s.dropWhile fun c => c == ' ' || c == '\t' || c == '\n' || c == '\r'

/-- The character that a letter after a backslash stands for. -/
def escaped? : Char → Option Char
  | '"' => some '"'
  | '\\' => some '\\'
  | '/' => some '/'
  | 'b' => some (Char.ofNat 0x08)
  | 'f' => some (Char.ofNat 0x0C)
  | 'n' => some '\n'
  | 'r' => some '\r'
  | 't' => some '\t'
  | _ => none

/-- Reads the pieces of a string up to its closing quote. -/
def readPieces? : Nat → List Char → Option (List Text.Piece × List Char)
  | 0, _ => none
  | _ + 1, [] => none
  | steps + 1, c :: rest =>
    if c = '"' then some ([], rest)
    else if c = '\\' then
      match rest with
      | [] => none
      | 'u' :: rest => do
        let (n, rest) ← Text.hexDigits? 4 rest
        let (pieces, rest) ← readPieces? steps rest
        some (.unit n :: pieces, rest)
      | e :: rest => do
        let c ← escaped? e
        let (pieces, rest) ← readPieces? steps rest
        some (.char c :: pieces, rest)
    else if c.toNat < 0x20 then none
    else do
      let (pieces, rest) ← readPieces? steps rest
      some (.char c :: pieces, rest)

/-- Reads a string after its opening quote. -/
def readString? (steps : Nat) (s : List Char) : Option (String × List Char) := do
  let (pieces, rest) ← readPieces? steps s
  let chars ← Text.join? Text.pairCode pieces
  some (String.ofList chars, rest)

mutual

/-- Reads a value, with `depth` levels of arrays and objects still allowed. -/
def readValue? (steps depth : Nat) (s : List Char) : Option (Json × List Char) :=
  match steps with
  | 0 => none
  | steps + 1 =>
    match skipBlanks s with
    | 'n' :: 'u' :: 'l' :: 'l' :: rest => some (null, rest)
    | 't' :: 'r' :: 'u' :: 'e' :: rest => some (bool true, rest)
    | 'f' :: 'a' :: 'l' :: 's' :: 'e' :: rest => some (bool false, rest)
    | '"' :: rest => do
      let (s, rest) ← readString? steps rest
      some (string s, rest)
    | '[' :: rest =>
      match depth with
      | 0 => none
      | depth + 1 =>
        match skipBlanks rest with
        | ']' :: rest => some (array [], rest)
        | rest => do
          let (items, rest) ← readItems? steps depth rest
          some (array items, rest)
    | '\x7b' :: rest =>
      match depth with
      | 0 => none
      | depth + 1 =>
        match skipBlanks rest with
        | '\x7d' :: rest => some (object [], rest)
        | rest => do
          let (members, rest) ← readMembers? steps depth rest
          some (object members, rest)
    | s => readNumber? s

/-- Reads the items of an array, of which there is one at least, and its end. -/
def readItems? (steps depth : Nat) (s : List Char) : Option (List Json × List Char) :=
  match steps with
  | 0 => none
  | steps + 1 => do
    let (item, rest) ← readValue? steps depth s
    match skipBlanks rest with
    | ']' :: rest => some ([item], rest)
    | ',' :: rest => do
      let (items, rest) ← readItems? steps depth rest
      some (item :: items, rest)
    | _ => none

/-- Reads the members of an object, of which there is one at least, and its end. -/
def readMembers? (steps depth : Nat) (s : List Char) :
    Option (List (String × Json) × List Char) :=
  match steps with
  | 0 => none
  | steps + 1 =>
    match skipBlanks s with
    | '"' :: rest => do
      let (name, rest) ← readString? steps rest
      match skipBlanks rest with
      | ':' :: rest => do
        let (value, rest) ← readValue? steps depth rest
        match skipBlanks rest with
        | '\x7d' :: rest => some ([(name, value)], rest)
        | ',' :: rest => do
          let (members, rest) ← readMembers? steps depth rest
          some ((name, value) :: members, rest)
        | _ => none
      | _ => none
    | _ => none

end

/-- How deep arrays and objects nest at most. -/
def maxDepth : Nat := 127

/-- Reads a whole text as one value. -/
def parse? (text : String) : Option Json := do
  let s := text.toList
  let (value, rest) ← readValue? (2 * s.length + 2) maxDepth s
  if (skipBlanks rest).isEmpty then some value else none

end PlcGateway.Json
