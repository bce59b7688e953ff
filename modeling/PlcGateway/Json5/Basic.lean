import PlcGateway.Json5.Number

/-!
# JSON5 values

The tree of a JSON5 text. It says what is written, and reading from it may still fail: numbers are
kept as written, and a string is missing if its escapes leave a surrogate without its partner.
-/

namespace PlcGateway

/-- A JSON5 value. -/
inductive Json5 where
  | null
  | bool (b : Bool)
  | number (n : Json5.Number)
  /-- A string, if its surrogates pair. -/
  | string (s : Option String)
  | array (items : List Json5)
  | object (members : List (Option String × Json5))
  deriving Repr, Inhabited

namespace Json5

mutual

/-- Whether a value from which nothing is read is valid: its strings and names are text, and its
numbers are in range. -/
def isValid : Json5 → Bool
  | null => true
  | bool _ => true
  | number n => n.isValid
  | string s => s.isSome
  | array items => allValid items
  | object members => membersValid members

/-- Whether all values are valid. -/
def allValid : List Json5 → Bool
  | [] => true
  | item :: items => item.isValid && allValid items

/-- Whether all names are text and all values are valid. -/
def membersValid : List (Option String × Json5) → Bool
  | [] => true
  | (name, value) :: members => name.isSome && value.isValid && membersValid members

end

/-- The string that a value is. -/
def text? : Json5 → Option String
  | string s => s
  | _ => none

/-- The truth value that a value is. -/
def bool? : Json5 → Option Bool
  | bool b => some b
  | _ => none

/-- The natural number that a number becomes in a field that holds at most `limit`. -/
def unsigned? (limit : Nat) : Json5 → Option Nat
  | number n => n.unsigned? limit
  | _ => none

/-- The choice that a value names, as a string or as the first name of an object. -/
def choice? {α : Type} (choices : List (String × α)) : Json5 → Option α
  | string (some name) => choices.lookup name
  | object ((some name, _) :: _) => choices.lookup name
  | _ => none

/-- The items of an array, each of them read. -/
def list? {α : Type} (read : Json5 → Option α) : Json5 → Option (List α)
  | array items => items.mapM read
  | _ => none

/-- The given fields of a record. -/
abbrev Fields := List (String × Json5)

/-- Whether no field is given twice. -/
def Fields.distinct (fields : Fields) : Bool := decide (fields.map (·.1)).Nodup

/-- The members of an object by their names, if these are text. -/
def named? : List (Option String × Json5) → Option Fields
  | [] => some []
  | (name, value) :: rest => do
    let name ← name
    let rest ← named? rest
    some ((name, value) :: rest)

/-- The fields of a record with the given names. An array gives them in order, and what is beyond
the last one is not looked at. An object gives each of them once at most, and its other members must
be valid. -/
def fields? (names : List String) : Json5 → Option Fields
  | array items => some (names.zip items)
  | object members => do
    let members ← named? members
    let known : Fields := members.filter fun member => names.contains member.1
    let others : Fields := members.filter fun member => !names.contains member.1
    if known.distinct && allValid (others.map (·.2)) then some known else none
  | _ => none

namespace Fields

/-- The value of a field that has to be given. -/
def get? {α : Type} (fields : Fields) (name : String) (read : Json5 → Option α) : Option α :=
  (fields.lookup name).bind read

/-- The value of a field, or its default if it is not given. -/
def getD {α : Type} (fields : Fields) (name : String) (read : Json5 → Option α) (default : α) :
    Option α :=
  match fields.lookup name with
  | some value => read value
  | none => some default

end Fields

end Json5

end PlcGateway
