import PlcGateway.Text.Blank
import PlcGateway.Text.Cut

/-!
# Conditional rules

A rule `bit==source` or `bit!=source` forwards the value of `source` once, when the integer at
`bit` is one, or is not one.
-/

namespace PlcGateway

/-- How a rule compares its bit with one. -/
inductive Operator where
  | equal
  | notEqual
  deriving DecidableEq, Repr, Inhabited

namespace Operator

/-- The operator as written. -/
def symbol : Operator → List Char
  | equal => ['=', '=']
  | notEqual => ['!', '=']

/-- Whether an integer meets the condition. -/
def holds : Operator → Int → Bool
  | equal, n => n == 1
  | notEqual, n => n != 1

end Operator

/-- A conditional rule. -/
structure Rule where
  bit : String
  operator : Operator
  source : String
  deriving DecidableEq, Repr, Inhabited

namespace Rule

/-- The operator of a rule text: `==` wherever it occurs, else `!=`. -/
def operator? (text : List Char) : Option Operator :=
  if Text.occurs Operator.equal.symbol text then some .equal
  else if Text.occurs Operator.notEqual.symbol text then some .notEqual
  else none

/-- Reads a rule. Its operator must occur once, with something other than blanks on both sides. -/
def parse? (text : String) : Option Rule := do
  let text := Text.trim text.toList
  let operator ← operator? text
  let (before, after) ← Text.cut? operator.symbol text
  let bit := Text.trim before
  let source := Text.trim after
  if Text.occurs operator.symbol after || bit.isEmpty || source.isEmpty then none
  else some ⟨String.ofList bit, operator, String.ofList source⟩

/-- A rule as written. -/
def display (rule : Rule) : String :=
  rule.bit ++ String.ofList rule.operator.symbol ++ rule.source

/-- Whether a rule names an address. -/
def names (rule : Rule) (address : String) : Bool :=
  rule.bit == address || rule.source == address

end Rule

end PlcGateway
