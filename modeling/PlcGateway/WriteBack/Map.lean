import PlcGateway.Device.List
import PlcGateway.Settings.Basic
import PlcGateway.WriteBack.Rule

/-!
# The write map

A write map collects, over all PLCs, the mappings from an address to the device that its value is
written to, and the conditional rules. Entries that cannot be read are left out. Of two mappings of
one address the later one counts.
-/

namespace PlcGateway

/-- A device of a PLC that values are written to. -/
structure WriteTarget where
  plc : String
  device : Device
  deriving DecidableEq

/-- Mappings and conditional rules. -/
structure WriteMap where
  /-- The mappings in the order in which they were given. -/
  mappings : List (String × WriteTarget)
  rules : List Rule

instance : Inhabited WriteMap := ⟨⟨[], []⟩⟩

namespace WriteMap

/-- The entries of a text that are not blank, without the blanks around them. -/
def entries (text : String) : List (List Char) :=
  ((Text.fields ';' text.toList).map Text.trim).filter fun entry => !entry.isEmpty

/-- Reads a mapping `source>target` to a device of a PLC. -/
def parseMapping? (plc : String) (entry : List Char) : Option (String × WriteTarget) := do
  let (source, target) ← Text.cut? ['>'] entry
  let device ← (Device.parseTarget (String.ofList target)).toOption
  some (String.ofList (Text.trim source), ⟨plc, device⟩)

/-- The mappings of one PLC. -/
def mappingsOf (plc : PlcSettings) : List (String × WriteTarget) :=
  (entries plc.writeMap).filterMap (parseMapping? plc.name)

/-- The conditional rules given with one PLC. -/
def rulesOf (plc : PlcSettings) : List Rule :=
  (entries plc.conditionalWrites).filterMap fun entry => Rule.parse? (String.ofList entry)

/-- The write map of all PLCs. -/
def ofPlcs (plcs : List PlcSettings) : WriteMap :=
  ⟨plcs.flatMap mappingsOf, plcs.flatMap rulesOf⟩

/-- Where the value of an address is written: the last mapping given for it. -/
def target? (map : WriteMap) (address : String) : Option WriteTarget :=
  (map.mappings.reverse.find? fun mapping => mapping.1 == address).map (·.2)

/-- Whether a rule names an address. -/
def participates (map : WriteMap) (address : String) : Bool :=
  map.rules.any fun rule => rule.names address

end WriteMap

end PlcGateway
