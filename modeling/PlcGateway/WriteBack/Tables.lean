import PlcGateway.WriteBack.Map

/-!
# The tables of a write map

Settings are read entry by entry, PLC after PLC, into three tables that grow side by side: the
targets by address, the rules, and the addresses that rules name. An entry that cannot be read adds
nothing. A target that is given for an address again takes the place of the one before.

`WriteMap.ofPlcs` keeps only what was read, and looks addresses up in it.
-/

namespace PlcGateway

/-- What has been read of the settings of a write map. -/
structure WriteTables where
  /-- The targets by address. One that was given later stands in front. -/
  targets : List (String × WriteTarget) := []
  rules : List Rule := []
  /-- The addresses that a rule names. -/
  participants : List String := []
  deriving DecidableEq

namespace WriteTables

/-- Puts a target in, over an older one of that address. -/
def putTarget (tables : WriteTables) (mapping : String × WriteTarget) : WriteTables :=
  { tables with targets := mapping :: tables.targets }

/-- Puts a rule and the addresses that it names in. -/
def putRule (tables : WriteTables) (rule : Rule) : WriteTables :=
  { tables with
    rules := tables.rules ++ [rule]
    participants := rule.source :: rule.bit :: tables.participants }

/-- Reads an entry of the mappings of a PLC. -/
def addMapping (plc : String) (tables : WriteTables) (entry : List Char) : WriteTables :=
  match WriteMap.parseMapping? plc entry with
  | some mapping => tables.putTarget mapping
  | none => tables

/-- Reads an entry of the rules. -/
def addRule (tables : WriteTables) (entry : List Char) : WriteTables :=
  match Rule.parse? (String.ofList entry) with
  | some rule => tables.putRule rule
  | none => tables

/-- Reads the mappings of a PLC, and then its rules. -/
def addPlc (tables : WriteTables) (plc : PlcSettings) : WriteTables :=
  (WriteMap.entries plc.conditionalWrites).foldl addRule
    ((WriteMap.entries plc.writeMap).foldl (addMapping plc.name) tables)

/-- The tables of all PLCs. -/
def ofPlcs (plcs : List PlcSettings) : WriteTables := plcs.foldl addPlc {}

/-- Where the value of an address is written. -/
def target? (tables : WriteTables) (address : String) : Option WriteTarget :=
  (tables.targets.find? fun mapping => mapping.1 == address).map (·.2)

/-- Whether a rule names an address. -/
def participates (tables : WriteTables) (address : String) : Bool :=
  tables.participants.contains address

end WriteTables

end PlcGateway
