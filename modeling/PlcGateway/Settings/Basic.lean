/-!
# Settings

The configuration of a gateway, with the default of each setting. `Settings/Schema` reads it from a
configuration file, and `Settings/Validation` states the rules that it has to obey.
-/

namespace PlcGateway

/-- How values are encoded on the bus. -/
inductive PayloadFormat where
  | json
  | cbor
  deriving DecidableEq, Repr, Inhabited

/-- How the log is written. -/
inductive LogFormat where
  | text
  | json
  deriving DecidableEq, Repr, Inhabited

/-- What the workers do with a value: publish it, or apply the write-back rules to it. -/
inductive WorkerMode where
  | publish
  | writeBack
  deriving DecidableEq, Repr, Inhabited

/-- The family of a PLC, which decides how reads give their device. -/
inductive PlcModel where
  | q
  | fx
  deriving DecidableEq, Repr, Inhabited

/-- How the gateway takes part in the bus. -/
structure BusSettings where
  mode : String := "peer"
  connect : List String := []
  listen : List String := []
  deriving DecidableEq, Repr, Inhabited

/-- What is logged, and how. -/
structure LogSettings where
  level : String := "info"
  format : LogFormat := .text
  deriving DecidableEq, Repr, Inhabited

/-- One PLC: where it is, what is read from it, and what is written to it. -/
structure PlcSettings where
  name : String
  host : String
  port : UInt16 := 5011
  model : PlcModel := .q
  /-- Four device lists, in the order in which they are scanned. -/
  devicesBit : String := ""
  devicesWord : String := ""
  devicesLong : String := ""
  devicesAscii : String := ""
  /-- Mappings `source>target`, separated by `;`. -/
  writeMap : String := ""
  /-- Conditional rules, separated by `;`. -/
  conditionalWrites : String := ""
  /-- How many registers one frame of a long write may carry. -/
  maxRegistersPerFrame : Option UInt16 := none
  connectTimeoutMs : UInt64 := 3000
  ioTimeoutMs : UInt64 := 5000
  deriving DecidableEq, Repr, Inhabited

/-- What is scanned, and what is done with it. -/
structure ScanSettings where
  keyPrefix : String := "mcsight/slmp"
  mode : WorkerMode := .publish
  workers : UInt64 := 15
  readTimeoutMs : UInt64 := 10000
  scanIntervalMs : UInt64 := 0
  failOnIncompleteScan : Bool := false
  plcs : List PlcSettings
  deriving DecidableEq, Repr, Inhabited

/-- The whole configuration. -/
structure Settings where
  bus : BusSettings := {}
  scan : ScanSettings
  serialization : PayloadFormat := .json
  logging : LogSettings := {}
  deriving DecidableEq, Repr, Inhabited

namespace PlcSettings

/-- The device lists in the order in which they are scanned. -/
def deviceLists (plc : PlcSettings) : List String :=
  [plc.devicesBit, plc.devicesWord, plc.devicesLong, plc.devicesAscii]

/-- Whether reads use the extended device fields. -/
def isFx (plc : PlcSettings) : Bool := plc.model == .fx

end PlcSettings

/-- The same way of logging at another level. -/
def LogSettings.withLevel (logging : LogSettings) (level : String) : LogSettings :=
  { logging with level }

end PlcGateway
