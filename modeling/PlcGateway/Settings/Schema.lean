import PlcGateway.Json5.Basic
import PlcGateway.Settings.Basic

/-!
# The form of a configuration

Which fields each part of a configuration has, by the names and in the order in which they are
written, and how each is read. A field that has a default may be left out. Numbers are kept within
the width of their field.
-/

namespace PlcGateway

/-- The names of the payload formats. -/
def PayloadFormat.names : List (String × PayloadFormat) := [("json", .json), ("cbor", .cbor)]

/-- The names of the log formats. -/
def LogFormat.names : List (String × LogFormat) := [("text", .text), ("json", .json)]

/-- The names of the worker modes. -/
def WorkerMode.names : List (String × WorkerMode) :=
  [("publish", .publish), ("write_back", .writeBack)]

/-- The names of the PLC models. -/
def PlcModel.names : List (String × PlcModel) := [("q", .q), ("fx", .fx)]

namespace Json5

/-- The 16-bit number that a number becomes. -/
def word? (value : Json5) : Option UInt16 := (value.unsigned? (UInt16.size - 1)).map UInt16.ofNat

/-- The 64-bit number that a number becomes. -/
def quad? (value : Json5) : Option UInt64 := (value.unsigned? (UInt64.size - 1)).map UInt64.ofNat

/-- Reads a value that may also be `null`. -/
def optional? {α : Type} (read : Json5 → Option α) : Json5 → Option (Option α)
  | null => some none
  | value => (read value).map some

end Json5

namespace BusSettings

/-- The fields of the bus settings. -/
def fieldNames : List String := ["mode", "connect", "listen"]

/-- Reads the bus settings. -/
def ofJson5? (value : Json5) : Option BusSettings := do
  let fields ← value.fields? fieldNames
  let default : BusSettings := {}
  some {
    mode := ← fields.getD "mode" Json5.text? default.mode
    connect := ← fields.getD "connect" (Json5.list? Json5.text?) default.connect
    listen := ← fields.getD "listen" (Json5.list? Json5.text?) default.listen }

end BusSettings

namespace LogSettings

/-- The fields of the log settings. -/
def fieldNames : List String := ["level", "format"]

/-- Reads the log settings. -/
def ofJson5? (value : Json5) : Option LogSettings := do
  let fields ← value.fields? fieldNames
  let default : LogSettings := {}
  some {
    level := ← fields.getD "level" Json5.text? default.level
    format := ← fields.getD "format" (Json5.choice? LogFormat.names) default.format }

end LogSettings

namespace PlcSettings

/-- The fields of a PLC. -/
def fieldNames : List String :=
  ["name", "host", "port", "model", "devices_bit", "devices_16bit", "devices_32bit",
    "devices_ascii", "write_map", "conditional_writes", "max_registers_per_frame",
    "connect_timeout_ms", "io_timeout_ms"]

/-- Reads a PLC. Its name and its host have to be given. -/
def ofJson5? (value : Json5) : Option PlcSettings := do
  let fields ← value.fields? fieldNames
  let name ← fields.get? "name" Json5.text?
  let host ← fields.get? "host" Json5.text?
  let default : PlcSettings := { name, host }
  some {
    name, host
    port := ← fields.getD "port" Json5.word? default.port
    model := ← fields.getD "model" (Json5.choice? PlcModel.names) default.model
    devicesBit := ← fields.getD "devices_bit" Json5.text? default.devicesBit
    devicesWord := ← fields.getD "devices_16bit" Json5.text? default.devicesWord
    devicesLong := ← fields.getD "devices_32bit" Json5.text? default.devicesLong
    devicesAscii := ← fields.getD "devices_ascii" Json5.text? default.devicesAscii
    writeMap := ← fields.getD "write_map" Json5.text? default.writeMap
    conditionalWrites :=
      ← fields.getD "conditional_writes" Json5.text? default.conditionalWrites
    maxRegistersPerFrame :=
      ← fields.getD "max_registers_per_frame" (Json5.optional? Json5.word?)
          default.maxRegistersPerFrame
    connectTimeoutMs :=
      ← fields.getD "connect_timeout_ms" Json5.quad? default.connectTimeoutMs
    ioTimeoutMs := ← fields.getD "io_timeout_ms" Json5.quad? default.ioTimeoutMs }

end PlcSettings

namespace ScanSettings

/-- The fields of the scan settings. -/
def fieldNames : List String :=
  ["key_prefix", "mode", "workers", "read_timeout_ms", "scan_interval_ms",
    "fail_on_incomplete_scan", "plcs"]

/-- Reads the scan settings. The PLCs have to be given. -/
def ofJson5? (value : Json5) : Option ScanSettings := do
  let fields ← value.fields? fieldNames
  let plcs ← fields.get? "plcs" (Json5.list? PlcSettings.ofJson5?)
  let default : ScanSettings := { plcs }
  some {
    keyPrefix := ← fields.getD "key_prefix" Json5.text? default.keyPrefix
    mode := ← fields.getD "mode" (Json5.choice? WorkerMode.names) default.mode
    workers := ← fields.getD "workers" Json5.quad? default.workers
    readTimeoutMs := ← fields.getD "read_timeout_ms" Json5.quad? default.readTimeoutMs
    scanIntervalMs := ← fields.getD "scan_interval_ms" Json5.quad? default.scanIntervalMs
    failOnIncompleteScan :=
      ← fields.getD "fail_on_incomplete_scan" Json5.bool? default.failOnIncompleteScan
    plcs }

end ScanSettings

namespace Settings

/-- The parts of a configuration. -/
def fieldNames : List String := ["zenoh", "slmp", "serialization", "logging"]

/-- Reads a configuration. What is scanned has to be given. -/
def ofJson5? (value : Json5) : Option Settings := do
  let fields ← value.fields? fieldNames
  let scan ← fields.get? "slmp" ScanSettings.ofJson5?
  let default : Settings := { scan }
  some {
    bus := ← fields.getD "zenoh" BusSettings.ofJson5? default.bus
    scan
    serialization :=
      ← fields.getD "serialization" (Json5.choice? PayloadFormat.names) default.serialization
    logging := ← fields.getD "logging" LogSettings.ofJson5? default.logging }

end Settings

end PlcGateway
