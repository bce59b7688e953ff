import PlcGateway.Json.Basic
import PlcGateway.Settings.Schema

/-!
# A configuration as a document

The whole configuration as one JSON value, with the defaults filled in. Every field is there; a
frame limit that is not set is `null`.
-/

namespace PlcGateway

/-- The name of a choice. -/
def nameOf {α : Type} [BEq α] (names : List (String × α)) (value : α) : Json :=
  match names.find? fun choice => choice.2 == value with
  | some choice => .string choice.1
  | none => .null

/-- Strings as a value. -/
def Json.strings (list : List String) : Json := .array (list.map .string)

/-- The bus settings as a value. -/
def BusSettings.json (bus : BusSettings) : Json :=
  .object [("mode", .string bus.mode), ("connect", .strings bus.connect),
    ("listen", .strings bus.listen)]

/-- The log settings as a value. -/
def LogSettings.json (logging : LogSettings) : Json :=
  .object [("level", .string logging.level), ("format", nameOf LogFormat.names logging.format)]

/-- The settings of a PLC as a value. -/
def PlcSettings.json (plc : PlcSettings) : Json :=
  .object [
    ("name", .string plc.name),
    ("host", .string plc.host),
    ("port", .nat plc.port.toNat),
    ("model", nameOf PlcModel.names plc.model),
    ("devices_bit", .string plc.devicesBit),
    ("devices_16bit", .string plc.devicesWord),
    ("devices_32bit", .string plc.devicesLong),
    ("devices_ascii", .string plc.devicesAscii),
    ("write_map", .string plc.writeMap),
    ("conditional_writes", .string plc.conditionalWrites),
    ("max_registers_per_frame",
      match plc.maxRegistersPerFrame with
      | some limit => .nat limit.toNat
      | none => .null),
    ("connect_timeout_ms", .nat plc.connectTimeoutMs.toNat),
    ("io_timeout_ms", .nat plc.ioTimeoutMs.toNat)]

/-- The scan settings as a value. -/
def ScanSettings.json (scan : ScanSettings) : Json :=
  .object [
    ("key_prefix", .string scan.keyPrefix),
    ("mode", nameOf WorkerMode.names scan.mode),
    ("workers", .nat scan.workers.toNat),
    ("read_timeout_ms", .nat scan.readTimeoutMs.toNat),
    ("scan_interval_ms", .nat scan.scanIntervalMs.toNat),
    ("fail_on_incomplete_scan", .bool scan.failOnIncompleteScan),
    ("plcs", .array (scan.plcs.map PlcSettings.json))]

/-- A configuration as a value. -/
def Settings.json (settings : Settings) : Json :=
  .object [
    ("zenoh", settings.bus.json),
    ("slmp", settings.scan.json),
    ("serialization", nameOf PayloadFormat.names settings.serialization),
    ("logging", settings.logging.json)]

end PlcGateway
