import PlcGateway.Frame.Basic
import PlcGateway.Settings.Basic
import PlcGateway.Text.Blank

/-!
# Rules that a configuration obeys

A configuration may have the right form and still be refused: `validate` reports the first rule
that it breaks. The bus comes first, then the scan settings, then the PLCs one by one.
-/

namespace PlcGateway

/-- A rule that a configuration breaks. -/
inductive BrokenRule where
  | busMode (mode : String)
  | noPlcs
  | noWorkers
  | noReadTimeout
  | blankName
  | nameTaken (plc : String)
  | zeroPort (plc : String)
  | frameLimit (plc : String) (value : UInt16)
  deriving DecidableEq, Repr

/-- The wording of a broken rule. -/
def BrokenRule.message : BrokenRule → String
  | .busMode mode => s!"Invalid Zenoh mode: '{mode}'. Expected 'client', 'peer', or 'router'"
  | .noPlcs => "At least one PLC must be configured"
  | .noWorkers => "workers must be at least 1"
  | .noReadTimeout => "read_timeout_ms must be greater than zero"
  | .blankName => "PLC name cannot be empty"
  | .nameTaken plc => s!"PLC '{plc}' is configured more than once"
  | .zeroPort plc => s!"PLC '{plc}': port must be non-zero"
  | .frameLimit plc value =>
    s!"PLC '{plc}': max_registers_per_frame must be 1-{Frame.maxPoints}, got {value.toNat}"

/-- The ways of taking part in the bus. -/
def BusSettings.modes : List String := ["client", "peer", "router"]

/-- Checks that the bus has such a mode. -/
def BusSettings.validate (bus : BusSettings) : Except BrokenRule Unit :=
  if modes.contains bus.mode then .ok () else .error (.busMode bus.mode)

/-- Whether a frame limit can be kept to. -/
def validFrameLimit (limit : UInt16) : Bool := 0 < limit.toNat && limit.toNat ≤ Frame.maxPoints

namespace PlcSettings

/-- Checks one PLC, given the names of those before it. -/
def validate (taken : List String) (plc : PlcSettings) : Except BrokenRule Unit :=
  if Text.allBlank plc.name.toList then .error .blankName
  else if taken.contains plc.name then .error (.nameTaken plc.name)
  else if plc.port = 0 then .error (.zeroPort plc.name)
  else
    match plc.maxRegistersPerFrame with
    | none => .ok ()
    | some limit =>
      if validFrameLimit limit then .ok () else .error (.frameLimit plc.name limit)

/-- Checks PLCs in order, given the names of those before them. -/
def validateAll (taken : List String) : List PlcSettings → Except BrokenRule Unit
  | [] => .ok ()
  | plc :: plcs =>
    match plc.validate taken with
    | .error e => .error e
    | .ok () => validateAll (plc.name :: taken) plcs

end PlcSettings

/-- Checks the scan settings. -/
def ScanSettings.validate (scan : ScanSettings) : Except BrokenRule Unit :=
  if scan.plcs.isEmpty then .error .noPlcs
  else if scan.workers = 0 then .error .noWorkers
  else if scan.readTimeoutMs = 0 then .error .noReadTimeout
  else PlcSettings.validateAll [] scan.plcs

/-- Checks a configuration. -/
def Settings.validate (settings : Settings) : Except BrokenRule Unit :=
  match settings.bus.validate with
  | .error e => .error e
  | .ok () => settings.scan.validate

end PlcGateway
