import PlcGateway.Device.Basic
import PlcGateway.Link.Client
import PlcGateway.Settings.Basic
import PlcGateway.WritePlan

/-!
# Endpoints

An endpoint says where a PLC is and how it is talked to. A device is written in one frame at its own
address if it has one register, and else in the frames that a write plan makes of the payload.
-/

namespace PlcGateway

/-- Where and how a PLC is reached. -/
structure Endpoint where
  name : String
  host : String
  port : UInt16
  /-- The device fields of requests to read. -/
  readVariant : Variant := .standard
  options : ClientOptions := {}
  /-- How many registers one frame of a long write may carry; without it, as many as the device
  has. -/
  frameLimit : Option UInt16 := none
  deriving DecidableEq, Repr, Inhabited

namespace Endpoint

/-- The endpoint of a PLC as configured. -/
def ofSettings (plc : PlcSettings) : Endpoint where
  name := plc.name
  host := plc.host
  port := plc.port
  readVariant := if plc.isFx then .extended else .standard
  options := {
    connectTimeoutMs := plc.connectTimeoutMs.toNat
    ioTimeoutMs := plc.ioTimeoutMs.toNat }
  frameLimit := plc.maxRegistersPerFrame

/-- The frames in which a payload is written to a device. -/
def frames (endpoint : Endpoint) (device : Device) (payload : List UInt8) :
    Except FrameError (List WriteChunk) :=
  if device.registers = 1 then
    .ok [⟨device.offset, UInt16.ofNat (max (WritePlan.registersFor payload.length) 1), payload⟩]
  else WritePlan.make device.offset payload (endpoint.frameLimit.getD device.registers)

end Endpoint

/-- The network: the peers that hosts and ports lead to, where they lead to one. -/
structure Network (ν : Type) where
  resolve? : String → UInt16 → Option (Peer ν)

end PlcGateway
