import PlcGateway.Register.Codec
import PlcGateway.Service.Endpoint

/-!
# PLC connections

A PLC connection is an endpoint with the devices that are scanned there and the client that talks to
it. A value with several texts is written text by text, and a text in several frames frame by frame;
the first failure ends the write.
-/

namespace PlcGateway

/-- Why a device cannot be read or written. -/
inductive ServiceError where
  | unknownPlc (name : String)
  | link (e : LinkError)
  | codec (e : CodecError)
  deriving DecidableEq, Repr

/-- The wording of a failure. -/
def ServiceError.message : ServiceError → String
  | .unknownPlc name => s!"Unknown PLC '{name}'"
  | .link e => e.message
  | .codec e => e.message

namespace Client

variable {ν : Type}

/-- Writes frames in order up to the first failure. -/
def writeFrames (peer : Peer ν) (code : DeviceCode) :
    List WriteChunk → Client → ν → Exchange ν Unit
  | [], client, s => ⟨.ok (), 0, client, s⟩
  | chunk :: chunks, client, s =>
    let first := client.write peer code chunk.address chunk.registers chunk.data s
    match first.result with
    | .error _ => first
    | .ok () =>
      let others := writeFrames peer code chunks first.client first.peer
      { others with elapsedMs := first.elapsedMs + others.elapsedMs }

end Client

/-- A PLC and the devices that are scanned there. -/
structure PlcConnection where
  endpoint : Endpoint
  devices : List Device
  client : Client

namespace PlcConnection

/-- A PLC to which there is no connection yet. -/
def make (endpoint : Endpoint) (devices : List Device) : PlcConnection :=
  ⟨endpoint, devices, { options := endpoint.options }⟩

/-- The name of the PLC. -/
def name (plc : PlcConnection) : String := plc.endpoint.name

variable {ν : Type}

/-- Does something with the peer of a PLC, if its host is known. -/
def withPeer {α : Type} (network : Network ν) (plc : PlcConnection) (s : ν)
    (f : Peer ν → Exchange ν α) : Exchange ν α :=
  match network.resolve? plc.endpoint.host plc.endpoint.port with
  | none => ⟨.error (.unresolved plc.endpoint.host plc.endpoint.port), 0, plc.client, s⟩
  | some peer => f peer

/-- Reads the registers of a device. -/
def read (network : Network ν) (plc : PlcConnection) (device : Device) (s : ν) :
    Exchange ν (List UInt8) :=
  plc.withPeer network s fun peer =>
    plc.client.read peer plc.endpoint.readVariant device.code device.offset device.registers s

/-- Writes a payload to a device. -/
def write (network : Network ν) (plc : PlcConnection) (device : Device) (payload : List UInt8)
    (s : ν) : Exchange ν Unit :=
  plc.withPeer network s fun peer =>
    match plc.endpoint.frames device payload with
    | .error e => ⟨.error (.frame e), 0, plc.client, s⟩
    | .ok chunks => plc.client.writeFrames peer device.code chunks s

/-- Encodes and writes texts in order up to the first failure. -/
def writeTexts (network : Network ν) (device : Device) :
    List String → PlcConnection → ν → Except ServiceError Unit × Client × ν
  | [], plc, s => (.ok (), plc.client, s)
  | text :: texts, plc, s =>
    match device.format.encode text device.registers with
    | .error e => (.error (.codec e), plc.client, s)
    | .ok payload =>
      let exchange := plc.write network device payload s
      match exchange.result with
      | .error e => (.error (.link e), exchange.client, exchange.peer)
      | .ok () =>
        writeTexts network device texts { plc with client := exchange.client } exchange.peer

end PlcConnection

end PlcGateway
