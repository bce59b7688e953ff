import PlcGateway.Device.List
import PlcGateway.Scan.Pass
import PlcGateway.Service.Connection
import PlcGateway.WriteBack.Engine

/-!
# The service of several PLCs

A service knows PLCs by their names, each name once, in the order in which they were first
registered. It reads and writes single devices, and it offers a reader for scans, which gives up a
read after a while, and a writer for the write-back rules.
-/

namespace PlcGateway

/-- The PLCs of a gateway. -/
structure Service where
  plcs : List PlcConnection
  /-- How long a scan waits for one device. -/
  readTimeoutMs : Nat
  names_nodup : (plcs.map PlcConnection.name).Nodup

namespace Service

/-- The service that knows no PLC. -/
def empty (readTimeoutMs : Nat) : Service := ⟨[], readTimeoutMs, .nil⟩

/-- The names of the PLCs. -/
def names (service : Service) : List String := service.plcs.map PlcConnection.name

/-- The PLC of a name. -/
def find? (service : Service) (name : String) : Option PlcConnection :=
  service.plcs.find? fun plc => plc.name == name

/-- All devices that are scanned, in the order in which this is done. -/
def devices (service : Service) : List (String × Device) :=
  service.plcs.flatMap fun plc => plc.devices.map (plc.name, ·)

/-- How many devices are scanned. -/
def deviceCount (service : Service) : Nat := service.devices.length

/-- Puts a PLC in the place of the one that has its name. -/
def substitute (plc : PlcConnection) (plcs : List PlcConnection) : List PlcConnection :=
  plcs.map fun other => if other.name = plc.name then plc else other

theorem names_substitute (plc : PlcConnection) (plcs : List PlcConnection) :
    (substitute plc plcs).map PlcConnection.name = plcs.map PlcConnection.name := by
  induction plcs with
  | nil => rfl
  | cons other rest ih =>
    simp only [substitute, List.map_cons] at ih ⊢
    rw [ih]
    split <;> simp_all

/-- Puts a PLC in the place of the one that has its name, or at the end. -/
def insert (plc : PlcConnection) (plcs : List PlcConnection) : List PlcConnection :=
  if plc.name ∈ plcs.map PlcConnection.name then substitute plc plcs else plcs ++ [plc]

theorem names_insert_nodup {plc : PlcConnection} {plcs : List PlcConnection}
    (h : (plcs.map PlcConnection.name).Nodup) :
    ((insert plc plcs).map PlcConnection.name).Nodup := by
  unfold insert
  split
  · rwa [names_substitute]
  · next fresh =>
    rw [List.map_append, List.map_singleton]
    exact List.nodup_append.2 ⟨h, by simp, by
      intro a ha b hb
      rw [List.mem_singleton] at hb
      rintro rfl
      exact fresh (hb ▸ ha)⟩

/-- The service in which a PLC has another client. -/
def setClient (service : Service) (plc : PlcConnection) (client : Client) : Service :=
  { service with
    plcs := substitute { plc with client } service.plcs
    names_nodup := by rw [names_substitute]; exact service.names_nodup }

/-- Registers a PLC with the devices that are scanned there; one of the same name is replaced. -/
def register (service : Service) (endpoint : Endpoint) (devices : List Device) : Service :=
  { service with
    plcs := insert (.make endpoint devices) service.plcs
    names_nodup := names_insert_nodup service.names_nodup }

/-- The devices of a PLC as configured. -/
def configuredDevices (plc : PlcSettings) : List Device :=
  plc.deviceLists.flatMap Device.parseList

/-- Registers a PLC as configured. -/
def registerSettings (service : Service) (plc : PlcSettings) : Service :=
  service.register (.ofSettings plc) (configuredDevices plc)

/-- Closes all connections. -/
def close (service : Service) : Service :=
  { service with
    plcs := service.plcs.map fun plc => { plc with client := plc.client.close }
    names_nodup := by
      rw [List.map_map]
      exact service.names_nodup }

variable {ν : Type}

/-- Reads a device of a PLC. -/
def readDevice (network : Network ν) (name : String) (device : Device) :
    Service × ν → Except ServiceError RegisterValue × Service × ν
  | (service, s) =>
    match service.find? name with
    | none => (.error (.unknownPlc name), service, s)
    | some plc =>
      let exchange := plc.read network device s
      let service := service.setClient plc exchange.client
      let value :=
        match exchange.result with
        | .error e => .error (.link e)
        | .ok payload => (device.format.decode payload).mapError .codec
      (value, service, exchange.peer)

/-- Writes a value to a device of a PLC. -/
def writeDevice (network : Network ν) (name : String) (device : Device) (value : WriteValue) :
    Service × ν → Except ServiceError Unit × Service × ν
  | (service, s) =>
    match service.find? name with
    | none => (.error (.unknownPlc name), service, s)
    | some plc =>
      let (result, client, s) := plc.writeTexts network device value.strings s
      (result, service.setClient plc client, s)

/-- Whether a read that took so long was given up. -/
def givesUp (service : Service) (elapsedMs : Nat) : Bool :=
  0 < elapsedMs && service.readTimeoutMs ≤ elapsedMs

/-- The reader of a scan. A read that is given up leaves no connection behind. -/
def reader (network : Network ν) : Reader (Service × ν) := fun name device (service, s) =>
  match service.find? name with
  | none => (.failed, service, s)
  | some plc =>
    let exchange := plc.read network device s
    if service.givesUp exchange.elapsedMs then
      (.timedOut, service.setClient plc exchange.client.close, exchange.peer)
    else
      let reading :=
        match exchange.result with
        | .error _ => .failed
        | .ok payload =>
          match device.format.decode payload with
          | .error _ => .failed
          | .ok value => .value value
      (reading, service.setClient plc exchange.client, exchange.peer)

/-- The writer of the write-back rules. -/
def writer (network : Network ν) : Writer (Service × ν) := fun target value state =>
  match writeDevice network target.plc target.device value state with
  | (.ok (), state) => (true, state)
  | (.error _, state) => (false, state)

end Service

end PlcGateway
