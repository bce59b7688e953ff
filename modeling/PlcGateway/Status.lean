import PlcGateway.Cbor
import PlcGateway.Json.Basic
import PlcGateway.Json.Reader
import PlcGateway.Settings.Basic

/-!
# Status of the gateway

A status names the gateway, its version and what it is doing. Its other members stand beside these
three in one object. A reader takes every unknown member as one of them, the last one of a name; a
known member must be there exactly once and be a string.
-/

namespace PlcGateway

/-- A status message. -/
structure Status where
  bridge : String
  version : String
  /-- "running" or "offline". -/
  state : String
  metadata : List (String × Json) := []
  deriving Inhabited

namespace Status

/-- The name that this gateway reports. -/
def gatewayName : String := "slmp"

/-- The status of a gateway that scans PLCs with so many devices in all. -/
def running (version : String) (plcs : List String) (devices : Nat) : Status where
  bridge := gatewayName
  version := version
  state := "running"
  metadata := [("devices", .nat devices), ("plcs", .array (plcs.map .string))]

/-- The status of a gateway that has stopped. -/
def offline (version : String) : Status where
  bridge := gatewayName
  version := version
  state := "offline"

/-- All members of a status. -/
def members (status : Status) : List (String × Json) :=
  ("bridge", .string status.bridge) :: ("version", .string status.version)
    :: ("status", .string status.state) :: status.metadata

/-- The JSON text of a status. -/
def text (status : Status) : String := String.ofList (Json.object status.members).text

/-- The bytes of a status. In CBOR its map is open. -/
def payload (status : Status) : PayloadFormat → List UInt8
  | .json => Text.utf8 (Json.object status.members).text
  | .cbor => (Cbor.openMap (Cbor.ofMembers status.members)).bytes

/-- The names of the members that every status has. -/
def known : List String := ["bridge", "version", "status"]

/-- The string of a member that is given exactly once. -/
def only? (members : List (String × Json)) (name : String) : Option String :=
  match members.filter fun member => member.1 == name with
  | [(_, .string s)] => some s
  | _ => none

/-- The status that an object says. -/
def ofMembers? (members : List (String × Json)) : Option Status := do
  let bridge ← only? members "bridge"
  let version ← only? members "version"
  let state ← only? members "status"
  let metadata := lastOfEach (members.filter fun member => !known.contains member.1)
  some { bridge, version, state, metadata }

/-- Reads a status from JSON text. -/
def parse? (text : String) : Option Status :=
  match Json.parse? text with
  | some (.object members) => ofMembers? members
  | _ => none

end Status

end PlcGateway
