import PlcGateway.Register.Value
import PlcGateway.Status

/-!
# Publishing

A message goes onto the bus as an object with its address and its value, as JSON text or as CBOR;
the PLC's name is not part of it. A publisher puts messages on the bus under its own prefix, each
under the address of its device, and the status of the gateway under `@/status`. Which keys the bus
takes is the bus's own affair, so its check is a part of the publisher. What the bus refuses is not
put.
-/

namespace PlcGateway

/-! ## Payloads -/

/-- A value on the bus: numbers stay numbers, and everything else is text. -/
def RegisterValue.json : RegisterValue → Json
  | .unsigned n => .int n.toNat
  | .signed n => .int n.toInt
  | .bit n => .int n.toNat
  | .text s => .string s
  | .real s => .string s

namespace Message

/-- The members of the object that is put on the bus. -/
def members (message : Message) : List (String × Json) :=
  [("address", .string message.address), ("value", message.value.json)]

/-- The bytes that are put on the bus. -/
def payload (message : Message) : PayloadFormat → List UInt8
  | .json => Text.utf8 (Json.object message.members).text
  | .cbor => (Cbor.map (Cbor.ofMembers message.members)).bytes

end Message

/-! ## Publishers -/

namespace Bus

/-- A key made of the gateway's own part and a suffix, which may be missing. -/
def key (base suffix : String) : String :=
  if suffix.isEmpty then base else base ++ "/" ++ suffix

/-- A payload under a key. -/
structure Entry where
  key : String
  payload : List UInt8
  deriving DecidableEq, Repr

/-- Where and how values are published. -/
structure Publisher where
  base : String
  format : PayloadFormat
  /-- Whether the bus takes a key. -/
  accepts : String → Bool

namespace Publisher

/-- Puts a payload under a key, if the bus takes the key. -/
def put? (publisher : Publisher) (key : String) (payload : List UInt8) : Option Entry :=
  if publisher.accepts key then some ⟨key, payload⟩ else none

/-- What a message puts on the bus. -/
def message? (publisher : Publisher) (message : Message) : Option Entry :=
  publisher.put? (key publisher.base message.address) (message.payload publisher.format)

/-- What a status puts on the bus: always JSON. -/
def status? (publisher : Publisher) (status : Status) : Option Entry :=
  publisher.put? (key publisher.base "@/status") (status.payload .json)

end Publisher

end Bus

end PlcGateway
