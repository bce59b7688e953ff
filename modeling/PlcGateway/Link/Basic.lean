import PlcGateway.Frame.Basic

/-!
# Links to PLCs

A link is a byte stream between a client and a peer. The client sees of its peer whether it accepts
a connection and what it answers to a request; `Peer` is the peer as far as this goes. A scripted
peer accepts every connection and answers its requests, over whichever connection they come, with
the items of a script. When the script has ended, it closes a connection without an answer.
-/

namespace PlcGateway

/-- Why a request to a PLC has failed. -/
inductive LinkError where
  /-- The host has no address. -/
  | unresolved (host : String) (port : UInt16)
  /-- No connection was made. -/
  | refused
  /-- The peer has closed the connection. -/
  | broken
  /-- No complete answer came in time. -/
  | timedOut
  /-- The request could not be built, or the answer is not what it should be. -/
  | frame (e : FrameError)
  deriving DecidableEq, Repr

namespace LinkError

/-- The wording of a failure. -/
def message : LinkError → String
  | unresolved host port => s!"Could not resolve PLC address '{host}:{port.toNat}'"
  | refused => "Failed to connect to PLC"
  | broken => "I/O error"
  | timedOut => "Timed out talking to PLC"
  | frame e => e.message

/-- Whether a failure is one of the connection, after which it is not used again. An end code or a
short payload has come in a complete frame. -/
def isTransport : LinkError → Bool
  | refused => true
  | broken => true
  | timedOut => true
  | frame (.badSubheader ..) => true
  | _ => false

end LinkError

/-- What a peer does on a request: after a while it sends bytes, and may then close the connection.
To close a connection is to reset it: nothing can be sent over it any more. A peer that ends its own
stream and no more is one that closes the connection when the next request comes, for until then
requests are sent, and what it has sent before is read. -/
structure Answer where
  bytes : List UInt8 := []
  closes : Bool := false
  delayMs : Nat := 0
  deriving DecidableEq, Repr, Inhabited

namespace Answer

/-- What is seen of an answer by a client that waits so long. -/
def within (limitMs : Nat) (answer : Answer) : Answer :=
  if answer.delayMs < limitMs then answer else {}

/-- What is still to come of an answer after so long. -/
def after (limitMs : Nat) (answer : Answer) : Answer :=
  if answer.delayMs < limitMs then {} else answer

end Answer

/-- The far end of a link; `ν` is the state of all that lies beyond. -/
structure Peer (ν : Type) where
  /-- Asks for a connection and tells whether there is one within so many milliseconds. -/
  accept : Nat → ν → Bool × ν
  /-- Sends a request over a connection. -/
  answer : List UInt8 → ν → Answer × ν

/-- A peer that accepts no connection. -/
def Peer.refusing {ν : Type} : Peer ν where
  accept _ s := (false, s)
  answer _ s := ({ closes := true }, s)

/-! ## Scripted peers -/

/-- What a scripted peer still answers, and what has happened so far. -/
structure Script where
  items : List Answer
  /-- The requests that have come, the last one first. -/
  requests : List (List UInt8) := []
  connections : Nat := 0
  deriving DecidableEq, Repr, Inhabited

namespace Script

/-- Records a request and goes on to the next item. -/
def next (request : List UInt8) (script : Script) : Answer × Script :=
  let script := { script with requests := request :: script.requests }
  match script.items with
  | [] => ({ closes := true }, script)
  | item :: items => (item, { script with items })

/-- The peer that follows a script. -/
def peer : Peer Script where
  accept _ script := (true, { script with connections := script.connections + 1 })
  answer := next

end Script

end PlcGateway
