import PlcGateway.Frame.Request
import PlcGateway.Frame.Response
import PlcGateway.Link.Basic

/-!
# Clients

A client holds at most one connection to its peer and makes it when it is first needed. An exchange
takes the connection out of its slot, sends one request and reads one response. The connection goes
back only after a whole response has been read, so no answer that is late or broken can be taken for
the answer to a later request.
-/

namespace PlcGateway

/-- An open connection as its client sees it. -/
structure Connection where
  /-- Bytes that have come and have not been read. -/
  arrived : List UInt8 := []
  /-- Whether the connection was reset, so that nothing can be sent over it. -/
  closed : Bool := false
  deriving DecidableEq, Repr, Inhabited

namespace Connection

/-- A connection over which an answer has come. -/
def receive (connection : Connection) (answer : Answer) : Connection :=
  ⟨connection.arrived ++ answer.bytes, connection.closed || answer.closes⟩

/-- Reads bytes. If there are too few of them, then no more come over a closed connection, and none
come in time over an open one. -/
def take (connection : Connection) (count : Nat) :
    Except LinkError (List UInt8 × Connection) :=
  if connection.arrived.length < count then
    .error (if connection.closed then .broken else .timedOut)
  else
    .ok (connection.arrived.take count,
      { connection with arrived := connection.arrived.drop count })

/-- Reads the body of the response that a connection goes on with. -/
def readBody (connection : Connection) : Except LinkError (List UInt8 × Connection) :=
  match connection.take Frame.prefixLength with
  | .error e => .error e
  | .ok (start, connection) =>
    match Frame.responseLength start with
    | .error e => .error (.frame e)
    | .ok length => connection.take length

end Connection

/-- How a client sends its requests. -/
structure ClientOptions where
  station : Station := Station.local
  /-- The device fields of requests to write. -/
  writeVariant : Variant := .standard
  /-- How long it may take to make a connection. -/
  connectTimeoutMs : Nat := 3000
  /-- How long one exchange may take. -/
  ioTimeoutMs : Nat := 5000
  deriving DecidableEq, Repr

instance : Inhabited ClientOptions := ⟨{}⟩

/-- A client of one peer. -/
structure Client where
  options : ClientOptions := {}
  connection : Option Connection := none
  deriving DecidableEq, Repr, Inhabited

/-- How a request to a peer ends. -/
structure Exchange (ν α : Type) where
  result : Except LinkError α
  /-- How long the client has waited. -/
  elapsedMs : Nat
  client : Client
  /-- The state of the peer afterwards. -/
  peer : ν

namespace Client

/-- Whether a client holds a connection. -/
def isConnected (client : Client) : Bool := client.connection.isSome

/-- The client without its connection. -/
def close (client : Client) : Client := { client with connection := none }

variable {ν : Type}

/-- The connection of a client, or else a new one. -/
def connect (peer : Peer ν) (client : Client) (s : ν) : Option Connection × ν :=
  match client.connection with
  | some connection => (some connection, s)
  | none =>
    match peer.accept client.options.connectTimeoutMs s with
    | (true, s) => (some {}, s)
    | (false, s) => (none, s)

/-- How long it takes to read a response, given the answer to its request. -/
def waiting (client : Client) (before : Connection) (answer : Answer)
    (read : Except LinkError (List UInt8 × Connection)) : Nat :=
  match before.readBody, read with
  | .error .timedOut, .error .timedOut => client.options.ioTimeoutMs
  | .error .timedOut, _ => answer.delayMs
  | _, _ => 0

/-- Sends a request and reads the data of a response. -/
def exchange (peer : Peer ν) (client : Client) (request : List UInt8) (s : ν) :
    Exchange ν (List UInt8) :=
  match client.connect peer s with
  | (none, s) => ⟨.error .refused, 0, client.close, s⟩
  | (some connection, s) =>
    if connection.closed then ⟨.error .broken, 0, client.close, s⟩
    else
      let (answer, s) := peer.answer request s
      let limit := client.options.ioTimeoutMs
      let read := (connection.receive (answer.within limit)).readBody
      let elapsed := client.waiting connection answer read
      match read with
      | .error e => ⟨.error e, elapsed, client.close, s⟩
      | .ok (body, connection) =>
        ⟨(Frame.responseData body).mapError .frame, elapsed,
          { client with connection := some (connection.receive (answer.after limit)) }, s⟩

/-- Refuses data of fewer than so many words. -/
def checkWords (points : UInt16) (data : List UInt8) : Except LinkError (List UInt8) :=
  let expected := 2 * points.toNat
  if data.length < expected then
    .error (.frame (.shortResponse (Frame.responseHeader + expected)
      (Frame.responseHeader + data.length)))
  else .ok data

/-- Reads words. -/
def read (peer : Peer ν) (client : Client) (variant : Variant) (code : DeviceCode)
    (offset : UInt32) (points : UInt16) (s : ν) : Exchange ν (List UInt8) :=
  match client.options.station.readRequest variant code offset points with
  | .error e => ⟨.error (.frame e), 0, client, s⟩
  | .ok request =>
    let exchange := client.exchange peer request s
    { exchange with result := exchange.result.bind (checkWords points) }

/-- Writes words. -/
def write (peer : Peer ν) (client : Client) (code : DeviceCode) (offset : UInt32)
    (points : UInt16) (data : List UInt8) (s : ν) : Exchange ν Unit :=
  match client.options.station.writeRequest client.options.writeVariant code offset points data with
  | .error e => ⟨.error (.frame e), 0, client, s⟩
  | .ok request =>
    let exchange := client.exchange peer request s
    ⟨exchange.result.map fun _ => (), exchange.elapsedMs, exchange.client, exchange.peer⟩

end Client

end PlcGateway
