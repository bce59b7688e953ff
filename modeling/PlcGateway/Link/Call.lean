import PlcGateway.Frame.Stream
import PlcGateway.Link.Client

/-!
# Calls

A call is what somebody asks of a client: to read words or to write them. `Client.perform` carries
out one call, and `Clients.performAll` the calls of several clients of one peer in order.
-/

namespace PlcGateway

/-- What a client is asked to do. -/
inductive LinkCall where
  | read (variant : Variant) (code : DeviceCode) (offset : UInt32) (points : UInt16)
  | write (code : DeviceCode) (offset : UInt32) (points : UInt16) (data : List UInt8)
  deriving DecidableEq, Repr

namespace LinkCall

/-- The order that a client with these options makes of a call. -/
def order (options : ClientOptions) : LinkCall → Order
  | read variant code offset points => ⟨options.station, variant, code, offset, points, none⟩
  | write code offset points data =>
    ⟨options.station, options.writeVariant, code, offset, points, some data⟩

/-- The request that a client with these options sends for a call. -/
def request (options : ClientOptions) (call : LinkCall) : Except FrameError (List UInt8) :=
  (call.order options).frame

/-- What a call ends with, given how the exchange of its request has ended. Only a call to read has
data. -/
def outcome : LinkCall → Except LinkError (List UInt8) → Except LinkError (Option (List UInt8))
  | read _ _ _ points, result => (result.bind (Client.checkWords points)).map some
  | write .., result => result.map fun _ => none

end LinkCall

/-- The same exchange with another result. -/
def Exchange.mapResult {ν α β : Type} (f : Except LinkError α → Except LinkError β)
    (exchange : Exchange ν α) : Exchange ν β :=
  ⟨f exchange.result, exchange.elapsedMs, exchange.client, exchange.peer⟩

/-- Clients of one peer, each with a number, and the state of the peer. -/
structure Clients (ν : Type) where
  client : Nat → Client
  peer : ν

variable {ν : Type}

/-- Carries out a call. -/
def Client.perform (peer : Peer ν) (client : Client) (s : ν) :
    LinkCall → Exchange ν (Option (List UInt8))
  | .read variant code offset points =>
    (client.read peer variant code offset points s).mapResult (·.map some)
  | .write code offset points data =>
    (client.write peer code offset points data s).mapResult (·.map fun _ => none)

namespace Clients

/-- The clients after one of them has carried out a call. -/
def after (clients : Clients ν) (number : Nat) (exchange : Exchange ν (Option (List UInt8))) :
    Clients ν :=
  ⟨fun i => if i = number then exchange.client else clients.client i, exchange.peer⟩

/-- Carries out calls, each by the client with the given number, and gives how each of them has
ended. -/
def performAll (peer : Peer ν) :
    List (Nat × LinkCall) → Clients ν → List (Exchange ν (Option (List UInt8))) × Clients ν
  | [], clients => ([], clients)
  | (number, call) :: calls, clients =>
    let exchange := (clients.client number).perform peer clients.peer call
    let (exchanges, last) := performAll peer calls (clients.after number exchange)
    (exchange :: exchanges, last)

end Clients

namespace Client

theorem perform_of_refused {peer : Peer ν} {client : Client} {s : ν} {call : LinkCall}
    {e : FrameError} (refused : call.request client.options = .error e) :
    client.perform peer s call = ⟨.error (.frame e), 0, client, s⟩ := by
  cases call with
  | read variant code offset points =>
    have hread : client.options.station.readRequest variant code offset points = .error e := refused
    simp only [perform, read, hread]
    rfl
  | write code offset points data =>
    have hwrite : client.options.station.writeRequest client.options.writeVariant code offset points
        data = .error e := refused
    simp only [perform, write, hwrite]
    rfl

/-- A call whose request can be built is an exchange. -/
theorem perform_of_built {peer : Peer ν} {client : Client} {s : ν} {call : LinkCall}
    {request : List UInt8} (built : call.request client.options = .ok request) :
    client.perform peer s call = (client.exchange peer request s).mapResult call.outcome := by
  cases call with
  | read variant code offset points =>
    have hread : client.options.station.readRequest variant code offset points = .ok request :=
      built
    simp only [perform, read, hread]
    rfl
  | write code offset points data =>
    have hwrite : client.options.station.writeRequest client.options.writeVariant code offset points
        data = .ok request := built
    simp only [perform, write, hwrite, Exchange.mapResult, LinkCall.outcome]
    cases (client.exchange peer request s).result <;> rfl

end Client

end PlcGateway
