import PlcGateway.Link.Call

/-!
# Callers that share a client

Any number of callers may use one client at the same time. A caller waits for its turn. Then it
takes the connection out of the slot, or asks for a new one, sends its request and reads a response.
It puts the connection back only when it has read a whole one; until then it may fail, run out of
time or be abandoned at any moment, and the connection is lost. Bytes travel one by one. The peer
takes requests off its end of a connection, in use or lost, and answers them whenever it likes.

`Line.Step` is one step of a caller or of the peer. What a caller does that nobody disturbs is
`Client.perform`.
-/

namespace PlcGateway

/-- A connection, seen from both ends. With every byte goes a number that nobody sees: with a byte
of a request that of the call that has sent it, with a byte of an answer that of the call whose
request is answered. -/
structure Wire where
  /-- The bytes that were sent to the peer and that it has not taken off. -/
  toPeer : List (Nat × UInt8) := []
  /-- The bytes that were sent to the client and that it has not read. -/
  toClient : List (Nat × UInt8) := []
  deriving DecidableEq, Repr

/-- Who uses the client. -/
inductive Line.Turn where
  | free
  /-- A call waits for a new connection. -/
  | dialing (number : Nat)
  /-- A call uses a connection. Some of its request is left to be sent, and some of the response has
  been read. -/
  | busy (number wire : Nat) (left got : List UInt8)
  /-- A connection is being shut down. -/
  | closing
  deriving DecidableEq, Repr

/-- The call whose turn it is. -/
def Line.Turn.number? : Line.Turn → Option Nat
  | dialing number => some number
  | busy number .. => some number
  | _ => none

/-- A client that callers share. -/
structure Line where
  /-- Every call so far; the number of a call is its place. -/
  calls : List LinkCall := []
  /-- The calls that wait for their turn. -/
  waiting : List Nat := []
  turn : Line.Turn := .free
  /-- The connection that is kept between two turns. -/
  slot : Option Nat := none
  /-- Every connection so far, with those that are lost. -/
  wires : List Wire := []

/-- What a step of a caller or of the peer does. -/
inductive LineEvent where
  /-- A caller makes a call. -/
  | ask (call : LinkCall)
  /-- A caller goes on. -/
  | work
  /-- The call with the number reads a byte. -/
  | read (number : Nat) (byte : Nat × UInt8)
  /-- The call with the number ends. -/
  | result (number : Nat) (result : Except LinkError (Option (List UInt8)))
  /-- The call with the number is abandoned. -/
  | abandon (number : Nat)
  /-- The peer answers a request. The number is that of the first byte of the request. -/
  | answer (number : Nat) (request : List (Nat × UInt8)) (bytes : List UInt8)

namespace Line

/-- The call with the number has this request. -/
def HasRequest (options : ClientOptions) (calls : List LinkCall) (number : Nat)
    (request : List UInt8) : Prop :=
  ∃ call, calls[number]? = some call ∧ call.request options = .ok request

/-- A step of a caller or of the peer. -/
inductive Step (options : ClientOptions) : Line → LineEvent → Line → Prop where
  | ask (line : Line) (call : LinkCall) (request : List UInt8)
      (built : call.request options = .ok request) :
      Step options line (.ask call)
        { line with calls := line.calls ++ [call], waiting := line.calls.length :: line.waiting }
  /-- The request of a call cannot be built. -/
  | refuse (line : Line) (call : LinkCall) (e : FrameError)
      (refused : call.request options = .error e) :
      Step options line (.result line.calls.length (.error (.frame e)))
        { line with calls := line.calls ++ [call] }
  /-- A call has its turn and takes the connection out of the slot. -/
  | reuse (line : Line) (number wire : Nat) (request : List UInt8) (free : line.turn = .free)
      (waits : number ∈ line.waiting) (wanted : HasRequest options line.calls number request)
      (kept : line.slot = some wire) :
      Step options line .work
        { line with
          waiting := line.waiting.erase number, turn := .busy number wire request [], slot := none }
  /-- A call has its turn and asks for a connection. -/
  | dial (line : Line) (number : Nat) (free : line.turn = .free) (waits : number ∈ line.waiting)
      (kept : line.slot = none) :
      Step options line .work
        { line with waiting := line.waiting.erase number, turn := .dialing number }
  | connect (line : Line) (number : Nat) (request : List UInt8)
      (dialing : line.turn = .dialing number)
      (wanted : HasRequest options line.calls number request) :
      Step options line .work
        { line with
          turn := .busy number line.wires.length request [], wires := line.wires ++ [{}] }
  /-- There is no new connection, or it breaks at once. -/
  | decline (line : Line) (number : Nat) (e : LinkError) (dialing : line.turn = .dialing number)
      (cause : e = .refused ∨ e = .broken) :
      Step options line (.result number (.error e)) { line with turn := .free }
  | send (line : Line) (number place : Nat) (wire : Wire) (byte : UInt8) (left : List UInt8)
      (busy : line.turn = .busy number place (byte :: left) [])
      (found : line.wires[place]? = some wire) :
      Step options line .work
        { line with
          turn := .busy number place left []
          wires := line.wires.set place
            { wire with toPeer := wire.toPeer ++ [(number, byte)] } }
  /-- A call that has sent its request and has not read a whole response reads a byte. -/
  | read (line : Line) (number place : Nat) (wire : Wire) (got : List UInt8) (byte : Nat × UInt8)
      (more : List (Nat × UInt8)) (busy : line.turn = .busy number place [] got)
      (unread : Connection.readBody ⟨got, false⟩ = .error .timedOut)
      (found : line.wires[place]? = some wire) (coming : wire.toClient = byte :: more) :
      Step options line (.read number byte)
        { line with
          turn := .busy number place [] (got ++ [byte.2])
          wires := line.wires.set place { wire with toClient := more } }
  /-- A whole response was read, and the connection goes back into the slot. -/
  | finish (line : Line) (number place : Nat) (call : LinkCall) (got body : List UInt8)
      (busy : line.turn = .busy number place [] got) (made : line.calls[number]? = some call)
      (whole : Connection.readBody ⟨got, false⟩ = .ok (body, {})) :
      Step options line
        (.result number (call.outcome ((Frame.responseData body).mapError .frame)))
        { line with turn := .free, slot := some place }
  /-- What was read starts no response. -/
  | reject (line : Line) (number place : Nat) (got : List UInt8) (e : FrameError)
      (busy : line.turn = .busy number place [] got)
      (wrong : Connection.readBody ⟨got, false⟩ = .error (.frame e)) :
      Step options line (.result number (.error (.frame e))) { line with turn := .free }
  /-- The connection breaks, or the time is over. -/
  | fail (line : Line) (number place : Nat) (left got : List UInt8) (e : LinkError)
      (busy : line.turn = .busy number place left got) (cause : e = .broken ∨ e = .timedOut) :
      Step options line (.result number (.error e)) { line with turn := .free }
  /-- A call is abandoned before its turn. -/
  | leave (line : Line) (number : Nat) (waits : number ∈ line.waiting) :
      Step options line (.abandon number)
        { line with waiting := line.waiting.erase number }
  /-- A call is abandoned in its turn. -/
  | drop (line : Line) (number : Nat) (uses : line.turn.number? = some number) :
      Step options line (.abandon number) { line with turn := .free }
  /-- A caller closes the client, which has a connection. -/
  | close (line : Line) (wire : Nat) (free : line.turn = .free) (kept : line.slot = some wire) :
      Step options line .work { line with turn := .closing, slot := none }
  /-- The connection is shut down, or the caller that has closed the client is abandoned. -/
  | closed (line : Line) (closing : line.turn = .closing) :
      Step options line .work { line with turn := .free }
  /-- The peer takes a request off a connection and answers it. -/
  | answer (line : Line) (place number : Nat) (wire : Wire) (start body rest bytes : List UInt8)
      (found : line.wires[place]? = some wire)
      (request : Frame.next? (wire.toPeer.map Prod.snd) = some ((start, body), rest))
      (first : wire.toPeer.head?.map Prod.fst = some number) :
      Step options line
        (.answer number (wire.toPeer.take (start.length + body.length)) bytes)
        { line with
          wires := line.wires.set place
            ⟨wire.toPeer.drop (start.length + body.length),
              wire.toClient ++ bytes.map (number, ·)⟩ }

/-- Steps of callers and of the peer, with all that has happened, in order. -/
inductive Run (options : ClientOptions) (first : Line) : List LineEvent → Line → Prop where
  | nil : Run options first [] first
  | snoc {line line' : Line} {events : List LineEvent} {event : LineEvent}
      (run : Run options first events line) (step : Step options line event line') :
      Run options first (events ++ [event]) line'

end Line

end PlcGateway
