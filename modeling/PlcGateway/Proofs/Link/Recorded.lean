import PlcGateway.Proofs.Link.Line
import PlcGateway.Proofs.Link.Response
import PlcGateway.Service.Endpoint

/-!
# Peers with a record

What a peer has seen can be told from a record of the requests that were sent to it and of its
answers. The record changes nothing else (`Client.exchange_forget`). An exchange sends its request
once or not at all (`Client.exchange_recorded_cases`). If nothing is left to be read, then it ends
as the answer to its request says, and after a reply nothing is left to be read again
(`Client.exchange_of_drained`).
-/

namespace PlcGateway

variable {ν α : Type}

/-- A request that was sent to a peer, and the answer to it. -/
structure Sent where
  request : List UInt8
  answer : Answer
  deriving DecidableEq, Repr

/-- The same peer with a record of what was sent to it, the last request at the end. -/
def Peer.recorded (peer : Peer ν) : Peer (List Sent × ν) where
  accept limitMs state :=
    let (accepted, s) := peer.accept limitMs state.2
    (accepted, state.1, s)
  answer request state :=
    let (answer, s) := peer.answer request state.2
    (answer, state.1 ++ [⟨request, answer⟩], s)

/-- The same network with a record of what was sent to any of its peers. -/
def Network.recorded (network : Network ν) : Network (List Sent × ν) where
  resolve? host port := (network.resolve? host port).map Peer.recorded

/-- An exchange without the record. -/
def Exchange.forget (exchange : Exchange (List Sent × ν) α) : Exchange ν α :=
  ⟨exchange.result, exchange.elapsedMs, exchange.client, exchange.peer.2⟩

/-! ## What an answer comes to -/

namespace Answer

/-- What a client that waits so long makes of an answer, if nothing else has come. -/
def outcome (limitMs : Nat) (answer : Answer) : Except LinkError (List UInt8) :=
  (Connection.receive {} (answer.within limitMs)).readBody.bind fun read =>
    (Frame.responseData read.1).mapError .frame

/-- The answer comes in time, and it is a whole response with the end code zero. -/
def Acknowledges (limitMs : Nat) (answer : Answer) : Prop :=
  answer.delayMs < limitMs ∧ ∃ data, Frame.parseResponse answer.bytes = .ok data

variable {answer : Answer} {limitMs : Nat}

theorem outcome_of_late (late : limitMs ≤ answer.delayMs) :
    answer.outcome limitMs = .error .timedOut := by
  rw [outcome, within, if_neg (Nat.not_lt.2 late)]
  rfl

theorem outcome_of_inTime (inTime : answer.delayMs < limitMs) :
    answer.outcome limitMs = (Connection.readBody ⟨answer.bytes, answer.closes⟩).bind fun read =>
      (Frame.responseData read.1).mapError .frame := by
  rw [outcome, within, if_pos inTime]
  rfl

theorem exists_outcome_eq_ok_iff :
    (∃ data, answer.outcome limitMs = .ok data) ↔ answer.Acknowledges limitMs := by
  by_cases inTime : answer.delayMs < limitMs
  · rw [outcome_of_inTime inTime]
    constructor
    · rintro ⟨data, hdata⟩
      refine ⟨inTime, data, ?_⟩
      cases hread : Connection.readBody ⟨answer.bytes, answer.closes⟩ with
      | error e =>
        rw [hread] at hdata
        simp [Except.bind] at hdata
      | ok read =>
        obtain ⟨hlong, hwhole, -⟩ := Connection.whole_of_readBody_ok hread
        rw [Connection.readBody_bind_responseData hlong hwhole] at hdata
        cases hparse : Frame.parseResponse answer.bytes with
        | error e => simp [hparse, Except.mapError] at hdata
        | ok data' =>
          rw [hparse] at hdata
          exact congrArg _ (Except.ok.inj hdata)
    · rintro ⟨-, data, hdata⟩
      obtain ⟨hlong, -, -, hwhole, -⟩ :=
        Frame.fault?_eq_none_iff.1 (Frame.parseResponse_eq_ok_iff.1 hdata).1
      exact ⟨data, by rw [Connection.readBody_bind_responseData hlong hwhole, hdata]; rfl⟩
  · rw [outcome_of_late (Nat.le_of_not_lt inTime)]
    exact iff_of_false (by simp) fun acknowledges => inTime acknowledges.1

end Answer

/-- Nothing of a reply is left when a body has been read. -/
theorem Frame.IsReply.left_of_readBody {bytes body : List UInt8} {left : Connection} {closed : Bool}
    (reply : Frame.IsReply bytes) (read : Connection.readBody ⟨bytes, closed⟩ = .ok (body, left)) :
    left = { closed } := by
  obtain ⟨start, harrived, hclosed, hstart, hlength⟩ := Connection.readBody_eq_ok_iff.1 read
  obtain rfl : bytes = start ++ body ++ left.arrived := harrived
  have hread : Connection.readBody ⟨start ++ body, false⟩ = .ok (body, {}) :=
    Connection.readBody_eq_ok_iff.2 ⟨start, (List.append_nil _).symm, rfl, hstart, hlength⟩
  obtain ⟨hleft, -⟩ := reply.of_readBody hread
  obtain ⟨arrived, closed'⟩ := left
  simp only at hleft hclosed
  rw [hleft, hclosed]

/-! ## Exchanges -/

namespace Client

/-- Nothing that has come over the connection of the client is left to be read. -/
def IsDrained (client : Client) : Prop :=
  ∀ connection, client.connection = some connection → connection.arrived = []

/-- Why a client sends nothing to its peer. -/
inductive CannotSend (peer : Peer ν) (client : Client) (s : ν) : LinkError → Prop where
  | refused (unconnected : client.connection = none)
      (declined : (peer.accept client.options.connectTimeoutMs s).1 = false) :
      CannotSend peer client s .refused
  | broken (connection : Connection) (connected : client.connection = some connection)
      (closed : connection.closed = true) : CannotSend peer client s .broken

/-- The client after an answer that was a whole response. -/
def afterReply (client : Client) (answer : Answer) : Client :=
  { client with connection := some { closed := answer.closes } }

variable {peer : Peer ν} {client : Client} {request : List UInt8} {record : List Sent} {s : ν}
  {answer : Answer}

theorem isDrained_close (client : Client) : client.close.IsDrained := by
  intro connection hconnection
  simp [close] at hconnection

theorem isDrained_afterReply (client : Client) (answer : Answer) :
    (client.afterReply answer).IsDrained := by
  rintro connection ⟨⟩
  rfl

theorem connect_recorded (peer : Peer ν) (client : Client) (record : List Sent) (s : ν) :
    client.connect peer.recorded (record, s) =
      ((client.connect peer s).1, record, (client.connect peer s).2) := by
  cases hconnection : client.connection with
  | some connection => simp only [connect, hconnection]
  | none =>
    rcases haccept : peer.accept client.options.connectTimeoutMs s with ⟨_ | _, s'⟩
    · simp only [connect, hconnection, Peer.recorded, haccept]
    · simp only [connect, hconnection, Peer.recorded, haccept]

/-- How an exchange ends whose request was answered. -/
def conclude (client : Client) (before : Connection) (answer : Answer) (s : ν) :
    Exchange ν (List UInt8) :=
  let read := (before.receive (answer.within client.options.ioTimeoutMs)).readBody
  let elapsed := client.waiting before answer read
  match read with
  | .error e => ⟨.error e, elapsed, client.close, s⟩
  | .ok (body, connection) =>
    ⟨(Frame.responseData body).mapError .frame, elapsed,
      { client with
        connection := some (connection.receive (answer.after client.options.ioTimeoutMs)) }, s⟩

/-- An exchange finds no connection, or one that is closed, or its request is answered. -/
theorem exchange_eq_conclude (peer : Peer ν) (client : Client) (request : List UInt8) (s : ν) :
    client.exchange peer request s =
      match client.connect peer s with
      | (none, s) => ⟨.error .refused, 0, client.close, s⟩
      | (some connection, s) =>
        if connection.closed then ⟨.error .broken, 0, client.close, s⟩
        else client.conclude connection (peer.answer request s).1 (peer.answer request s).2 :=
  rfl

theorem peer_conclude (client : Client) (before : Connection) (answer : Answer) (s : ν) :
    (client.conclude before answer s).peer = s := by
  unfold conclude
  cases (before.receive (answer.within client.options.ioTimeoutMs)).readBody <;> rfl

theorem forget_conclude (client : Client) (before : Connection) (answer : Answer)
    (record : List Sent) (s : ν) :
    (client.conclude before answer (record, s)).forget = client.conclude before answer s := by
  unfold conclude
  cases (before.receive (answer.within client.options.ioTimeoutMs)).readBody <;> rfl

/-- An exchange over an empty connection ends as the answer says. -/
theorem result_conclude (client : Client) (answer : Answer) (s : ν) :
    (client.conclude {} answer s).result = answer.outcome client.options.ioTimeoutMs := by
  unfold conclude Answer.outcome
  cases (Connection.receive {} (answer.within client.options.ioTimeoutMs)).readBody <;> rfl

/-- After a reply nothing is left to be read, and after a response the connection is kept. -/
theorem client_conclude (reply : Frame.IsReply answer.bytes) (client : Client) (s : ν) :
    (client.conclude {} answer s).client.IsDrained ∧
    ∀ data, answer.outcome client.options.ioTimeoutMs = .ok data →
      (client.conclude {} answer s).client = client.afterReply answer := by
  unfold conclude Answer.outcome
  by_cases inTime : answer.delayMs < client.options.ioTimeoutMs
  · rw [Answer.within, Answer.after, if_pos inTime, if_pos inTime]
    cases hread : (Connection.receive {} answer).readBody with
    | error e => exact ⟨client.isDrained_close, by simp [Except.bind]⟩
    | ok read =>
      obtain ⟨body, left⟩ := read
      obtain rfl := reply.left_of_readBody hread
      have hkept : ({ client with connection := some ⟨[], answer.closes || false⟩ } : Client) =
          client.afterReply answer := by
        rw [Bool.or_false]
        rfl
      refine ⟨?_, fun _ _ => hkept⟩
      show IsDrained { client with connection := some ⟨[], answer.closes || false⟩ }
      rw [hkept]
      exact client.isDrained_afterReply answer
  · rw [Answer.within, if_neg inTime]
    refine ⟨client.isDrained_close, fun data hdata => ?_⟩
    cases hdata

/-- The record changes nothing. -/
theorem exchange_forget (peer : Peer ν) (client : Client) (request : List UInt8)
    (record : List Sent) (s : ν) :
    (client.exchange peer.recorded request (record, s)).forget =
      client.exchange peer request s := by
  rw [exchange_eq_conclude, exchange_eq_conclude, connect_recorded]
  rcases client.connect peer s with ⟨_ | connection, s'⟩
  · rfl
  · show Exchange.forget (if _ then _ else _) = if _ then _ else _
    split
    · rfl
    · exact forget_conclude ..

/-- A request is not sent, or it is sent once, over a connection that is not closed. -/
theorem exchange_recorded_cases (peer : Peer ν) (client : Client) (request : List UInt8)
    (record : List Sent) (s : ν) :
    (∃ e s', client.CannotSend peer s e ∧ client.exchange peer.recorded request (record, s) =
      ⟨.error e, 0, client.close, record, s'⟩) ∨
    ∃ before s', (before = {} ∨ client.connection = some before) ∧ before.closed = false ∧
      client.exchange peer.recorded request (record, s) =
        client.conclude before (peer.answer request s').1
          (record ++ [⟨request, (peer.answer request s').1⟩], (peer.answer request s').2) := by
  rw [exchange_eq_conclude, connect_recorded]
  cases hconnection : client.connection with
  | none =>
    rcases haccept : peer.accept client.options.connectTimeoutMs s with ⟨_ | _, s'⟩
    · refine .inl ⟨.refused, s', .refused hconnection (by rw [haccept]), ?_⟩
      simp only [connect, hconnection, haccept]
    · refine .inr ⟨{}, s', .inl rfl, rfl, ?_⟩
      simp only [connect, hconnection, haccept]
      rfl
  | some connection =>
    cases hclosed : connection.closed with
    | true =>
      refine .inl ⟨.broken, s, .broken connection hconnection hclosed, ?_⟩
      simp only [connect, hconnection, hclosed, if_true]
    | false =>
      refine .inr ⟨connection, s, .inr rfl, hclosed, ?_⟩
      simp only [connect, hconnection, hclosed, Bool.false_eq_true, if_false]
      rfl

/-- A client with nothing left to be read cannot send a request, or it sends it and ends as the
answer says. After a reply there is nothing left to be read again. -/
theorem exchange_of_drained (drained : client.IsDrained) (peer : Peer ν) (request : List UInt8)
    (record : List Sent) (s : ν) :
    let exchange := client.exchange peer.recorded request (record, s)
    (∃ e, client.CannotSend peer s e ∧ exchange.result = .error e ∧ exchange.peer.1 = record ∧
      exchange.client.IsDrained) ∨
    ∃ answer, exchange.result = answer.outcome client.options.ioTimeoutMs ∧
      exchange.peer.1 = record ++ [⟨request, answer⟩] ∧
      (Frame.IsReply answer.bytes → exchange.client.IsDrained ∧
        ∀ data, answer.outcome client.options.ioTimeoutMs = .ok data →
          exchange.client = client.afterReply answer) := by
  intro exchange
  rcases client.exchange_recorded_cases peer request record s with
    ⟨e, s', hcause, hexchange⟩ | ⟨before, s', hbefore, hopen, hexchange⟩
  · have hunsent : exchange = _ := hexchange
    left
    rw [hunsent]
    exact ⟨e, hcause, rfl, rfl, client.isDrained_close⟩
  · obtain rfl : before = {} := by
      rcases hbefore with rfl | hconnection
      · rfl
      · obtain ⟨arrived, closed⟩ := before
        have harrived : arrived = [] := drained _ hconnection
        obtain rfl : closed = false := hopen
        rw [harrived]
    have hanswered : exchange = _ := hexchange
    right
    rw [hanswered]
    exact ⟨(peer.answer request s').1, client.result_conclude _ _,
      congrArg Prod.fst (client.peer_conclude ..), fun reply => client_conclude reply client _⟩

end Client

end PlcGateway
