import Mathlib.Data.List.Forall2
import PlcGateway.Link.Call
import PlcGateway.Link.Basic
import PlcGateway.Proofs.Frame.Stream
import PlcGateway.Proofs.Link.Reading

/-!
# Which failures cost a client its connection

A client keeps its connection exactly if a whole response has come. Whether it has one after a call
can be told from how the call has ended: it has one after a success and after a failure that is not
one of the connection, but for the failure of a response that announces too few bytes
(`connected_performAll`). That failure is not counted as one of the connection, and yet the
connection is gone (`connected_misannounced`).
-/

namespace PlcGateway

namespace Client

variable {ν : Type} {peer : Peer ν} {client : Client} {request : List UInt8} {s : ν}

theorem options_exchange : (client.exchange peer request s).client.options = client.options := by
  unfold exchange
  rcases client.connect peer s with ⟨_ | connection, s'⟩
  · rfl
  · simp only
    split
    · rfl
    · split <;> rfl

/-- What an exchange ends with, and whether it leaves a connection: either there was none, or it was
closed, or the response could not be read, or a response was read. -/
theorem exchange_cases (peer : Peer ν) (client : Client) (request : List UInt8) (s : ν) :
    (∃ e, (client.exchange peer request s).result = .error e ∧
      (client.exchange peer request s).client.isConnected = false ∧
      (e = .refused ∨ e = .broken ∨ ∃ connection : Connection, connection.readBody = .error e)) ∨
    ∃ (connection : Connection) (body : List UInt8) (rest : Connection),
      connection.readBody = .ok (body, rest) ∧
      (client.exchange peer request s).result = (Frame.responseData body).mapError .frame ∧
      (client.exchange peer request s).client.isConnected = true := by
  unfold exchange
  rcases client.connect peer s with ⟨_ | connection, s'⟩
  · exact .inl ⟨_, rfl, rfl, .inl rfl⟩
  · simp only
    split
    · exact .inl ⟨_, rfl, rfl, .inr (.inl rfl)⟩
    · split
      · next e hread => exact .inl ⟨e, rfl, rfl, .inr (.inr ⟨_, hread⟩)⟩
      · next body rest hread => exact .inr ⟨_, body, rest, hread, rfl, rfl⟩

end Client

namespace LinkCall

/-- A failure of the exchange is a failure of the call. -/
theorem outcome_error (call : LinkCall) (e : LinkError) : call.outcome (.error e) = .error e := by
  cases call <;> rfl

/-- A call that fails although data has come has wanted more words than the data has. -/
theorem of_outcome_ok_error {call : LinkCall} {data : List UInt8} {e : LinkError}
    (failed : call.outcome (.ok data) = .error e) :
    ∃ variant code offset points actual, call = .read variant code offset points ∧
      e = .frame (.shortResponse (Frame.responseHeader + 2 * points.toNat) actual) := by
  cases call with
  | write code offset points data' =>
    simp only [outcome, Except.map] at failed
    simp at failed
  | read variant code offset points =>
    simp only [outcome, Except.bind, Client.checkWords] at failed
    split at failed
    · exact ⟨variant, code, offset, points, _, rfl, (Except.error.inj failed).symm⟩
    · simp [Except.map] at failed

end LinkCall

namespace Client

variable {ν : Type} {peer : Peer ν} {client : Client} {request : List UInt8} {s : ν}
  {call : LinkCall}

theorem options_perform : (client.perform peer s call).client.options = client.options := by
  cases hbuilt : call.request client.options with
  | error e => rw [perform_of_refused hbuilt]
  | ok request =>
    rw [perform_of_built hbuilt]
    exact options_exchange

/-- Whether a client has a connection after a call can be told from the result. -/
theorem connected_perform (built : call.request client.options = .ok request) :
    (client.perform peer s call).client.isConnected = true ↔
      (∃ value, (client.perform peer s call).result = .ok value) ∨
      ∃ e, (client.perform peer s call).result = .error e ∧ e.isTransport = false ∧
        ¬ e.IsMisannounced := by
  rw [perform_of_built built]
  show (client.exchange peer request s).client.isConnected = true ↔
    (∃ value, call.outcome (client.exchange peer request s).result = .ok value) ∨
    ∃ e, call.outcome (client.exchange peer request s).result = .error e ∧
      e.isTransport = false ∧ ¬ e.IsMisannounced
  rcases exchange_cases peer client request s with
    ⟨e, hresult, hconnected, hcause⟩ | ⟨connection, body, rest, hread, hresult, hconnected⟩
  · -- no response was read, and the connection is gone
    have hkind : e.isTransport = true ∨ e.IsMisannounced := by
      rcases hcause with rfl | rfl | ⟨connection, hread⟩
      · exact .inl rfl
      · exact .inl rfl
      · exact Connection.kind_of_readBody_error hread
    rw [hresult, hconnected, call.outcome_error]
    simp only [Bool.false_eq_true, reduceCtorEq, exists_false, false_or, Except.error.injEq,
      exists_eq_left', false_iff, not_and, not_not]
    intro hnot
    exact hkind.resolve_left (by simp [hnot])
  · rw [hresult, hconnected]
    simp only [true_iff]
    have hlong := Connection.two_le_length_of_readBody hread
    cases hdata : Frame.responseData body with
    | error e =>
      obtain ⟨code, rfl⟩ := Frame.of_responseData_error hlong hdata
      refine .inr ⟨_, call.outcome_error _, rfl, ?_⟩
      rintro ⟨announced, -, heq⟩
      simp at heq
    | ok data =>
      simp only [Except.mapError]
      cases houtcome : call.outcome (.ok data) with
      | ok value => exact .inl ⟨value, rfl⟩
      | error e =>
        obtain ⟨_, _, _, points, actual, rfl, rfl⟩ := LinkCall.of_outcome_ok_error houtcome
        refine .inr ⟨_, rfl, rfl, ?_⟩
        rintro ⟨announced, -, heq⟩
        -- a call that could be built is for at least one point
        have hframe := (Order.frame_eq_request _).symm.trans built
        have hone : 1 ≤ points.toNat := ((Station.request_eq_ok_iff _).1 hframe).1
        simp only [LinkError.frame.injEq, FrameError.shortResponse.injEq] at heq
        omega

end Client

namespace Clients

variable {ν : Type}

/-- After every call whose request could be built, the client has a connection exactly if the call
has succeeded or has failed for another reason than the connection or a response that announces too
few bytes. The latter is no failure of the connection. -/
theorem connected_performAll (peer : Peer ν) (calls : List (Nat × LinkCall)) (clients : Clients ν) :
    List.Forall₂ (fun turn exchange =>
      ∀ request, turn.2.request (clients.client turn.1).options = .ok request →
        (exchange.client.isConnected = true ↔
          (∃ value, exchange.result = .ok value) ∨
          ∃ e, exchange.result = .error e ∧ e.isTransport = false ∧ ¬ e.IsMisannounced))
      calls (performAll peer calls clients).1 ∧
    ∀ e : LinkError, e.IsMisannounced → e.isTransport = false := by
  constructor
  · induction calls generalizing clients with
    | nil => exact .nil
    | cons turn calls ih =>
      obtain ⟨number, call⟩ := turn
      refine .cons (fun request built => Client.connected_perform built) ?_
      refine (ih (clients.after number _)).imp ?_
      rintro ⟨number', call'⟩ exchange hlater request built
      refine hlater request ?_
      -- no call changes the options of a client
      simp only [after]
      split
      · next heq =>
        rw [Client.options_perform]
        subst heq
        exact built
      · exact built
  · rintro e ⟨announced, -, rfl⟩
    rfl

/-- A response that announces one byte: the failure is not one of the connection, and the connection
is gone. -/
theorem connected_misannounced :
    ∃ request, (LinkCall.read .standard .d 0 1).request {} = .ok request ∧
      (({} : Client).perform Script.peer
        ⟨[{ bytes := [0xD0, 0, 0, 0xFF, 0xFF, 3, 0, 1, 0] }], [], 0⟩
        (.read .standard .d 0 1)).result = .error (.frame (.shortResponse 11 10)) ∧
      (LinkError.frame (.shortResponse 11 10)).isTransport = false ∧
      (({} : Client).perform Script.peer
        ⟨[{ bytes := [0xD0, 0, 0, 0xFF, 0xFF, 3, 0, 1, 0] }], [], 0⟩
        (.read .standard .d 0 1)).client.isConnected = false :=
  ⟨_, rfl, by decide, rfl, by decide⟩

end Clients

end PlcGateway
