import PlcGateway.Proofs.Link.Connected
import PlcGateway.Proofs.Link.Response

/-!
# Why an exchange fails

Whatever a peer does, an exchange fails because there is no connection or it is lost, because the
answer is late, or because the answer is not a response, is too short or reports a failure
(`isOfAnswer_of_exchange_error`). No exchange ends as if its request had been too long. A read that
succeeds has all the words that it was for (`le_length_of_read`), and fails for no other reasons but
that its request cannot be built (`of_read_error`).
-/

namespace PlcGateway

/-- What can be wrong with the answer to a request, or with the connection that the answer should
have come over. -/
inductive LinkError.IsOfAnswer : LinkError → Prop where
  | refused : IsOfAnswer .refused
  | broken : IsOfAnswer .broken
  | timedOut : IsOfAnswer .timedOut
  /-- The answer is not marked as a response. -/
  | unmarked (first second : UInt8) (unmarked : [first, second] ≠ Frame.responseMark) :
      IsOfAnswer (.frame (.badSubheader first second))
  /-- The response is shorter than it should be. -/
  | short (expected actual : Nat) (short : actual < expected) :
      IsOfAnswer (.frame (.shortResponse expected actual))
  /-- The PLC reports a failure. -/
  | failed (code : UInt16) (failed : code ≠ 0) : IsOfAnswer (.frame (.endCode code))

namespace Frame

theorem isOfAnswer_of_responseLength_error {start : List UInt8} {e : FrameError}
    (failed : responseLength start = .error e) : LinkError.IsOfAnswer (.frame e) := by
  rw [responseLength_eq] at failed
  split_ifs at failed with hshort hmark hlength
  · obtain rfl := Except.error.inj failed
    exact .short _ _ hshort
  · obtain rfl := Except.error.inj failed
    have htwo : start.take 2 = [start.getD 0 0, start.getD 1 0] := take_two_drop (i := 0) (by omega)
    exact .unmarked _ _ (htwo ▸ hmark)
  · obtain rfl := Except.error.inj failed
    exact .short _ _ (by omega)

theorem isOfAnswer_of_responseData_error {body : List UInt8} {e : FrameError}
    (failed : responseData body = .error e) : LinkError.IsOfAnswer (.frame e) := by
  unfold responseData at failed
  split at failed
  · split at failed
    · cases failed
    · next low high data hcode =>
      obtain rfl := Except.error.inj failed
      exact .failed _ hcode
  · next hnone =>
    obtain rfl := Except.error.inj failed
    refine .short _ _ ?_
    rcases body with _ | ⟨low, _ | ⟨high, data⟩⟩
    · decide
    · exact Nat.lt_succ_self 1
    · exact absurd rfl (hnone low high data)

end Frame

namespace Client

variable {ν : Type} {peer : Peer ν} {client : Client} {s : ν} {variant : Variant}
  {code : DeviceCode} {offset : UInt32} {points : UInt16} {e : LinkError}

/-- Whatever the peer does, an exchange fails for its answer or the connection. -/
theorem isOfAnswer_of_exchange_error {request : List UInt8}
    (failed : (client.exchange peer request s).result = .error e) : e.IsOfAnswer := by
  rcases exchange_cases peer client request s with
    ⟨e', hresult, -, hcause⟩ | ⟨connection, body, rest, -, hresult, -⟩
  · obtain rfl := Except.error.inj (hresult.symm.trans failed)
    rcases hcause with rfl | rfl | ⟨connection, hread⟩
    · exact .refused
    · exact .broken
    · rcases Connection.of_readBody_error hread with rfl | ⟨start, _, e', -, -, hlength, rfl⟩
      · split
        · exact .broken
        · exact .timedOut
      · exact Frame.isOfAnswer_of_responseLength_error hlength
  · rw [hresult] at failed
    cases hdata : Frame.responseData body with
    | ok data =>
      rw [hdata] at failed
      cases failed
    | error e' =>
      rw [hdata] at failed
      obtain rfl : LinkError.frame e' = e := Except.error.inj failed
      exact Frame.isOfAnswer_of_responseData_error hdata

/-- No exchange ends as if its request had been too long. -/
theorem exchange_ne_tooManyPoints (peer : Peer ν) (client : Client) (request : List UInt8) (s : ν)
    (points : UInt16) :
    (client.exchange peer request s).result ≠ .error (.frame (.tooManyPoints points)) := by
  intro h
  cases isOfAnswer_of_exchange_error h

theorem of_checkWords_ok {data payload : List UInt8} (checked : checkWords points data = .ok payload) :
    2 * points.toNat ≤ payload.length := by
  unfold checkWords at checked
  simp only at checked
  split at checked
  · cases checked
  · next hlong =>
    obtain rfl := Except.ok.inj checked
    exact Nat.le_of_not_lt hlong

theorem isOfAnswer_of_checkWords_error {data : List UInt8}
    (failed : checkWords points data = .error e) : e.IsOfAnswer := by
  unfold checkWords at failed
  simp only at failed
  split at failed
  · next hshort =>
    obtain rfl := Except.error.inj failed
    exact .short _ _ (Nat.add_lt_add_left hshort _)
  · cases failed

/-- A read that succeeds gives all the words that it was for. -/
theorem le_length_of_read {payload : List UInt8}
    (done : (client.read peer variant code offset points s).result = .ok payload) :
    2 * points.toNat ≤ payload.length := by
  unfold read at done
  split at done
  · cases done
  · next request _ =>
    cases hresult : (client.exchange peer request s).result with
    | error e =>
      simp only [hresult, Except.bind, reduceCtorEq] at done
    | ok data =>
      simp only [hresult, Except.bind] at done
      exact of_checkWords_ok done

/-- Why a read of words fails. -/
theorem of_read_error (failed : (client.read peer variant code offset points s).result = .error e) :
    (∃ e', client.options.station.readRequest variant code offset points = .error e' ∧
      e = .frame e') ∨ e.IsOfAnswer := by
  unfold read at failed
  split at failed
  · next e' hrequest => exact .inl ⟨e', hrequest, (Except.error.inj failed).symm⟩
  · next request _ =>
    right
    cases hresult : (client.exchange peer request s).result with
    | error e' =>
      simp only [hresult, Except.bind, Except.error.injEq] at failed
      obtain rfl := failed
      exact isOfAnswer_of_exchange_error hresult
    | ok data =>
      simp only [hresult, Except.bind] at failed
      exact isOfAnswer_of_checkWords_error failed

end Client

end PlcGateway
