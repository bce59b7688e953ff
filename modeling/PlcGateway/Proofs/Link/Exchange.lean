import PlcGateway.Link.Client
import PlcGateway.Proofs.Frame.Request

/-!
# Exchanges that succeed

An exchange ends well only after the peer has seen the request, over the connection that the client
held or a new one (`exchange_peer_of_ok`). If nothing is left to be read and the peer answers at
once with a response, then the exchange gives the data of this response, and nothing is left to be
read again (`exchange_response`).
-/

namespace PlcGateway

/-! ## Reading a response -/

theorem Frame.responseLength_head (s : Station) {body : List UInt8} (hlong : 2 ≤ body.length)
    (short : body.length < 65536) :
    Frame.responseLength (s.head Frame.responseMark body) = .ok body.length := by
  have hlength := s.length_head body (rfl : Frame.responseMark.length = 2)
  have hannounced := s.announced_head (rfl : Frame.responseMark.length = 2) short
  have hstart : s.head Frame.responseMark body =
      0xD0 :: 0x00 :: (s.route ++ Bytes.little 2 body.length) := rfl
  rw [hstart] at hlength hannounced ⊢
  simp only [Frame.responseLength, hlength, hannounced]
  rw [if_neg (Nat.lt_irrefl _), if_neg (by decide), if_neg (by omega)]

theorem Frame.responseData_ofWord (endCode : UInt16) (data : List UInt8) :
    Frame.responseData (Bytes.ofWord endCode ++ data) =
      if endCode = 0 then .ok data else .error (.endCode endCode) := by
  obtain ⟨low, high, hbytes, hword⟩ := Bytes.word_ofWord endCode
  rw [hbytes, ← hword]
  rfl

namespace Connection

theorem take_append {front : List UInt8} {count : Nat} (rest : List UInt8) (closed : Bool)
    (h : front.length = count) :
    take ⟨front ++ rest, closed⟩ count = .ok (front, ⟨rest, closed⟩) := by
  have hlong : ¬ (front ++ rest).length < count := by
    rw [List.length_append]
    omega
  rw [take, if_neg hlong]
  simp only [List.take_left' h, List.drop_left' h]

/-- The response that has come first is read whole, and what has come behind it is left. -/
theorem readBody_response (s : Station) (endCode : UInt16) {data : List UInt8} (rest : List UInt8)
    (closed : Bool) (short : data.length + 2 < 65536) :
    readBody ⟨s.response endCode data ++ rest, closed⟩ =
      .ok (Bytes.ofWord endCode ++ data, ⟨rest, closed⟩) := by
  have hbody : (Bytes.ofWord endCode ++ data).length = data.length + 2 := by
    rw [List.length_append, Bytes.ofWord, Bytes.length_little, Nat.add_comm]
  have hresponse : s.response endCode data ++ rest =
      s.head Frame.responseMark (Bytes.ofWord endCode ++ data) ++
        ((Bytes.ofWord endCode ++ data) ++ rest) :=
    List.append_assoc _ _ _
  have hlength := Frame.responseLength_head s
    (by omega : 2 ≤ (Bytes.ofWord endCode ++ data).length) (by omega)
  rw [hresponse, readBody, take_append _ _ (s.length_head _ rfl)]
  simp only [hlength]
  exact take_append rest closed rfl

end Connection

namespace Client

variable {ν : Type} {peer : Peer ν} {client : Client} {request : List UInt8} {s : ν}

/-- An exchange that ends well has let the peer see the request. -/
theorem exchange_peer_of_ok {data : List UInt8}
    (ok : (client.exchange peer request s).result = .ok data) :
    (client.exchange peer request s).peer = (peer.answer request (client.connect peer s).2).2 := by
  unfold exchange at ok ⊢
  rcases hconnect : client.connect peer s with ⟨_ | connection, s'⟩
  · simp only [hconnect, reduceCtorEq] at ok
  · simp only [hconnect] at ok ⊢
    split
    · next hclosed => simp [hclosed] at ok
    · split <;> rfl

/-- An exchange over a connection with nothing left to be read gives the data of the answer. -/
theorem exchange_response {s' s'' : ν} {station : Station} {data : List UInt8}
    (waits : 0 < client.options.ioTimeoutMs)
    (connected : client.connect peer s = (some {}, s'))
    (answered : peer.answer request s' = ({ bytes := station.response 0 data }, s''))
    (short : data.length + 2 < 65536) :
    client.exchange peer request s =
      ⟨.ok data, 0, { client with connection := some {} }, s''⟩ := by
  have hread : (Connection.receive {} { bytes := station.response 0 data }).readBody =
      .ok (Bytes.ofWord 0 ++ data, {}) := by
    have h := Connection.readBody_response station 0 [] false short
    rw [List.append_nil] at h
    exact h
  have hwithin : Answer.within client.options.ioTimeoutMs { bytes := station.response 0 data } =
      { bytes := station.response 0 data } := if_pos waits
  have hafter : Answer.after client.options.ioTimeoutMs { bytes := station.response 0 data } = {} :=
    if_pos waits
  simp only [exchange, connected, answered, hwithin, hafter, hread, Frame.responseData_ofWord]
  rfl

end Client

end PlcGateway
