import Mathlib.Data.List.GetD
import Mathlib.Tactic.SplitIfs
import PlcGateway.Proofs.Bytes.LittleEndian
import PlcGateway.Proofs.Link.Reading

/-!
# Responses at once and as they come

A whole response is taken apart at once (`Frame.parseResponse`). A client takes it apart as it
comes: nine bytes first, and then as many as these announce (`Connection.readBody`). Both look for
the same faults in the same order (`Frame.fault?`), and where the response is there, both give the
same (`parseResponse_iff`). A client never asks for fewer bytes than the end code has.
-/

namespace PlcGateway

theorem Bytes.word_eq_zero_iff {low high : UInt8} :
    Bytes.word low high = 0 ↔ [low, high] = [0, 0] := by
  constructor
  · intro hzero
    have hbytes := Bytes.ofWord_word low high
    rw [hzero] at hbytes
    exact hbytes.symm
  · intro hbytes
    obtain ⟨rfl, rfl⟩ : low = 0 ∧ high = 0 := by simpa using hbytes
    rfl

namespace Frame

/-! ## The fields of a response -/

/-- What the length field of a frame says, bytes 7 and 8. -/
def lengthField (frame : List UInt8) : Nat :=
  (frame.getD 7 0).toNat + 256 * (frame.getD 8 0).toNat

/-- The end code of a response, bytes 9 and 10. -/
def endCodeField (frame : List UInt8) : UInt16 := Bytes.word (frame.getD 9 0) (frame.getD 10 0)

/-- The first fault of a response: bytes are missing for a start, the mark is wrong, no end code is
announced, bytes are missing for what is announced, or the end code is not zero. -/
def fault? (frame : List UInt8) : Option FrameError :=
  if frame.length < 9 then some (.shortResponse 9 frame.length)
  else if frame.take 2 ≠ [0xD0, 0x00] then
    some (.badSubheader (frame.getD 0 0) (frame.getD 1 0))
  else if lengthField frame < 2 then some (.shortResponse 11 (9 + lengthField frame))
  else if frame.length < 9 + lengthField frame then
    some (.shortResponse (9 + lengthField frame) frame.length)
  else if endCodeField frame ≠ 0 then some (.endCode (endCodeField frame))
  else none

variable {frame : List UInt8}

theorem take_two_drop {i : Nat} (long : i + 2 ≤ frame.length) :
    (frame.drop i).take 2 = [frame.getD i 0, frame.getD (i + 1) 0] := by
  rw [List.drop_eq_getElem_cons (by omega), List.drop_eq_getElem_cons (by omega),
    List.getD_eq_getElem _ 0 (by omega), List.getD_eq_getElem _ 0 (by omega)]
  rfl

theorem announced_eq_lengthField (long : 9 ≤ frame.length) :
    announced frame = lengthField frame := by
  rw [announced, take_two_drop (by omega)]
  show (frame.getD 7 0).toNat + 256 * ((frame.getD 8 0).toNat + 256 * 0) = _
  rw [lengthField, Nat.mul_zero, Nat.add_zero]

/-- What is found at the start of a response. -/
theorem responseLength_eq (frame : List UInt8) :
    responseLength frame =
      if frame.length < 9 then .error (.shortResponse 9 frame.length)
      else if frame.take 2 ≠ [0xD0, 0x00] then
        .error (.badSubheader (frame.getD 0 0) (frame.getD 1 0))
      else if lengthField frame < 2 then .error (.shortResponse 11 (9 + lengthField frame))
      else .ok (lengthField frame) := by
  by_cases hshort : frame.length < 9
  · rw [if_pos hshort]
    rcases frame with _ | ⟨first, _ | ⟨second, rest⟩⟩
    · rfl
    · rfl
    · exact if_pos hshort
  · rw [if_neg hshort]
    have hannounced := announced_eq_lengthField (Nat.le_of_not_lt hshort)
    rcases frame with _ | ⟨first, _ | ⟨second, rest⟩⟩
    · simp at hshort
    · simp at hshort
    · rw [← hannounced]
      exact if_neg hshort

theorem of_responseLength_ok {length : Nat} (start : responseLength frame = .ok length) :
    9 ≤ frame.length ∧ 2 ≤ length ∧ length = lengthField frame := by
  rw [responseLength_eq] at start
  split_ifs at start with hshort hmark hlength
  obtain rfl := Except.ok.inj start
  exact ⟨by omega, by omega, rfl⟩

/-- A start says what it says without the bytes behind it. -/
theorem responseLength_take (long : 9 ≤ frame.length) :
    responseLength (frame.take 9) = responseLength frame := by
  have hlength : (frame.take 9).length = 9 := List.length_take_of_le long
  have hmark : (frame.take 9).take 2 = frame.take 2 := List.take_take ..
  have hget : ∀ i < 9, (frame.take 9).getD i 0 = frame.getD i 0 := by
    intro i hi
    rw [List.getD_eq_getElem?_getD, List.getElem?_take_of_lt hi, ← List.getD_eq_getElem?_getD]
  have hfield : lengthField (frame.take 9) = lengthField frame := by
    rw [lengthField, lengthField, hget 7 (by omega), hget 8 (by omega)]
  rw [responseLength_eq, responseLength_eq, hlength, hmark, hfield, hget 0 (by omega),
    hget 1 (by omega), if_neg (Nat.lt_irrefl 9), if_neg (Nat.not_lt.2 long)]

/-- The end code decides over a body that is there. -/
theorem responseData_body (announced : 2 ≤ lengthField frame)
    (whole : 9 + lengthField frame ≤ frame.length) :
    responseData ((frame.drop 9).take (lengthField frame)) =
      if endCodeField frame = 0 then .ok ((frame.take (9 + lengthField frame)).drop 11)
      else .error (.endCode (endCodeField frame)) := by
  have hbody : (frame.drop 9).take (lengthField frame) =
      frame.getD 9 0 :: frame.getD 10 0 :: (frame.take (9 + lengthField frame)).drop 11 := by
    have htwo : (frame.drop 9).take 2 = [frame.getD 9 0, frame.getD 10 0] :=
      take_two_drop (by omega)
    calc (frame.drop 9).take (lengthField frame)
        = (frame.drop 9).take (2 + (lengthField frame - 2)) := by rw [Nat.add_sub_cancel' announced]
      _ = (frame.drop 9).take 2 ++ ((frame.drop 9).drop 2).take (lengthField frame - 2) :=
          List.take_add
      _ = [frame.getD 9 0, frame.getD 10 0] ++ (frame.drop 11).take (lengthField frame - 2) := by
          rw [htwo, List.drop_drop]
      _ = _ := by
          rw [List.drop_take, show 9 + lengthField frame - 11 = lengthField frame - 2 by omega]
          rfl
  rw [hbody]
  rfl

/-! ## Whole responses -/

theorem parseResponse_of_whole {length : Nat} (start : responseLength frame = .ok length)
    (whole : 9 + length ≤ frame.length) :
    parseResponse frame = responseData ((frame.drop 9).take length) := by
  have hlong : ¬ (frame.drop 9).length < length := by
    rw [List.length_drop]
    omega
  rw [parseResponse, start]
  exact if_neg hlong

/-- A response without a fault is parsed, and otherwise its first fault is reported. -/
theorem parseResponse_eq (frame : List UInt8) :
    parseResponse frame =
      match fault? frame with
      | some e => .error e
      | none => .ok ((frame.take (9 + lengthField frame)).drop 11) := by
  have hstart := responseLength_eq frame
  rw [fault?]
  split_ifs at hstart ⊢ with hshort hmark hlength hwhole hcode
  · rw [parseResponse, hstart]
  · rw [parseResponse, hstart]
  · rw [parseResponse, hstart]
  · have hmissing : (frame.drop 9).length < lengthField frame := by
      rw [List.length_drop]
      omega
    rw [parseResponse, hstart]
    exact if_pos hmissing
  · rw [parseResponse_of_whole hstart (by omega), responseData_body (by omega) (by omega),
      if_neg hcode]
  · rw [parseResponse_of_whole hstart (by omega), responseData_body (by omega) (by omega),
      if_pos (Decidable.not_not.1 hcode)]

theorem parseResponse_eq_ok_iff {data : List UInt8} : parseResponse frame = .ok data ↔
    fault? frame = none ∧ data = (frame.take (9 + lengthField frame)).drop 11 := by
  rw [parseResponse_eq]
  cases fault? frame with
  | none => simp only [Except.ok.injEq, true_and, eq_comm]
  | some e => simp only [reduceCtorEq, false_and]

theorem fault?_eq_none_iff : fault? frame = none ↔
    9 ≤ frame.length ∧ frame.take 2 = [0xD0, 0x00] ∧ 2 ≤ lengthField frame ∧
      9 + lengthField frame ≤ frame.length ∧ (frame.drop 9).take 2 = [0, 0] := by
  unfold fault?
  split_ifs with hshort hmark hlength hwhole hcode
  · simp only [false_iff]
    omega
  · simp only [hmark, false_and, and_false]
  · simp only [false_iff]
    omega
  · simp only [false_iff]
    omega
  · rw [endCodeField, ne_eq, Bytes.word_eq_zero_iff, ← take_two_drop (by omega)] at hcode
    simp only [hcode, and_false]
  · rw [endCodeField, ne_eq, Decidable.not_not, Bytes.word_eq_zero_iff,
      ← take_two_drop (by omega)] at hcode
    exact iff_of_true rfl ⟨by omega, Decidable.not_not.1 hmark, by omega, by omega, hcode⟩

end Frame

namespace Connection

/-! ## Responses as they come -/

variable {frame : List UInt8} {closed : Bool}

/-- Of a response that is there, the start is read, and then as many bytes as it announces. -/
theorem readBody_of_whole (long : 9 ≤ frame.length)
    (whole : 9 + Frame.lengthField frame ≤ frame.length) :
    readBody ⟨frame, closed⟩ =
      match Frame.responseLength frame with
      | .error e => .error (.frame e)
      | .ok length => .ok ((frame.drop 9).take length, ⟨frame.drop (9 + length), closed⟩) := by
  have hstart : take ⟨frame, closed⟩ 9 = .ok (frame.take 9, ⟨frame.drop 9, closed⟩) :=
    take_eq_ok_iff.2 ⟨(List.take_append_drop 9 frame).symm, List.length_take_of_le long, rfl⟩
  have hlength := Frame.responseLength_eq frame
  rw [readBody, Frame.prefixLength, hstart]
  simp only [Frame.responseLength_take long]
  split_ifs at hlength
  · rw [hlength]
  · rw [hlength]
  · rw [hlength]
  · have hbody : (frame.drop 9).length = frame.length - 9 := List.length_drop
    rw [hlength]
    refine take_eq_ok_iff.2 ⟨?_, List.length_take_of_le (by omega), rfl⟩
    show frame.drop 9 = _ ++ frame.drop (9 + Frame.lengthField frame)
    rw [← List.drop_drop, List.take_append_drop]

/-- Both ways to take a response apart end in the same. -/
theorem readBody_bind_responseData (long : 9 ≤ frame.length)
    (whole : 9 + Frame.lengthField frame ≤ frame.length) :
    (readBody ⟨frame, closed⟩).bind (fun read => (Frame.responseData read.1).mapError .frame) =
      (Frame.parseResponse frame).mapError .frame := by
  rw [readBody_of_whole long whole]
  cases hlength : Frame.responseLength frame with
  | error e =>
    rw [Frame.parseResponse, hlength]
    rfl
  | ok length =>
    obtain ⟨-, -, rfl⟩ := Frame.of_responseLength_ok hlength
    rw [Frame.parseResponse_of_whole hlength whole]
    rfl

/-- A body is read only of a response that is there. -/
theorem whole_of_readBody_ok {body : List UInt8} {rest : Connection}
    (read : readBody ⟨frame, closed⟩ = .ok (body, rest)) :
    9 ≤ frame.length ∧ 9 + Frame.lengthField frame ≤ frame.length ∧
      Frame.responseLength frame = .ok (Frame.lengthField frame) := by
  obtain ⟨start, harrived, -, hstart, hlength⟩ := readBody_eq_ok_iff.1 read
  have hparts : frame = start ++ (body ++ rest.arrived) := by
    rw [← List.append_assoc]
    exact harrived
  have hlong : 9 ≤ frame.length := by
    rw [hparts, List.length_append, hstart, Frame.prefixLength]
    omega
  have htake : frame.take 9 = start := by
    rw [hparts]
    exact List.take_left' hstart
  rw [← htake, Frame.responseLength_take hlong] at hlength
  obtain ⟨-, -, hfield⟩ := Frame.of_responseLength_ok hlength
  refine ⟨hlong, ?_, hfield ▸ hlength⟩
  rw [← hfield, hparts, List.length_append, List.length_append, hstart, Frame.prefixLength]
  omega

/-- A body that is read is what the length field says, and it has an end code. -/
theorem of_readBody_ok {body : List UInt8} {rest : Connection}
    (read : readBody ⟨frame, closed⟩ = .ok (body, rest)) :
    body = (frame.drop 9).take (Frame.lengthField frame) ∧
      rest = ⟨frame.drop (9 + Frame.lengthField frame), closed⟩ ∧ 2 ≤ body.length := by
  obtain ⟨hlong, hwhole, hlength⟩ := whole_of_readBody_ok read
  rw [readBody_of_whole hlong hwhole, hlength] at read
  simp only [Except.ok.injEq, Prod.mk.injEq] at read
  obtain ⟨rfl, rfl⟩ := read
  obtain ⟨-, hcode, -⟩ := Frame.of_responseLength_ok hlength
  refine ⟨rfl, rfl, ?_⟩
  rw [List.length_take, List.length_drop]
  omega

end Connection

/-- An exchange ends as if the response that has come were parsed at once. -/
theorem Client.exchange_result_of_whole {ν : Type} {peer : Peer ν} {client : Client}
    {request frame : List UInt8} {s s' : ν} {connection : Connection}
    (connected : client.connect peer s = (some connection, s'))
    (usable : connection.closed = false)
    (arrived : (connection.receive ((peer.answer request s').1.within
      client.options.ioTimeoutMs)).arrived = frame)
    (long : 9 ≤ frame.length) (whole : 9 + Frame.lengthField frame ≤ frame.length) :
    (client.exchange peer request s).result = (Frame.parseResponse frame).mapError .frame := by
  obtain ⟨closed, hreceived⟩ : ∃ closed, connection.receive ((peer.answer request s').1.within
      client.options.ioTimeoutMs) = ⟨frame, closed⟩ := ⟨_, by rw [← arrived]⟩
  have hboth : (Connection.readBody ⟨frame, closed⟩).bind _ = _ :=
    Connection.readBody_bind_responseData long whole
  rw [← hboth, ← hreceived]
  simp only [exchange, connected, usable, Bool.false_eq_true, if_false]
  rcases (connection.receive ((peer.answer request s').1.within
    client.options.ioTimeoutMs)).readBody with e | ⟨body, rest⟩
  · rfl
  · rfl

/-! ## Both ways -/

namespace Frame

/-- When a response is parsed and with which data, and which fault is reported when it is not. A
client that reads it as it comes ends in the same, if all of it is there, and its check for a body
that is shorter than an end code never fails. -/
theorem parseResponse_iff (frame : List UInt8) :
    (∀ data, parseResponse frame = .ok data ↔
      (9 ≤ frame.length ∧ frame.take 2 = [0xD0, 0x00] ∧ 2 ≤ lengthField frame ∧
        9 + lengthField frame ≤ frame.length ∧ (frame.drop 9).take 2 = [0, 0]) ∧
      data = (frame.take (9 + lengthField frame)).drop 11) ∧
    (∀ e, parseResponse frame = .error e ↔ fault? frame = some e) ∧
    (9 ≤ frame.length → 9 + lengthField frame ≤ frame.length → ∀ closed,
      (Connection.readBody ⟨frame, closed⟩).bind (fun read =>
        (responseData read.1).mapError .frame) = (parseResponse frame).mapError .frame) ∧
    ∀ closed body rest, Connection.readBody ⟨frame, closed⟩ = .ok (body, rest) →
      body = (frame.drop 9).take (lengthField frame) ∧
      rest = ⟨frame.drop (9 + lengthField frame), closed⟩ ∧
      ∀ expected actual, responseData body ≠ .error (.shortResponse expected actual) := by
  refine ⟨fun data => ?_, fun e => ?_, ?_, ?_⟩
  · rw [parseResponse_eq_ok_iff, fault?_eq_none_iff]
  · rw [parseResponse_eq]
    cases fault? frame with
    | none => simp only [reduceCtorEq]
    | some e' => simp only [Except.error.injEq, Option.some.injEq]
  · intro long whole closed
    exact Connection.readBody_bind_responseData long whole
  · intro closed body rest read
    obtain ⟨hbody, hrest, hcode⟩ := Connection.of_readBody_ok read
    refine ⟨hbody, hrest, fun expected actual short => ?_⟩
    obtain ⟨code, hcode⟩ := of_responseData_error hcode short
    simp at hcode

/-- A response with two bytes of data, and a byte behind it. -/
theorem parseResponse_iff_surplus :
    parseResponse [0xD0, 0, 0, 0xFF, 0xFF, 3, 0, 4, 0, 0, 0, 0x2A, 0, 0x99] = .ok [0x2A, 0] ∧
    (Connection.readBody ⟨[0xD0, 0, 0, 0xFF, 0xFF, 3, 0, 4, 0, 0, 0, 0x2A, 0, 0x99], false⟩).bind
      (fun read => (responseData read.1).mapError LinkError.frame) = .ok [0x2A, 0] := by
  obtain ⟨hdata, -, hread, -⟩ :=
    parseResponse_iff [0xD0, 0, 0, 0xFF, 0xFF, 3, 0, 4, 0, 0, 0, 0x2A, 0, 0x99]
  have hparsed := (hdata [0x2A, 0]).2 ⟨by decide, by decide⟩
  refine ⟨hparsed, ?_⟩
  rw [hread (by decide) (by decide) false, hparsed]
  rfl

end Frame

end PlcGateway
