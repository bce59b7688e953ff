import PlcGateway.Proofs.Link.Response

/-!
# Responses come back

A response that was built is parsed as it was built, whatever bytes follow it. Its length field has
16 bits and counts the end code and the data modulo 65536 (`lengthSaid`), so of data that are longer
than it can say only a beginning comes back, or nothing at all (`parseResponse_response`). Of a
response that its length field holds, no part at the front is taken for a response
(`parseResponse_of_isPrefix`).
-/

namespace PlcGateway.Frame

/-- What the length field of a response with these data says. -/
def lengthSaid (data : List UInt8) : Nat := (data.length + 2) % 65536

variable {s : Station} {endCode : UInt16} {data rest start : List UInt8}

/-! ## The fields of a response that was built -/

/-- The bytes of a response one by one, up to its data. -/
theorem exists_response_eq (s : Station) (endCode : UInt16) (data : List UInt8) :
    ∃ network pc low high station first second third fourth,
      s.response endCode data = 0xD0 :: 0x00 :: network :: pc :: low :: high :: station ::
        first :: second :: third :: fourth :: data ∧
      Bytes.number [first, second] = lengthSaid data ∧ Bytes.word third fourth = endCode := by
  obtain ⟨low, high, hio, -⟩ := Bytes.word_ofWord s.io
  obtain ⟨third, fourth, hcode, hword⟩ := Bytes.word_ofWord endCode
  have hbody : (Bytes.ofWord endCode ++ data).length = data.length + 2 := by
    rw [List.length_append, Bytes.ofWord, Bytes.length_little, Nat.add_comm]
  refine ⟨s.network, s.pc, low, high, s.station, _, _, third, fourth, ?_,
    Bytes.number_little 2 (data.length + 2), hword⟩
  rw [Station.response, Station.wrap, Station.route, hbody, hcode, hio]
  rfl

theorem length_response : (s.response endCode data).length = data.length + 11 := by
  obtain ⟨_, _, _, _, _, _, _, _, _, hresponse, -⟩ := exists_response_eq s endCode data
  rw [hresponse]
  rfl

theorem mark_response : (s.response endCode data ++ rest).take 2 = [0xD0, 0x00] := rfl

theorem lengthField_response :
    lengthField (s.response endCode data ++ rest) = lengthSaid data := by
  obtain ⟨_, _, _, _, _, first, second, _, _, hresponse, hlength, -⟩ :=
    exists_response_eq s endCode data
  rw [hresponse, ← hlength]
  rfl

theorem endCodeField_response : endCodeField (s.response endCode data ++ rest) = endCode := by
  obtain ⟨_, _, _, _, _, _, _, _, _, hresponse, -, hcode⟩ := exists_response_eq s endCode data
  rw [hresponse, ← hcode]
  rfl

/-- What stands behind the end code is the data, and then what follows. -/
theorem drop_response : (s.response endCode data ++ rest).drop 11 = data ++ rest := by
  obtain ⟨_, _, _, _, _, _, _, _, _, hresponse, -⟩ := exists_response_eq s endCode data
  rw [hresponse]
  rfl

theorem lengthSaid_le (data : List UInt8) : lengthSaid data ≤ data.length + 2 :=
  Nat.mod_le _ _

theorem lengthSaid_of_le (short : data.length ≤ 65533) : lengthSaid data = data.length + 2 :=
  Nat.mod_eq_of_lt (by omega)

/-! ## Whole responses -/

/-- A response gives the data that its length field says, unless this says less than the end code
has, or the end code is not zero. -/
theorem parseResponse_response (s : Station) (endCode : UInt16) (data rest : List UInt8) :
    parseResponse (s.response endCode data ++ rest) =
      if lengthSaid data < 2 then .error (.shortResponse 11 (9 + lengthSaid data))
      else if endCode ≠ 0 then .error (.endCode endCode)
      else .ok (data.take (lengthSaid data - 2)) := by
  have hsaid := lengthSaid_le data
  have hlength : (s.response endCode data ++ rest).length = data.length + 11 + rest.length := by
    rw [List.length_append, length_response]
  have hfault : fault? (s.response endCode data ++ rest) =
      if lengthSaid data < 2 then some (.shortResponse 11 (9 + lengthSaid data))
      else if endCode ≠ 0 then some (.endCode endCode) else none := by
    rw [fault?, lengthField_response, endCodeField_response, mark_response, hlength,
      if_neg (by omega), if_neg (by simp), if_neg (by omega : ¬ _ < 9 + lengthSaid data)]
  rw [parseResponse_eq, hfault]
  split_ifs with hshort hcode
  · rfl
  · rfl
  · have htake : (data ++ rest).take (lengthSaid data - 2) = data.take (lengthSaid data - 2) :=
      List.take_append_of_le_length (by omega)
    show Except.ok _ = Except.ok _
    rw [lengthField_response, List.drop_take, drop_response,
      show 9 + lengthSaid data - 11 = lengthSaid data - 2 by omega, htake]

/-! ## Parts of responses -/

theorem lengthField_append (long : 9 ≤ start.length) (rest : List UInt8) :
    lengthField (start ++ rest) = lengthField start := by
  rw [lengthField, lengthField, List.getD_append _ _ _ _ (by omega),
    List.getD_append _ _ _ _ (by omega)]

/-- Where the length field holds the length, a response that has lost bytes at its end is refused
for what is missing. -/
theorem parseResponse_of_isPrefix (short : data.length ≤ 65533)
    (part : start <+: s.response endCode data) (cut : start ≠ s.response endCode data) :
    parseResponse start =
      .error (.shortResponse (if start.length < 9 then 9 else data.length + 11) start.length) := by
  have hlt : start.length < data.length + 11 := by
    have hwhole : (s.response endCode data).length = data.length + 11 := length_response
    rw [← hwhole]
    exact Nat.lt_of_le_of_ne part.length_le fun h => cut (part.eq_of_length h)
  have hfault : fault? start =
      some (.shortResponse (if start.length < 9 then 9 else data.length + 11) start.length) := by
    rw [fault?]
    by_cases hstart : start.length < 9
    · rw [if_pos hstart, if_pos hstart]
    · obtain ⟨lost, hlost⟩ := part
      have hmark : start.take 2 = [0xD0, 0x00] := by
        have htake : (start ++ lost).take 2 = start.take 2 :=
          List.take_append_of_le_length (by omega)
        rw [← htake, hlost]
        rfl
      have hfield : lengthField start = data.length + 2 := by
        have hwhole : lengthField (s.response endCode data ++ []) = lengthSaid data :=
          lengthField_response
        rw [List.append_nil, ← hlost, lengthField_append (by omega)] at hwhole
        rw [hwhole, lengthSaid_of_le short]
      rw [if_neg hstart, if_neg hstart, hmark, hfield, if_neg (by simp), if_neg (by omega),
        if_pos (by omega)]
      congr 2
      omega
  rw [parseResponse_eq, hfault]

/-- A response with any end code and data and any bytes behind it is refused as too short exactly
where the length field wraps to less than an end code has; otherwise its end code is reported, or
the data come back as far as the length field says. Up to 65533 bytes of data come back as they are,
and such a response is refused as too short whenever bytes are missing at its end. -/
theorem response_comes_back (s : Station) (endCode : UInt16) (data : List UInt8) :
    (∀ rest, parseResponse (s.response endCode data ++ rest) =
      if lengthSaid data < 2 then .error (.shortResponse 11 (9 + lengthSaid data))
      else if endCode ≠ 0 then .error (.endCode endCode)
      else .ok (data.take (lengthSaid data - 2))) ∧
    (data.length ≤ 65533 →
      (∀ rest, parseResponse (s.response 0 data ++ rest) = .ok data) ∧
      ∀ start, start <+: s.response endCode data → start ≠ s.response endCode data →
        parseResponse start = .error
          (.shortResponse (if start.length < 9 then 9 else data.length + 11) start.length)) := by
  refine ⟨parseResponse_response s endCode data, fun short => ⟨fun rest => ?_, ?_⟩⟩
  · rw [parseResponse_response, lengthSaid_of_le short, if_neg (by omega), if_neg (by simp),
      Nat.add_sub_cancel, List.take_length]
  · intro start part cut
    exact parseResponse_of_isPrefix short part cut

/-- The longest data that come back, with bytes behind the response, and the response without its
last byte. -/
theorem response_comes_back_longest :
    parseResponse (Station.local.response 0 (List.replicate 65533 7) ++ [1, 2]) =
      .ok (List.replicate 65533 7) ∧
    parseResponse ((Station.local.response 0xC059 (List.replicate 65533 7)).take 65543) =
      .error (.shortResponse 65544 65543) := by
  obtain ⟨-, hshort⟩ := response_comes_back Station.local 0xC059 (List.replicate 65533 7)
  have hlength : (Station.local.response 0xC059 (List.replicate 65533 7)).length = 65544 := by
    rw [length_response, List.length_replicate]
  have htake : ((Station.local.response 0xC059 (List.replicate 65533 7)).take 65543).length =
      65543 := List.length_take_of_le (by omega)
  obtain ⟨hwhole, hpart⟩ := hshort (Nat.le_of_eq List.length_replicate)
  refine ⟨hwhole _, ?_⟩
  rw [hpart _ (List.take_prefix _ _) fun h => ?_]
  · rw [htake, List.length_replicate]
    rfl
  · rw [h, hlength] at htake
    exact absurd htake (by decide)

end PlcGateway.Frame
