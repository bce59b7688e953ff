import PlcGateway.Frame.Request
import PlcGateway.Frame.Response
import PlcGateway.Proofs.Bytes.LittleEndian

/-!
# Frames come back

A frame that was built is taken off a stream as it was built, whatever follows it (`next?_wrap`),
and the fields of a request are read as they were written (`ofBody?_requestBody`). Together: a PLC
understands the requests of a client (`next?_request`).
-/

namespace PlcGateway

/-! ## The start of a frame -/

namespace Station

/-- The start of a frame with a body. -/
def head (s : Station) (mark body : List UInt8) : List UInt8 :=
  mark ++ s.route ++ Bytes.little 2 body.length

variable {mark body : List UInt8}

theorem length_head (s : Station) (body : List UInt8) (hmark : mark.length = 2) :
    (s.head mark body).length = Frame.prefixLength := by
  simp only [head, List.length_append, length_route, Bytes.length_little, hmark]
  rfl

theorem announced_head (s : Station) (hmark : mark.length = 2) (short : body.length < 65536) :
    Frame.announced (s.head mark body) = body.length := by
  have hseven : (mark ++ s.route).length = 7 := by rw [List.length_append, hmark, length_route]
  rw [Frame.announced, head, List.drop_left' hseven,
    List.take_of_length_le (Nat.le_of_eq (Bytes.length_little 2 _)), Bytes.number_little]
  exact Nat.mod_eq_of_lt short

/-- A frame is taken off a stream as its start and its body. -/
theorem next?_wrap (s : Station) (rest : List UInt8) (hmark : mark.length = 2)
    (short : body.length < 65536) :
    Frame.next? (s.wrap mark body ++ rest) = some ((s.head mark body, body), rest) := by
  have hsplit : Frame.split? (s.wrap mark body ++ rest) =
      some (s.head mark body, body ++ rest) := by
    have hhead := s.length_head body hmark
    have hwrap : s.wrap mark body ++ rest = s.head mark body ++ (body ++ rest) :=
      List.append_assoc _ _ _
    have hlong : ¬ (s.head mark body ++ (body ++ rest)).length < Frame.prefixLength := by
      rw [List.length_append, hhead]
      omega
    rw [hwrap, Frame.split?, if_neg hlong, List.take_left' hhead, List.drop_left' hhead]
  simp only [Frame.next?, hsplit, announced_head s hmark short, Option.bind_eq_bind,
    Option.bind_some]
  rw [if_neg (by rw [List.length_append]; omega), List.take_left' rfl, List.drop_left' rfl]

end Station

/-! ## The fields of a request -/

namespace Variant

/-- How many bytes the offset has. -/
def offsetWidth : Variant → Nat
  | standard => 3
  | extended => 4

/-- How many bytes the device code has. -/
def codeWidth : Variant → Nat
  | standard => 1
  | extended => 2

/-- Whether an offset fits the device fields. -/
def Holds (variant : Variant) (offset : UInt32) : Prop := offset.toNat < 256 ^ variant.offsetWidth

instance (variant : Variant) (offset : UInt32) : Decidable (variant.Holds offset) :=
  inferInstanceAs (Decidable (offset.toNat < 256 ^ variant.offsetWidth))

variable {variant : Variant} {code : DeviceCode} {offset : UInt32} {fields : List UInt8}

/-- The device fields exist exactly for the offsets that fit. -/
theorem deviceFields_eq_ok_iff (variant : Variant) (code : DeviceCode) (offset : UInt32)
    (fields : List UInt8) : variant.deviceFields code offset = .ok fields ↔
      variant.Holds offset ∧ fields = Bytes.little variant.offsetWidth offset.toNat ++
        Bytes.little variant.codeWidth code.byte.toNat := by
  have hbyte := code.byte.toNat_lt
  have hoffset := offset.toNat_lt
  cases variant with
  | standard =>
    have hcode : Bytes.little 1 code.byte.toNat = [code.byte] := by
      simp [Bytes.little, Nat.mod_eq_of_lt hbyte]
    have hlt : 0xFFFFFF < offset ↔ 0xFFFFFF < offset.toNat := UInt32.lt_iff_toNat_lt
    simp only [deviceFields, Holds, offsetWidth, codeWidth, hcode]
    split
    · next hout =>
      rw [hlt] at hout
      have hno : ¬ offset.toNat < 256 ^ 3 := by omega
      simp only [hno, false_and, reduceCtorEq]
    · next hin =>
      rw [hlt] at hin
      have hyes : offset.toNat < 256 ^ 3 := by omega
      simp only [hyes, true_and, Except.ok.injEq, eq_comm]
  | extended =>
    have hcode : Bytes.little 2 code.byte.toNat = [code.byte, 0] := by
      simp [Bytes.little, Nat.mod_eq_of_lt hbyte, Nat.div_eq_of_lt hbyte]
    have hin : offset.toNat < 256 ^ 4 := hoffset
    simp only [deviceFields, Holds, offsetWidth, codeWidth, hcode, hin, true_and,
      Except.ok.injEq, eq_comm]

theorem deviceFields_ne_tooManyPoints (variant : Variant) (code : DeviceCode) (offset : UInt32)
    (points : UInt16) : variant.deviceFields code offset ≠ .error (.tooManyPoints points) := by
  intro h
  cases variant with
  | standard =>
    simp only [deviceFields] at h
    split at h <;> simp at h
  | extended => simp [deviceFields] at h

end Variant

theorem Frame.refused_points_iff (points : UInt16) : (points = 0 ∨ Frame.maxPoints < points.toNat) ↔
    ¬ (1 ≤ points.toNat ∧ points.toNat ≤ Frame.maxPoints) := by
  rw [← UInt16.toNat_inj, UInt16.toNat_zero]
  omega

namespace Station

/-- The body of a request. -/
def requestBody (s : Station) (command : Nat) (variant : Variant) (fields : List UInt8)
    (points : UInt16) (data : List UInt8) : List UInt8 :=
  Bytes.ofWord s.monitoringTimer ++ Bytes.little 2 command ++ Bytes.little 2 variant.subcommand
    ++ fields ++ Bytes.ofWord points ++ data

variable {command : Nat} {variant : Variant} {code : DeviceCode} {offset : UInt32}
  {points : UInt16} {data frame : List UInt8}

theorem request_eq_ok_iff (s : Station) :
    s.request command variant code offset points data = .ok frame ↔
      1 ≤ points.toNat ∧ points.toNat ≤ Frame.maxPoints ∧
        ∃ fields, variant.deviceFields code offset = .ok fields ∧
          frame = s.wrap Frame.requestMark (s.requestBody command variant fields points data) := by
  unfold request
  split
  · next hout =>
    have hno := (Frame.refused_points_iff points).1 hout
    simp only [reduceCtorEq, ← and_assoc, hno, false_and]
  · next hin =>
    have hyes := Decidable.not_not.1 (mt (Frame.refused_points_iff points).2 hin)
    simp only [hyes, true_and]
    cases hfields : variant.deviceFields code offset with
    | error e => simp
    | ok fields => simp only [Except.ok.injEq, exists_eq_left', requestBody, eq_comm]

/-- There is a request for an offset that fits and a number of points that is accepted. -/
theorem exists_request (s : Station) (command : Nat) (code : DeviceCode) (data : List UInt8)
    (points_pos : 1 ≤ points.toNat) (points_le : points.toNat ≤ Frame.maxPoints)
    (holds : variant.Holds offset) :
    ∃ frame, s.request command variant code offset points data = .ok frame :=
  ⟨_, s.request_eq_ok_iff.2 ⟨points_pos, points_le, _,
    (variant.deviceFields_eq_ok_iff code offset _).2 ⟨holds, rfl⟩, rfl⟩⟩

/-- A request is refused for its points exactly if there are none or more than a frame may have. -/
theorem request_eq_tooManyPoints_iff (s : Station) {refused : UInt16} :
    s.request command variant code offset points data = .error (.tooManyPoints refused) ↔
      refused = points ∧ ¬ (1 ≤ points.toNat ∧ points.toNat ≤ Frame.maxPoints) := by
  unfold request
  split
  · next hout =>
    have hno := (Frame.refused_points_iff points).1 hout
    simp only [Except.error.injEq, FrameError.tooManyPoints.injEq, hno, not_false_eq_true, and_true,
      eq_comm]
  · next hin =>
    have hyes := Decidable.not_not.1 (mt (Frame.refused_points_iff points).2 hin)
    simp only [hyes, and_self, not_true_eq_false, and_false, iff_false]
    cases hfields : variant.deviceFields code offset with
    | error e =>
      intro h
      obtain rfl := Except.error.inj h
      exact variant.deviceFields_ne_tooManyPoints code offset refused hfields
    | ok fields => simp

end Station

namespace Request

theorem ofFields?_append {command size codeSize : Nat} {code : DeviceCode} {offset : UInt32}
    (points : UInt16) (data : List UInt8) (hcode : code.byte.toNat < 256 ^ codeSize)
    (hoffset : offset.toNat < 256 ^ size) :
    ofFields? command size codeSize (Bytes.little size offset.toNat ++
      Bytes.little codeSize code.byte.toNat ++ Bytes.ofWord points ++ data) =
        some ⟨command, code, offset, points, data⟩ := by
  have hwidth : (Bytes.little size offset.toNat).length = size := Bytes.length_little _ _
  have hcodeWidth : (Bytes.little codeSize code.byte.toNat).length = codeSize :=
    Bytes.length_little _ _
  have hword : (Bytes.ofWord points).length = 2 := Bytes.length_little _ _
  have hpoints : UInt16.ofNat (Bytes.number (Bytes.ofWord points)) = points := by
    obtain ⟨low, high, hbytes, hword⟩ := Bytes.word_ofWord points
    rw [hbytes]
    exact hword
  -- what is read of the fields, part by part
  generalize hfields : Bytes.little size offset.toNat ++ Bytes.little codeSize code.byte.toNat ++
    Bytes.ofWord points ++ data = fields
  have hlong : ¬ fields.length < size + codeSize + 2 := by
    simp only [← hfields, List.length_append, hwidth, hcodeWidth, hword]
    omega
  have hfirst : fields.take size = Bytes.little size offset.toNat := by
    rw [← hfields, List.append_assoc, List.append_assoc, List.take_left' hwidth]
  have hsecond : (fields.drop size).take codeSize = Bytes.little codeSize code.byte.toNat := by
    rw [← hfields, List.append_assoc, List.append_assoc, List.drop_left' hwidth,
      List.take_left' hcodeWidth]
  have hrest : fields.drop (size + codeSize) = Bytes.ofWord points ++ data := by
    rw [← hfields, List.append_assoc,
      List.drop_left' (by rw [List.length_append, hwidth, hcodeWidth])]
  have hbyte : ¬ 255 < code.byte.toNat := Nat.not_lt.2 (Nat.le_of_lt_succ code.byte.toNat_lt)
  simp only [ofFields?, if_neg hlong, hfirst, hsecond, hrest, Bytes.number_little,
    Nat.mod_eq_of_lt hcode, Nat.mod_eq_of_lt hoffset, if_neg hbyte, UInt8.ofNat_toNat,
    UInt32.ofNat_toNat, DeviceCode.ofByte?_byte, List.take_left' hword, List.drop_left' hword,
    hpoints, Option.bind_eq_bind, Option.bind_some]

theorem isExtended_requestBody (s : Station) (command : Nat) (variant : Variant)
    (fields : List UInt8) (points : UInt16) (data : List UInt8) :
    isExtended (s.requestBody command variant fields points data) = (variant == .extended) := by
  have hword : (Bytes.ofWord s.monitoringTimer).length = 2 := Bytes.length_little _ _
  have hfour : (Bytes.ofWord s.monitoringTimer ++ Bytes.little 2 command).length = 4 := by
    rw [List.length_append, hword, Bytes.length_little]
  have htwo : (Bytes.little 2 variant.subcommand).length = 2 := Bytes.length_little _ _
  have hlong : 6 ≤ (s.requestBody command variant fields points data).length := by
    simp only [Station.requestBody, List.length_append, hword, Bytes.length_little]
    omega
  have hsub : ((s.requestBody command variant fields points data).drop 4).take 2 =
      Bytes.little 2 variant.subcommand := by
    simp only [Station.requestBody, List.append_assoc]
    rw [← List.append_assoc, List.drop_left' hfour, List.take_left' htwo]
  rw [isExtended, hsub, Bytes.number_little, decide_eq_true hlong, Bool.true_and]
  cases variant <;> rfl

/-- A request body is read as it was written. -/
theorem ofBody?_requestBody (s : Station) {command : Nat} {variant : Variant} {code : DeviceCode}
    {offset : UInt32} {fields : List UInt8} (points : UInt16) (data : List UInt8)
    (hcommand : command < 65536) (hfields : variant.deviceFields code offset = .ok fields) :
    ofBody? (s.requestBody command variant fields points data) =
      some ⟨command, code, offset, points, data⟩ := by
  have hword : (Bytes.ofWord s.monitoringTimer).length = 2 := Bytes.length_little _ _
  have htwo : (Bytes.little 2 command).length = 2 := Bytes.length_little _ _
  have hsix : (Bytes.ofWord s.monitoringTimer ++ Bytes.little 2 command ++
      Bytes.little 2 variant.subcommand).length = 6 := by
    simp only [List.length_append, hword, Bytes.length_little]
  have hextended := isExtended_requestBody s command variant fields points data
  obtain ⟨hheld, rfl⟩ := (variant.deviceFields_eq_ok_iff code offset fields).1 hfields
  generalize hbody : s.requestBody command variant _ points data = body at hextended ⊢
  have hlong : ¬ body.length < 6 := by
    simp only [← hbody, Station.requestBody, List.length_append, hword, Bytes.length_little]
    omega
  have hcommandAt : (body.drop 2).take 2 = Bytes.little 2 command := by
    simp only [← hbody, Station.requestBody, List.append_assoc]
    rw [List.drop_left' hword, List.take_left' htwo]
  have hfieldsAt : body.drop 6 = Bytes.little variant.offsetWidth offset.toNat ++
      Bytes.little variant.codeWidth code.byte.toNat ++ Bytes.ofWord points ++ data := by
    rw [← hbody, Station.requestBody, List.append_assoc, List.append_assoc, List.drop_left' hsix,
      ← List.append_assoc]
  have hnumber : Bytes.number (Bytes.little 2 command) = command := by
    rw [Bytes.number_little]
    exact Nat.mod_eq_of_lt hcommand
  have hcode : code.byte.toNat < 256 ^ variant.codeWidth := by
    have hbyte := code.byte.toNat_lt
    cases variant with
    | standard => exact hbyte
    | extended => exact Nat.lt_trans hbyte (by decide : 2 ^ 8 < 256 ^ 2)
  rw [ofBody?, if_neg hlong, hextended, hcommandAt, hfieldsAt, hnumber]
  cases variant with
  | standard => exact ofFields?_append points data hcode hheld
  | extended => exact ofFields?_append points data hcode hheld

end Request

/-! ## Requests over a stream -/

theorem Station.length_requestBody_lt (s : Station) (command : Nat) {variant : Variant}
    {code : DeviceCode} {offset : UInt32} {fields : List UInt8} (points : UInt16)
    {data : List UInt8} (hfields : variant.deviceFields code offset = .ok fields)
    (hdata : data.length ≤ 2 * Frame.maxPoints) :
    (s.requestBody command variant fields points data).length < 65536 := by
  obtain ⟨-, rfl⟩ := (variant.deviceFields_eq_ok_iff code offset fields).1 hfields
  have hmax : Frame.maxPoints = 960 := rfl
  simp only [requestBody, Bytes.ofWord, List.length_append, Bytes.length_little]
  cases variant <;> simp only [Variant.offsetWidth, Variant.codeWidth] <;> omega

/-- A PLC takes a request off its stream as the client has built it. -/
theorem Station.next?_request {s : Station} {command : Nat} {variant : Variant} {code : DeviceCode}
    {offset : UInt32} {points : UInt16} {data frame : List UInt8} (rest : List UInt8)
    (built : s.request command variant code offset points data = .ok frame)
    (hcommand : command < 65536) (hdata : data.length ≤ 2 * Frame.maxPoints) :
    ∃ start body, Frame.next? (frame ++ rest) = some ((start, body), rest) ∧
      start.take 2 = Frame.requestMark ∧
      Request.ofBody? body = some ⟨command, code, offset, points, data⟩ ∧
      Request.isExtended body = (variant == .extended) := by
  obtain ⟨-, -, fields, hfields, rfl⟩ := s.request_eq_ok_iff.1 built
  have short := s.length_requestBody_lt command points hfields hdata
  refine ⟨_, _, s.next?_wrap rest rfl short, rfl, ?_, ?_⟩
  · exact Request.ofBody?_requestBody s points data hcommand hfields
  · exact Request.isExtended_requestBody ..

end PlcGateway
