import PlcGateway.Frame.Basic

/-!
# Requests

A request reads or writes a run of words of one area. Its device fields come in two variants: the
standard one has a three-byte offset and a one-byte device code, the extended one has four and two
bytes. `readRequest` and `writeRequest` build the frame on the client's side, and `Request.ofBody?`
reads the body on the PLC's side.
-/

namespace PlcGateway

/-- How a request gives the device it is about. -/
inductive Variant where
  | standard
  | extended
  deriving DecidableEq, Repr, Inhabited

namespace Variant

/-- The sub-command that announces a variant. -/
def subcommand : Variant → Nat
  | standard => 0x0000
  | extended => 0x0002

/-- The device fields of a request, if the offset fits them. -/
def deviceFields (variant : Variant) (code : DeviceCode) (offset : UInt32) :
    Except FrameError (List UInt8) :=
  match variant with
  | standard =>
    if 0xFFFFFF < offset then .error (.addressOutOfRange offset)
    else .ok (Bytes.little 3 offset.toNat ++ [code.byte])
  | extended => .ok (Bytes.little 4 offset.toNat ++ [code.byte, 0])

end Variant

/-- The number of the command that reads words. -/
def readCommand : Nat := 0x0401

/-- The number of the command that writes words. -/
def writeCommand : Nat := 0x1401

/-- Bytes cut to `2 * points` of them or filled up with zeros. -/
def wordData (points : UInt16) (data : List UInt8) : List UInt8 :=
  let size := 2 * points.toNat
  data.take size ++ List.replicate (size - data.length) 0

namespace Station

/-- A request frame. The number of points is checked before the offset. -/
def request (s : Station) (command : Nat) (variant : Variant) (code : DeviceCode)
    (offset : UInt32) (points : UInt16) (data : List UInt8) : Except FrameError (List UInt8) :=
  if points = 0 ∨ Frame.maxPoints < points.toNat then .error (.tooManyPoints points)
  else
    match variant.deviceFields code offset with
    | .error e => .error e
    | .ok fields =>
      .ok <| s.wrap Frame.requestMark <|
        Bytes.ofWord s.monitoringTimer ++ Bytes.little 2 command
          ++ Bytes.little 2 variant.subcommand ++ fields ++ Bytes.ofWord points ++ data

/-- A request to read words. -/
def readRequest (s : Station) (variant : Variant) (code : DeviceCode) (offset : UInt32)
    (points : UInt16) : Except FrameError (List UInt8) :=
  s.request readCommand variant code offset points []

/-- A request to write words, which are cut or filled up to `points` of them. -/
def writeRequest (s : Station) (variant : Variant) (code : DeviceCode) (offset : UInt32)
    (points : UInt16) (data : List UInt8) : Except FrameError (List UInt8) :=
  s.request writeCommand variant code offset points (wordData points data)

end Station

/-- A request as the PLC understands it. -/
structure Request where
  command : Nat
  code : DeviceCode
  offset : UInt32
  points : UInt16
  data : List UInt8
  deriving DecidableEq, Repr

namespace Request

/-- Whether a request body uses the extended device fields. -/
def isExtended (body : List UInt8) : Bool :=
  6 ≤ body.length && Bytes.number ((body.drop 4).take 2) == Variant.extended.subcommand

/-- Reads the fields after the sub-command: `size` bytes of offset, then the device code. -/
def ofFields? (command size codeSize : Nat) (fields : List UInt8) : Option Request := do
  if fields.length < size + codeSize + 2 then none
  else
    let code := Bytes.number ((fields.drop size).take codeSize)
    if 255 < code then none
    else
      let code ← DeviceCode.ofByte? (UInt8.ofNat code)
      let rest := fields.drop (size + codeSize)
      some {
        command, code
        offset := UInt32.ofNat (Bytes.number (fields.take size))
        points := UInt16.ofNat (Bytes.number (rest.take 2))
        data := rest.drop 2 }

/-- Reads the body of a request frame. -/
def ofBody? (body : List UInt8) : Option Request :=
  if body.length < 6 then none
  else
    let command := Bytes.number ((body.drop 2).take 2)
    if isExtended body then ofFields? command 4 2 (body.drop 6)
    else ofFields? command 3 1 (body.drop 6)

end Request

@[simp] theorem length_wordData (points : UInt16) (data : List UInt8) :
    (wordData points data).length = 2 * points.toNat := by
  simp only [wordData, List.length_append, List.length_take, List.length_replicate]
  omega

end PlcGateway
