import PlcGateway.Frame.Basic

/-!
# Responses

The body of a response is an end code and, if that is zero, data. A client reads the start of a
frame first (`responseLength`), then as many bytes as it announces (`responseData`);
`parseResponse` does both on a whole frame.
-/

namespace PlcGateway

/-- A response frame as a PLC sends it. -/
def Station.response (s : Station) (endCode : UInt16) (data : List UInt8) : List UInt8 :=
  s.wrap Frame.responseMark (Bytes.ofWord endCode ++ data)

namespace Frame

/-- The length of a response with an end code and no data. -/
def responseHeader : Nat := prefixLength + 2

/-- Checks the start of a response and gives the number of bytes that follow it. -/
def responseLength (start : List UInt8) : Except FrameError Nat :=
  match start with
  | first :: second :: _ =>
    if start.length < prefixLength then .error (.shortResponse prefixLength start.length)
    else if [first, second] ≠ responseMark then .error (.badSubheader first second)
    else if announced start < 2 then
      .error (.shortResponse responseHeader (prefixLength + announced start))
    else .ok (announced start)
  | _ => .error (.shortResponse prefixLength start.length)

/-- Checks the end code of a response body and gives the data after it. -/
def responseData (body : List UInt8) : Except FrameError (List UInt8) :=
  match body with
  | low :: high :: data =>
    if Bytes.word low high = 0 then .ok data else .error (.endCode (Bytes.word low high))
  | _ => .error (.shortResponse 2 body.length)

/-- The data of a whole response frame; bytes after the frame are ignored. -/
def parseResponse (frame : List UInt8) : Except FrameError (List UInt8) :=
  match responseLength frame with
  | .error e => .error e
  | .ok length =>
    let body := frame.drop prefixLength
    if body.length < length then .error (.shortResponse (prefixLength + length) frame.length)
    else responseData (body.take length)

end Frame

end PlcGateway
