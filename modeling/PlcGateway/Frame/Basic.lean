import PlcGateway.Bytes.LittleEndian
import PlcGateway.Device.Code
import PlcGateway.Text.Numeral

/-!
# Frames

A request and its response travel as one frame each: two bytes that tell which of the two it is,
the route to the station, the length of what follows, and the body. This module holds what both
directions share; `Frame/Request` and `Frame/Response` hold the bodies.
-/

namespace PlcGateway

/-- Why a frame cannot be built or does not answer a request. -/
inductive FrameError where
  | tooManyPoints (points : UInt16)
  | addressOutOfRange (offset : UInt32)
  | shortResponse (expected actual : Nat)
  | badSubheader (first second : UInt8)
  | endCode (code : UInt16)
  deriving DecidableEq, Repr

namespace Frame

/-- The first two bytes of a request. -/
def requestMark : List UInt8 := [0x50, 0x00]

/-- The first two bytes of a response. -/
def responseMark : List UInt8 := [0xD0, 0x00]

/-- How many bytes come before the body: the mark, the route and the length. -/
def prefixLength : Nat := 9

/-- The most words that one command may read or write. -/
def maxPoints : Nat := 960

end Frame

/-- The wording of a refusal. -/
def FrameError.message : FrameError → String
  | .tooManyPoints points =>
    s!"Too many points in one frame: {points.toNat} (max {Frame.maxPoints})"
  | .addressOutOfRange offset =>
    s!"Device number {offset.toNat} does not fit the frame's address field"
  | .shortResponse expected actual =>
    s!"Response too short: expected {expected} bytes, got {actual}"
  | .badSubheader first second =>
    s!"Unexpected response sub-header [{hex 2 first.toNat}, {hex 2 second.toNat}]"
  | .endCode code => s!"PLC returned end code 0x{hex 4 code.toNat}"
where
  hex (width n : Nat) : String := String.ofList (Text.hexadecimal width n)

/-- The route to a unit of a PLC network, and how long the PLC may take over a command. -/
structure Station where
  network : UInt8
  pc : UInt8
  io : UInt16
  station : UInt8
  /-- In units of 250 ms. -/
  monitoringTimer : UInt16
  deriving DecidableEq, Repr

namespace Station

/-- The station that is connected directly. -/
def «local» : Station := ⟨0x00, 0xFF, 0x03FF, 0x00, 0x0010⟩

/-- The route as it stands in a frame. -/
def route (s : Station) : List UInt8 :=
  s.network :: s.pc :: (Bytes.ofWord s.io ++ [s.station])

/-- A frame with a body. Its length field counts the body modulo 65536. -/
def wrap (s : Station) (mark body : List UInt8) : List UInt8 :=
  mark ++ s.route ++ Bytes.little 2 body.length ++ body

end Station

/-- The start of a frame and the bytes after it, if the start is there. -/
def Frame.split? (bytes : List UInt8) : Option (List UInt8 × List UInt8) :=
  if bytes.length < prefixLength then none
  else some (bytes.take prefixLength, bytes.drop prefixLength)

/-- The body length that the start of a frame announces. -/
def Frame.announced (start : List UInt8) : Nat := Bytes.number ((start.drop 7).take 2)

/-- The first frame of a stream, as its start and its body, and the bytes after it. -/
def Frame.next? (bytes : List UInt8) : Option ((List UInt8 × List UInt8) × List UInt8) := do
  let (start, rest) ← split? bytes
  let length := announced start
  if rest.length < length then none
  else some ((start, rest.take length), rest.drop length)

@[simp] theorem Station.length_route (s : Station) : s.route.length = 5 := by
  simp [route, Bytes.ofWord]

end PlcGateway
