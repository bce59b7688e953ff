import PlcGateway.Frame.Request

/-!
# Streams of requests

An order is what a request says before it is made into a frame. The frames of several orders follow
one another over a connection with nothing in between. A PLC takes them off the stream one by one:
the start of a frame, which has a fixed length, and then as many bytes as it announces
(`Frame.requests`).
-/

namespace PlcGateway

/-- What is asked of a PLC, and in which form. -/
structure Order where
  station : Station
  variant : Variant
  code : DeviceCode
  offset : UInt32
  points : UInt16
  /-- The bytes to be written, or nothing where words are to be read. -/
  data : Option (List UInt8)
  deriving DecidableEq, Repr

namespace Order

/-- The frame that an order is sent in. -/
def frame (order : Order) : Except FrameError (List UInt8) :=
  match order.data with
  | none => order.station.readRequest order.variant order.code order.offset order.points
  | some data => order.station.writeRequest order.variant order.code order.offset order.points data

/-- The request that a PLC is to see. -/
def request (order : Order) : Request :=
  match order.data with
  | none => ⟨readCommand, order.code, order.offset, order.points, []⟩
  | some data =>
    ⟨writeCommand, order.code, order.offset, order.points, wordData order.points data⟩

end Order

namespace Frame

/-- A frame is taken off exactly those streams that it is the beginning of. -/
theorem next?_eq_some_iff {bytes start body rest : List UInt8} :
    next? bytes = some ((start, body), rest) ↔
      bytes = start ++ body ++ rest ∧ start.length = prefixLength ∧
        body.length = announced start := by
  unfold next? split?
  constructor
  · intro h
    split at h
    · simp at h
    · simp only [Option.bind_eq_bind, Option.bind_some] at h
      split at h
      · simp at h
      · simp only [Option.some.injEq, Prod.mk.injEq] at h
        obtain ⟨⟨rfl, rfl⟩, rfl⟩ := h
        simp only [List.append_assoc, List.take_append_drop, List.length_take, true_and]
        omega
  · rintro ⟨rfl, hstart, hbody⟩
    have hlong : ¬ (start ++ (body ++ rest)).length < prefixLength := by
      rw [List.length_append]
      omega
    have hwhole : ¬ (body ++ rest).length < announced start := by
      rw [List.length_append]
      omega
    rw [List.append_assoc, if_neg hlong, List.take_left' hstart, List.drop_left' hstart]
    simp only [Option.bind_eq_bind, Option.bind_some]
    rw [if_neg hwhole, List.take_left' hbody, List.drop_left' hbody]

/-- The requests at the beginning of a stream, each as the start and the body of its frame, and the
bytes behind the last one of them that is whole and marked as a request. -/
def requests (stream : List UInt8) : List (List UInt8 × List UInt8) × List UInt8 :=
  match _h : next? stream with
  | none => ([], stream)
  | some ((start, body), rest) =>
    if start.take 2 ≠ requestMark then ([], stream)
    else ((start, body) :: (requests rest).1, (requests rest).2)
termination_by stream.length
decreasing_by
  all_goals
    obtain ⟨rfl, hstart, -⟩ := next?_eq_some_iff.1 _h
    simp only [List.length_append, hstart, prefixLength]
    omega

theorem requests_nil : requests [] = ([], []) := by
  rw [requests]
  rfl

/-- A request at the beginning of a stream is the first one that is taken off. -/
theorem requests_append {stream start body rest : List UInt8}
    (first : next? stream = some ((start, body), rest)) (mark : start.take 2 = requestMark) :
    requests stream = ((start, body) :: (requests rest).1, (requests rest).2) := by
  rw [requests]
  split
  · next h => simp [first] at h
  · next h =>
    rw [first, Option.some.injEq, Prod.mk.injEq, Prod.mk.injEq] at h
    obtain ⟨⟨rfl, rfl⟩, rfl⟩ := h
    rw [if_neg (by simpa using mark)]

end Frame

end PlcGateway
