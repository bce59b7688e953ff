import Mathlib.Data.List.Forall2
import PlcGateway.Frame.Stream
import PlcGateway.Proofs.Bytes.Words
import PlcGateway.Proofs.Frame.Request

/-!
# Streams come back

A PLC that takes requests off a stream finds the orders whose frames were put on it, each with its
fields, and no others (`requests_flatten`). An order has no frame exactly if it is for no points or
too many of them, or if its offset does not fit (`frame_eq_error_iff`).
-/

namespace PlcGateway

/-- What comes behind a frame is not taken off with it. -/
theorem Frame.next?_append {bytes rest : List UInt8} {part : List UInt8 × List UInt8}
    (next : Frame.next? bytes = some (part, rest)) (more : List UInt8) :
    Frame.next? (bytes ++ more) = some (part, rest ++ more) := by
  obtain ⟨rfl, hstart, hbody⟩ := Frame.next?_eq_some_iff.1 next
  exact Frame.next?_eq_some_iff.2 ⟨List.append_assoc _ _ _, hstart, hbody⟩

namespace Order

/-- A request says what an order asks for. Data to be written is given the length that its points
have: it is cut, or filled up with zeros. -/
structure IsReadAs (order : Order) (request : Request) : Prop where
  command : request.command = if order.data.isSome then 0x1401 else 0x0401
  code : request.code = order.code
  offset : request.offset = order.offset
  points : request.points = order.points
  nothing : order.data = none → request.data = []
  data : ∀ data, order.data = some data → request.data.length = 2 * order.points.toNat ∧
    ∀ i < 2 * order.points.toNat, request.data[i]? = some (data.getD i 0)

theorem isReadAs_request (order : Order) : order.IsReadAs order.request := by
  obtain ⟨station, variant, code, offset, points, data⟩ := order
  cases data with
  | none => exact ⟨rfl, rfl, rfl, rfl, fun _ => rfl, by simp⟩
  | some data =>
    refine ⟨rfl, rfl, rfl, rfl, by simp, ?_⟩
    rintro _ ⟨⟩
    exact ⟨length_wordData points data, fun i hi => Bytes.getElem?_wordData data hi⟩

theorem command_request_lt (order : Order) : order.request.command < 65536 := by
  rw [order.isReadAs_request.command]
  split <;> decide

theorem length_data_request_le (order : Order) :
    order.request.data.length ≤ 2 * order.points.toNat := by
  cases hdata : order.data with
  | none => simp [order.isReadAs_request.nothing hdata]
  | some data => exact Nat.le_of_eq (order.isReadAs_request.data data hdata).1

theorem request_eq (order : Order) :
    order.request =
      ⟨order.request.command, order.code, order.offset, order.points, order.request.data⟩ := by
  obtain ⟨station, variant, code, offset, points, data⟩ := order
  cases data <;> rfl

/-! ## Frames that are refused -/

theorem frame_eq_request (order : Order) :
    order.frame = order.station.request order.request.command order.variant order.code order.offset
      order.points order.request.data := by
  obtain ⟨station, variant, code, offset, points, data⟩ := order
  cases data <;> rfl

end Order

theorem Variant.deviceFields_eq_error_iff {variant : Variant} {code : DeviceCode} {offset : UInt32}
    {e : FrameError} : variant.deviceFields code offset = .error e ↔
      variant = .standard ∧ 0xFFFFFF < offset ∧ e = .addressOutOfRange offset := by
  cases variant with
  | standard =>
    rw [deviceFields]
    split
    · next hout => simp [hout, eq_comm]
    · next hin => simp [hin]
  | extended => simp [deviceFields]

namespace Order

variable {order : Order} {frame : List UInt8}

/-- Why an order is refused: for its points, or else for its offset. -/
theorem frame_eq_error_iff {e : FrameError} : order.frame = .error e ↔
    (order.points = 0 ∨ Frame.maxPoints < order.points.toNat) ∧ e = .tooManyPoints order.points ∨
      ¬ (order.points = 0 ∨ Frame.maxPoints < order.points.toNat) ∧
        order.variant = .standard ∧ 0xFFFFFF < order.offset ∧
        e = .addressOutOfRange order.offset := by
  rw [frame_eq_request, Station.request]
  split
  · next hout => simp [hout, eq_comm]
  · next hin =>
    simp only [hin, false_and, not_false_eq_true, true_and, false_or]
    have hfields : order.variant.deviceFields order.code order.offset = .error e ↔ _ :=
      Variant.deviceFields_eq_error_iff
    rw [← hfields]
    cases order.variant.deviceFields order.code order.offset with
    | error e' => simp
    | ok fields => simp

/-! ## Frames in a row -/

/-- The frame of an order is taken off a stream as it was put on it. -/
theorem next?_frame (built : order.frame = .ok frame) (rest : List UInt8) :
    ∃ start body, frame = start ++ body ∧
      Frame.next? (frame ++ rest) = some ((start, body), rest) ∧
      start.take 2 = Frame.requestMark ∧ Request.ofBody? body = some order.request := by
  rw [frame_eq_request] at built
  have hpoints := (order.station.request_eq_ok_iff.1 built).2.1
  have hlength := order.length_data_request_le
  obtain ⟨start, body, hnext, hmark, hbody, -⟩ :=
    Station.next?_request rest built order.command_request_lt (by omega)
  have hframe := (Frame.next?_eq_some_iff.1 hnext).1
  refine ⟨start, body, List.append_cancel_right hframe, hnext, hmark, ?_⟩
  rw [hbody, ← order.request_eq]

/-- A PLC takes a request off its stream only when all of it has come. -/
theorem of_next?_sent {sent left start body rest : List UInt8}
    (built : order.frame = .ok (sent ++ left))
    (next : Frame.next? sent = some ((start, body), rest)) :
    sent = start ++ body ∧ left = [] := by
  obtain ⟨start', body', -, hnext, -⟩ := next?_frame built []
  rw [List.append_nil, Frame.next?_append next left] at hnext
  simp only [Option.some.injEq, Prod.mk.injEq, List.append_eq_nil_iff] at hnext
  obtain ⟨-, rfl, rfl⟩ := hnext
  refine ⟨?_, rfl⟩
  rw [(Frame.next?_eq_some_iff.1 next).1, List.append_nil]

/-- Orders whose frames are put on a stream one after the other are taken off it again, and nothing
else is. Only such orders have no frame as are for no points or too many, or whose offset does not
fit. -/
theorem requests_flatten {orders : List Order} {frames : List (List UInt8)}
    (built : List.Forall₂ (fun order frame => Order.frame order = .ok frame) orders frames) :
    (∃ parts, Frame.requests frames.flatten = (parts, []) ∧
      frames = parts.map (fun part => part.1 ++ part.2) ∧
      List.Forall₂ (fun order part => part.1.length = 9 ∧
        Frame.announced part.1 = part.2.length ∧
        ∃ request, Request.ofBody? part.2 = some request ∧ Order.IsReadAs order request)
        orders parts) ∧
    ∀ (order : Order) (e : FrameError), order.frame = .error e ↔
      (order.points = 0 ∨ 960 < order.points.toNat) ∧ e = .tooManyPoints order.points ∨
        ¬ (order.points = 0 ∨ 960 < order.points.toNat) ∧
          order.variant = .standard ∧ 0xFFFFFF < order.offset ∧
          e = .addressOutOfRange order.offset := by
  refine ⟨?_, fun order e => frame_eq_error_iff⟩
  induction built with
  | nil => exact ⟨[], Frame.requests_nil, rfl, .nil⟩
  | @cons order frame orders frames first _ ih =>
    obtain ⟨parts, hparts, hframes, hread⟩ := ih
    obtain ⟨start, body, hframe, hnext, hmark, hbody⟩ := next?_frame first frames.flatten
    obtain ⟨-, hstart, hannounced⟩ := Frame.next?_eq_some_iff.1 hnext
    refine ⟨(start, body) :: parts, ?_, ?_, .cons ⟨hstart, hannounced.symm, ?_⟩ hread⟩
    · rw [List.flatten_cons, Frame.requests_append hnext hmark, hparts]
    · rw [List.map_cons, ← hframe, ← hframes]
    · exact ⟨order.request, hbody, order.isReadAs_request⟩

/-- Three bytes for `W16` and `W17` in one variant, and then `D100` in the other. -/
theorem requests_flatten_both_variants :
    ∃ parts, Frame.requests ([0x50, 0, 0, 0xFF, 0xFF, 3, 0, 16, 0, 16, 0, 1, 0x14, 0, 0, 16, 0, 0,
        0xB4, 2, 0, 0x41, 0x42, 0x43, 0] ++ [0x50, 0, 0, 0xFF, 0xFF, 3, 0, 14, 0, 16, 0, 1, 4, 2, 0,
        100, 0, 0, 0, 0xA8, 0, 1, 0]) = (parts, []) ∧ parts.length = 2 := by
  have built : List.Forall₂ (fun order frame => Order.frame order = .ok frame)
      [⟨Station.local, .standard, .w, 16, 2, some [0x41, 0x42, 0x43]⟩,
        ⟨Station.local, .extended, .d, 100, 1, none⟩]
      [[0x50, 0, 0, 0xFF, 0xFF, 3, 0, 16, 0, 16, 0, 1, 0x14, 0, 0, 16, 0, 0, 0xB4, 2, 0, 0x41, 0x42,
          0x43, 0],
        [0x50, 0, 0, 0xFF, 0xFF, 3, 0, 14, 0, 16, 0, 1, 4, 2, 0, 100, 0, 0, 0, 0xA8, 0, 1, 0]] :=
    .cons rfl (.cons rfl .nil)
  obtain ⟨⟨parts, hparts, -, hread⟩, -⟩ := requests_flatten built
  exact ⟨parts, hparts, hread.length_eq.symm⟩

end Order

end PlcGateway
