import PlcGateway.Proofs.Link.Line
import PlcGateway.Simulator.Plc

/-!
# Replies of simulated PLCs

A simulated PLC can be told to refuse requests, to drop one and to be late. Whatever it was told, it
answers a request to write with one response or with nothing (`SimulatedPlc.isReply_answer`), and so
does whatever stands behind a port of a plant (`Plant.isReply_answer`).
-/

namespace PlcGateway

variable {station : Station} {variant : Variant} {code : DeviceCode} {offset : UInt32}
  {points : UInt16} {data frame : List UInt8}

theorem Frame.isReply_nil : Frame.IsReply [] :=
  .part Station.local 0 [] [] (Station.local.response 0 []) (by decide) rfl (by decide)

namespace SimulatedPlc

/-- A request to write is answered with an end code alone. -/
theorem exists_perform_eq (plc : SimulatedPlc) {request : Request}
    (write : request.command = writeCommand) :
    ∃ endCode, (plc.perform request).1 = Station.local.response endCode [] := by
  have hcommand : request.command ≠ readCommand := by
    rw [write]
    decide
  unfold perform
  by_cases hfault : plc.endCode ≠ 0
  · exact ⟨plc.endCode, by rw [if_pos hfault]⟩
  · exact ⟨0, by rw [if_neg hfault, if_neg hcommand, if_pos write]⟩

/-- Whatever it was told, a simulated PLC answers a request to write with a reply. -/
theorem isReply_answer (built : station.writeRequest variant code offset points data = .ok frame)
    (plc : SimulatedPlc) : Frame.IsReply (SimulatedPlc.answer frame plc).1.bytes := by
  have hpoints := (station.request_eq_ok_iff.1 built).2.1
  have hdata : (wordData points data).length ≤ 2 * Frame.maxPoints := by
    rw [length_wordData]
    omega
  obtain ⟨start, body, hnext, hmark, hbody, -⟩ :=
    Station.next?_request [] built (by decide) hdata
  rw [List.append_nil] at hnext
  simp only [SimulatedPlc.answer, hnext, hmark, ne_eq, not_true_eq_false, if_false]
  split
  · exact Frame.isReply_nil
  · simp only [answerBody, hbody]
    generalize (if Request.isExtended body then _ else _ : SimulatedPlc) = asked
    obtain ⟨endCode, hanswer⟩ := asked.exists_perform_eq
      (rfl : (⟨writeCommand, code, offset, points, wordData points data⟩ : Request).command = _)
    rw [hanswer]
    exact .whole _ _ _ (by decide)

end SimulatedPlc

theorem Plant.isReply_answer {online : Nat → Bool} {host : String} {port : UInt16}
    {peer : Peer Plant} (resolved : (Plant.network online).resolve? host port = some peer)
    (built : station.writeRequest variant code offset points data = .ok frame) (plant : Plant) :
    Frame.IsReply (peer.answer frame plant).1.bytes := by
  simp only [Plant.network] at resolved
  split at resolved
  · simp at resolved
  · obtain rfl := Option.some.inj resolved
    split
    · simp only [Plant.peer]
      cases plant[port.toNat]? with
      | none => exact Frame.isReply_nil
      | some plc => exact SimulatedPlc.isReply_answer built plc
    · exact Frame.isReply_nil

end PlcGateway
