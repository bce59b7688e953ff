import PlcGateway.Proofs.Link.Exchange
import PlcGateway.Proofs.Simulator.Memory
import PlcGateway.Service.Connection
import PlcGateway.Simulator.Plc

/-!
# Writing to a simulated PLC

A PLC without faults acknowledges every request to write and carries it out
(`answer_writeRequest`). A client that has written frames to it with success has written all of
them, in order, to its memory, and nothing else in the plant has changed (`writeFrames_differsAt`).
-/

namespace PlcGateway

/-! ## One request -/

namespace SimulatedPlc

/-- A PLC that was told nothing that disturbs its answers. -/
structure IsFaultFree (plc : SimulatedPlc) : Prop where
  endCode : plc.endCode = 0
  dropsNext : plc.dropsNext = false
  delayMs : plc.delayMs = 0
  maxWords : plc.maxWords = none

/-- The PLC after a request to write. -/
def written (plc : SimulatedPlc) (variant : Variant) (code : DeviceCode) (offset : UInt32)
    (points : UInt16) (data : List UInt8) : SimulatedPlc :=
  { plc with
    memory := plc.memory.write code offset data
    writes := ⟨code, offset, points, data⟩ :: plc.writes
    requests := plc.requests + 1
    extendedRequests := plc.extendedRequests + if variant = .extended then 1 else 0 }

variable {plc : SimulatedPlc} {station : Station} {variant : Variant} {code : DeviceCode}
  {offset : UInt32} {points : UInt16} {data frame : List UInt8}

theorem IsFaultFree.written (faultFree : plc.IsFaultFree) :
    (plc.written variant code offset points data).IsFaultFree :=
  ⟨faultFree.endCode, faultFree.dropsNext, faultFree.delayMs, faultFree.maxWords⟩

/-- A request to write is carried out and acknowledged. -/
theorem answer_writeRequest (faultFree : plc.IsFaultFree)
    (built : station.writeRequest variant code offset points data = .ok frame) :
    SimulatedPlc.answer frame plc = ({ bytes := Station.local.response 0 [] },
      plc.written variant code offset points (wordData points data)) := by
  have hpoints := (station.request_eq_ok_iff.1 built).2.1
  have hdata : (wordData points data).length ≤ 2 * Frame.maxPoints := by
    rw [length_wordData]
    omega
  obtain ⟨start, body, hnext, hmark, hbody, hextended⟩ :=
    Station.next?_request [] built (by decide) hdata
  rw [List.append_nil] at hnext
  have hcommand : writeCommand ≠ readCommand := by decide
  simp only [SimulatedPlc.answer, hnext, hmark, ne_eq, not_true_eq_false, if_false,
    faultFree.dropsNext, Bool.false_eq_true, answerBody, hextended, hbody]
  -- what is left to see of the variant is that the extended one is counted
  cases variant with
  | standard =>
    simp [perform, hcommand, SimulatedPlc.written, faultFree.endCode, faultFree.dropsNext,
      faultFree.delayMs]
  | extended =>
    simp [perform, hcommand, SimulatedPlc.written, faultFree.endCode, faultFree.dropsNext,
      faultFree.delayMs]

end SimulatedPlc

/-! ## A client and a plant -/

namespace Plant

/-- The plant is `others` but for the PLC at a place, which has no faults and this memory. -/
def DiffersAt (others : Plant) (place : Nat) (memory : Memory) (plant : Plant) : Prop :=
  place < others.length ∧
    ∃ plc, plant = others.set place plc ∧ plc.IsFaultFree ∧ plc.memory = memory

variable {others plant : Plant} {place : Nat} {memory : Memory} {plc : SimulatedPlc}

theorem differsAt_self (found : plant[place]? = some plc) (faultFree : plc.IsFaultFree) :
    DiffersAt plant place plc.memory plant := by
  obtain ⟨hlt, rfl⟩ := List.getElem?_eq_some_iff.1 found
  exact ⟨hlt, _, (List.set_getElem_self hlt).symm, faultFree, rfl⟩

/-- A plant goes on to differ where it already did. -/
theorem DiffersAt.set {memory' : Memory} (differs : DiffersAt others place memory plant)
    (faultFree : plc.IsFaultFree) (hmemory : plc.memory = memory') :
    DiffersAt others place memory' (plant.set place plc) := by
  obtain ⟨hlt, _, rfl, -⟩ := differs
  exact ⟨hlt, plc, List.set_set .., faultFree, hmemory⟩

theorem DiffersAt.exists_getElem? (differs : DiffersAt others place memory plant) :
    ∃ plc, plant[place]? = some plc ∧ plc.IsFaultFree ∧ plc.memory = memory := by
  obtain ⟨hlt, plc, rfl, faultFree, hmemory⟩ := differs
  exact ⟨plc, List.getElem?_set_self hlt, faultFree, hmemory⟩

end Plant

namespace Client

open Plant (DiffersAt)

variable {others plant : Plant} {place : Nat} {memory : Memory} {client : Client}
  {code : DeviceCode} {offset : UInt32} {points : UInt16} {data frame : List UInt8}

theorem connect_differsAt (client : Client) (differs : DiffersAt others place memory plant) :
    DiffersAt others place memory (client.connect (Plant.peer place) plant).2 := by
  obtain ⟨plc, found, faultFree, hmemory⟩ := differs.exists_getElem?
  cases hconnection : client.connection with
  | some connection =>
    simp only [connect, hconnection]
    exact differs
  | none =>
    simp only [connect, hconnection, Plant.peer, found, SimulatedPlc.peer]
    exact differs.set ⟨faultFree.endCode, faultFree.dropsNext, faultFree.delayMs,
      faultFree.maxWords⟩ hmemory

theorem answer_differsAt {station : Station} {variant : Variant}
    (differs : DiffersAt others place memory plant)
    (built : station.writeRequest variant code offset points data = .ok frame) :
    ((Plant.peer place).answer frame plant).1 = { bytes := Station.local.response 0 [] } ∧
      DiffersAt others place (memory.write code offset (wordData points data))
        ((Plant.peer place).answer frame plant).2 := by
  obtain ⟨plc, found, faultFree, rfl⟩ := differs.exists_getElem?
  have hanswer := SimulatedPlc.answer_writeRequest faultFree built
  simp only [Plant.peer, found, SimulatedPlc.peer, hanswer, true_and]
  exact differs.set faultFree.written rfl

/-- A write that ends well has been carried out. -/
theorem write_differsAt (differs : DiffersAt others place memory plant)
    (ok : (client.write (Plant.peer place) code offset points data plant).result = .ok ()) :
    DiffersAt others place (memory.write code offset (wordData points data))
      (client.write (Plant.peer place) code offset points data plant).peer := by
  cases hbuilt : client.options.station.writeRequest client.options.writeVariant code offset points
      data with
  | error e => simp [write, hbuilt] at ok
  | ok request =>
    simp only [write, hbuilt] at ok ⊢
    cases hresult : (client.exchange (Plant.peer place) request plant).result with
    | error e => simp [hresult, Except.map] at ok
    | ok body =>
      -- making the connection has changed no memory
      rw [exchange_peer_of_ok hresult]
      exact (answer_differsAt (connect_differsAt client differs) hbuilt).2

/-- Frames that were written with success have all been carried out, in order. -/
theorem writeFrames_differsAt {chunks : List WriteChunk}
    (differs : DiffersAt others place memory plant)
    (ok : (client.writeFrames (Plant.peer place) code chunks plant).result = .ok ()) :
    DiffersAt others place (memory.writeChunks code chunks)
      (client.writeFrames (Plant.peer place) code chunks plant).peer := by
  induction chunks generalizing client plant memory with
  | nil => exact differs
  | cons chunk chunks ih =>
    cases hfirst : (client.write (Plant.peer place) code chunk.address chunk.registers chunk.data
        plant).result with
    | error e =>
      simp only [writeFrames, hfirst] at ok
      simp at ok
    | ok _ =>
      simp only [writeFrames, hfirst] at ok ⊢
      exact ih (write_differsAt differs hfirst) ok

/-! ## Writes that are accepted -/

/-- Nothing is left to be read over the connection of a client, if it has one. -/
def IsClear (client : Client) : Prop := ∀ connection ∈ client.connection, connection = {}

theorem connect_of_isClear (clear : client.IsClear)
    (differs : DiffersAt others place memory plant) :
    (client.connect (Plant.peer place) plant).1 = some {} := by
  obtain ⟨plc, found, -⟩ := differs.exists_getElem?
  cases hconnection : client.connection with
  | some connection =>
    simp only [connect, hconnection]
    rw [clear connection hconnection]
  | none => simp only [connect, hconnection, Plant.peer, found, SimulatedPlc.peer]

/-- A write whose request can be built is acknowledged. -/
theorem write_accepted (clear : client.IsClear) (waits : 0 < client.options.ioTimeoutMs)
    (differs : DiffersAt others place memory plant)
    (built : client.options.station.writeRequest client.options.writeVariant code offset points data
      = .ok frame) :
    (client.write (Plant.peer place) code offset points data plant).result = .ok () ∧
    (client.write (Plant.peer place) code offset points data plant).client =
      { client with connection := some {} } := by
  have hconnect : client.connect (Plant.peer place) plant =
      (some {}, (client.connect (Plant.peer place) plant).2) :=
    Prod.ext (connect_of_isClear clear differs) rfl
  have hanswer := answer_differsAt (connect_differsAt client differs) built
  have hexchange := exchange_response waits hconnect (Prod.ext hanswer.1 rfl) (by decide)
  simp only [write, built, hexchange, Except.map, and_self]

/-- Frames whose requests can be built are all acknowledged. -/
theorem writeFrames_accepted {chunks : List WriteChunk} (clear : client.IsClear)
    (waits : 0 < client.options.ioTimeoutMs) (differs : DiffersAt others place memory plant)
    (built : ∀ chunk ∈ chunks, ∃ frame, client.options.station.writeRequest
      client.options.writeVariant code chunk.address chunk.registers chunk.data = .ok frame) :
    (client.writeFrames (Plant.peer place) code chunks plant).result = .ok () := by
  induction chunks generalizing client plant memory with
  | nil => rfl
  | cons chunk chunks ih =>
    obtain ⟨⟨frame, hframe⟩, hothers⟩ := List.forall_mem_cons.1 built
    obtain ⟨hresult, hclient⟩ := write_accepted clear waits differs hframe
    have hdiffers := write_differsAt differs hresult
    simp only [writeFrames, hresult]
    -- after a frame there is a connection with nothing left to be read
    refine ih ?_ ?_ hdiffers ?_
    · rw [hclient]
      intro connection hconnection
      exact (Option.some.inj hconnection).symm
    · rw [hclient]
      exact waits
    · rw [hclient]
      exact hothers

end Client

end PlcGateway
