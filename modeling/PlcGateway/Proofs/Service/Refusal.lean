import PlcGateway.Link.Call
import PlcGateway.Proofs.Frame.Stream
import PlcGateway.Proofs.Service.Write

/-!
# Writes that are refused

A write of several frames is not left half done by a refusal on the client's side. Whatever frame
can be refused, the first one is: no later frame has more registers, and none has a higher address
(`le_head_of_frames`). So a write is refused before anything is sent (`write_of_refusal`), and a PLC
without faults carries out all of its frames or sees none of them (`write_all_or_nothing`).
-/

namespace PlcGateway

/-- The request in which a client with these options sends a frame of a write. -/
def WriteChunk.request (options : ClientOptions) (code : DeviceCode) (chunk : WriteChunk) :
    Except FrameError (List UInt8) :=
  (LinkCall.write code chunk.address chunk.registers chunk.data).request options

/-- Why a frame cannot be sent: for its size, or else for its address. -/
theorem WriteChunk.request_eq_error_iff {options : ClientOptions} {code : DeviceCode}
    {chunk : WriteChunk} {e : FrameError} : chunk.request options code = .error e ↔
      (chunk.registers = 0 ∨ Frame.maxPoints < chunk.registers.toNat) ∧
        e = .tooManyPoints chunk.registers ∨
      ¬ (chunk.registers = 0 ∨ Frame.maxPoints < chunk.registers.toNat) ∧
        options.writeVariant = .standard ∧ 0xFFFFFF < chunk.address ∧
        e = .addressOutOfRange chunk.address := by
  show ((LinkCall.write code chunk.address chunk.registers chunk.data).order options).frame =
    .error e ↔ _
  exact Order.frame_eq_error_iff

namespace Client

variable {ν : Type} {peer : Peer ν} {client : Client} {s : ν} {code : DeviceCode}
  {chunk : WriteChunk}

/-- A frame that cannot be sent changes nothing. -/
theorem write_of_request_error {e : FrameError}
    (failed : chunk.request client.options code = .error e) :
    client.write peer code chunk.address chunk.registers chunk.data s =
      ⟨.error (.frame e), 0, client, s⟩ := by
  have hfailed : client.options.station.writeRequest client.options.writeVariant code
      chunk.address chunk.registers chunk.data = .error e := failed
  simp only [write, hfailed]

/-- A frame that can be sent is exchanged for a response without data of interest. -/
theorem write_of_request_ok {request : List UInt8}
    (built : chunk.request client.options code = .ok request) :
    client.write peer code chunk.address chunk.registers chunk.data s =
      (client.exchange peer request s).mapResult fun result => result.map fun _ => () := by
  have hbuilt : client.options.station.writeRequest client.options.writeVariant code
      chunk.address chunk.registers chunk.data = .ok request := built
  simp only [write, hbuilt]
  rfl

end Client

/-! ## The first frame of a plan -/

/-- No chunk has more registers than the first one, and all of them lie below it. -/
theorem WritePlan.le_head_of_chunks {limit top left : Nat} {limit_pos : 0 < limit}
    {payload : List UInt8} {first : WriteChunk} {others : List WriteChunk}
    (small : limit < UInt16.size) (inside : top < UInt32.size) (room : left ≤ top + 1)
    (planned : chunks limit limit_pos top left payload = first :: others) :
    ∀ chunk ∈ others, 1 ≤ chunk.registers.toNat ∧
      chunk.registers.toNat ≤ first.registers.toNat ∧
      chunk.address.toNat < first.address.toNat := by
  have hfirst : (chunks limit limit_pos top left payload)[0]? = some first := by rw [planned]; rfl
  obtain ⟨-, rfl⟩ := of_getElem?_chunks hfirst
  intro chunk hchunk
  obtain ⟨k, hk⟩ := List.getElem?_of_mem hchunk
  have hlater : (chunks limit limit_pos top left payload)[k + 1]? = some chunk := by
    rw [planned, List.getElem?_cons_succ, hk]
  obtain ⟨hlt, rfl⟩ := of_getElem?_chunks hlater
  have hnext : (k + 1) * limit = k * limit + limit := Nat.succ_mul k limit
  rw [toNat_registers_chunkAt _ small, toNat_registers_chunkAt _ small,
    toNat_address_chunkAt _ inside, toNat_address_chunkAt _ inside]
  omega

namespace Endpoint

variable {endpoint : Endpoint} {device : Device} {payload : List UInt8} {first : WriteChunk}
  {chunks others : List WriteChunk} {options : ClientOptions}

theorem le_head_of_frames (framed : endpoint.frames device payload = .ok (first :: others)) :
    ∀ chunk ∈ others, 1 ≤ chunk.registers.toNat ∧
      chunk.registers.toNat ≤ first.registers.toNat ∧
      chunk.address.toNat < first.address.toNat := by
  rcases of_frames_eq_ok framed with ⟨-, hsingle⟩ | ⟨-, inside, hplan⟩
  · obtain ⟨-, rfl⟩ := List.cons_eq_cons.1 hsingle
    simp
  · exact WritePlan.le_head_of_chunks (endpoint.limit_lt device) inside (by omega) hplan.symm

/-- If the first frame of a write can be sent, then so can all of them. -/
theorem built_of_head {request : List UInt8}
    (framed : endpoint.frames device payload = .ok (first :: others))
    (built : first.request options device.code = .ok request) :
    ∀ chunk ∈ first :: others, ∃ request, chunk.request options device.code = .ok request := by
  have hfirst : options.station.writeRequest options.writeVariant device.code first.address
      first.registers first.data = .ok request := built
  obtain ⟨-, hsize, fields, hfields, -⟩ := options.station.request_eq_ok_iff.1 hfirst
  obtain ⟨hholds, -⟩ := (Variant.deviceFields_eq_ok_iff _ _ _ _).1 hfields
  rw [List.forall_mem_cons]
  refine ⟨⟨request, built⟩, fun chunk hchunk => ?_⟩
  obtain ⟨hpos, hle, hlt⟩ := le_head_of_frames framed chunk hchunk
  have hlater : options.writeVariant.Holds chunk.address := Nat.lt_trans hlt hholds
  exact Station.exists_request _ _ _ _ hpos (Nat.le_trans hle hsize) hlater

end Endpoint

/-! ## Refusals -/

/-- Why a payload is not written at all: there is no plan for it, or the first frame of the plan has
no size that a PLC accepts, or an address that requests cannot give. -/
inductive PlcConnection.Refuses (plc : PlcConnection) (device : Device) (payload : List UInt8) :
    FrameError → Prop where
  | unplanned (framed : plc.endpoint.frames device payload =
      .error (.addressOutOfRange device.offset)) :
      Refuses plc device payload (.addressOutOfRange device.offset)
  | size (first : WriteChunk) (others : List WriteChunk)
      (framed : plc.endpoint.frames device payload = .ok (first :: others))
      (unfit : first.registers = 0 ∨ Frame.maxPoints < first.registers.toNat) :
      Refuses plc device payload (.tooManyPoints first.registers)
  | address (first : WriteChunk) (others : List WriteChunk)
      (framed : plc.endpoint.frames device payload = .ok (first :: others))
      (fit : ¬ (first.registers = 0 ∨ Frame.maxPoints < first.registers.toNat))
      (narrow : plc.client.options.writeVariant = .standard) (high : 0xFFFFFF < first.address) :
      Refuses plc device payload (.addressOutOfRange first.address)

namespace PlcConnection

variable {plc : PlcConnection} {device : Device} {payload : List UInt8} {first : WriteChunk}
  {chunks others : List WriteChunk} {e : FrameError}

theorem eq_of_frames_eq_error (failed : plc.endpoint.frames device payload = .error e) :
    e = .addressOutOfRange device.offset := by
  unfold Endpoint.frames at failed
  split at failed
  · simp at failed
  · unfold WritePlan.make at failed
    simp only at failed
    split at failed
    · exact (Except.error.inj failed).symm
    · simp at failed

theorem refuses_of_head (framed : plc.endpoint.frames device payload = .ok (first :: others))
    (failed : first.request plc.client.options device.code = .error e) :
    plc.Refuses device payload e := by
  rcases WriteChunk.request_eq_error_iff.1 failed with ⟨hsize, rfl⟩ | ⟨hsize, hnarrow, hhigh, rfl⟩
  · exact .size first others framed hsize
  · exact .address first others framed hsize hnarrow hhigh

/-- A payload is refused, or there are frames for it and all of them can be sent. -/
theorem refuses_or_built (plc : PlcConnection) (device : Device) (payload : List UInt8) :
    (∃ e, plc.Refuses device payload e) ∨
    ∃ chunks, plc.endpoint.frames device payload = .ok chunks ∧
      ∀ chunk ∈ chunks, ∃ request,
        chunk.request plc.client.options device.code = .ok request := by
  cases hframes : plc.endpoint.frames device payload with
  | error e =>
    obtain rfl := eq_of_frames_eq_error hframes
    exact .inl ⟨_, .unplanned hframes⟩
  | ok chunks =>
    cases chunks with
    | nil => exact .inr ⟨[], rfl, by simp⟩
    | cons first others =>
      cases hfirst : first.request plc.client.options device.code with
      | error e => exact .inl ⟨e, refuses_of_head hframes hfirst⟩
      | ok request => exact .inr ⟨_, rfl, Endpoint.built_of_head hframes hfirst⟩

/-- A write that is refused leaves everything as it was, whatever is on the network. -/
theorem write_of_refusal {ν : Type} {network : Network ν} {peer : Peer ν} {s : ν}
    (resolved : network.resolve? plc.endpoint.host plc.endpoint.port = some peer)
    (refuses : plc.Refuses device payload e) :
    plc.write network device payload s = ⟨.error (.frame e), 0, plc.client, s⟩ := by
  cases refuses with
  | unplanned framed => simp only [write, withPeer, resolved, framed]
  | size first others framed unfit =>
    have hfailed : first.request plc.client.options device.code =
        .error (.tooManyPoints first.registers) :=
      WriteChunk.request_eq_error_iff.2 (.inl ⟨unfit, rfl⟩)
    rw [write_eq_writeFrames resolved framed]
    simp only [Client.writeFrames, Client.write_of_request_error hfailed]
  | address first others framed fit narrow high =>
    have hfailed : first.request plc.client.options device.code =
        .error (.addressOutOfRange first.address) :=
      WriteChunk.request_eq_error_iff.2 (.inr ⟨fit, narrow, high, rfl⟩)
    rw [write_eq_writeFrames resolved framed]
    simp only [Client.writeFrames, Client.write_of_request_error hfailed]

end PlcConnection

/-! ## Frames that are carried out -/

/-- A frame as a PLC records it. -/
def WriteChunk.recorded (code : DeviceCode) (chunk : WriteChunk) : RecordedWrite :=
  ⟨code, chunk.address, chunk.registers, wordData chunk.registers chunk.data⟩

/-- What has become of a PLC that was sent these frames and nothing else, and has carried out all of
them. -/
structure SimulatedPlc.HasTaken (before : SimulatedPlc) (code : DeviceCode)
    (chunks : List WriteChunk) (after : SimulatedPlc) : Prop where
  faultFree : after.IsFaultFree
  /-- The last write stands first. -/
  writes_eq : after.writes = (chunks.map (WriteChunk.recorded code)).reverse ++ before.writes
  requests_eq : after.requests = before.requests + chunks.length
  memory_eq : after.memory = before.memory.writeChunks code chunks

namespace SimulatedPlc

variable {before between after : SimulatedPlc} {code : DeviceCode} {chunk : WriteChunk}
  {chunks : List WriteChunk}

theorem hasTaken_nil (faultFree : before.IsFaultFree) : before.HasTaken code [] before :=
  ⟨faultFree, rfl, rfl, rfl⟩

theorem HasTaken.cons (first : before.HasTaken code [chunk] between)
    (others : between.HasTaken code chunks after) :
    before.HasTaken code (chunk :: chunks) after := by
  refine ⟨others.faultFree, ?_, ?_, ?_⟩
  · rw [others.writes_eq, first.writes_eq, List.map_singleton, List.reverse_singleton,
      List.map_cons, List.reverse_cons, List.append_assoc]
  · rw [others.requests_eq, first.requests_eq, List.length_singleton, List.length_cons]
    omega
  · rw [others.memory_eq, first.memory_eq]
    rfl

end SimulatedPlc

namespace Client

variable {client : Client} {plant : Plant} {place : Nat} {sim : SimulatedPlc} {code : DeviceCode}
  {chunk : WriteChunk} {chunks : List WriteChunk}

/-- A client with nothing left to be read has a connection to a PLC, and no request has come. -/
theorem connect_plant (code : DeviceCode) (clear : client.IsClear)
    (found : plant[place]? = some sim) (faultFree : sim.IsFaultFree) :
    ∃ sim', client.connect (Plant.peer place) plant = (some {}, plant.set place sim') ∧
      sim.HasTaken code [] sim' := by
  obtain ⟨hlt, hsim⟩ := List.getElem?_eq_some_iff.1 found
  cases hconnection : client.connection with
  | some connection =>
    refine ⟨sim, ?_, SimulatedPlc.hasTaken_nil faultFree⟩
    rw [← hsim, List.set_getElem_self]
    simp only [connect, hconnection, clear connection hconnection]
  | none =>
    refine ⟨{ sim with connections := sim.connections + 1 }, ?_, ?_⟩
    · simp only [connect, hconnection, Plant.peer, found, SimulatedPlc.peer]
    · exact ⟨⟨faultFree.endCode, faultFree.dropsNext, faultFree.delayMs, faultFree.maxWords⟩,
        rfl, rfl, rfl⟩

/-- A frame that can be sent is acknowledged and carried out. -/
theorem write_hasTaken (clear : client.IsClear) (waits : 0 < client.options.ioTimeoutMs)
    (found : plant[place]? = some sim) (faultFree : sim.IsFaultFree)
    (built : ∃ request, chunk.request client.options code = .ok request) :
    ∃ sim', client.write (Plant.peer place) code chunk.address chunk.registers chunk.data plant =
        ⟨.ok (), 0, { client with connection := some {} }, plant.set place sim'⟩ ∧
      sim.HasTaken code [chunk] sim' := by
  obtain ⟨request, hrequest⟩ := built
  obtain ⟨sim', hconnect, htaken⟩ := connect_plant code clear found faultFree
  have hfound : (plant.set place sim')[place]? = some sim' :=
    List.getElem?_set_self (List.getElem?_eq_some_iff.1 found).1
  have hbuilt : client.options.station.writeRequest client.options.writeVariant code chunk.address
      chunk.registers chunk.data = .ok request := hrequest
  have hanswer := SimulatedPlc.answer_writeRequest htaken.faultFree hbuilt
  refine ⟨sim'.written client.options.writeVariant code chunk.address chunk.registers
    (wordData chunk.registers chunk.data), ?_, htaken.faultFree.written, ?_, ?_, ?_⟩
  · have hpeer : (Plant.peer place).answer request (plant.set place sim') =
        ({ bytes := Station.local.response 0 [] }, plant.set place (sim'.written
          client.options.writeVariant code chunk.address chunk.registers
            (wordData chunk.registers chunk.data))) := by
      simp only [Plant.peer, hfound, SimulatedPlc.peer, hanswer, List.set_set]
    rw [write_of_request_ok hrequest, exchange_response waits hconnect hpeer (by decide)]
    rfl
  · show _ :: sim'.writes = _
    rw [htaken.writes_eq]
    rfl
  · show sim'.requests + 1 = _
    rw [htaken.requests_eq]
    rfl
  · show sim'.memory.write _ _ _ = _
    rw [htaken.memory_eq]
    rfl

/-- Frames that can be sent are all acknowledged and carried out, one after the other. -/
theorem writeFrames_hasTaken (clear : client.IsClear) (waits : 0 < client.options.ioTimeoutMs)
    (found : plant[place]? = some sim) (faultFree : sim.IsFaultFree)
    (built : ∀ chunk ∈ chunks, ∃ request, chunk.request client.options code = .ok request) :
    ∃ sim', (client.writeFrames (Plant.peer place) code chunks plant).result = .ok () ∧
      (client.writeFrames (Plant.peer place) code chunks plant).peer = plant.set place sim' ∧
      sim.HasTaken code chunks sim' := by
  induction chunks generalizing client plant sim with
  | nil =>
    obtain ⟨hlt, hsim⟩ := List.getElem?_eq_some_iff.1 found
    refine ⟨sim, rfl, ?_, SimulatedPlc.hasTaken_nil faultFree⟩
    rw [← hsim, List.set_getElem_self]
    rfl
  | cons chunk chunks ih =>
    obtain ⟨hchunk, hchunks⟩ := List.forall_mem_cons.1 built
    obtain ⟨sim', hwrite, hfirst⟩ := write_hasTaken clear waits found faultFree hchunk
    have hfound : (plant.set place sim')[place]? = some sim' :=
      List.getElem?_set_self (List.getElem?_eq_some_iff.1 found).1
    -- after a frame there is a connection with nothing left to be read
    have hclear : ({ client with connection := some {} } : Client).IsClear := by
      rintro connection ⟨⟩
      rfl
    obtain ⟨sim'', hresult, hpeer, hothers⟩ := ih hclear waits hfound hfirst.faultFree hchunks
    rw [List.set_set] at hpeer
    refine ⟨sim'', ?_, ?_, hfirst.cons hothers⟩
    · simp only [writeFrames, hwrite]
      exact hresult
    · simp only [writeFrames, hwrite]
      exact hpeer

end Client

/-! ## All or nothing -/

namespace PlcConnection

variable {plc : PlcConnection} {online : Nat → Bool} {plant : Plant} {sim : SimulatedPlc}
  {device : Device} {payload : List UInt8} {chunks : List WriteChunk}

theorem IsReady.resolve_eq (ready : plc.IsReady)
    (isOnline : online plc.endpoint.port.toNat = true) :
    (Plant.network online).resolve? plc.endpoint.host plc.endpoint.port =
      some (Plant.peer plc.endpoint.port.toNat) := by
  simp only [Plant.network, ready.resolves, isOnline, Bool.false_eq_true, if_false, if_true]

/-- A write to a PLC without faults ends well, and the PLC has carried out all of its frames and has
seen no other request, or it is refused for its plan or its first frame, and the PLC has seen
nothing. Wherever in a plan a frame cannot be sent, and whatever is on the network, a write is
refused like that. -/
theorem write_all_or_nothing (reaches : plc.Reaches online plant sim) (ready : plc.IsReady) :
    ((∃ chunks sim', plc.endpoint.frames device payload = .ok chunks ∧
        (plc.write (Plant.network online) device payload plant).result = .ok () ∧
        (plc.write (Plant.network online) device payload plant).peer =
          plant.set plc.endpoint.port.toNat sim' ∧
        sim.HasTaken device.code chunks sim') ∨
      ∃ e, plc.Refuses device payload e ∧
        plc.write (Plant.network online) device payload plant =
          ⟨.error (.frame e), 0, plc.client, plant⟩) ∧
    ∀ chunks, plc.endpoint.frames device payload = .ok chunks → ∀ chunk ∈ chunks,
      ∀ e, chunk.request plc.client.options device.code = .error e →
        ∃ e', plc.Refuses device payload e' ∧
          ∀ (ν : Type) (network : Network ν) (peer : Peer ν) (s : ν),
            network.resolve? plc.endpoint.host plc.endpoint.port = some peer →
            plc.write network device payload s = ⟨.error (.frame e'), 0, plc.client, s⟩ := by
  have hresolve := ready.resolve_eq reaches.isOnline
  rcases plc.refuses_or_built device payload with ⟨e, refuses⟩ | ⟨chunks, framed, built⟩
  · refine ⟨.inr ⟨e, refuses, write_of_refusal hresolve refuses⟩, ?_⟩
    intro chunks framed chunk hchunk e' failed
    exact ⟨e, refuses, fun ν network peer s resolved => write_of_refusal resolved refuses⟩
  · constructor
    · rw [write_eq_writeFrames hresolve framed]
      obtain ⟨sim', hresult, hpeer, htaken⟩ := Client.writeFrames_hasTaken ready.clear ready.waits
        reaches.found reaches.faultFree built
      exact .inl ⟨chunks, sim', framed, hresult, hpeer, htaken⟩
    · intro chunks' framed' chunk hchunk e failed
      obtain rfl := Except.ok.inj (framed.symm.trans framed')
      obtain ⟨request, hrequest⟩ := built chunk hchunk
      rw [hrequest] at failed
      simp at failed

/-- Four characters for the last cell that a standard request can name and the cell behind it, one
register to a frame. The first frame goes to the cell behind, and so the write is refused, though
the second one could be sent. Two characters less, and the PLC has carried out the one frame. -/
theorem write_all_or_nothing_last_cell :
    (∃ e, (make { name := "plc", host := "plc", port := 0, frameLimit := some 1 } []).write
      (Plant.network fun _ => true) ⟨.d, "16777215", 16777215, .ascii, 2, rfl, rfl, by decide⟩
      [0x41, 0x42, 0x43, 0x44] [{}] = ⟨.error (.frame e), 0, {}, [{}]⟩) ∧
    ∃ sim', ((make { name := "plc", host := "plc", port := 0, frameLimit := some 1 } []).write
      (Plant.network fun _ => true) ⟨.d, "16777215", 16777215, .ascii, 2, rfl, rfl, by decide⟩
      [0x41, 0x42] [{}]).peer = [sim'] ∧ sim'.requests = 1 := by
  have reaches : (make { name := "plc", host := "plc", port := 0, frameLimit := some 1 } []).Reaches
      (fun _ => true) [{}] {} := ⟨rfl, rfl, ⟨rfl, rfl, rfl, rfl⟩⟩
  have ready : (make { name := "plc", host := "plc", port := 0, frameLimit := some 1 }
      []).IsReady := by
    refine ⟨by decide +kernel, ?_, by decide⟩
    rintro connection ⟨⟩
  constructor
  · have hrefused : ((make { name := "plc", host := "plc", port := 0, frameLimit := some 1 }
        []).write (Plant.network fun _ => true)
        ⟨.d, "16777215", 16777215, .ascii, 2, rfl, rfl, by decide⟩ [0x41, 0x42, 0x43, 0x44]
        [{}]).result ≠ .ok () := by decide +kernel
    rcases (write_all_or_nothing reaches ready).1 with ⟨_, _, -, hok, -⟩ | ⟨e, -, hwrite⟩
    · exact absurd hok hrefused
    · exact ⟨e, hwrite⟩
  · have hframes : (make { name := "plc", host := "plc", port := 0, frameLimit := some 1 }
        []).endpoint.frames ⟨.d, "16777215", 16777215, .ascii, 2, rfl, rfl, by decide⟩
        [0x41, 0x42] = .ok [⟨16777215, 1, [0x41, 0x42]⟩] := by decide +kernel
    have hok : ((make { name := "plc", host := "plc", port := 0, frameLimit := some 1 } []).write
        (Plant.network fun _ => true) ⟨.d, "16777215", 16777215, .ascii, 2, rfl, rfl, by decide⟩
        [0x41, 0x42] [{}]).result = .ok () := by decide +kernel
    rcases (write_all_or_nothing reaches ready).1 with
      ⟨chunks, sim', hchunks, -, hpeer, htaken⟩ | ⟨e, -, hwrite⟩
    · obtain rfl := Except.ok.inj (hframes.symm.trans hchunks)
      exact ⟨sim', hpeer, htaken.requests_eq⟩
    · rw [hwrite] at hok
      simp at hok

end PlcConnection

end PlcGateway
