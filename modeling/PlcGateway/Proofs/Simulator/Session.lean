import Mathlib.Data.List.Forall2
import PlcGateway.Proofs.Frame.Stream
import PlcGateway.Proofs.Simulator.FlatMemory
import PlcGateway.Proofs.Simulator.Write

/-!
# Clients that share a PLC

Clients that read and write areas of words of a PLC without faults see flat arrays of cells,
whatever the form of their requests: every call succeeds and gives what the call gives on the
arrays, and in the end the memory of the PLC is what the calls have made of the arrays
(`performAll_flat`).
-/

namespace PlcGateway

/-- Whether a client can make a call: it is about words, for a number of points that is accepted,
and all its offsets fit the form of the request. -/
structure LinkCall.IsInRange (options : ClientOptions) (call : LinkCall) : Prop where
  area : (call.order options).code.holdsBits = false
  points_pos : 1 ≤ (call.order options).points.toNat
  points_le : (call.order options).points.toNat ≤ Frame.maxPoints
  inside : (call.order options).offset.toNat + (call.order options).points.toNat ≤
    256 ^ (call.order options).variant.offsetWidth

namespace LinkCall.IsInRange

variable {options : ClientOptions} {call : LinkCall}

theorem exists_request (inRange : call.IsInRange options) :
    ∃ request, call.request options = .ok request := by
  have hholds : (call.order options).variant.Holds (call.order options).offset := by
    have hpos := inRange.points_pos
    have hinside := inRange.inside
    unfold Variant.Holds
    omega
  obtain ⟨request, built⟩ := Station.exists_request _ _ _ _ inRange.points_pos inRange.points_le
    hholds
  exact ⟨request, (Order.frame_eq_request _).trans built⟩

theorem inside_size (inRange : call.IsInRange options) :
    (call.order options).offset.toNat + (call.order options).points.toNat ≤ UInt32.size := by
  refine Nat.le_trans inRange.inside ?_
  cases (call.order options).variant <;> decide

/-- What fits the standard form of a request fits the extended one. -/
theorem extended {code : DeviceCode} {offset : UInt32} {points : UInt16}
    (inRange : (LinkCall.read .standard code offset points).IsInRange options) :
    (LinkCall.read .extended code offset points).IsInRange options :=
  ⟨inRange.area, inRange.points_pos, inRange.points_le,
    Nat.le_trans inRange.inside (by decide : 256 ^ 3 ≤ 256 ^ 4)⟩

end LinkCall.IsInRange

/-! ## One request -/

namespace SimulatedPlc

variable {plc : SimulatedPlc} {station : Station} {variant : Variant} {code : DeviceCode}
  {offset : UInt32} {points : UInt16} {frame : List UInt8}

/-- The PLC after a request to read. -/
def asked (plc : SimulatedPlc) (variant : Variant) : SimulatedPlc :=
  { plc with
    requests := plc.requests + 1
    extendedRequests := plc.extendedRequests + if variant = .extended then 1 else 0 }

theorem IsFaultFree.asked (faultFree : plc.IsFaultFree) : (plc.asked variant).IsFaultFree :=
  ⟨faultFree.endCode, faultFree.dropsNext, faultFree.delayMs, faultFree.maxWords⟩

/-- A request to read is answered with the words that it asks for. -/
theorem answer_readRequest (faultFree : plc.IsFaultFree)
    (built : station.readRequest variant code offset points = .ok frame) :
    SimulatedPlc.answer frame plc =
      ({ bytes := Station.local.response 0 (plc.memory.read code offset points.toNat) },
        plc.asked variant) := by
  obtain ⟨start, body, hnext, hmark, hbody, hextended⟩ :=
    Station.next?_request [] built (by decide) (Nat.zero_le _)
  rw [List.append_nil] at hnext
  simp only [SimulatedPlc.answer, hnext, hmark, ne_eq, not_true_eq_false, if_false,
    faultFree.dropsNext, Bool.false_eq_true, answerBody, hextended, hbody]
  -- what is left to see of the variant is that the extended one is counted
  cases variant with
  | standard =>
    simp [perform, SimulatedPlc.asked, faultFree.endCode, faultFree.dropsNext, faultFree.delayMs,
      faultFree.maxWords]
  | extended =>
    simp [perform, SimulatedPlc.asked, faultFree.endCode, faultFree.dropsNext, faultFree.delayMs,
      faultFree.maxWords]

end SimulatedPlc

/-! ## One call -/

namespace Client

variable {client : Client} {plc : SimulatedPlc} {call : LinkCall} {variant : Variant}
  {code : DeviceCode} {offset : UInt32} {points : UInt16} {data request : List UInt8}

/-- A client with nothing left to be read has a connection to a PLC without faults. -/
theorem connect_plc (clear : client.IsClear) (faultFree : plc.IsFaultFree) :
    ∃ plc', client.connect SimulatedPlc.peer plc = (some {}, plc') ∧ plc'.IsFaultFree ∧
      plc'.memory = plc.memory := by
  cases hconnection : client.connection with
  | some connection =>
    refine ⟨plc, ?_, faultFree, rfl⟩
    simp only [connect, hconnection, clear connection hconnection]
  | none =>
    refine ⟨{ plc with connections := plc.connections + 1 }, ?_, ?_, rfl⟩
    · simp only [connect, hconnection, SimulatedPlc.peer]
    · exact ⟨faultFree.endCode, faultFree.dropsNext, faultFree.delayMs, faultFree.maxWords⟩

/-- A read whose request can be built gives words of the memory. -/
theorem read_plc (faultFree : plc.IsFaultFree) (clear : client.IsClear)
    (waits : 0 < client.options.ioTimeoutMs)
    (built : client.options.station.readRequest variant code offset points = .ok request) :
    ∃ plc', client.read SimulatedPlc.peer variant code offset points plc =
        ⟨.ok (plc.memory.read code offset points.toNat), 0,
          { client with connection := some {} }, plc'⟩ ∧
      plc'.IsFaultFree ∧ plc'.memory = plc.memory := by
  obtain ⟨plc', hconnect, hfaultFree, hmemory⟩ := connect_plc clear faultFree
  have hpoints : points.toNat ≤ 960 := (client.options.station.request_eq_ok_iff.1 built).2.1
  have hlength := plc.memory.length_read code offset points.toNat
  have hanswer := SimulatedPlc.answer_readRequest hfaultFree built
  rw [hmemory] at hanswer
  have hexchange := exchange_response waits hconnect hanswer (by omega)
  have hwords : checkWords points (plc.memory.read code offset points.toNat) =
      .ok (plc.memory.read code offset points.toNat) :=
    if_neg (Nat.not_lt.2 (Nat.le_of_eq hlength.symm))
  refine ⟨plc'.asked variant, ?_, hfaultFree.asked, hmemory⟩
  simp only [read, built, hexchange, Except.bind, hwords]

/-- A write whose request can be built is carried out. -/
theorem write_plc (faultFree : plc.IsFaultFree) (clear : client.IsClear)
    (waits : 0 < client.options.ioTimeoutMs)
    (built : client.options.station.writeRequest client.options.writeVariant code offset points
      data = .ok request) :
    ∃ plc', client.write SimulatedPlc.peer code offset points data plc =
        ⟨.ok (), 0, { client with connection := some {} }, plc'⟩ ∧
      plc'.IsFaultFree ∧
      plc'.memory = plc.memory.write code offset (wordData points data) := by
  obtain ⟨plc', hconnect, hfaultFree, hmemory⟩ := connect_plc clear faultFree
  have hanswer := SimulatedPlc.answer_writeRequest hfaultFree built
  have hexchange := exchange_response waits hconnect hanswer (by decide)
  refine ⟨plc'.written client.options.writeVariant code offset points (wordData points data), ?_,
    hfaultFree.written, ?_⟩
  · simp only [write, built, hexchange, Except.map]
  · rw [SimulatedPlc.written, hmemory]

/-- What is read behind a write is read from the memory that the write has left. -/
theorem read_after_write (data : List UInt8) (faultFree : plc.IsFaultFree)
    (clear : client.IsClear) (waits : 0 < client.options.ioTimeoutMs)
    (points_pos : 1 ≤ points.toNat) (points_le : points.toNat ≤ Frame.maxPoints)
    (fitsWrite : client.options.writeVariant.Holds offset) (fitsRead : variant.Holds offset) :
    let writing := client.write SimulatedPlc.peer code offset points data plc
    writing.result = .ok () ∧
    writing.peer.memory = plc.memory.write code offset (wordData points data) ∧
    (writing.client.read SimulatedPlc.peer variant code offset points writing.peer).result =
      .ok (writing.peer.memory.read code offset points.toNat) := by
  obtain ⟨_, hrequest⟩ := client.options.station.exists_request writeCommand code
    (wordData points data) points_pos points_le fitsWrite
  obtain ⟨_, hrequest'⟩ := client.options.station.exists_request readCommand code [] points_pos
    points_le fitsRead
  obtain ⟨plc', hwrite, hfaultFree, hmemory⟩ := write_plc faultFree clear waits hrequest
  have hconnected : { client with connection := some {} }.IsClear := by
    rintro connection ⟨⟩
    rfl
  obtain ⟨_, hread, -⟩ := read_plc hfaultFree hconnected waits hrequest'
  simp only [hwrite, hread, hmemory, and_self]

/-- A call gives and does what it gives and does on flat arrays. -/
theorem perform_flat (faultFree : plc.IsFaultFree) (clear : client.IsClear)
    (waits : 0 < client.options.ioTimeoutMs) (inRange : call.IsInRange client.options) :
    ∃ plc', client.perform SimulatedPlc.peer plc call =
        ⟨.ok (FlatMemory.perform plc.memory.cell call).1, 0,
          { client with connection := some {} }, plc'⟩ ∧
      plc'.IsFaultFree ∧ plc'.memory.cell = (FlatMemory.perform plc.memory.cell call).2 ∧
      plc'.memory.bit = plc.memory.bit := by
  obtain ⟨request, built⟩ := inRange.exists_request
  cases call with
  | read variant code offset points =>
    have hbuilt : client.options.station.readRequest variant code offset points = .ok request :=
      built
    have hflat : plc.memory.read code offset points.toNat =
        FlatMemory.read plc.memory.cell code offset points := plc.memory.read_eq_flat inRange.area
    obtain ⟨plc', hread, hfaultFree, hmemory⟩ := read_plc faultFree clear waits hbuilt
    rw [perform, hread, hflat]
    refine ⟨plc', rfl, hfaultFree, ?_, ?_⟩
    · rw [hmemory]
      rfl
    · rw [hmemory]
  | write code offset points data =>
    have hbuilt : client.options.station.writeRequest client.options.writeVariant code offset points
        data = .ok request := built
    have hcells := plc.memory.cell_write data inRange.area inRange.inside_size
    obtain ⟨plc', hwrite, hfaultFree, hmemory⟩ := write_plc faultFree clear waits hbuilt
    rw [perform, hwrite]
    refine ⟨plc', rfl, hfaultFree, ?_, ?_⟩
    · rw [hmemory]
      exact hcells.1
    · rw [hmemory]
      exact hcells.2

end Client

/-! ## Many calls -/

namespace Clients

/-- Clients that can talk to their PLC, which has no faults. -/
structure IsReady (clients : Clients SimulatedPlc) : Prop where
  faultFree : clients.peer.IsFaultFree
  clear : ∀ number, (clients.client number).IsClear
  waits : ∀ number, 0 < (clients.client number).options.ioTimeoutMs

variable {clients : Clients SimulatedPlc} {calls : List (Nat × LinkCall)}

/-- The calls of clients give and do what they give and do on flat arrays. -/
theorem performAll_eq_flat (ready : clients.IsReady)
    (inRange : ∀ turn ∈ calls, turn.2.IsInRange (clients.client turn.1).options) :
    (performAll SimulatedPlc.peer calls clients).1.map Exchange.result =
        (FlatMemory.performAll (calls.map Prod.snd) clients.peer.memory.cell).1.map .ok ∧
      (performAll SimulatedPlc.peer calls clients).2.IsReady ∧
      (performAll SimulatedPlc.peer calls clients).2.peer.memory.cell =
        (FlatMemory.performAll (calls.map Prod.snd) clients.peer.memory.cell).2 ∧
      (performAll SimulatedPlc.peer calls clients).2.peer.memory.bit =
        clients.peer.memory.bit ∧
      ∀ number, ((performAll SimulatedPlc.peer calls clients).2.client number).options =
        (clients.client number).options := by
  induction calls generalizing clients with
  | nil => exact ⟨rfl, ready, rfl, rfl, fun _ => rfl⟩
  | cons turn calls ih =>
    obtain ⟨number, call⟩ := turn
    obtain ⟨hfirst, hothers⟩ := List.forall_mem_cons.1 inRange
    obtain ⟨plc', hperform, hfaultFree, hcell, hbit⟩ := Client.perform_flat ready.faultFree
      (ready.clear number) (ready.waits number) hfirst
    -- the clients go on with a connection over which nothing is left to be read
    have hoptions : ∀ i, ((clients.after number
        ((clients.client number).perform SimulatedPlc.peer clients.peer call)).client i).options =
          (clients.client i).options := by
      intro i
      rw [hperform]
      simp only [after]
      split
      · next heq => rw [heq]
      · rfl
    have hready : (clients.after number
        ((clients.client number).perform SimulatedPlc.peer clients.peer call)).IsReady := by
      refine ⟨?_, fun i => ?_, fun i => ?_⟩
      · rw [hperform]
        exact hfaultFree
      · rw [hperform]
        simp only [after]
        split
        · rintro connection ⟨⟩
          rfl
        · exact ready.clear i
      · rw [hoptions]
        exact ready.waits i
    obtain ⟨hresults, hlast, hcells, hbits, hkept⟩ := ih hready fun turn hturn => by
      rw [hoptions]
      exact hothers turn hturn
    have hpeer : (clients.after number
        ((clients.client number).perform SimulatedPlc.peer clients.peer call)).peer = plc' := by
      rw [hperform]
      rfl
    rw [hpeer, hcell] at hresults hcells
    rw [hpeer, hbit] at hbits
    refine ⟨?_, hlast, hcells, hbits, fun i => (hkept i).trans (hoptions i)⟩
    simp only [performAll, List.map_cons, FlatMemory.performAll, hresults]
    rw [hperform]

/-- Clients that read and write areas of words of a PLC without faults see flat arrays of cells. A
read gives two bytes for each of its points, and gives the same in both forms of its request. -/
theorem performAll_flat (ready : clients.IsReady)
    (inRange : ∀ turn ∈ calls, turn.2.IsInRange (clients.client turn.1).options) :
    (performAll SimulatedPlc.peer calls clients).1.map Exchange.result =
        (FlatMemory.performAll (calls.map Prod.snd) clients.peer.memory.cell).1.map .ok ∧
      (performAll SimulatedPlc.peer calls clients).2.peer.memory.cell =
        (FlatMemory.performAll (calls.map Prod.snd) clients.peer.memory.cell).2 ∧
      (performAll SimulatedPlc.peer calls clients).2.peer.memory.bit =
        clients.peer.memory.bit ∧
      List.Forall₂ (fun turn exchange => ∃ value, exchange.result = .ok value ∧ turn.2.Gives value)
        calls (performAll SimulatedPlc.peer calls clients).1 ∧
      ∀ number code offset points,
        (LinkCall.read .standard code offset points).IsInRange (clients.client number).options →
          (((performAll SimulatedPlc.peer calls clients).2.client number).perform SimulatedPlc.peer
            (performAll SimulatedPlc.peer calls clients).2.peer
            (.read .standard code offset points)).result =
          (((performAll SimulatedPlc.peer calls clients).2.client number).perform SimulatedPlc.peer
            (performAll SimulatedPlc.peer calls clients).2.peer
            (.read .extended code offset points)).result := by
  obtain ⟨hresults, hlast, hcells, hbits, hoptions⟩ := performAll_eq_flat ready inRange
  refine ⟨hresults, hcells, hbits, ?_, ?_⟩
  · have hlengths := FlatMemory.forall₂_performAll (calls.map Prod.snd) clients.peer.memory.cell
    have hvalues : List.Forall₂ (fun (turn : Nat × LinkCall) result =>
        ∃ value : Option (List UInt8), result = Except.ok (ε := LinkError) value ∧
          turn.2.Gives value) calls
        ((performAll SimulatedPlc.peer calls clients).1.map Exchange.result) := by
      rw [hresults, List.forall₂_map_right_iff]
      exact (List.forall₂_map_left_iff.1 hlengths).imp fun turn value hvalue => ⟨value, rfl, hvalue⟩
    exact List.forall₂_map_right_iff.1 hvalues
  · intro number code offset points hstandard
    rw [← hoptions] at hstandard
    obtain ⟨_, hfirst, -⟩ := Client.perform_flat hlast.faultFree (hlast.clear number)
      (hlast.waits number) hstandard
    obtain ⟨_, hsecond, -⟩ := Client.perform_flat hlast.faultFree (hlast.clear number)
      (hlast.waits number) hstandard.extended
    rw [hfirst, hsecond]
    rfl

/-- Two clients of an empty PLC. The second one writes in the extended form. -/
def pair : Clients SimulatedPlc where
  client number := { options := { writeVariant := if number = 0 then .standard else .extended } }
  peer := {}

/-- Three bytes are written to `D10` and `D11`, then `D11` is written by the other client: `D9` to
`D12` are read as both have left them. -/
theorem performAll_flat_pair :
    pair.IsReady ∧
    (performAll SimulatedPlc.peer
      [(0, .write .d 10 2 [0x41, 0x42, 0x43]), (1, .write .d 11 1 [1, 2, 3]),
        (0, .read .extended .d 9 4)] pair).1.map Exchange.result =
      [.ok none, .ok none, .ok (some [0, 0, 0x41, 0x42, 1, 2, 0, 0])] := by
  have ready : pair.IsReady := by
    refine ⟨⟨rfl, rfl, rfl, rfl⟩, fun number => ?_, fun number => (by decide : 0 < 5000)⟩
    rintro connection ⟨⟩
  have inRange : ∀ turn ∈ [((0 : Nat), LinkCall.write .d 10 2 [0x41, 0x42, 0x43]),
      (1, .write .d 11 1 [1, 2, 3]), (0, .read .extended .d 9 4)],
      turn.2.IsInRange (pair.client turn.1).options := by
    simp only [List.forall_mem_cons, List.not_mem_nil, false_implies, implies_true, and_true]
    exact ⟨⟨rfl, by decide, by decide, by decide⟩, ⟨rfl, by decide, by decide, by decide⟩,
      ⟨rfl, by decide, by decide, by decide⟩⟩
  refine ⟨ready, (performAll_flat ready inRange).1.trans ?_⟩
  decide +kernel

end Clients

end PlcGateway
