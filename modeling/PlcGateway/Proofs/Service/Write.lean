import Mathlib.Data.List.Forall2
import PlcGateway.Proofs.Service.Frames
import PlcGateway.Proofs.Simulator.Write
import PlcGateway.Service.Basic

/-!
# Writes to the PLCs of a plant

A PLC of a service is reached if it is one of a plant, online and without faults. If a value is
written to it with success, then all frames of all its texts have been carried out in order, and
nothing else in the plant has changed (`writeDevice_differsAt`). A payload is written with success
if its frames can be built and the link is in order (`write_accepted`).
-/

namespace PlcGateway

open Plant (DiffersAt)

/-- The frames in which a text is written to a device. -/
def Endpoint.Sends (endpoint : Endpoint) (device : Device) (text : String)
    (chunks : List WriteChunk) : Prop :=
  ∃ payload, device.format.encode text device.registers = .ok payload ∧
    endpoint.frames device payload = .ok chunks

namespace PlcConnection

/-- A PLC that is one of a plant, online and without faults. -/
structure Reaches (plc : PlcConnection) (online : Nat → Bool) (plant : Plant)
    (sim : SimulatedPlc) : Prop where
  isOnline : online plc.endpoint.port.toNat = true
  found : plant[plc.endpoint.port.toNat]? = some sim
  faultFree : sim.IsFaultFree

/-- A PLC whose host has an address and to which requests can be sent at once. -/
structure IsReady (plc : PlcConnection) : Prop where
  resolves : plc.endpoint.host.toList.contains (Char.ofNat 0) = false
  clear : plc.client.IsClear
  waits : 0 < plc.client.options.ioTimeoutMs

variable {plc : PlcConnection} {online : Nat → Bool} {others plant : Plant} {memory : Memory}
  {device : Device} {payload : List UInt8} {chunks : List WriteChunk}

theorem write_eq_writeFrames {ν : Type} {network : Network ν} {peer : Peer ν} {s : ν}
    (resolved : network.resolve? plc.endpoint.host plc.endpoint.port = some peer)
    (framed : plc.endpoint.frames device payload = .ok chunks) :
    plc.write network device payload s = plc.client.writeFrames peer device.code chunks s := by
  simp only [write, withPeer, resolved, framed]

/-- A payload that was written with success has been carried out frame by frame. -/
theorem write_differsAt (isOnline : online plc.endpoint.port.toNat = true)
    (differs : DiffersAt others plc.endpoint.port.toNat memory plant)
    (ok : (plc.write (Plant.network online) device payload plant).result = .ok ()) :
    ∃ chunks, plc.endpoint.frames device payload = .ok chunks ∧
      DiffersAt others plc.endpoint.port.toNat (memory.writeChunks device.code chunks)
        (plc.write (Plant.network online) device payload plant).peer := by
  cases hresolve : (Plant.network online).resolve? plc.endpoint.host plc.endpoint.port with
  | none => simp [write, withPeer, hresolve] at ok
  | some peer =>
    cases hframes : plc.endpoint.frames device payload with
    | error e => simp [write, withPeer, hresolve, hframes] at ok
    | ok chunks =>
      have hpeer : peer = Plant.peer plc.endpoint.port.toNat := by
        simp only [Plant.network, isOnline, if_true] at hresolve
        split at hresolve
        · simp at hresolve
        · exact (Option.some.inj hresolve).symm
      rw [write_eq_writeFrames hresolve hframes, hpeer] at ok ⊢
      exact ⟨chunks, rfl, Client.writeFrames_differsAt differs ok⟩

/-- Texts that were written with success have been carried out one after the other. -/
theorem writeTexts_differsAt {texts : List String}
    (isOnline : online plc.endpoint.port.toNat = true)
    (differs : DiffersAt others plc.endpoint.port.toNat memory plant)
    (ok : (writeTexts (Plant.network online) device texts plc plant).1 = .ok ()) :
    ∃ sent, List.Forall₂ (plc.endpoint.Sends device) texts sent ∧
      DiffersAt others plc.endpoint.port.toNat
        (sent.foldl (fun memory => memory.writeChunks device.code) memory)
        (writeTexts (Plant.network online) device texts plc plant).2.2 := by
  induction texts generalizing plc plant memory with
  | nil => exact ⟨[], .nil, differs⟩
  | cons text texts ih =>
    cases hencode : device.format.encode text device.registers with
    | error e => simp [writeTexts, hencode] at ok
    | ok payload =>
      cases hresult : (plc.write (Plant.network online) device payload plant).result with
      | error e => simp [writeTexts, hencode, hresult] at ok
      | ok _ =>
        simp only [writeTexts, hencode, hresult] at ok ⊢
        obtain ⟨chunks, hframes, hdiffers⟩ := write_differsAt isOnline differs hresult
        -- the client of the texts that are left is the one that wrote this text
        obtain ⟨sent, hsent, hothers⟩ := ih (by exact isOnline) (by exact hdiffers) ok
        exact ⟨chunks :: sent, .cons ⟨payload, hencode, hframes⟩ hsent, hothers⟩

/-- Frames whose requests can be built are accepted. -/
theorem write_accepted {sim : SimulatedPlc} (reaches : plc.Reaches online plant sim)
    (ready : plc.IsReady) (framed : plc.endpoint.frames device payload = .ok chunks)
    (built : ∀ chunk ∈ chunks, ∃ frame, plc.client.options.station.writeRequest
      plc.client.options.writeVariant device.code chunk.address chunk.registers chunk.data
        = .ok frame) :
    (plc.write (Plant.network online) device payload plant).result = .ok () := by
  have hresolve : (Plant.network online).resolve? plc.endpoint.host plc.endpoint.port =
      some (Plant.peer plc.endpoint.port.toNat) := by
    simp only [Plant.network, ready.resolves, reaches.isOnline, Bool.false_eq_true, if_false,
      if_true]
  rw [write_eq_writeFrames hresolve framed]
  exact Client.writeFrames_accepted ready.clear ready.waits
    (Plant.differsAt_self reaches.found reaches.faultFree) built

end PlcConnection

namespace Service

/-- The service of one PLC that nobody has talked to yet, at the first place of a plant. -/
def alone (frameLimit : Option UInt16) : Service :=
  (empty 0).register { name := "plc", host := "plc", port := 0, frameLimit } []

variable {service : Service} {plc : PlcConnection} {online : Nat → Bool} {plant : Plant}
  {sim : SimulatedPlc} {name : String} {device : Device} {value : WriteValue}

/-- A value that was written with success is in the memory of its PLC, and nothing else in the plant
has changed. -/
theorem writeDevice_differsAt (known : service.find? name = some plc)
    (reaches : plc.Reaches online plant sim)
    (ok : (writeDevice (Plant.network online) name device value (service, plant)).1 = .ok ()) :
    ∃ sent, List.Forall₂ (plc.endpoint.Sends device) value.strings sent ∧
      DiffersAt plant plc.endpoint.port.toNat
        (sent.foldl (fun memory => memory.writeChunks device.code) sim.memory)
        (writeDevice (Plant.network online) name device value (service, plant)).2.2 := by
  simp only [writeDevice, known] at ok ⊢
  exact PlcConnection.writeTexts_differsAt reaches.isOnline
    (Plant.differsAt_self reaches.found reaches.faultFree) ok

end Service

end PlcGateway
