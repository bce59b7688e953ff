import PlcGateway.Link.Basic
import PlcGateway.Proofs.Device.List
import PlcGateway.Proofs.Link.Failure
import PlcGateway.Service.Basic

/-!
# Reads of listed devices

A device of a device list has the registers of its format (`Device.registers_of_parseList`). A
client gives no data to a read that are fewer bytes than the registers asked for, so there are
always enough for the format (`width_le_of_read`), and what a read of such a device fails with is
never about decoding: the host is not known, the offset does not fit the request, or something is
wrong with the answer (`readDevice_listed`).
-/

namespace PlcGateway

/-! ## Reads -/

variable {ν : Type} {network : Network ν} {plc : PlcConnection} {device : Device} {s : ν}

/-- Why a device cannot be read. -/
inductive PlcConnection.CannotRead (plc : PlcConnection) (network : Network ν) (device : Device) :
    LinkError → Prop where
  /-- The host of the PLC has no address. -/
  | unresolved (unknown : network.resolve? plc.endpoint.host plc.endpoint.port = none) :
      CannotRead plc network device (.unresolved plc.endpoint.host plc.endpoint.port)
  /-- The offset of the device does not fit the three bytes that the request has for it. -/
  | outOfRange (narrow : plc.endpoint.readVariant = .standard) (high : 0xFFFFFF < device.offset) :
      CannotRead plc network device (.frame (.addressOutOfRange device.offset))
  | answer (e : LinkError) (cause : e.IsOfAnswer) : CannotRead plc network device e

/-- A read for the registers of a format is never for too many of them. -/
theorem RegisterFormat.registers_within (format : RegisterFormat) :
    ¬ (format.registers = 0 ∨ Frame.maxPoints < format.registers.toNat) := by
  cases format <;> decide

theorem PlcConnection.cannotRead (registers : device.registers = device.format.registers)
    {e : LinkError} (failed : (plc.read network device s).result = .error e) :
    plc.CannotRead network device e := by
  unfold read withPeer at failed
  split at failed
  · next hunknown =>
    obtain rfl := Except.error.inj failed
    exact .unresolved hunknown
  · rcases Client.of_read_error failed with ⟨e', hrequest, rfl⟩ | hcause
    · have hframe : Order.frame ⟨plc.client.options.station, plc.endpoint.readVariant, device.code,
          device.offset, device.registers, none⟩ = .error e' := hrequest
      rcases Order.frame_eq_error_iff.1 hframe with ⟨hpoints, -⟩ | ⟨-, hnarrow, hhigh, rfl⟩
      · rw [registers] at hpoints
        exact absurd hpoints device.format.registers_within
      · exact .outOfRange hnarrow hhigh
    · exact .answer e hcause

/-- What a client gives to a read is enough for the format of the device. -/
theorem RegisterFormat.width_le_of_read {peer : Peer ν} {client : Client} {variant : Variant}
    {payload : List UInt8} (registers : device.registers = device.format.registers)
    (done : (client.read peer variant device.code device.offset device.registers s).result =
      .ok payload) : device.format.width ≤ payload.length := by
  have hlong := Client.le_length_of_read done
  rw [registers] at hlong
  exact Nat.le_trans device.format.width_le_registers hlong

theorem PlcConnection.width_le_of_read (registers : device.registers = device.format.registers)
    {payload : List UInt8} (done : (plc.read network device s).result = .ok payload) :
    device.format.width ≤ payload.length := by
  unfold read withPeer at done
  split at done
  · cases done
  · exact RegisterFormat.width_le_of_read registers done

namespace Service

/-- A device is read from a PLC that is known, and the read gives a value or fails. -/
theorem readDevice_cases {service : Service} {name : String}
    (known : service.find? name = some plc)
    (registers : device.registers = device.format.registers) (network : Network ν) (s : ν) :
    (∃ payload value, (plc.read network device s).result = .ok payload ∧
      device.format.decode payload = .ok value ∧
      (readDevice network name device (service, s)).1 = .ok value) ∨
    ∃ e, (plc.read network device s).result = .error e ∧ plc.CannotRead network device e ∧
      (readDevice network name device (service, s)).1 = .error (.link e) := by
  unfold readDevice
  simp only [known]
  cases hread : (plc.read network device s).result with
  | error e => exact .inr ⟨e, rfl, plc.cannotRead registers hread, rfl⟩
  | ok payload =>
    obtain ⟨value, hvalue⟩ :=
      RegisterFormat.exists_decode (PlcConnection.width_le_of_read registers hread)
    refine .inl ⟨payload, value, rfl, hvalue, ?_⟩
    simp only [hvalue]
    rfl

/-- A client that reads a listed device with success gives all the bytes of its format, whatever the
peer has answered. So a service that reads a listed device from a PLC that it knows gives a value,
or it fails since the PLC cannot be found or asked or does not answer as it should. It never fails
to decode. -/
theorem readDevice_listed {list : String} (listed : device ∈ Device.parseList list) :
    (∀ {ν : Type} (peer : Peer ν) (client : Client) (variant : Variant) (s : ν) payload,
      (client.read peer variant device.code device.offset device.registers s).result =
        .ok payload → device.format.width ≤ payload.length) ∧
    ∀ {ν : Type} (network : Network ν) (service : Service) (name : String) (s : ν),
      (∀ e, (readDevice network name device (service, s)).1 ≠ .error (.codec e)) ∧
      (service.find? name = none →
        (readDevice network name device (service, s)).1 = .error (.unknownPlc name)) ∧
      ∀ plc, service.find? name = some plc →
        (∃ payload value, (plc.read network device s).result = .ok payload ∧
          device.format.decode payload = .ok value ∧
          (readDevice network name device (service, s)).1 = .ok value) ∨
        ∃ e, (plc.read network device s).result = .error e ∧ plc.CannotRead network device e ∧
          (readDevice network name device (service, s)).1 = .error (.link e) := by
  have registers := Device.registers_of_parseList listed
  refine ⟨fun _ _ _ _ payload done => RegisterFormat.width_le_of_read registers done, ?_⟩
  intro ν network service name s
  have unknown : service.find? name = none →
      (readDevice network name device (service, s)).1 = .error (.unknownPlc name) := by
    intro hnone
    rw [readDevice, hnone]
  refine ⟨fun e hcodec => ?_, unknown, fun plc known =>
    readDevice_cases known registers network s⟩
  cases hfind : service.find? name with
  | none =>
    rw [unknown hfind] at hcodec
    cases hcodec
  | some plc =>
    rcases readDevice_cases hfind registers network s with
      ⟨_, value, -, -, hvalue⟩ | ⟨e', -, -, herror⟩
    · rw [hvalue] at hcodec
      cases hcodec
    · rw [herror] at hcodec
      cases hcodec

/-- Of the two words of a real number, the PLC sends the first, and then both. -/
theorem readDevice_listed_short :
    let device : Device := ⟨.d, "100", 100, .real, 2, rfl, rfl, by decide⟩
    let service := (empty 1000).register { name := "Line1", host := "plc", port := 5007 } [device]
    let network : Network Script := ⟨fun _ _ => some Script.peer⟩
    let script (data : List UInt8) : Script :=
      { items := [{ bytes := Station.local.response 0 data }] }
    device ∈ Device.parseList "M,64,3, D,100,2 " ∧
    (readDevice network "Line1" device (service, script [0x00, 0x00])).1 =
      .error (.link (.frame (.shortResponse 15 13))) ∧
    (readDevice network "Line1" device (service, script [0x00, 0x00, 0xC0, 0x3F])).1 =
      .ok (.real "1.50000") := by
  intro device service network script
  have listed : device ∈ Device.parseList "M,64,3, D,100,2 " := by decide +kernel
  obtain ⟨-, hends⟩ := readDevice_listed listed
  let plc := PlcConnection.make { name := "Line1", host := "plc", port := 5007 } [device]
  have known : service.find? "Line1" = some plc := rfl
  refine ⟨listed, ?_, ?_⟩
  · have hread : (plc.read network device (script [0x00, 0x00])).result =
        .error (.frame (.shortResponse 15 13)) := by decide +kernel
    rcases (hends network service "Line1" (script [0x00, 0x00])).2.2 plc known with
      ⟨_, _, h, -⟩ | ⟨e, h, -, herror⟩
    · exact nomatch hread.symm.trans h
    · obtain rfl := Except.error.inj (hread.symm.trans h)
      exact herror
  · have hread : (plc.read network device (script [0x00, 0x00, 0xC0, 0x3F])).result =
        .ok [0x00, 0x00, 0xC0, 0x3F] := by decide +kernel
    rcases (hends network service "Line1" (script [0x00, 0x00, 0xC0, 0x3F])).2.2 plc known with
      ⟨payload, value, h, hvalue, hok⟩ | ⟨_, h, -⟩
    · obtain rfl := Except.ok.inj (hread.symm.trans h)
      have hreal : device.format.decode [0x00, 0x00, 0xC0, 0x3F] = .ok (.real "1.50000") := by
        decide +kernel
      rw [hok, Except.ok.inj (hvalue.symm.trans hreal)]
    · exact nomatch hread.symm.trans h

end Service

end PlcGateway
