import PlcGateway.Proofs.Link.Failure
import PlcGateway.Proofs.Service.Write
import PlcGateway.Proofs.Settings.Validation

/-!
# The size of the frames of a write

A configuration that is accepted has no frame limit that a PLC would refuse
(`validFrameLimit_of_validate`). With such a limit, or without one for a device of not too many
registers, every frame of a write is of a size that a PLC accepts. Without a limit the device itself
is the limit: text for a device of more registers than a frame may have is put into one frame, and
this frame is refused before anything is sent (`write_within_limit`).
-/

namespace PlcGateway

/-! ## Configured limits -/

/-- The PLCs of a configuration that was accepted have limits that can be kept to. -/
theorem Settings.validFrameLimit_of_validate {settings : Settings}
    (valid : settings.validate = .ok ()) :
    ∀ plc ∈ settings.scan.plcs, ∀ limit ∈ (Endpoint.ofSettings plc).frameLimit,
      validFrameLimit limit = true := by
  intro plc hplc limit hlimit
  have hplcs := (Settings.validate_eq_ok_iff.1 valid).scan.plc plc hplc
  exact validFrameLimit_iff.2 (hplcs.frameLimit limit hlimit)

/-! ## The size of a frame -/

theorem WritePlan.chunks_eq_singleton {limit top left : Nat} {limit_pos : 0 < limit}
    {payload : List UInt8} (hleft : left ≠ 0) (hle : left ≤ limit) :
    chunks limit limit_pos top left payload =
      [⟨UInt32.ofNat top, UInt16.ofNat left, payload.take (2 * left)⟩] := by
  have hmin : min limit left = left := Nat.min_eq_right hle
  rw [chunks, if_neg hleft]
  simp only [hmin, Nat.sub_self]
  rw [chunks, if_pos rfl]

namespace Endpoint

/-- Whether a device without a frame limit is filled with text that one frame cannot hold. -/
def Overflows (endpoint : Endpoint) (device : Device) : Prop :=
  endpoint.frameLimit = none ∧ device.format = .ascii ∧ Frame.maxPoints < device.registers.toNat

variable {endpoint : Endpoint} {device : Device} {text : String} {payload : List UInt8}
  {chunks : List WriteChunk}

/-- A payload takes no more registers than a frame may have, or its device has a limit that is at
most that. -/
theorem limit_le_or_registersFor_le
    (checked : ∀ limit ∈ endpoint.frameLimit, validFrameLimit limit = true)
    (encoded : device.format.encode text device.registers = .ok payload)
    (fitting : ¬ endpoint.Overflows device) :
    endpoint.limit device ≤ Frame.maxPoints ∨
      WritePlan.registersFor payload.length ≤ Frame.maxPoints := by
  have hmax : Frame.maxPoints = 960 := rfl
  cases hlimit : endpoint.frameLimit with
  | some limit =>
    have hvalid := validFrameLimit_iff.1 (checked limit hlimit)
    left
    simp only [Endpoint.limit, hlimit, Option.getD_some]
    omega
  | none =>
    right
    by_cases hascii : device.format = .ascii
    · rw [RegisterFormat.registersFor_of_ascii encoded hascii]
      exact Nat.le_of_not_lt fun hlong => fitting ⟨hlimit, hascii, hlong⟩
    · have hfew := RegisterFormat.registersFor_le_two encoded hascii
      omega

/-- Every frame is of a size that a PLC accepts. -/
theorem registers_frames
    (checked : ∀ limit ∈ endpoint.frameLimit, validFrameLimit limit = true)
    (encoded : device.format.encode text device.registers = .ok payload)
    (framed : endpoint.frames device payload = .ok chunks)
    (fitting : ¬ endpoint.Overflows device) :
    ∀ chunk ∈ chunks, 1 ≤ chunk.registers.toNat ∧ chunk.registers.toNat ≤ Frame.maxPoints := by
  have hpos := RegisterFormat.registersFor_pos encoded device.registers_pos
  have hbound := limit_le_or_registersFor_le checked encoded fitting
  have hmax : Frame.maxPoints = 960 := rfl
  intro chunk hchunk
  have hwords := registersFor_data_frames encoded framed chunk hchunk
  rcases of_frames_eq_ok framed with ⟨hone, rfl⟩ | ⟨-, -, rfl⟩
  · -- one register, hence at most two words
    have hfew := RegisterFormat.registersFor_le encoded
    rw [hone, UInt16.toNat_one] at hfew
    rw [List.mem_singleton.1 hchunk] at hwords ⊢
    rw [← hwords]
    simp only
    omega
  · -- a chunk has no more registers than the limit, and no more than there are words left
    obtain ⟨k, hk⟩ := List.getElem?_of_mem hchunk
    obtain ⟨hlt, rfl⟩ := WritePlan.of_getElem?_chunks hk
    have hlimit := endpoint.limit_pos device
    rw [WritePlan.toNat_registers_chunkAt k (endpoint.limit_lt device)]
    omega

/-- Text that overflows is put into one frame. -/
theorem frames_of_overflows
    (encoded : device.format.encode text device.registers = .ok payload)
    (framed : endpoint.frames device payload = .ok chunks) (overflows : endpoint.Overflows device) :
    ∃ address, chunks = [⟨address, device.registers, payload⟩] := by
  obtain ⟨hlimit, hascii, hlong⟩ := overflows
  have hmax : Frame.maxPoints = 960 := rfl
  have hseveral : device.registers ≠ 1 := by
    intro hone
    rw [hone] at hlong
    exact absurd hlong (by decide)
  have htotal := RegisterFormat.registersFor_of_ascii encoded hascii
  have htake : payload.take (2 * device.registers.toNat) = payload := by
    refine List.take_of_length_le ?_
    rw [WritePlan.registersFor] at htotal
    omega
  -- the device itself is the limit, so that the first chunk takes all
  have hfirst : endpoint.limit device = device.registers.toNat := by
    rw [limit, hlimit, Option.getD_none]
    omega
  rcases of_frames_eq_ok framed with ⟨hone, -⟩ | ⟨-, -, rfl⟩
  · exact absurd hone hseveral
  · rw [WritePlan.chunks_eq_singleton (by omega) (by omega), htotal, htake, UInt16.ofNat_toNat]
    exact ⟨_, rfl⟩

end Endpoint

/-! ## Refusals -/

namespace Client

variable {ν : Type} {peer : Peer ν} {client : Client} {code : DeviceCode} {s : ν}

/-- A frame of a size that no PLC accepts is refused before anything is sent. -/
theorem write_of_refused {offset : UInt32} {points : UInt16} {data : List UInt8}
    (hpoints : ¬ (1 ≤ points.toNat ∧ points.toNat ≤ Frame.maxPoints)) :
    client.write peer code offset points data s =
      ⟨.error (.frame (.tooManyPoints points)), 0, client, s⟩ := by
  have hrefused : client.options.station.writeRequest client.options.writeVariant code offset points
      data = .error (.tooManyPoints points) :=
    (client.options.station.request_eq_tooManyPoints_iff).2 ⟨rfl, hpoints⟩
  simp only [write, hrefused]

theorem of_write_tooManyPoints {offset : UInt32} {points refusedPoints : UInt16} {data : List UInt8}
    (refused : (client.write peer code offset points data s).result
      = .error (.frame (.tooManyPoints refusedPoints))) :
    points = refusedPoints ∧
      ¬ (1 ≤ refusedPoints.toNat ∧ refusedPoints.toNat ≤ Frame.maxPoints) := by
  cases hbuilt : client.options.station.writeRequest client.options.writeVariant code offset points
      data with
  | error e =>
    simp only [write, hbuilt, Except.error.injEq, LinkError.frame.injEq] at refused
    rw [refused] at hbuilt
    obtain ⟨rfl, hpoints⟩ := (client.options.station.request_eq_tooManyPoints_iff).1 hbuilt
    exact ⟨rfl, hpoints⟩
  | ok request =>
    -- once a request is sent, no answer leads to this error
    simp only [write, hbuilt] at refused
    cases hresult : (client.exchange peer request s).result with
    | ok body => simp [hresult, Except.map] at refused
    | error e =>
      simp only [hresult, Except.map, Except.error.injEq] at refused
      rw [refused] at hresult
      exact absurd hresult (exchange_ne_tooManyPoints peer client request s refusedPoints)

/-- A write of several frames is refused as too long only for a frame of a size that no PLC
accepts. -/
theorem exists_of_writeFrames_tooManyPoints {chunks : List WriteChunk} {points : UInt16}
    (refused : (client.writeFrames peer code chunks s).result
      = .error (.frame (.tooManyPoints points))) :
    ∃ chunk ∈ chunks, chunk.registers = points ∧
      ¬ (1 ≤ points.toNat ∧ points.toNat ≤ Frame.maxPoints) := by
  induction chunks generalizing client s with
  | nil => simp [writeFrames] at refused
  | cons chunk chunks ih =>
    cases hfirst : (client.write peer code chunk.address chunk.registers chunk.data s).result with
    | ok _ =>
      simp only [writeFrames, hfirst] at refused
      obtain ⟨later, hlater, hpoints⟩ := ih refused
      exact ⟨later, List.mem_cons_of_mem _ hlater, hpoints⟩
    | error e =>
      simp only [writeFrames, hfirst, Except.error.injEq] at refused
      rw [refused] at hfirst
      obtain ⟨rfl, hpoints⟩ := of_write_tooManyPoints hfirst
      exact ⟨chunk, List.mem_cons_self, rfl, hpoints⟩

end Client

/-! ## Writes -/

namespace PlcConnection

variable {plc : PlcConnection} {device : Device} {text : String} {payload : List UInt8}
  {chunks : List WriteChunk}

/-- A PLC accepts frames of its sizes at addresses that requests can give. -/
theorem write_accepted_of_registers {online : Nat → Bool} {plant : Plant} {sim : SimulatedPlc}
    (reaches : plc.Reaches online plant sim) (ready : plc.IsReady)
    (framed : plc.endpoint.frames device payload = .ok chunks)
    (addressed : ∀ chunk ∈ chunks, plc.client.options.writeVariant.Holds chunk.address)
    (sized : ∀ chunk ∈ chunks, 1 ≤ chunk.registers.toNat ∧
      chunk.registers.toNat ≤ Frame.maxPoints) :
    (plc.write (Plant.network online) device payload plant).result = .ok () := by
  refine write_accepted reaches ready framed fun chunk hchunk => ?_
  obtain ⟨hpos, hle⟩ := sized chunk hchunk
  exact Station.exists_request _ _ _ _ hpos hle (addressed chunk hchunk)

/-- What becomes of a text whose frames have addresses that requests can give. -/
theorem write_within_limit
    (checked : ∀ limit ∈ plc.endpoint.frameLimit, validFrameLimit limit = true)
    (encoded : device.format.encode text device.registers = .ok payload)
    (framed : plc.endpoint.frames device payload = .ok chunks)
    (addressed : ∀ chunk ∈ chunks, plc.client.options.writeVariant.Holds chunk.address) :
    chunks.flatMap WriteChunk.data = payload ∧
    (¬ plc.endpoint.Overflows device →
      (∀ chunk ∈ chunks, 1 ≤ chunk.registers.toNat ∧ chunk.registers.toNat ≤ Frame.maxPoints) ∧
      (∀ (ν : Type) (network : Network ν) (s : ν) (points : UInt16),
        (plc.write network device payload s).result ≠ .error (.frame (.tooManyPoints points))) ∧
      ∀ online plant sim, plc.Reaches online plant sim → plc.IsReady →
        (plc.write (Plant.network online) device payload plant).result = .ok ()) ∧
    (plc.endpoint.Overflows device →
      (∃ address, chunks = [⟨address, device.registers, payload⟩]) ∧
      ∀ (ν : Type) (network : Network ν) (peer : Peer ν) (s : ν),
        network.resolve? plc.endpoint.host plc.endpoint.port = some peer →
        plc.write network device payload s =
          ⟨.error (.frame (.tooManyPoints device.registers)), 0, plc.client, s⟩) := by
  refine ⟨Endpoint.flatMap_data_frames framed, fun fitting => ?_, fun overflows => ?_⟩
  · have sized := Endpoint.registers_frames checked encoded framed fitting
    refine ⟨sized, fun ν network s points refused => ?_, fun online plant sim reaches ready => ?_⟩
    · cases hresolve : network.resolve? plc.endpoint.host plc.endpoint.port with
      | none => simp [write, withPeer, hresolve] at refused
      | some peer =>
        rw [write_eq_writeFrames hresolve framed] at refused
        obtain ⟨chunk, hchunk, rfl, hpoints⟩ := Client.exists_of_writeFrames_tooManyPoints refused
        exact hpoints (sized chunk hchunk)
    · exact write_accepted_of_registers reaches ready framed addressed sized
  · obtain ⟨address, rfl⟩ := Endpoint.frames_of_overflows encoded framed overflows
    refine ⟨⟨address, rfl⟩, fun ν network peer s resolved => ?_⟩
    have hlong : ¬ (1 ≤ device.registers.toNat ∧ device.registers.toNat ≤ Frame.maxPoints) := by
      intro hsized
      exact absurd overflows.2.2 (Nat.not_lt.2 hsized.2)
    rw [write_eq_writeFrames resolved framed]
    simp only [Client.writeFrames, Client.write_of_refused hlong]

/-- Six characters for `D10` to `D12`, two registers to a frame. -/
theorem write_within_limit_two_frames :
    (write (Plant.network fun _ => true)
      (make { name := "plc", host := "plc", port := 0, frameLimit := some 2 } [])
      ⟨.d, "10", 10, .ascii, 3, rfl, rfl, by decide⟩ [0x41, 0x42, 0x43, 0x44, 0x45, 0x46]
      [{}]).result = .ok () := by
  have checked : ∀ limit ∈ some (2 : UInt16), validFrameLimit limit = true := by
    intro limit hlimit
    rw [← Option.some.inj hlimit]
    rfl
  have encoded : RegisterFormat.ascii.encode "ABCDEF" 3 =
      .ok [0x41, 0x42, 0x43, 0x44, 0x45, 0x46] := rfl
  have framed : (make { name := "plc", host := "plc", port := 0, frameLimit := some 2 }
      []).endpoint.frames ⟨.d, "10", 10, .ascii, 3, rfl, rfl, by decide⟩
        [0x41, 0x42, 0x43, 0x44, 0x45, 0x46] =
      .ok [⟨12, 2, [0x41, 0x42, 0x43, 0x44]⟩, ⟨10, 1, [0x45, 0x46]⟩] := by decide +kernel
  have sized := write_within_limit checked encoded framed (by decide)
  refine (sized.2.1 ?_).2.2 _ _ {} ⟨rfl, rfl, ⟨rfl, rfl, rfl, rfl⟩⟩
    ⟨by decide +kernel, ?_, by decide⟩
  · rintro ⟨hnone, -⟩
    exact absurd hnone (by decide)
  · intro connection hnone
    exact absurd hnone (by simp [make])

/-- Text for `W0` and the 960 registers behind it is not split. -/
theorem write_overflows :
    Device.parseTarget "W,0,4,961" = .ok ⟨.w, "0", 0, .ascii, 961, rfl, rfl, by decide⟩ ∧
    (Service.writeDevice (Plant.network fun _ => true) "plc"
      ⟨.w, "0", 0, .ascii, 961, rfl, rfl, by decide⟩ (.text "AB") (.alone none, [{}])).1 =
        .error (.link (.frame (.tooManyPoints 961))) := by
  refine ⟨rfl, ?_⟩
  decide +kernel

end PlcConnection

end PlcGateway
