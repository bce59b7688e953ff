import PlcGateway.Proofs.Service.Write

/-!
# States of single bits

PLCs are written in words, also where they hold bits. A bit that was written with success has its
state, and the fifteen bits behind it are off, whatever they were before; no other bit and no word
has changed (`writeDevice_bit`). So a bit is not written on its own (`writeDevice_bit_clears`).
-/

namespace PlcGateway

namespace Endpoint

variable {endpoint : Endpoint} {device : Device} {text : String} {chunks : List WriteChunk}

/-- A state goes out as one byte, for which one word is asked. -/
theorem Sends.of_bit (format : device.format = .bit) (single : device.registers = 1)
    (sends : endpoint.Sends device text chunks) :
    ∃ on, RegisterFormat.readBit? (Text.trimmed text).toList = some on ∧
      chunks = [⟨device.offset, 1, [if on then 1 else 0]⟩] := by
  obtain ⟨payload, encoded, framed⟩ := sends
  simp only [format, RegisterFormat.encode] at encoded
  split at encoded
  · next on hon =>
    obtain rfl := Except.ok.inj encoded
    have hregisters : WritePlan.registersFor [if on then (1 : UInt8) else 0].length = 1 := by
      simp [WritePlan.registersFor]
    rw [frames, if_pos single, hregisters] at framed
    exact ⟨on, hon, (Except.ok.inj framed).symm⟩
  · simp at encoded

/-- Texts of a bit are written state by state. -/
theorem foldl_writeChunks_bit {texts : List String} {sent : List (List WriteChunk)}
    (memory : Memory) (area : device.code.holdsBits = true) (format : device.format = .bit)
    (single : device.registers = 1) (sends : List.Forall₂ (endpoint.Sends device) texts sent) :
    ∃ states, List.Forall₂ (fun text on =>
        RegisterFormat.readBit? (Text.trimmed text).toList = some on) texts states ∧
      sent.foldl (fun memory => memory.writeChunks device.code) memory =
        states.foldl (fun memory on => memory.setLoneBit device.code device.offset on) memory := by
  -- each state is written into the memory that the states before it have left
  induction sends generalizing memory with
  | nil => exact ⟨[], .nil, rfl⟩
  | cons first _ ih =>
    obtain ⟨on, hon, rfl⟩ := first.of_bit format single
    obtain ⟨states, hstates, hmemory⟩ := ih (memory.setLoneBit device.code device.offset on)
    have hfirst : memory.writeChunks device.code [⟨device.offset, 1, [if on then 1 else 0]⟩] =
        memory.setLoneBit device.code device.offset on :=
      memory.write_lone_bit device.offset on area
    refine ⟨on :: states, .cons hon hstates, ?_⟩
    rw [List.foldl_cons, List.foldl_cons, hfirst]
    exact hmemory

end Endpoint

namespace Service

variable {service : Service} {plc : PlcConnection} {online : Nat → Bool} {plant : Plant}
  {sim : SimulatedPlc} {name : String} {device : Device} {value : WriteValue}

/-- What a value that was written to a bit with success has done to its PLC and to the plant. Of
several texts the last one counts, and a value without any changes nothing. -/
theorem writeDevice_bit (known : service.find? name = some plc)
    (reaches : plc.Reaches online plant sim) (area : device.code.holdsBits = true)
    (format : device.format = .bit) (single : device.registers = 1)
    (ok : (writeDevice (Plant.network online) name device value (service, plant)).1 = .ok ()) :
    ∃ states sim', List.Forall₂ (fun text on =>
        RegisterFormat.readBit? (Text.trimmed text).toList = some on) value.strings states ∧
      (writeDevice (Plant.network online) name device value (service, plant)).2.2 =
        plant.set plc.endpoint.port.toNat sim' ∧
      sim'.memory.cell = sim.memory.cell ∧
      (∀ on, states.getLast? = some on →
        sim'.memory.bit device.code device.offset = on ∧
          ∀ i, 0 < i → i < 16 →
            sim'.memory.bit device.code (device.offset + UInt32.ofNat i) = false) ∧
      ∀ c o, states = [] ∨ c ≠ device.code ∨ 16 ≤ (o - device.offset).toNat →
        sim'.memory.bit c o = sim.memory.bit c o := by
  obtain ⟨sent, hsent, -, sim', hplant, -, hmemory⟩ := writeDevice_differsAt known reaches ok
  obtain ⟨states, hstates, hfold⟩ :=
    Endpoint.foldl_writeChunks_bit sim.memory area format single hsent
  rw [hfold, Memory.foldl_setLoneBit] at hmemory
  refine ⟨states, sim', hstates, hplant, ?_⟩
  rcases List.eq_nil_or_concat' states with rfl | ⟨before, last, rfl⟩
  · -- no text was written
    rw [List.getLast?_nil] at hmemory
    rw [hmemory]
    exact ⟨rfl, by simp, fun _ _ _ => rfl⟩
  · -- the last text has overwritten what those before it have set
    rw [List.getLast?_concat] at hmemory ⊢
    rw [hmemory]
    refine ⟨rfl, ?_, ?_⟩
    · rintro on hon
      obtain rfl := Option.some.inj hon
      exact ⟨Memory.bit_setLoneBit_self .., fun i hpos hi => Memory.bit_setLoneBit_add _ _ hpos hi⟩
    · rintro c o (hnil | outside)
      · simp at hnil
      · exact Memory.bit_setLoneBit_of_not _ _ outside

/-- `M0` is switched on. -/
theorem writeDevice_bit_on :
    ∃ sim', (writeDevice (Plant.network fun _ => true) "plc"
        ⟨.m, "0", 0, .bit, 1, rfl, rfl, by decide⟩ (.bool true) (alone none, [{}])).2.2 = [sim'] ∧
      sim'.memory.bit .m 0 = true := by
  have ok : (writeDevice (Plant.network fun _ => true) "plc"
      ⟨.m, "0", 0, .bit, 1, rfl, rfl, by decide⟩ (.bool true) (alone none, [{}])).1 = .ok () := by
    decide +kernel
  obtain ⟨states, sim', hstates, hplant, -, hlast, -⟩ := writeDevice_bit (by rfl)
    ⟨by rfl, by rfl, ⟨by rfl, by rfl, by rfl, by rfl⟩⟩ (by rfl) (by rfl) (by rfl) ok
  obtain ⟨on, _, hon, hnil, rfl⟩ := List.forall₂_cons_left_iff.1 hstates
  obtain rfl := List.forall₂_nil_left_iff.1 hnil
  have htrue : RegisterFormat.readBit? (Text.trimmed "true").toList = some true := by
    decide +kernel
  obtain rfl := Option.some.inj (hon.symm.trans htrue)
  exact ⟨sim', hplant, (hlast true rfl).1⟩

/-- With `M1` on, `M0` is switched on: `M1` is off then. -/
theorem writeDevice_bit_clears :
    (writeDevice (Plant.network fun _ => true) "plc" ⟨.m, "0", 0, .bit, 1, rfl, rfl, by decide⟩
      (.bool true) (alone none, [{ memory := Memory.zero.setBit .m 1 true }])).1 = .ok () ∧
    (Memory.zero.setBit .m 1 true).bit .m 1 = true ∧
    (writeDevice (Plant.network fun _ => true) "plc" ⟨.m, "0", 0, .bit, 1, rfl, rfl, by decide⟩
      (.bool true) (alone none, [{ memory := Memory.zero.setBit .m 1 true }])).2.2.map
        (fun plc => [plc.memory.bit .m 0, plc.memory.bit .m 1]) = [[true, false]] := by
  refine ⟨by decide +kernel, by decide +kernel, by decide +kernel⟩

end Service

end PlcGateway
