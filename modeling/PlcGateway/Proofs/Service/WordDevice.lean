import PlcGateway.Proofs.Service.Write

/-!
# Texts in areas of words

A text that was written to a device of an area of words is in the memory of the PLC word by word,
and nothing else has changed (`writeDevice_text`). Where the words are is a matter of the frames.
For a device with one register, and for a payload of one word, they stand in a row from the offset
of the device on and are read back there. Else the first frame begins where the payload would end,
each frame lies below the one before it, and inside a frame the words go up. So a payload of several
words is out of its place in a device of several registers (`writeDevice_text_displaced`).
-/

namespace PlcGateway

namespace Endpoint

variable {endpoint : Endpoint} {device : Device} {text : String} {payload : List UInt8}
  {chunks : List WriteChunk} {total i : Nat}

/-- The frames of a payload put its words where they land, and change nothing else. -/
theorem stores_writeChunks (memory : Memory) (area : device.code.holdsBits = false)
    (encoded : device.format.encode text device.registers = .ok payload)
    (framed : endpoint.frames device payload = .ok chunks) :
    Memory.Stores device.code (endpoint.landing device (WritePlan.registersFor payload.length))
      payload memory (memory.writeChunks device.code chunks) := by
  have hcells : (chunks.flatMap WriteChunk.cells).map (Prod.map UInt32.ofNat id) =
      Cells.ofWords (endpoint.landing device (WritePlan.registersFor payload.length))
        (Bytes.words payload) := by
    rw [flatMap_cells_frames framed, Cells.map_ofWords]
    refine Cells.ofWords_congr fun i _ => ?_
    rw [landing, UInt32.ofNat_add, UInt32.ofNat_toNat]
  have hsmall := RegisterFormat.registersFor_lt encoded
  rw [memory.writeChunks_eq_storeCells chunks area (registersFor_data_frames encoded framed),
    hcells]
  exact memory.stores_storeCells device.code fun i hi j hj => landing_injOn hsmall hi hj

/-- No word lands below its device, unless offsets go round. -/
theorem offset_le_landing (inside : device.offset.toNat < 2 ^ 24) (small : total < UInt16.size)
    (hi : i < total) : device.offset ≤ endpoint.landing device total i := by
  have hle : endpoint.shift device total i ≤ 2 * total := by
    have hmod : i % endpoint.limit device ≤ i := Nat.mod_le _ _
    unfold shift WritePlan.wordAddress
    split <;> omega
  have hsmall : UInt16.size = 65536 := rfl
  -- the sum stays below `2 ^ 32`
  rw [UInt32.le_iff_toNat_le, landing, UInt32.toNat_add,
    UInt32.toNat_ofNat_of_lt' (shift_lt small hi), Nat.mod_eq_of_lt (by omega)]
  exact Nat.le_add_right _ _

end Endpoint

namespace Service

variable {service : Service} {plc : PlcConnection} {online : Nat → Bool} {plant : Plant}
  {sim : SimulatedPlc} {name : String} {device : Device} {text : String}

/-- What a text that was written with success has done to its PLC and to the plant. -/
theorem writeDevice_text (known : service.find? name = some plc)
    (reaches : plc.Reaches online plant sim) (area : device.code.holdsBits = false)
    (ok : (writeDevice (Plant.network online) name device (.text text) (service, plant)).1
      = .ok ()) :
    ∃ payload sim', device.format.encode text device.registers = .ok payload ∧
      (writeDevice (Plant.network online) name device (.text text) (service, plant)).2.2 =
        plant.set plc.endpoint.port.toNat sim' ∧
      Memory.Stores device.code
        (plc.endpoint.landing device (WritePlan.registersFor payload.length)) payload
        sim.memory sim'.memory ∧
      (device.offset.toNat < 2 ^ 24 → ∀ o < device.offset,
        sim'.memory.cell device.code o = sim.memory.cell device.code o) ∧
      (device.registers = 1 ∨ WritePlan.registersFor payload.length ≤ 1 →
        sim'.memory.read device.code device.offset (WritePlan.registersFor payload.length) =
          payload ++ List.replicate (payload.length % 2) 0) := by
  obtain ⟨sent, hsent, -, sim', hplant, -, hmemory⟩ := writeDevice_differsAt known reaches ok
  -- there is one text, so one row of frames was sent
  obtain ⟨chunks, _, ⟨payload, encoded, framed⟩, hnil, rfl⟩ := List.forall₂_cons_left_iff.1 hsent
  obtain rfl := List.forall₂_nil_left_iff.1 hnil
  have hstores := plc.endpoint.stores_writeChunks sim.memory area encoded framed
  rw [List.foldl_cons, List.foldl_nil] at hmemory
  rw [← hmemory] at hstores
  refine ⟨payload, sim', encoded, hplant, hstores, ?_, ?_⟩
  · intro inside o below
    refine hstores.kept _ o fun _ i hi heq => ?_
    have hle := plc.endpoint.offset_le_landing inside (RegisterFormat.registersFor_lt encoded) hi
    rw [heq] at hle
    exact absurd below (UInt32.not_lt.2 hle)
  · intro inRow
    refine sim'.memory.read_words device.offset area fun i word hword => ?_
    have hi : i < WritePlan.registersFor payload.length := by
      rw [← Bytes.length_words]
      exact (List.getElem?_eq_some_iff.1 hword).1
    have hplaced := hstores.placed i word hword
    rw [Endpoint.landing, Endpoint.shift_eq_self_iff.2 inRow i hi] at hplaced
    exact hplaced

/-- Ten characters for `D10` to `D14`, two registers to a frame: the first word is in `D14`. -/
theorem writeDevice_text_five_registers :
    ∃ sim', (writeDevice (Plant.network fun _ => true) "plc"
        ⟨.d, "10", 10, .ascii, 5, rfl, rfl, by decide⟩ (.text "ABCDEFGHIJ")
        (alone (some 2), [{}])).2.2 = [sim'] ∧
      sim'.memory.cell .d 14 = 0x4241 := by
  have ok : (writeDevice (Plant.network fun _ => true) "plc"
      ⟨.d, "10", 10, .ascii, 5, rfl, rfl, by decide⟩ (.text "ABCDEFGHIJ")
      (alone (some 2), [{}])).1 = .ok () := by decide +kernel
  obtain ⟨payload, sim', encoded, hplant, hstores, -⟩ := writeDevice_text (by rfl)
    ⟨by rfl, by rfl, ⟨by rfl, by rfl, by rfl, by rfl⟩⟩ (by rfl) ok
  obtain rfl := Except.ok.inj encoded
  exact ⟨sim', hplant, hstores.placed 0 _ rfl⟩

/-- Four characters for `W0` and `W1`: they land in `W1` and `W2`, and `W0` stays as it was. -/
theorem writeDevice_text_displaced :
    RegisterFormat.ascii.encode "ABCD" 2 = .ok [0x41, 0x42, 0x43, 0x44] ∧
    Bytes.words [0x41, 0x42, 0x43, 0x44] = [0x4241, 0x4443] ∧
    (writeDevice (Plant.network fun _ => true) "plc" ⟨.w, "0", 0, .ascii, 2, rfl, rfl, by decide⟩
      (.text "ABCD") (alone none, [{}])).1 = .ok () ∧
    (writeDevice (Plant.network fun _ => true) "plc" ⟨.w, "0", 0, .ascii, 2, rfl, rfl, by decide⟩
      (.text "ABCD") (alone none, [{}])).2.2.map (fun plc =>
        [plc.memory.cell .w 0, plc.memory.cell .w 1, plc.memory.cell .w 2]) =
      [[0, 0x4241, 0x4443]] := by
  refine ⟨by decide +kernel, by decide +kernel, by decide +kernel, by decide +kernel⟩

end Service

end PlcGateway
