import PlcGateway.Proofs.WritePlan.Placement
import PlcGateway.Service.Connection

/-!
# The frames of a device

The length of a payload depends on the format of its device alone, but for text, which fills the
device (`length_of_encode`). Word `i` of a payload lands `shift` cells behind the offset of its
device (`flatMap_cells_frames`). That is `i` cells for a device with one register and for a payload
of one word, and never in between (`shift_eq_self_iff`). No frame asks for more or fewer registers
than its data has words (`registersFor_data_frames`).
-/

namespace PlcGateway

/-! ## How long a payload is -/

namespace RegisterFormat

/-- How many bytes a text is encoded to for a device with so many registers. -/
def payloadLength (format : RegisterFormat) (registers : UInt16) : Nat :=
  if format = .ascii then 2 * registers.toNat else format.width

variable {format : RegisterFormat} {text : String} {registers : UInt16} {payload : List UInt8}

theorem length_of_encode (encoded : format.encode text registers = .ok payload) :
    payload.length = format.payloadLength registers := by
  cases format with
  | ascii =>
    obtain rfl := Except.ok.inj encoded
    exact length_resize _ _
  | bit =>
    simp only [encode] at encoded
    split at encoded
    · obtain rfl := Except.ok.inj encoded
      rfl
    · simp at encoded
  | unsigned | real | signed | tenths =>
    simp only [encode] at encoded
    split at encoded
    · obtain rfl := Except.ok.inj encoded
      exact Bytes.length_little _ _
    · simp at encoded

/-- Text takes as many registers as its device has. -/
theorem registersFor_of_ascii (encoded : format.encode text registers = .ok payload)
    (hascii : format = .ascii) : WritePlan.registersFor payload.length = registers.toNat := by
  rw [length_of_encode encoded, payloadLength, if_pos hascii, WritePlan.registersFor]
  omega

/-- Every other value takes one register or two. -/
theorem registersFor_le_two (encoded : format.encode text registers = .ok payload)
    (hother : format ≠ .ascii) : WritePlan.registersFor payload.length ≤ 2 := by
  rw [length_of_encode encoded, payloadLength, if_neg hother]
  cases format <;> decide

theorem registersFor_pos (encoded : format.encode text registers = .ok payload)
    (registers_pos : 0 < registers) : 0 < WritePlan.registersFor payload.length := by
  by_cases hascii : format = .ascii
  · rw [registersFor_of_ascii encoded hascii]
    exact UInt16.lt_iff_toNat_lt.1 registers_pos
  · rw [length_of_encode encoded, payloadLength, if_neg hascii]
    cases format <;> decide

theorem registersFor_le (encoded : format.encode text registers = .ok payload) :
    WritePlan.registersFor payload.length ≤ max 2 registers.toNat := by
  by_cases hascii : format = .ascii
  · rw [registersFor_of_ascii encoded hascii]
    exact Nat.le_max_right _ _
  · exact Nat.le_trans (registersFor_le_two encoded hascii) (Nat.le_max_left _ _)

theorem registersFor_lt (encoded : format.encode text registers = .ok payload) :
    WritePlan.registersFor payload.length < UInt16.size :=
  Nat.lt_of_le_of_lt (registersFor_le encoded) (Nat.max_lt.2 ⟨by decide, registers.toNat_lt⟩)

end RegisterFormat

/-! ## Where the words of a payload land -/

theorem WritePlan.wordAddress_add {limit top i : Nat} (base : Nat) (hi : i ≤ top) :
    wordAddress limit (base + top) i = base + wordAddress limit top i := by
  have hle := Nat.div_mul_le_self i limit
  unfold wordAddress
  omega

namespace Endpoint

/-- How many registers a frame of a device with several registers may carry. -/
def limit (endpoint : Endpoint) (device : Device) : Nat :=
  max (endpoint.frameLimit.getD device.registers).toNat 1

/-- How far behind the offset of a device word `i` of a payload of `total` words lands. -/
def shift (endpoint : Endpoint) (device : Device) (total i : Nat) : Nat :=
  if device.registers = 1 then i
  else WritePlan.wordAddress (endpoint.limit device) (total - 1) i

/-- The cell in which word `i` of a payload of `total` words lands. -/
def landing (endpoint : Endpoint) (device : Device) (total i : Nat) : UInt32 :=
  device.offset + UInt32.ofNat (endpoint.shift device total i)

variable {endpoint : Endpoint} {device : Device} {text : String} {payload : List UInt8}
  {chunks : List WriteChunk} {total i j : Nat}

theorem limit_pos (endpoint : Endpoint) (device : Device) : 0 < endpoint.limit device :=
  Nat.lt_of_lt_of_le Nat.one_pos (Nat.le_max_right _ _)

theorem limit_lt (endpoint : Endpoint) (device : Device) : endpoint.limit device < UInt16.size :=
  Nat.max_lt.2 ⟨UInt16.toNat_lt _, by decide⟩

theorem shift_lt (small : total < UInt16.size) (hi : i < total) :
    endpoint.shift device total i < UInt32.size := by
  have hle : i % endpoint.limit device ≤ i := Nat.mod_le _ _
  have hsmall : UInt16.size = 65536 := rfl
  have hsize : UInt32.size = 4294967296 := rfl
  unfold shift WritePlan.wordAddress
  split <;> omega

theorem shift_injOn (hi : i < total) (hj : j < total)
    (h : endpoint.shift device total i = endpoint.shift device total j) : i = j := by
  unfold shift at h
  split at h
  · exact h
  · exact WritePlan.wordAddress_injOn (endpoint.limit_pos device) (by omega) hi hj h

/-- Different words land in different cells. -/
theorem landing_injOn (small : total < UInt16.size) (hi : i < total) (hj : j < total)
    (h : endpoint.landing device total i = endpoint.landing device total j) : i = j := by
  -- the offset is the same, and no shift goes round
  have hshift := congrArg UInt32.toNat ((UInt32.add_right_inj device.offset).1 h)
  rw [UInt32.toNat_ofNat_of_lt' (shift_lt small hi),
    UInt32.toNat_ofNat_of_lt' (shift_lt small hj)] at hshift
  exact shift_injOn hi hj hshift

/-- Words land in the order of the payload exactly for a device with one register and for a payload
of one word at most. -/
theorem shift_eq_self_iff :
    (∀ i < total, endpoint.shift device total i = i) ↔ device.registers = 1 ∨ total ≤ 1 := by
  constructor
  · intro h
    by_cases hone : device.registers = 1
    · exact .inl hone
    · -- the first chunk begins at the last register
      refine .inr (Nat.le_of_not_lt fun hmany => ?_)
      have hfirst := h 0 (by omega)
      simp only [shift, if_neg hone, WritePlan.wordAddress, Nat.zero_div, Nat.zero_mod] at hfirst
      omega
  · rintro (hone | hfew) i hi
    · exact if_pos hone
    · have hzero : i = 0 := by omega
      have htotal : total - 1 = 0 := by omega
      simp [shift, hzero, htotal, WritePlan.wordAddress]

/-! ## The frames -/

/-- A payload goes in one frame to a device with one register, and else in the chunks of a plan. -/
theorem of_frames_eq_ok (framed : endpoint.frames device payload = .ok chunks) :
    device.registers = 1 ∧ chunks =
      [⟨device.offset, UInt16.ofNat (max (WritePlan.registersFor payload.length) 1), payload⟩] ∨
    device.registers ≠ 1 ∧
      device.offset.toNat + (WritePlan.registersFor payload.length - 1) < UInt32.size ∧
      chunks = WritePlan.chunks (endpoint.limit device) (endpoint.limit_pos device)
        (device.offset.toNat + (WritePlan.registersFor payload.length - 1))
        (WritePlan.registersFor payload.length) payload := by
  unfold frames at framed
  split at framed
  · next hone => exact .inl ⟨hone, (Except.ok.inj framed).symm⟩
  · next hseveral =>
    simp only [WritePlan.make] at framed
    split at framed
    · simp at framed
    · next hin => exact .inr ⟨hseveral, Nat.lt_of_not_le hin, (Except.ok.inj framed).symm⟩

/-- The frames of a write hold the payload in order. -/
theorem flatMap_data_frames (framed : endpoint.frames device payload = .ok chunks) :
    chunks.flatMap WriteChunk.data = payload := by
  rcases of_frames_eq_ok framed with ⟨-, rfl⟩ | ⟨-, -, rfl⟩
  · exact List.append_nil payload
  · refine WritePlan.flatMap_data_chunks ?_
    rw [WritePlan.registersFor]
    omega

theorem flatMap_cells_frames (framed : endpoint.frames device payload = .ok chunks) :
    chunks.flatMap WriteChunk.cells = Cells.ofWords
      (fun i => device.offset.toNat +
        endpoint.shift device (WritePlan.registersFor payload.length) i) (Bytes.words payload) := by
  rcases of_frames_eq_ok framed with ⟨hone, rfl⟩ | ⟨hseveral, inside, rfl⟩
  · simp only [List.flatMap_cons, List.flatMap_nil, List.append_nil, WriteChunk.cells, shift,
      if_pos hone]
  · rw [WritePlan.flatMap_cells_chunks inside rfl]
    refine Cells.ofWords_congr fun i hi => ?_
    rw [Bytes.length_words] at hi
    rw [shift, if_neg hseveral]
    exact WritePlan.wordAddress_add _ (by omega)

/-- A frame asks for as many registers as its data has words. -/
theorem registersFor_data_frames
    (encoded : device.format.encode text device.registers = .ok payload)
    (framed : endpoint.frames device payload = .ok chunks) :
    ∀ chunk ∈ chunks, WritePlan.registersFor chunk.data.length = chunk.registers.toNat := by
  have hpos := RegisterFormat.registersFor_pos encoded device.registers_pos
  have hsmall := RegisterFormat.registersFor_lt encoded
  intro chunk hchunk
  rcases of_frames_eq_ok framed with ⟨-, rfl⟩ | ⟨-, inside, rfl⟩
  · rw [List.mem_singleton.1 hchunk, Nat.max_eq_left hpos]
    exact (UInt16.toNat_ofNat_of_lt' hsmall).symm
  · obtain ⟨k, hk⟩ := List.getElem?_of_mem hchunk
    have hsize := (WritePlan.chunks_carries (endpoint.limit_lt device) inside
      (by omega)).size_eq k chunk hk
    rw [WritePlan.registersFor]
    split at hsize <;> omega

end Endpoint

end PlcGateway
