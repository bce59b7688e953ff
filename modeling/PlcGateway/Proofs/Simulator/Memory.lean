import PlcGateway.Proofs.Bytes.LittleEndian
import PlcGateway.Proofs.WritePlan.Placement
import PlcGateway.Simulator.Memory

/-!
# What a write does to the memory of a PLC

Bytes that are written to an area of words are stored as words from an offset on, and nothing else
changes (`write_eq_storeCells`). Written frame by frame, a payload is stored at the addresses of its
frames (`writeChunks_eq_storeCells`). Words that stand in a row are read back (`read_words`). An
area of bits has no write of a single bit: a word that is written to it sets sixteen bits, so that a
byte of one bit clears the fifteen bits behind it (`write_lone_bit`).
-/

namespace PlcGateway

theorem Cells.ofWords_cons {α : Type} (address : Nat → α) (word : UInt16) (words : List UInt16) :
    Cells.ofWords address (word :: words) =
      (address 0, word) :: Cells.ofWords (fun i => address (i + 1)) words := by
  have h := Cells.ofWords_append address [word] words
  simp only [List.length_singleton, Nat.add_comm 1] at h
  exact h

namespace Memory

variable {code : DeviceCode}

/-! ## Areas of words -/

/-- The memory after words were stored in cells of an area. -/
def storeCells (memory : Memory) (code : DeviceCode) (cells : List (UInt32 × UInt16)) : Memory :=
  { memory with
    cell := Function.update memory.cell code (Cells.store (memory.cell code) cells) }

/-- The memory after frames were written in order. -/
def writeChunks (memory : Memory) (code : DeviceCode) (chunks : List WriteChunk) : Memory :=
  chunks.foldl (fun memory chunk =>
    memory.write code chunk.address (wordData chunk.registers chunk.data)) memory

theorem storeCells_nil (memory : Memory) : memory.storeCells code [] = memory := by
  have h : Function.update memory.cell code (memory.cell code) = memory.cell :=
    Function.update_eq_self code memory.cell
  show { memory with cell := Function.update memory.cell code (memory.cell code) } = memory
  rw [h]

theorem storeCells_append (memory : Memory) (front back : List (UInt32 × UInt16)) :
    memory.storeCells code (front ++ back) =
      (memory.storeCells code front).storeCells code back := by
  simp only [storeCells, Cells.store_append, Function.update_self, Function.update_idem]

@[simp] theorem cell_storeCells_self (memory : Memory) (cells : List (UInt32 × UInt16)) :
    (memory.storeCells code cells).cell code = Cells.store (memory.cell code) cells :=
  Function.update_self ..

theorem cell_storeCells_of_ne {c : DeviceCode} (memory : Memory) (cells : List (UInt32 × UInt16))
    (hc : c ≠ code) : (memory.storeCells code cells).cell c = memory.cell c :=
  Function.update_of_ne hc ..

/-- The offsets from the next one on. -/
theorem offset_succ (offset : UInt32) (i : Nat) :
    offset + 1 + UInt32.ofNat i = offset + UInt32.ofNat (i + 1) := by
  rw [UInt32.ofNat_add, UInt32.add_assoc, UInt32.add_comm 1]
  rfl

theorem toNat_offset_add_sub {i : Nat} (offset : UInt32) (hi : i < UInt32.size) :
    (offset + UInt32.ofNat i - offset).toNat = i := by
  rw [UInt32.add_comm, UInt32.add_sub_cancel, UInt32.toNat_ofNat_of_lt' hi]

/-- Words are read from offsets that are one apart. -/
theorem read_eq_flatMap (memory : Memory) (code : DeviceCode) (offset : UInt32) (count : Nat) :
    memory.read code offset count = (List.range count).flatMap fun i =>
      Bytes.ofWord (memory.word code (offset + UInt32.ofNat i)) := by
  induction count generalizing offset with
  | zero => rfl
  | succ count ih =>
    have hfirst : offset + UInt32.ofNat 0 = offset := UInt32.add_zero offset
    rw [read, ih, List.range_succ_eq_map, List.flatMap_cons, List.flatMap_map, hfirst]
    simp only [offset_succ]

theorem length_read (memory : Memory) (code : DeviceCode) (offset : UInt32) (count : Nat) :
    (memory.read code offset count).length = 2 * count := by
  simp [read_eq_flatMap, Bytes.ofWord, Nat.mul_comm]

theorem word_eq_cell (memory : Memory) (offset : UInt32) (area : code.holdsBits = false) :
    memory.word code offset = memory.cell code offset := by
  rw [word, area, if_neg Bool.false_ne_true]

theorem setCell_eq_storeCells (memory : Memory) (code : DeviceCode) (offset : UInt32)
    (value : UInt16) :
    memory.setCell code offset value = memory.storeCells code [(offset, value)] := by
  simp only [setCell, storeCells, Cells.store, List.foldl_cons, List.foldl_nil]
  congr 1
  funext c o
  by_cases hc : c = code
  · by_cases ho : o = offset <;> simp [hc, ho]
  · simp [hc]

/-- Bytes are stored as words from their offset on. -/
theorem write_eq_storeCells (memory : Memory) (offset : UInt32) (data : List UInt8)
    (area : code.holdsBits = false) :
    memory.write code offset data = memory.storeCells code
      (Cells.ofWords (fun j => offset + UInt32.ofNat j) (Bytes.words data)) := by
  have hset : ∀ (memory : Memory) (offset : UInt32) (value : UInt16),
      memory.setWord code offset value = memory.storeCells code [(offset, value)] := by
    intro memory offset value
    rw [setWord, area, if_neg Bool.false_ne_true, setCell_eq_storeCells]
  -- a word takes two bytes, and the next one goes to the next offset
  fun_induction Bytes.words data generalizing memory offset with
  | case1 => exact (storeCells_nil memory).symm
  | case2 low =>
    rw [write, hset, Cells.ofWords_cons]
    simp [Cells.ofWords]
  | case3 low high rest ih =>
    rw [write, hset, ih, ← storeCells_append, Cells.ofWords_cons]
    simp [offset_succ]

/-- A frame that asks for as many registers as it has words stores these words. -/
theorem write_chunk_eq_storeCells (memory : Memory) (chunk : WriteChunk)
    (area : code.holdsBits = false)
    (fits : WritePlan.registersFor chunk.data.length = chunk.registers.toNat) :
    memory.write code chunk.address (wordData chunk.registers chunk.data) =
      memory.storeCells code (chunk.cells.map (Prod.map UInt32.ofNat id)) := by
  have haddress : ∀ j, UInt32.ofNat (chunk.address.toNat + j) = chunk.address + UInt32.ofNat j := by
    intro j
    rw [UInt32.ofNat_add, UInt32.ofNat_toNat]
  -- the zeros that fill up the data make no words of their own
  rw [write_eq_storeCells memory _ _ area, Bytes.words_wordData fits, WriteChunk.cells,
    Cells.map_ofWords]
  simp only [haddress]

theorem writeChunks_eq_storeCells (memory : Memory) (chunks : List WriteChunk)
    (area : code.holdsBits = false)
    (fits : ∀ chunk ∈ chunks, WritePlan.registersFor chunk.data.length = chunk.registers.toNat) :
    memory.writeChunks code chunks = memory.storeCells code
      ((chunks.flatMap WriteChunk.cells).map (Prod.map UInt32.ofNat id)) := by
  induction chunks generalizing memory with
  | nil => exact (storeCells_nil memory).symm
  | cons chunk chunks ih =>
    obtain ⟨hchunk, hchunks⟩ := List.forall_mem_cons.1 fits
    rw [List.flatMap_cons, List.map_append, storeCells_append, ← ih _ hchunks,
      ← write_chunk_eq_storeCells memory chunk area hchunk]
    rfl

/-- The words of a payload are in the cells of an area that their places lead to, and nothing else
has changed. -/
structure Stores (code : DeviceCode) (landing : Nat → UInt32) (payload : List UInt8)
    (before after : Memory) : Prop where
  placed : ∀ i word, (Bytes.words payload)[i]? = some word → after.cell code (landing i) = word
  kept : ∀ c o, (c = code → ∀ i < WritePlan.registersFor payload.length, landing i ≠ o) →
    after.cell c o = before.cell c o
  bits : after.bit = before.bit

theorem stores_storeCells {landing : Nat → UInt32} {payload : List UInt8} (memory : Memory)
    (code : DeviceCode) (distinct : ∀ i < WritePlan.registersFor payload.length,
      ∀ j < WritePlan.registersFor payload.length, landing i = landing j → i = j) :
    Stores code landing payload memory
      (memory.storeCells code (Cells.ofWords landing (Bytes.words payload))) := by
  rw [← Bytes.length_words] at distinct
  refine ⟨fun i word hword => ?_, fun c o outside => ?_, rfl⟩
  · rw [cell_storeCells_self]
    exact Cells.store_ofWords distinct hword
  · rw [← Bytes.length_words] at outside
    by_cases hc : c = code
    · rw [hc, cell_storeCells_self]
      exact Cells.store_ofWords_of_ne (outside hc)
    · rw [cell_storeCells_of_ne _ _ hc]

/-- Words that stand in a row are read as their bytes, with the partner of a last byte. -/
theorem read_words {payload : List UInt8} (memory : Memory) (offset : UInt32)
    (area : code.holdsBits = false)
    (placed : ∀ i word, (Bytes.words payload)[i]? = some word →
      memory.cell code (offset + UInt32.ofNat i) = word) :
    memory.read code offset (WritePlan.registersFor payload.length) =
      payload ++ List.replicate (payload.length % 2) 0 := by
  have hword : ∀ offset, memory.word code offset = memory.cell code offset :=
    fun offset => memory.word_eq_cell offset area
  rw [← Bytes.length_words]
  fun_induction Bytes.words payload generalizing offset with
  | case1 => rfl
  | case2 low =>
    have hfirst : memory.cell code offset = Bytes.word low 0 := by
      simpa using placed 0 _ rfl
    simp [read, hword, hfirst, Bytes.ofWord_word]
  | case3 low high rest ih =>
    have hfirst : memory.cell code offset = Bytes.word low high := by
      simpa using placed 0 _ rfl
    have hrest := ih (offset + 1) fun i word hfound => by
      rw [offset_succ]
      exact placed (i + 1) word hfound
    have heven : (low :: high :: rest).length % 2 = rest.length % 2 := by
      simp only [List.length_cons]
      omega
    rw [List.length_cons, read, hword, hfirst, Bytes.ofWord_word, hrest, heven]
    rfl

/-! ## Areas of bits -/

/-- The memory in which one bit has a state and the fifteen bits behind it are off. -/
def setLoneBit (memory : Memory) (code : DeviceCode) (offset : UInt32) (on : Bool) : Memory :=
  { memory with
    bit := fun c o =>
      if c = code ∧ (o - offset).toNat < 16 then on && o == offset else memory.bit c o }

variable {offset o : UInt32}

/-- The bit is among the sixteen that are set, and it is the one with the state. -/
theorem bit_setLoneBit_self (memory : Memory) (on : Bool) :
    (memory.setLoneBit code offset on).bit code offset = on := by
  have hplace : (offset - offset).toNat < 16 := by
    rw [UInt32.sub_self]
    decide
  simp only [setLoneBit, true_and, if_pos hplace, beq_self_eq_true, Bool.and_true]

theorem bit_setLoneBit_add {i : Nat} (memory : Memory) (on : Bool) (hpos : 0 < i) (hi : i < 16) :
    (memory.setLoneBit code offset on).bit code (offset + UInt32.ofNat i) = false := by
  have hplace : (offset + UInt32.ofNat i - offset).toNat = i :=
    toNat_offset_add_sub offset (Nat.lt_trans hi (by decide))
  have hne : (offset + UInt32.ofNat i == offset) = false := by
    refine beq_eq_false_iff_ne.2 fun heq => ?_
    rw [heq, UInt32.sub_self, UInt32.toNat_zero] at hplace
    omega
  simp only [setLoneBit, hplace, hi, and_self, if_true, hne, Bool.and_false]

theorem bit_setLoneBit_of_not {c : DeviceCode} (memory : Memory) (on : Bool)
    (outside : c ≠ code ∨ 16 ≤ (o - offset).toNat) :
    (memory.setLoneBit code offset on).bit c o = memory.bit c o := by
  have hnot : ¬ (c = code ∧ (o - offset).toNat < 16) := by
    rintro ⟨hc, hplace⟩
    rcases outside with hne | hfar
    · exact hne hc
    · omega
  exact if_neg hnot

/-- Of two writes to one bit the last one counts. -/
theorem setLoneBit_setLoneBit (memory : Memory) (first second : Bool) :
    (memory.setLoneBit code offset first).setLoneBit code offset second =
      memory.setLoneBit code offset second := by
  simp only [setLoneBit]
  congr 1
  funext c o
  split <;> rfl

/-- Of many writes to one bit the last one counts. -/
theorem foldl_setLoneBit (memory : Memory) (states : List Bool) :
    states.foldl (fun memory on => memory.setLoneBit code offset on) memory =
      match states.getLast? with
      | none => memory
      | some on => memory.setLoneBit code offset on := by
  induction states using List.reverseRecOn with
  | nil => rfl
  | append_singleton states on ih =>
    rw [List.foldl_append, ih, List.getLast?_concat]
    cases states.getLast? with
    | none => rfl
    | some before => exact memory.setLoneBit_setLoneBit before on

theorem testBit_lone (on : Bool) (place : Nat) :
    (Bytes.word (if on then 1 else 0) 0).toNat.testBit place = (on && place == 0) := by
  cases on with
  | false => exact Nat.zero_testBit place
  | true =>
    show Nat.testBit (2 ^ 0) place = (true && place == 0)
    rw [Nat.testBit_two_pow, Bool.true_and]
    exact decide_eq_decide.2 eq_comm

/-- A byte of one bit is filled up to a word, and the word sets sixteen bits. -/
theorem write_lone_bit (memory : Memory) (offset : UInt32) (on : Bool)
    (area : code.holdsBits = true) :
    memory.write code offset (wordData 1 [if on then 1 else 0]) =
      memory.setLoneBit code offset on := by
  have hdata : wordData 1 [if on then 1 else 0] = [if on then 1 else 0, 0] := by
    cases on <;> rfl
  rw [hdata, write, write, setWord, area, if_pos rfl, setBits, setLoneBit]
  congr 1
  funext c o
  have hplace : (o - offset).toNat = 0 ↔ o = offset := by
    rw [← UInt32.toNat_zero, UInt32.toNat_inj]
    grind
  have hbeq : ((o - offset).toNat == 0) = (o == offset) := by
    rw [Bool.eq_iff_iff, beq_iff_eq, beq_iff_eq, hplace]
  simp only [testBit_lone, hbeq]

end Memory

end PlcGateway
