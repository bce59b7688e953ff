import Mathlib.Data.List.Forall2
import PlcGateway.Link.Call
import PlcGateway.Proofs.Simulator.Memory

/-!
# Areas of words as flat arrays

An area of words is a row of cells, one for each offset. On such rows a read gives the bytes of the
cells that it asks for, and a write sets the cells that it names and no others. The memory of a PLC
does the same, as long as offsets do not go round (`cell_write`, `read_eq_flat`).
-/

namespace PlcGateway

/-- A call to read gives two bytes for each of its points, and a call to write gives nothing. -/
def LinkCall.Gives : LinkCall → Option (List UInt8) → Prop
  | read _ _ _ points, value => ∃ data, value = some data ∧ data.length = 2 * points.toNat
  | write .., value => value = none

/-- The cells of every area. -/
abbrev FlatMemory := DeviceCode → UInt32 → UInt16

namespace FlatMemory

/-- The bytes of `points` cells from an offset on, the low byte of each cell first. -/
def read (cells : FlatMemory) (code : DeviceCode) (offset : UInt32) (points : UInt16) :
    List UInt8 :=
  (List.range points.toNat).flatMap fun i => Bytes.ofWord (cells code (offset + UInt32.ofNat i))

/-- Sets `points` cells from an offset on, the low byte of each cell first. Where the data has
ended, the bytes are zero; what it has too much of is left out. -/
def write (cells : FlatMemory) (code : DeviceCode) (offset : UInt32) (points : UInt16)
    (data : List UInt8) : FlatMemory := fun c o =>
  if c = code ∧ offset.toNat ≤ o.toNat ∧ o.toNat < offset.toNat + points.toNat then
    Bytes.word (data.getD (2 * (o.toNat - offset.toNat)) 0)
      (data.getD (2 * (o.toNat - offset.toNat) + 1) 0)
  else cells c o

/-- What a call gives and does. -/
def perform (cells : FlatMemory) : LinkCall → Option (List UInt8) × FlatMemory
  | .read _ code offset points => (some (cells.read code offset points), cells)
  | .write code offset points data => (none, cells.write code offset points data)

/-- What calls give and do, one after the other. -/
def performAll : List LinkCall → FlatMemory → List (Option (List UInt8)) × FlatMemory
  | [], cells => ([], cells)
  | call :: calls, cells =>
    let (value, cells) := cells.perform call
    let (values, last) := performAll calls cells
    (value :: values, last)

theorem length_read (cells : FlatMemory) (code : DeviceCode) (offset : UInt32) (points : UInt16) :
    (cells.read code offset points).length = 2 * points.toNat := by
  simp [read, Bytes.ofWord, Nat.mul_comm]

theorem forall₂_performAll (calls : List LinkCall) (cells : FlatMemory) :
    List.Forall₂ LinkCall.Gives calls (performAll calls cells).1 := by
  induction calls generalizing cells with
  | nil => exact .nil
  | cons call calls ih =>
    refine .cons ?_ (ih (cells.perform call).2)
    cases call with
    | read variant code offset points => exact ⟨_, rfl, length_read ..⟩
    | write code offset points data => rfl

end FlatMemory

namespace Memory

variable {code : DeviceCode} {offset : UInt32} {points : UInt16}

/-- Offsets that do not go round are apart. -/
theorem toNat_offset_add {i : Nat} (inside : offset.toNat + i < UInt32.size) :
    (offset + UInt32.ofNat i).toNat = offset.toNat + i := by
  rw [UInt32.toNat_add, UInt32.toNat_ofNat_of_lt' (by omega)]
  exact Nat.mod_eq_of_lt inside

/-- Words are read as the cells that they are. -/
theorem read_eq_flat (memory : Memory) (area : code.holdsBits = false) :
    memory.read code offset points.toNat = FlatMemory.read memory.cell code offset points := by
  simp only [read_eq_flatMap, FlatMemory.read, word_eq_cell _ _ area]

/-- Data that is cut or filled up to its points is stored in as many cells, and nothing else
changes. -/
theorem cell_write (memory : Memory) (data : List UInt8) (area : code.holdsBits = false)
    (inside : offset.toNat + points.toNat ≤ UInt32.size) :
    (memory.write code offset (wordData points data)).cell =
      FlatMemory.write memory.cell code offset points data ∧
    (memory.write code offset (wordData points data)).bit = memory.bit := by
  have hcount : WritePlan.registersFor (wordData points data).length = points.toNat := by
    rw [length_wordData, WritePlan.registersFor]
    omega
  have hplace : ∀ i < points.toNat, (offset + UInt32.ofNat i).toNat = offset.toNat + i :=
    fun i hi => toNat_offset_add (by omega)
  have hdistinct : ∀ i < WritePlan.registersFor (wordData points data).length,
      ∀ j < WritePlan.registersFor (wordData points data).length,
      offset + UInt32.ofNat i = offset + UInt32.ofNat j → i = j := by
    rw [hcount]
    intro i hi j hj heq
    have hnat := congrArg UInt32.toNat heq
    rw [hplace i hi, hplace j hj] at hnat
    omega
  have hstores := memory.stores_storeCells code hdistinct
  rw [write_eq_storeCells memory offset _ area]
  refine ⟨?_, hstores.bits⟩
  funext c o
  rw [FlatMemory.write]
  split
  · next hin =>
    obtain ⟨rfl, hle, hlt⟩ := hin
    -- the cell has a place among those that are written
    obtain ⟨i, hi, rfl⟩ : ∃ i < points.toNat, offset + UInt32.ofNat i = o := by
      refine ⟨o.toNat - offset.toNat, by omega, UInt32.toNat_inj.1 ?_⟩
      rw [hplace _ (by omega)]
      omega
    rw [hplace i hi, Nat.add_sub_cancel_left]
    refine hstores.placed i _ ?_
    rw [Bytes.getElem?_words (by omega), List.getD_eq_getElem?_getD, List.getD_eq_getElem?_getD,
      Bytes.getElem?_wordData data (by omega), Bytes.getElem?_wordData data (by omega)]
    rfl
  · next hout =>
    refine hstores.kept c o fun hc i hi heq => hout ⟨hc, ?_⟩
    rw [hcount] at hi
    rw [← heq, hplace i hi]
    omega

end Memory

end PlcGateway
