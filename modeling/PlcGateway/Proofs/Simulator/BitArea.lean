import Mathlib.Data.List.Chain
import PlcGateway.Proofs.Simulator.Session

/-!
# Words in an area of bits

A word of an area of bits is made of the sixteen bits from its offset on (`testBit_word`). The words
of a request are at offsets that are one apart and not sixteen, so that a word shares fifteen bits
with the next one. Of words that are written in a row only the lowest bits stay, but for the last
word, which stays whole (`setsBits_write`). They come back exactly if they agree in the bits that
they share (`bits_come_back`); a single word always does.
-/

namespace PlcGateway

/-! ## Words and their bits -/

/-- The second word goes on where the first one has its second bit. -/
def Overlaps (word next : UInt16) : Prop := next.toNat % 2 ^ 15 = word.toNat / 2

instance : DecidableRel Overlaps := fun word next =>
  inferInstanceAs (Decidable (next.toNat % 2 ^ 15 = word.toNat / 2))

theorem overlaps_iff_testBit {word next : UInt16} : Overlaps word next ↔
    ∀ b < 15, next.toNat.testBit b = word.toNat.testBit (b + 1) := by
  unfold Overlaps
  constructor
  · intro h b hb
    rw [Nat.testBit_succ, ← h, Nat.testBit_mod_two_pow, decide_eq_true hb, Bool.true_and]
  · intro h
    refine Nat.eq_of_testBit_eq fun b => ?_
    rw [Nat.testBit_mod_two_pow, ← Nat.testBit_succ]
    by_cases hb : b < 15
    · rw [decide_eq_true hb, Bool.true_and, h b hb]
    · have hhigh : word.toNat < 2 ^ (b + 1) :=
        Nat.lt_of_lt_of_le word.toNat_lt (Nat.pow_le_pow_right (by decide) (by omega))
      rw [decide_eq_false hb, Bool.false_and, Nat.testBit_lt_two_pow hhigh]

theorem eq_of_testBit_eq {word word' : UInt16}
    (same : ∀ b < 16, word.toNat.testBit b = word'.toNat.testBit b) : word = word' := by
  refine UInt16.toNat_inj.1 (Nat.eq_of_testBit_eq fun b => ?_)
  by_cases hb : b < 16
  · exact same b hb
  · have hle : (2 : Nat) ^ 16 ≤ 2 ^ b := Nat.pow_le_pow_right (by decide) (Nat.le_of_not_lt hb)
    rw [Nat.testBit_lt_two_pow (Nat.lt_of_lt_of_le word.toNat_lt hle),
      Nat.testBit_lt_two_pow (Nat.lt_of_lt_of_le word'.toNat_lt hle)]

theorem testBit_add_two_pow {n count : Nat} (hn : n < 2 ^ count) (b : Nat) :
    (n + 2 ^ count).testBit b = (decide (b = count) || n.testBit b) := by
  rw [Nat.add_comm]
  rcases Nat.lt_trichotomy b count with hb | rfl | hb
  · rw [Nat.testBit_two_pow_add_gt hb, decide_eq_false (Nat.ne_of_lt hb), Bool.false_or]
  · rw [Nat.testBit_two_pow_add_eq, Nat.testBit_lt_two_pow hn, decide_eq_true rfl]
    rfl
  · have hle : 2 ^ (count + 1) ≤ 2 ^ b := Nat.pow_le_pow_right Nat.two_pos hb
    rw [Nat.pow_succ] at hle
    rw [decide_eq_false (Nat.ne_of_gt hb), Nat.testBit_lt_two_pow (by omega),
      Nat.testBit_lt_two_pow (by omega)]
    rfl

theorem testBit_foldl_bits (bits : Nat → Bool) (count : Nat) :
    let n := (List.range count).foldl (fun n i => if bits i then n + Nat.pow 2 i else n) 0
    n < 2 ^ count ∧ ∀ b, n.testBit b = (decide (b < count) && bits b) := by
  induction count with
  | zero => exact ⟨Nat.one_pos, fun b => by simp⟩
  | succ count ih =>
    simp only [List.range_succ, List.foldl_append, List.foldl_cons, List.foldl_nil]
    generalize (List.range count).foldl _ 0 = n at ih ⊢
    obtain ⟨hlt, hbits⟩ := ih
    have hpow : 2 ^ (count + 1) = 2 ^ count + Nat.pow 2 count := Nat.two_pow_succ count
    have hlast : ∀ b, b < count + 1 ↔ b = count ∨ b < count := fun b => by omega
    cases hbit : bits count with
    | true =>
      rw [if_pos rfl]
      refine ⟨by omega, fun b => ?_⟩
      rw [show n + Nat.pow 2 count = n + 2 ^ count from rfl, testBit_add_two_pow hlt, hbits]
      by_cases hb : b = count <;> simp [hlast, hb, hbit]
    | false =>
      rw [if_neg Bool.false_ne_true]
      refine ⟨by omega, fun b => ?_⟩
      rw [hbits]
      by_cases hb : b = count <;> simp [hlast, hb, hbit]

theorem Bytes.words_flatMap_ofWord (ws : List UInt16) : words (ws.flatMap ofWord) = ws := by
  induction ws with
  | nil => rfl
  | cons w ws ih =>
    obtain ⟨low, high, hbytes, hword⟩ := word_ofWord w
    rw [List.flatMap_cons, hbytes, List.cons_append, List.cons_append, List.nil_append, words,
      hword, ih]

theorem Bytes.length_flatMap_ofWord (ws : List UInt16) :
    (ws.flatMap ofWord).length = 2 * ws.length := by
  simp [ofWord, Nat.mul_comm]

namespace Memory

variable {memory : Memory} {code : DeviceCode} {offset : UInt32} {words : List UInt16}

/-- A word of an area of bits has the sixteen bits from its offset on. -/
theorem testBit_word (memory : Memory) (offset : UInt32) (area : code.holdsBits = true) {b : Nat}
    (hb : b < 16) :
    (memory.word code offset).toNat.testBit b = memory.bit code (offset + UInt32.ofNat b) := by
  obtain ⟨hlt, hbits⟩ := testBit_foldl_bits (fun i => memory.bit code (offset + UInt32.ofNat i)) 16
  rw [word, area, if_pos rfl, packed, UInt16.toNat_ofNat_of_lt' hlt, hbits, decide_eq_true hb,
    Bool.true_and]

/-- The words at offsets that are one apart. -/
def wordsFrom (memory : Memory) (code : DeviceCode) (offset : UInt32) (count : Nat) :
    List UInt16 := (List.range count).map fun i => memory.word code (offset + UInt32.ofNat i)

theorem length_wordsFrom (memory : Memory) (code : DeviceCode) (offset : UInt32) (count : Nat) :
    (memory.wordsFrom code offset count).length = count := by
  rw [wordsFrom, List.length_map, List.length_range]

theorem getElem_wordsFrom {count i : Nat} (memory : Memory) (code : DeviceCode) (offset : UInt32)
    (hi : i < (memory.wordsFrom code offset count).length) :
    (memory.wordsFrom code offset count)[i] = memory.word code (offset + UInt32.ofNat i) := by
  simp only [wordsFrom, List.getElem_map, List.getElem_range]

theorem read_eq_wordsFrom (memory : Memory) (code : DeviceCode) (offset : UInt32) (count : Nat) :
    memory.read code offset count = (memory.wordsFrom code offset count).flatMap Bytes.ofWord := by
  rw [read_eq_flatMap, wordsFrom, List.flatMap_map]

/-- The words have the bits from the first offset on, fifteen of them in common with the next. -/
theorem testBit_getElem_wordsFrom {count i b : Nat} (memory : Memory) (offset : UInt32)
    (area : code.holdsBits = true) (hi : i < (memory.wordsFrom code offset count).length)
    (hb : b < 16) : (memory.wordsFrom code offset count)[i].toNat.testBit b =
      memory.bit code (offset + UInt32.ofNat (i + b)) := by
  rw [getElem_wordsFrom, testBit_word memory _ area hb, UInt32.add_assoc, ← UInt32.ofNat_add]

theorem write_ofWord_append (memory : Memory) (offset : UInt32) (word : UInt16)
    (data : List UInt8) : memory.write code offset (Bytes.ofWord word ++ data) =
      (memory.setWord code offset word).write code (offset + 1) data := by
  obtain ⟨low, high, hbytes, hword⟩ := Bytes.word_ofWord word
  rw [hbytes, List.cons_append, List.cons_append, List.nil_append, write, hword]

/-- What stays in an area of bits of words that are written to it. -/
structure SetsBits (code : DeviceCode) (offset : UInt32) (words : List UInt16)
    (before after : Memory) : Prop where
  lowest : ∀ i word, words[i]? = some word →
    after.bit code (offset + UInt32.ofNat i) = word.toNat.testBit 0
  last : ∀ word ∈ words.getLast?, ∀ b < 16,
    after.bit code (offset + UInt32.ofNat (words.length - 1 + b)) = word.toNat.testBit b
  kept : ∀ c o, (c = code → words.length + 15 ≤ (o - offset).toNat) →
    after.bit c o = before.bit c o
  cells : after.cell = before.cell

theorem bit_setBits_add (memory : Memory) (offset : UInt32) (word : UInt16) {b : Nat}
    (hb : b < 16) : (memory.setBits code offset word).bit code (offset + UInt32.ofNat b) =
      word.toNat.testBit b := by
  have hplace : (offset + UInt32.ofNat b - offset).toNat = b :=
    toNat_offset_add_sub offset (Nat.lt_trans hb (by decide))
  simp only [setBits, hplace, hb, and_self, if_true]

/-- Seen from the next offset, everything is nearer by one, but for the offset itself. -/
theorem toNat_sub_offset_succ (o : UInt32) :
    (o - (offset + 1)).toNat = ((o - offset).toNat + (2 ^ 32 - 1)) % 2 ^ 32 := by
  have ho := o.toNat_lt
  have hoffset := offset.toNat_lt
  rw [UInt32.toNat_sub, UInt32.toNat_sub, UInt32.toNat_add, UInt32.toNat_one]
  omega

theorem setsBits_write (memory : Memory) (offset : UInt32) (area : code.holdsBits = true)
    (few : words.length + 15 < UInt32.size) :
    SetsBits code offset words memory (memory.write code offset (words.flatMap Bytes.ofWord)) := by
  induction words generalizing memory offset with
  | nil => exact ⟨nofun, nofun, fun _ _ _ => rfl, rfl⟩
  | cons word rest ih =>
    have hsize : UInt32.size = 2 ^ 32 := rfl
    rw [List.length_cons] at few
    rw [List.flatMap_cons, write_ofWord_append, setWord, area, if_pos rfl]
    have hrest := ih (memory.setBits code offset word) (offset + 1) (by omega)
    refine ⟨fun i found hfound => ?lowest, fun found hfound b hb => ?last,
      fun c o outside => ?kept, hrest.cells⟩
    case lowest =>
      cases i with
      | zero =>
        -- the words that follow are written behind this bit
        obtain rfl := Option.some.inj hfound
        have hbehind : rest.length + 15 ≤ (offset + UInt32.ofNat 0 - (offset + 1)).toNat := by
          rw [toNat_sub_offset_succ, toNat_offset_add_sub offset (by decide)]
          omega
        rw [hrest.kept code _ fun _ => hbehind]
        exact memory.bit_setBits_add offset word (by decide)
      | succ i =>
        rw [← offset_succ]
        exact hrest.lowest i found hfound
    case last =>
      cases rest with
      | nil =>
        obtain rfl := Option.some.inj hfound
        have hplace : [word].length - 1 + b = b := Nat.zero_add b
        rw [hplace]
        exact memory.bit_setBits_add offset word hb
      | cons next rest =>
        have hplace : (word :: next :: rest).length - 1 + b =
            ((next :: rest).length - 1 + b) + 1 := by
          simp only [List.length_cons]
          omega
        rw [hplace, ← offset_succ]
        exact hrest.last found hfound b hb
    case kept =>
      rw [List.length_cons] at outside
      have ho := (o - offset).toNat_lt
      have hnext : c = code → rest.length + 15 ≤ (o - (offset + 1)).toNat := by
        intro hc
        have hfar := outside hc
        rw [toNat_sub_offset_succ]
        omega
      have hfirst : ¬ (c = code ∧ (o - offset).toNat < 16) := by
        rintro ⟨hc, hplace⟩
        have hfar := outside hc
        omega
      rw [hrest.kept c o hnext]
      exact if_neg hfirst

/-- The words that are read are those that were written exactly if each of these agrees with the
next one in the bits that they share. -/
theorem SetsBits.wordsFrom_eq_iff {before after : Memory} (area : code.holdsBits = true)
    (sets : SetsBits code offset words before after) :
    after.wordsFrom code offset words.length = words ↔ words.IsChain Overlaps := by
  have hlength := after.length_wordsFrom code offset words.length
  rw [List.isChain_iff_getElem]
  constructor
  · intro h i hi
    have hread : ∀ j (hj : j < words.length), ∀ b < 16, words[j].toNat.testBit b =
        after.bit code (offset + UInt32.ofNat (j + b)) := by
      intro j hj b hb
      have hsame := (List.ext_getElem_iff.1 h).2 j (hlength.symm ▸ hj) hj
      rw [← hsame, after.testBit_getElem_wordsFrom offset area _ hb]
    refine overlaps_iff_testBit.2 fun b hb => ?_
    rw [hread (i + 1) hi b (by omega), hread i (by omega) (b + 1) (by omega), Nat.add_assoc,
      Nat.add_comm 1]
  · intro chain
    -- a bit that is shared is looked for in the next word, up to the last one
    have hbit : ∀ b < 16, ∀ i (hi : i < words.length),
        after.bit code (offset + UInt32.ofNat (i + b)) = words[i].toNat.testBit b := by
      intro b
      induction b with
      | zero =>
        intro _ i hi
        exact sets.lowest i _ (List.getElem?_eq_getElem hi)
      | succ b ih =>
        intro hb i hi
        rcases Nat.lt_or_ge (i + 1) words.length with hnext | hend
        · have hshared := overlaps_iff_testBit.1 (chain i hnext) b (by omega)
          rw [← hshared, ← ih (by omega) (i + 1) hnext, Nat.add_right_comm, Nat.add_assoc]
        · have hlast : words.length - 1 = i := by omega
          have hplace := sets.last words[i] (by simp [List.getLast?_eq_getElem?, hlast]) (b + 1) hb
          rwa [hlast] at hplace
    refine List.ext_getElem hlength fun i hi hi' => eq_of_testBit_eq fun b hb => ?_
    rw [after.testBit_getElem_wordsFrom offset area hi hb, hbit b hb i hi']

end Memory

/-! ## A client and a PLC -/

theorem wordData_eq_self {points : UInt16} {data : List UInt8}
    (full : data.length = 2 * points.toNat) : wordData points data = data := by
  rw [wordData, ← full, List.take_length, Nat.sub_self, List.replicate_zero, List.append_nil]

namespace Client

variable {client : Client} {plc : SimulatedPlc} {variant : Variant} {code : DeviceCode}
  {offset : UInt32} {words : List UInt16}

/-- Words are written to an area of bits of a PLC without faults, and then they are read. Of all but
the last one only the lowest bit stays, since each word is written over fifteen bits of the one
before; what is read has the bits that stay. So the words come back exactly if each of them agrees
with the next one in the bits that they share, as a single word does. -/
theorem bits_come_back (faultFree : plc.IsFaultFree) (clear : client.IsClear)
    (waits : 0 < client.options.ioTimeoutMs) (area : code.holdsBits = true)
    (words_ne : words ≠ []) (few : words.length ≤ Frame.maxPoints)
    (fitsWrite : client.options.writeVariant.Holds offset) (fitsRead : variant.Holds offset) :
    let points := UInt16.ofNat words.length
    let data := words.flatMap Bytes.ofWord
    let writing := client.write SimulatedPlc.peer code offset points data plc
    let reading := writing.client.read SimulatedPlc.peer variant code offset points writing.peer
    writing.result = .ok () ∧
    Memory.SetsBits code offset words plc.memory writing.peer.memory ∧
    (∃ back : List UInt16, reading.result = .ok (back.flatMap Bytes.ofWord) ∧
      back.length = words.length ∧
      ∀ i word, back[i]? = some word → ∀ b < 16,
        word.toNat.testBit b = writing.peer.memory.bit code (offset + UInt32.ofNat (i + b))) ∧
    (reading.result = .ok data ↔ words.IsChain Overlaps) := by
  intro points data writing reading
  have hpos := List.length_pos_iff.2 words_ne
  have hmax : Frame.maxPoints = 960 := rfl
  have hpoints : points.toNat = words.length := UInt16.toNat_ofNat_of_lt' (by
    show words.length < 65536
    omega)
  have hdata : wordData points data = data :=
    wordData_eq_self (by rw [Bytes.length_flatMap_ofWord, hpoints])
  obtain ⟨hresult, hmemory, hread⟩ := read_after_write data faultFree clear waits
    (hpoints ▸ hpos) (hpoints ▸ few) fitsWrite fitsRead
  have hsets : Memory.SetsBits code offset words plc.memory writing.peer.memory := by
    rw [hmemory, hdata]
    exact plc.memory.setsBits_write offset area (Nat.lt_of_le_of_lt (Nat.add_le_add_right few 15)
      (by decide))
  rw [hpoints, Memory.read_eq_wordsFrom] at hread
  have hinj : Function.Injective fun ws : List UInt16 => ws.flatMap Bytes.ofWord :=
    Function.LeftInverse.injective Bytes.words_flatMap_ofWord
  refine ⟨hresult, hsets, ⟨_, hread, Memory.length_wordsFrom .., fun i word hword b hb => ?_⟩, ?_⟩
  · obtain ⟨hi, rfl⟩ := List.getElem?_eq_some_iff.1 hword
    exact writing.peer.memory.testBit_getElem_wordsFrom offset area hi hb
  · rw [hread, Except.ok.injEq, hinj.eq_iff]
    exact hsets.wordsFrom_eq_iff area

/-- Two words are written to an empty PLC. The second one is zero and is written over the first but
for its lowest bit, so that the first one is lost. -/
theorem overwritten_bits_lost :
    let client : Client := {}
    let plc : SimulatedPlc := {}
    let writing := client.write SimulatedPlc.peer .m 0 2 ([2, 0].flatMap Bytes.ofWord) plc
    let reading := writing.client.read SimulatedPlc.peer .standard .m 0 2 writing.peer
    writing.result = .ok () ∧ writing.peer.memory.bit .m 1 = false ∧
      reading.result = .ok ([0, 0].flatMap Bytes.ofWord) := by
  decide +kernel

/-- Words that agree where they overlap come back, and the highest bit of the last one is where it
should be. -/
theorem bits_come_back_three :
    let client : Client := {}
    let plc : SimulatedPlc := {}
    let words : List UInt16 := [5, 2, 0x8001]
    let points := UInt16.ofNat words.length
    let data := words.flatMap Bytes.ofWord
    let writing := client.write SimulatedPlc.peer .m 100 points data plc
    let reading := writing.client.read SimulatedPlc.peer .extended .m 100 points writing.peer
    writing.peer.memory.bit .m 117 = true ∧ reading.result = .ok data := by
  intro client plc words
  have faultFree : plc.IsFaultFree := ⟨rfl, rfl, rfl, rfl⟩
  obtain ⟨-, hsets, -, hback⟩ := @bits_come_back client plc .extended .m 100 words faultFree nofun
    (by decide) rfl nofun (by decide) (by decide) (by decide)
  have hbit := hsets.last 0x8001 rfl 15 (by decide)
  have hplace : (100 : UInt32) + UInt32.ofNat (words.length - 1 + 15) = 117 := by decide
  rw [hplace] at hbit
  exact ⟨hbit.trans (by decide), hback.2 (by decide)⟩

end Client

end PlcGateway
