import Mathlib.Algebra.Order.Group.Nat
import Mathlib.Data.List.Basic
import PlcGateway.Proofs.Bytes.Words
import PlcGateway.Proofs.Register.Cells

/-!
# Where a write plan puts a payload

A plan takes the payload from the front and goes down with the addresses. Chunk `k` of a plan with
`limit` registers to a chunk begins `k * limit` registers below the top (`getElem?_chunks`), and
inside a chunk the words go up. So word `i` of the payload lands at `wordAddress limit top i`
(`flatMap_cells_chunks`). No two words land at one address (`wordAddress_injOn`), though the plan
does not keep the order of the payload. `make_carries` says when there is a plan and what it is.
-/

namespace PlcGateway

/-- The words of a chunk at their addresses, going up from the address of the chunk. -/
def WriteChunk.cells (chunk : WriteChunk) : List (Nat × UInt16) :=
  Cells.ofWords (fun j => chunk.address.toNat + j) (Bytes.words chunk.data)

namespace WritePlan

/-- A word memory after chunks were written in order. -/
def execute (memory : Nat → UInt16) (chunks : List WriteChunk) : Nat → UInt16 :=
  chunks.foldl (fun memory chunk => Cells.store memory chunk.cells) memory

/-- The address of word `i` of a payload whose chunks begin at `top` and go down. -/
def wordAddress (limit top i : Nat) : Nat := top - i / limit * limit + i % limit

/-- The chunk that has `k` chunks before it. -/
def chunkAt (limit top left : Nat) (payload : List UInt8) (k : Nat) : WriteChunk where
  address := UInt32.ofNat (top - k * limit)
  registers := UInt16.ofNat (min limit (left - k * limit))
  data := (payload.drop (2 * (k * limit))).take (2 * min limit (left - k * limit))

variable {limit top left : Nat} {limit_pos : 0 < limit} {payload : List UInt8}

/-! ## Chunks by their number -/

theorem chunkAt_succ (limit top left : Nat) (payload : List UInt8) (k : Nat) :
    chunkAt limit top left payload (k + 1) =
      chunkAt limit (top - limit) (left - limit) (payload.drop (2 * limit)) k := by
  have hnext : (k + 1) * limit = k * limit + limit := Nat.succ_mul k limit
  have htop : top - (k + 1) * limit = top - limit - k * limit := by omega
  have hleft : left - (k + 1) * limit = left - limit - k * limit := by omega
  have hdrop : 2 * ((k + 1) * limit) = 2 * limit + 2 * (k * limit) := by omega
  simp only [chunkAt, List.drop_drop, htop, hleft, hdrop]

theorem getElem?_chunks (k : Nat) :
    (chunks limit limit_pos top left payload)[k]? =
      if k * limit < left then some (chunkAt limit top left payload k) else none := by
  fun_induction chunks limit limit_pos top left payload generalizing k with
  | case1 top payload => simp
  | case2 top left payload hleft registers ih =>
    cases k with
    | zero =>
      have hpos : 0 * limit < left := by omega
      rw [if_pos hpos, List.getElem?_cons_zero]
      simp [chunkAt, registers]
    | succ k =>
      have hnext : (k + 1) * limit = k * limit + limit := Nat.succ_mul k limit
      rw [List.getElem?_cons_succ, ih k]
      rcases Nat.le_total limit left with hle | hle
      · -- the first chunk is full, and the others are counted behind it
        have hreg : registers = limit := Nat.min_eq_left hle
        have hiff : k * limit < left - limit ↔ (k + 1) * limit < left := by omega
        rw [hreg, ← chunkAt_succ]
        simp only [hiff]
      · have hreg : registers = left := Nat.min_eq_right hle
        rw [hreg, if_neg (by omega), if_neg (by omega)]

theorem lt_length_chunks_iff (k : Nat) :
    k < (chunks limit limit_pos top left payload).length ↔ k * limit < left := by
  rw [← Nat.not_le, ← List.getElem?_eq_none_iff, getElem?_chunks]
  by_cases h : k * limit < left <;> simp [h]

theorem succ_eq_length_chunks_iff {k : Nat} (hk : k * limit < left) :
    k + 1 = (chunks limit limit_pos top left payload).length ↔ left ≤ (k + 1) * limit := by
  have hthis : k < (chunks limit limit_pos top left payload).length :=
    (lt_length_chunks_iff k).2 hk
  have hnext : k + 1 < (chunks limit limit_pos top left payload).length ↔ (k + 1) * limit < left :=
    lt_length_chunks_iff (k + 1)
  omega

theorem length_chunks :
    (chunks limit limit_pos top left payload).length = (left + limit - 1) / limit := by
  refine eq_of_forall_lt_iff fun k => ?_
  have hdiv : k < (left + limit - 1) / limit ↔ (k + 1) * limit ≤ left + limit - 1 :=
    Nat.le_div_iff_mul_le limit_pos
  rw [lt_length_chunks_iff, hdiv, Nat.succ_mul]
  omega

theorem flatMap_data_chunks (fits : payload.length ≤ 2 * left) :
    (chunks limit limit_pos top left payload).flatMap WriteChunk.data = payload := by
  fun_induction chunks limit limit_pos top left payload with
  | case1 top payload =>
    have hnil : payload = [] := List.eq_nil_of_length_eq_zero (by omega)
    rw [hnil]
    rfl
  | case2 top left payload hleft registers ih =>
    have hrest : (payload.drop (2 * registers)).length ≤ 2 * (left - registers) := by
      rw [List.length_drop]
      omega
    rw [List.flatMap_cons, ih hrest]
    exact List.take_append_drop _ payload

/-! ## Words by their number -/

theorem flatMap_cells_chunks (inside : top < UInt32.size)
    (fits : registersFor payload.length = left) :
    (chunks limit limit_pos top left payload).flatMap WriteChunk.cells =
      Cells.ofWords (wordAddress limit top) (Bytes.words payload) := by
  fun_induction chunks limit limit_pos top left payload with
  | case1 top payload =>
    have hnil : payload = [] := List.eq_nil_of_length_eq_zero (by
      rw [registersFor] at fits
      omega)
    rw [hnil]
    rfl
  | case2 top left payload hleft registers ih =>
    rw [registersFor] at fits
    have hrest : registersFor (payload.drop (2 * registers)).length = left - registers := by
      rw [registersFor, List.length_drop]
      omega
    have hfront : (Bytes.words (payload.take (2 * registers))).length = registers := by
      rw [Bytes.length_words, registersFor, List.length_take]
      omega
    rw [List.flatMap_cons, ih (by omega) hrest,
      ← Bytes.words_take_append_words_drop registers payload, Cells.ofWords_append, hfront]
    congr 1
    · refine Cells.ofWords_congr fun i hi => ?_
      rw [hfront] at hi
      have hlimit : i < limit := by omega
      have htop : (UInt32.ofNat top).toNat = top := UInt32.toNat_ofNat_of_lt' inside
      simp only [wordAddress, htop, Nat.div_eq_of_lt hlimit, Nat.mod_eq_of_lt hlimit]
      omega
    · refine Cells.ofWords_congr fun i hi => ?_
      rw [Bytes.length_words, hrest] at hi
      -- words are left, so the first chunk is full
      have hreg : registers = limit := by omega
      simp only [wordAddress, hreg, Nat.add_div_left _ limit_pos, Nat.add_mod_left, Nat.succ_mul]
      omega

theorem wordAddress_injOn {total i j : Nat} (hlimit : 0 < limit) (room : total ≤ top + 1)
    (hi : i < total) (hj : j < total) (h : wordAddress limit top i = wordAddress limit top j) :
    i = j := by
  have hi' := Nat.div_add_mod' i limit
  have hj' := Nat.div_add_mod' j limit
  have him := Nat.mod_lt i hlimit
  have hjm := Nat.mod_lt j hlimit
  unfold wordAddress at h
  -- a chunk lies wholly below the one before it
  rcases Nat.lt_trichotomy (i / limit) (j / limit) with hlt | heq | hlt
  · have hmul := Nat.mul_le_mul_right limit hlt
    rw [Nat.succ_mul] at hmul
    omega
  · rw [heq] at h hi'
    omega
  · have hmul := Nat.mul_le_mul_right limit hlt
    rw [Nat.succ_mul] at hmul
    omega

/-! ## Plans -/

/-- Chunks of `limit` registers that carry a payload, the first of them to the address `top` and
each one to right below the one before it. -/
structure Carries (limit top : Nat) (payload : List UInt8) (chunks : List WriteChunk) : Prop where
  length_eq : chunks.length = (registersFor payload.length + limit - 1) / limit
  /-- The chunks hold the payload in order. -/
  data_eq : chunks.flatMap WriteChunk.data = payload
  registers_eq : ∀ k chunk, chunks[k]? = some chunk →
    chunk.registers.toNat = min limit (registersFor payload.length - k * limit)
  /-- Only the last chunk of an odd payload is short of a byte. -/
  size_eq : ∀ k chunk, chunks[k]? = some chunk →
    chunk.data.length + (if k + 1 = chunks.length then payload.length % 2 else 0) =
      2 * chunk.registers.toNat
  address_eq : ∀ k chunk, chunks[k]? = some chunk → chunk.address.toNat + k * limit = top
  /-- No two chunks have a register in common. -/
  apart : chunks.Pairwise fun earlier later =>
    later.address.toNat + later.registers.toNat ≤ earlier.address.toNat
  /-- After all chunks were written, every word is where its own chunk has put it. -/
  placed : ∀ memory k chunk j, chunks[k]? = some chunk → j < chunk.registers.toNat →
    (Bytes.words payload)[k * limit + j]? = some (execute memory chunks (top - k * limit + j))
  /-- No register outside the chunks is written. -/
  kept : ∀ memory a, (∀ chunk ∈ chunks, a < chunk.address.toNat ∨
    chunk.address.toNat + chunk.registers.toNat ≤ a) → execute memory chunks a = memory a

theorem execute_eq_store (memory : Nat → UInt16) (chunks : List WriteChunk) :
    execute memory chunks = Cells.store memory (chunks.flatMap WriteChunk.cells) := by
  induction chunks generalizing memory with
  | nil => rfl
  | cons chunk chunks ih =>
    rw [List.flatMap_cons, Cells.store_append, ← ih]
    rfl

theorem execute_chunks (memory : Nat → UInt16) (inside : top < UInt32.size)
    (fits : registersFor payload.length = left) :
    execute memory (chunks limit limit_pos top left payload) =
      Cells.store memory (Cells.ofWords (wordAddress limit top) (Bytes.words payload)) := by
  rw [execute_eq_store, flatMap_cells_chunks inside fits]

theorem wordAddress_chunk {j : Nat} (k : Nat) (hj : j < limit) :
    wordAddress limit top (k * limit + j) = top - k * limit + j := by
  have hdiv : (k * limit + j) / limit = k := by
    rw [Nat.mul_comm, Nat.mul_add_div (by omega), Nat.div_eq_of_lt hj, Nat.add_zero]
  have hmod : (k * limit + j) % limit = j := by
    rw [Nat.mul_add_mod', Nat.mod_eq_of_lt hj]
  rw [wordAddress, hdiv, hmod]

theorem of_getElem?_chunks {k : Nat} {chunk : WriteChunk}
    (h : (chunks limit limit_pos top left payload)[k]? = some chunk) :
    k * limit < left ∧ chunk = chunkAt limit top left payload k := by
  rw [getElem?_chunks] at h
  split at h
  · next hlt => exact ⟨hlt, (Option.some.inj h).symm⟩
  · simp at h

theorem toNat_registers_chunkAt (k : Nat) (small : limit < UInt16.size) :
    (chunkAt limit top left payload k).registers.toNat = min limit (left - k * limit) :=
  UInt16.toNat_ofNat_of_lt' (by omega)

theorem toNat_address_chunkAt (k : Nat) (inside : top < UInt32.size) :
    (chunkAt limit top left payload k).address.toNat = top - k * limit :=
  UInt32.toNat_ofNat_of_lt' (by omega)

theorem length_data_chunkAt {k : Nat} (fits : registersFor payload.length = left)
    (hk : k * limit < left) :
    (chunkAt limit top left payload k).data.length +
      (if left ≤ (k + 1) * limit then payload.length % 2 else 0) =
        2 * min limit (left - k * limit) := by
  have hnext : (k + 1) * limit = k * limit + limit := Nat.succ_mul k limit
  have hlength : (chunkAt limit top left payload k).data.length =
      min (2 * min limit (left - k * limit)) (payload.length - 2 * (k * limit)) := by
    rw [chunkAt, List.length_take, List.length_drop]
  rw [registersFor] at fits
  rw [hlength, hnext]
  split <;> omega

theorem pairwise_apart_chunks (small : limit < UInt16.size) (inside : top < UInt32.size)
    (room : left ≤ top + 1) :
    (chunks limit limit_pos top left payload).Pairwise fun earlier later =>
      later.address.toNat + later.registers.toNat ≤ earlier.address.toNat := by
  rw [List.pairwise_iff_getElem]
  intro i j hi hj hij
  obtain ⟨hilt, hieq⟩ := of_getElem?_chunks (List.getElem?_eq_getElem hi)
  obtain ⟨hjlt, hjeq⟩ := of_getElem?_chunks (List.getElem?_eq_getElem hj)
  have hmul := Nat.mul_le_mul_right limit hij
  rw [Nat.succ_mul] at hmul
  rw [hieq, hjeq, toNat_address_chunkAt i inside, toNat_address_chunkAt j inside,
    toNat_registers_chunkAt j small]
  omega

theorem execute_chunks_of_ne {memory : Nat → UInt16} {a : Nat} (small : limit < UInt16.size)
    (inside : top < UInt32.size) (fits : registersFor payload.length = left)
    (outside : ∀ chunk ∈ chunks limit limit_pos top left payload,
      a < chunk.address.toNat ∨ chunk.address.toNat + chunk.registers.toNat ≤ a) :
    execute memory (chunks limit limit_pos top left payload) a = memory a := by
  rw [execute_chunks memory inside fits]
  refine Cells.store_ofWords_of_ne fun i hi heq => ?_
  rw [Bytes.length_words, fits] at hi
  -- word `i` is a word of chunk `i / limit`
  have hsplit := Nat.div_add_mod' i limit
  have hmod := Nat.mod_lt i limit_pos
  have hmem : chunkAt limit top left payload (i / limit) ∈
      chunks limit limit_pos top left payload := by
    have hk : i / limit * limit < left := by omega
    exact List.mem_of_getElem? ((getElem?_chunks (i / limit)).trans (if_pos hk))
  have hout := outside _ hmem
  rw [toNat_address_chunkAt _ inside, toNat_registers_chunkAt _ small] at hout
  rw [wordAddress] at heq
  omega

theorem chunks_carries (small : limit < UInt16.size) (inside : top < UInt32.size)
    (room : registersFor payload.length ≤ top + 1) :
    Carries limit top payload
      (chunks limit limit_pos top (registersFor payload.length) payload) := by
  refine ⟨length_chunks, flatMap_data_chunks ?_, ?_, ?_, ?_, ?_, ?_, ?_⟩
  · rw [registersFor]
    omega
  · intro k chunk h
    obtain ⟨-, rfl⟩ := of_getElem?_chunks h
    exact toNat_registers_chunkAt k small
  · intro k chunk h
    obtain ⟨hk, rfl⟩ := of_getElem?_chunks h
    rw [toNat_registers_chunkAt k small]
    simp only [succ_eq_length_chunks_iff hk]
    exact length_data_chunkAt rfl hk
  · intro k chunk h
    obtain ⟨hk, rfl⟩ := of_getElem?_chunks h
    rw [toNat_address_chunkAt k inside]
    omega
  · exact pairwise_apart_chunks small inside room
  · intro memory k chunk j h hj
    obtain ⟨hk, rfl⟩ := of_getElem?_chunks h
    rw [toNat_registers_chunkAt k small] at hj
    have hi : k * limit + j < (Bytes.words payload).length := by
      rw [Bytes.length_words]
      omega
    have hfound := List.getElem?_eq_getElem hi
    rw [hfound, execute_chunks memory inside rfl, ← wordAddress_chunk k (by omega)]
    refine congrArg some (Cells.store_ofWords (fun a ha b hb heq => ?_) hfound).symm
    rw [Bytes.length_words] at ha hb
    exact wordAddress_injOn limit_pos room ha hb heq
  · intro memory a outside
    exact execute_chunks_of_ne small inside rfl outside

/-- There is no plan exactly if the last register of the payload would have no 32-bit address. Else
the plan carries the payload, from that register down, in chunks of `limit` registers, where a limit
of zero counts as one. -/
theorem make_carries (base : UInt32) (payload : List UInt8) (limit : UInt16) :
    (make base payload limit = .error (.addressOutOfRange base) ↔
      1 ≤ registersFor payload.length ∧
        UInt32.size ≤ base.toNat + (registersFor payload.length - 1)) ∧
    (registersFor payload.length = 0 ∨
        base.toNat + (registersFor payload.length - 1) < UInt32.size →
      ∃ chunks, make base payload limit = .ok chunks ∧
        Carries (max limit.toNat 1) (base.toNat + (registersFor payload.length - 1)) payload
          chunks) := by
  have hbase := base.toNat_lt
  have hlimit := limit.toNat_lt
  have hsize : UInt32.size = 2 ^ 32 := rfl
  have hsmall : UInt16.size = 2 ^ 16 := rfl
  simp only [make]
  refine ⟨?_, fun hfit => ?_⟩
  · split
    · next hout => simpa using ⟨by omega, hout⟩
    · next hin => simpa using fun _ => by omega
  · rw [if_neg (by omega)]
    exact ⟨_, rfl, chunks_carries (by omega) (by omega) (by omega)⟩

/-- Twenty bytes from address 10 on, four registers to a frame. -/
theorem make_carries_ten_registers :
    ∃ chunks, make 10 ((List.range 20).map UInt8.ofNat) 4 = .ok chunks ∧
      Carries 4 19 ((List.range 20).map UInt8.ofNat) chunks :=
  (make_carries 10 ((List.range 20).map UInt8.ofNat) 4).2 (.inr (by decide))

end WritePlan

end PlcGateway
