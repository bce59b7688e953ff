import PlcGateway.Register.Value

/-!
# The cache of device values

The cache holds the last value of every address that a write-back rule names. It is kept in the
order of the addresses' bytes, which is the order of their code points, so the list of its entries
is its sorted snapshot.
-/

namespace PlcGateway

/-- Entries in strictly ascending order of their addresses. -/
def Ascending (entries : List (String × RegisterValue)) : Prop :=
  entries.Pairwise fun e e' => e.1 < e'.1

/-- Values by address. -/
structure Cache where
  /-- All entries, sorted by address. -/
  entries : List (String × RegisterValue)
  ascending : Ascending entries

namespace Cache

/-- The cache that holds nothing. -/
def empty : Cache := ⟨[], .nil⟩

instance : Inhabited Cache := ⟨empty⟩

/-- Puts a value in its place, over the value that its address had. -/
def insert (address : String) (value : RegisterValue) :
    List (String × RegisterValue) → List (String × RegisterValue)
  | [] => [(address, value)]
  | (a, v) :: rest =>
    if address < a then (address, value) :: (a, v) :: rest
    else if address = a then (address, value) :: rest
    else (a, v) :: insert address value rest

theorem mem_insert {address : String} {value : RegisterValue} {e : String × RegisterValue}
    {entries : List (String × RegisterValue)} (h : e ∈ insert address value entries) :
    e = (address, value) ∨ e ∈ entries := by
  induction entries with
  | nil => simpa [insert] using h
  | cons e' rest ih =>
    obtain ⟨a, v⟩ := e'
    simp only [insert] at h
    split at h
    · simpa using h
    · split at h
      · rcases List.mem_cons.1 h with h | h
        · exact .inl h
        · exact .inr (List.mem_cons_of_mem _ h)
      · rcases List.mem_cons.1 h with h | h
        · exact .inr (by simp [h])
        · rcases ih h with h | h
          · exact .inl h
          · exact .inr (List.mem_cons_of_mem _ h)

theorem ascending_insert {address : String} {value : RegisterValue}
    {entries : List (String × RegisterValue)} (h : Ascending entries) :
    Ascending (insert address value entries) := by
  induction entries with
  | nil => simp [Ascending, insert]
  | cons e rest ih =>
    obtain ⟨a, v⟩ := e
    obtain ⟨head, tail⟩ := List.pairwise_cons.1 h
    simp only [insert]
    split
    · next hlt =>
      refine List.pairwise_cons.2 ⟨fun e he => ?_, h⟩
      rcases List.mem_cons.1 he with rfl | he
      · exact hlt
      · exact String.lt_trans hlt (head e he)
    · next hge =>
      split
      · next heq =>
        subst heq
        exact List.pairwise_cons.2 ⟨head, tail⟩
      · next hne =>
        refine List.pairwise_cons.2 ⟨fun e he => ?_, ih tail⟩
        rcases mem_insert he with rfl | he
        · exact Std.lt_of_le_of_ne (Std.not_lt.1 hge) (Ne.symm hne)
        · exact head e he

/-- The value of an address. -/
def get? (cache : Cache) (address : String) : Option RegisterValue :=
  (cache.entries.find? fun e => e.1 == address).map (·.2)

/-- Stores a value, over an older one. -/
def store (cache : Cache) (address : String) (value : RegisterValue) : Cache :=
  ⟨insert address value cache.entries, ascending_insert cache.ascending⟩

/-- Forgets the value of an address. -/
def erase (cache : Cache) (address : String) : Cache :=
  ⟨cache.entries.filter fun e => e.1 != address, cache.ascending.filter _⟩

/-- Removes the value of an address and gives it out, in one step. -/
def take (cache : Cache) (address : String) : Option RegisterValue × Cache :=
  (cache.get? address, cache.erase address)

/-- Puts a value back that was taken, unless the address has a value again. -/
def restore (cache : Cache) (address : String) (value : RegisterValue) : Cache :=
  match cache.get? address with
  | some _ => cache
  | none => cache.store address value

/-- The number of addresses that have a value. -/
def size (cache : Cache) : Nat := cache.entries.length

/-- Whether no address has a value. -/
def isEmpty (cache : Cache) : Bool := cache.entries.isEmpty

/-! ## What each operation does to the value of an address -/

theorem find?_insert (address a : String) (value : RegisterValue)
    (entries : List (String × RegisterValue)) :
    ((insert address value entries).find? fun e => e.1 == a) =
      if address = a then some (address, value) else entries.find? fun e => e.1 == a := by
  induction entries with
  | nil =>
    by_cases h : address = a <;> simp [insert, h]
  | cons e rest ih =>
    obtain ⟨b, v⟩ := e
    unfold insert
    split
    · by_cases h : address = a <;> simp [h]
    · split
      · next heq =>
        subst heq
        by_cases h : address = a <;> simp [h]
      · next hne =>
        rw [List.find?_cons, List.find?_cons, ih]
        by_cases h : b = a
        · -- the entry that is passed over holds `a`, so `a` is not what was inserted
          subst h
          simp [hne]
        · rw [beq_false_of_ne h]

@[simp] theorem get?_empty (a : String) : empty.get? a = none := rfl

theorem get?_store (cache : Cache) (address a : String) (value : RegisterValue) :
    (cache.store address value).get? a = if address = a then some value else cache.get? a := by
  unfold get? store
  rw [find?_insert]
  split <;> rfl

theorem get?_erase (cache : Cache) (address a : String) :
    (cache.erase address).get? a = if address = a then none else cache.get? a := by
  unfold get? erase
  rw [List.find?_filter]
  by_cases h : address = a
  · subst h
    simp
  · rw [if_neg h]
    congr 2
    funext e
    by_cases he : e.1 = a
    · simp [he, Ne.symm h]
    · simp [he]

theorem get?_restore (cache : Cache) (address a : String) (value : RegisterValue) :
    (cache.restore address value).get? a =
      if address = a then some ((cache.get? address).getD value) else cache.get? a := by
  unfold restore
  split
  · next v h =>
    by_cases ha : address = a
    · subst ha
      simp [h]
    · simp [ha]
  · next h => rw [get?_store, h, Option.getD_none]

end Cache

end PlcGateway
