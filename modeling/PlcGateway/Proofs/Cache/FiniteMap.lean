import Mathlib.Data.Finmap
import PlcGateway.Proofs.Cache.Entries
import PlcGateway.Proofs.Text.Utf8

/-!
# The cache is a finite map

A cache stands for the finite map of its values. Whatever operations are done on it, in whatever
order, it gives the answers that the map gives and stands for the map that they lead to
(`runAll_agrees`): storing overwrites, taking out and clearing remove, and putting back inserts only
where nothing is. Its entries are then all values of the map, each address once and in the order of
the addresses' bytes (`IsSnapshot`).
-/

namespace PlcGateway.Cache

/-- Values by address, without any order. -/
abbrev Values := Finmap fun _ : String => RegisterValue

/-- What may be done to a cache. -/
inductive Operation where
  | store (address : String) (value : RegisterValue)
  | take (address : String)
  | restore (address : String) (value : RegisterValue)
  | clear (address : String)
  | clearAll

namespace Operation

/-- What an operation gives out, if anything, and the cache after it. -/
def run (cache : Cache) : Operation → Option RegisterValue × Cache
  | store address value => (none, cache.store address value)
  | take address => cache.take address
  | restore address value => (none, cache.restore address value)
  | clear address => (none, cache.erase address)
  | clearAll => (none, empty)

/-- What the same operation does to a finite map. -/
def runMap (values : Values) : Operation → Option RegisterValue × Values
  | store address value => (none, values.insert address value)
  | take address => (values.lookup address, values.erase address)
  | restore address value =>
    (none, if address ∈ values then values else values.insert address value)
  | clear address => (none, values.erase address)
  | clearAll => (none, ∅)

/-- The operation is about this address, or about all. -/
def Concerns (address : String) : Operation → Prop
  | store a _ => a = address
  | take a => a = address
  | restore a _ => a = address
  | clear a => a = address
  | clearAll => True

end Operation

/-- What operations give out one after the other, and the cache after all of them. -/
def runAll (cache : Cache) : List Operation → List (Option RegisterValue) × Cache
  | [] => ([], cache)
  | operation :: operations =>
    let (answer, cache) := operation.run cache
    let (answers, cache) := runAll cache operations
    (answer :: answers, cache)

/-- What the same operations do to a finite map. -/
def runAllMap (values : Values) : List Operation → List (Option RegisterValue) × Values
  | [] => ([], values)
  | operation :: operations =>
    let (answer, values) := operation.runMap values
    let (answers, values) := runAllMap values operations
    (answer :: answers, values)

/-- A cache has the values of a map. -/
def Agrees (cache : Cache) (values : Values) : Prop :=
  ∀ address, cache.get? address = values.lookup address

variable {cache : Cache} {values : Values}

/-! ## One operation -/

theorem Agrees.store (agrees : Agrees cache values) (address : String) (value : RegisterValue) :
    Agrees (cache.store address value) (values.insert address value) := by
  intro a
  rw [get?_store]
  split
  · next heq =>
    subst heq
    rw [Finmap.lookup_insert]
  · next hne => rw [Finmap.lookup_insert_of_ne _ (Ne.symm hne), agrees]

theorem Agrees.erase (agrees : Agrees cache values) (address : String) :
    Agrees (cache.erase address) (values.erase address) := by
  intro a
  rw [get?_erase]
  split
  · next heq =>
    subst heq
    rw [Finmap.lookup_erase]
  · next hne => rw [Finmap.lookup_erase_ne (Ne.symm hne), agrees]

theorem Agrees.mem_iff (agrees : Agrees cache values) {address : String} :
    address ∈ values ↔ ∃ value, cache.get? address = some value := by
  rw [Finmap.mem_iff, agrees]

theorem Agrees.restore (agrees : Agrees cache values) (address : String)
    (value : RegisterValue) : Agrees (cache.restore address value)
      (if address ∈ values then values else values.insert address value) := by
  unfold Cache.restore
  split
  · next v hget =>
    rw [if_pos (agrees.mem_iff.2 ⟨v, hget⟩)]
    exact agrees
  · next hget =>
    have hvacant : address ∉ values := by
      rw [agrees.mem_iff, hget]
      simp
    rw [if_neg hvacant]
    exact agrees.store address value

theorem agrees_empty : Agrees empty ∅ := by
  intro a
  rw [get?_empty, Finmap.lookup_empty]

/-- An operation does the same to a cache and to a map of the same values. -/
theorem Agrees.run (agrees : Agrees cache values) (operation : Operation) :
    (operation.run cache).1 = (operation.runMap values).1 ∧
      Agrees (operation.run cache).2 (operation.runMap values).2 := by
  cases operation with
  | store address value => exact ⟨rfl, agrees.store address value⟩
  | take address => exact ⟨agrees address, agrees.erase address⟩
  | restore address value => exact ⟨rfl, agrees.restore address value⟩
  | clear address => exact ⟨rfl, agrees.erase address⟩
  | clearAll => exact ⟨rfl, agrees_empty⟩

/-- An operation leaves alone what it is not about. -/
theorem get?_run_of_not_concerns {operation : Operation} {address : String}
    (other : ¬ operation.Concerns address) (cache : Cache) :
    (operation.run cache).2.get? address = cache.get? address := by
  cases operation with
  | store a v => exact (get?_store cache a address v).trans (if_neg other)
  | take a => exact (get?_erase cache a address).trans (if_neg other)
  | restore a v => exact (get?_restore cache a address v).trans (if_neg other)
  | clear a => exact (get?_erase cache a address).trans (if_neg other)
  | clearAll => exact absurd trivial other

/-! ## All operations -/

theorem Agrees.runAll (agrees : Agrees cache values) (operations : List Operation) :
    (runAll cache operations).1 = (runAllMap values operations).1 ∧
      Agrees (runAll cache operations).2 (runAllMap values operations).2 := by
  induction operations generalizing cache values with
  | nil => exact ⟨rfl, agrees⟩
  | cons operation operations ih =>
    obtain ⟨hanswer, hagrees⟩ := agrees.run operation
    obtain ⟨hanswers, hlast⟩ := ih hagrees
    exact ⟨congrArg₂ List.cons hanswer hanswers, hlast⟩

/-! ## The snapshot -/

/-- All values of a map: each address once, in ascending order of the addresses' bytes. -/
structure IsSnapshot (values : Values) (entries : List (String × RegisterValue)) : Prop where
  mem : ∀ address value, (address, value) ∈ entries ↔ values.lookup address = some value
  once : (entries.map Prod.fst).Nodup
  ascending : entries.Pairwise fun e e' => Text.utf8 e.1.toList < Text.utf8 e'.1.toList

theorem Agrees.isSnapshot (agrees : Agrees cache values) : IsSnapshot values cache.entries where
  mem address value := by rw [mem_entries_iff, agrees]
  once := cache.nodup_keys
  ascending := cache.ascending.imp fun hlt => Text.utf8_lt_utf8 (String.lt_iff.1 hlt)

theorem IsSnapshot.length_eq {entries : List (String × RegisterValue)}
    (snapshot : IsSnapshot values entries) : entries.length = values.keys.card := by
  have hkeys : (entries.map Prod.fst).toFinset = values.keys := by
    ext address
    rw [List.mem_toFinset, List.mem_map, Finmap.mem_keys, Finmap.mem_iff]
    constructor
    · rintro ⟨⟨a, v⟩, hmem, rfl⟩
      exact ⟨v, (snapshot.mem a v).1 hmem⟩
    · rintro ⟨v, hv⟩
      exact ⟨(address, v), (snapshot.mem address v).2 hv, rfl⟩
  rw [← hkeys, List.toFinset_card_of_nodup snapshot.once, List.length_map]

/-- Whatever operations are done on an empty cache, what they give out and what is cached after them
is that of a finite map, on which storing overwrites, taking out and clearing remove, and putting
back inserts only where nothing is. The snapshot has the values of this map, and so many. No
operation changes the value of an address that it is not about, and taking gives out what is
cached. -/
theorem runAll_agrees (operations : List Operation) :
    (runAll empty operations).1 = (runAllMap ∅ operations).1 ∧
    (∀ address, (runAll empty operations).2.get? address =
      (runAllMap ∅ operations).2.lookup address) ∧
    IsSnapshot (runAllMap ∅ operations).2 (runAll empty operations).2.entries ∧
    (runAll empty operations).2.size = (runAllMap ∅ operations).2.keys.card ∧
    ((runAll empty operations).2.isEmpty = true ↔ (runAllMap ∅ operations).2 = ∅) ∧
    (∀ (operation : Operation) address, ¬ operation.Concerns address →
      (operation.run (runAll empty operations).2).2.get? address =
        (runAll empty operations).2.get? address) ∧
    ∀ address, ((Operation.take address).run (runAll empty operations).2).1 =
      (runAll empty operations).2.get? address := by
  obtain ⟨hanswers, hagrees⟩ := agrees_empty.runAll operations
  have hsize := hagrees.isSnapshot.length_eq
  refine ⟨hanswers, hagrees, hagrees.isSnapshot, hsize, ?_, ?_, fun address => rfl⟩
  · rw [isEmpty, List.isEmpty_iff, ← List.length_eq_zero_iff, hsize, Finset.card_eq_zero]
    constructor
    · intro hkeys
      apply Finmap.ext_lookup
      intro address
      rw [Finmap.lookup_empty, Finmap.lookup_eq_none, ← Finmap.mem_keys, hkeys]
      exact Finset.notMem_empty address
    · intro hempty
      rw [hempty, Finmap.keys_empty]
  · intro operation address other
    exact get?_run_of_not_concerns other _

end PlcGateway.Cache
