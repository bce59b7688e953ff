import Mathlib.Data.List.Nodup
import Mathlib.Data.List.Perm.Subperm
import PlcGateway.Cache

/-!
# The entries of a cache

No operation makes up an entry. Lists of entries are compared by `Subperm`: every entry of the one
is an entry of the other, and as often. Storing a value and putting one back adds at most that
entry, and taking a value out removes its entry.

The entries are sorted and no address has two of them, so the values of all addresses determine the
cache (`ext_get?`). A value that was taken is therefore put back without a trace (`restore_erase`),
and `without` forgets several addresses in whatever order they are given.
-/

namespace PlcGateway.Cache

theorem mem_entries_of_get? {cache : Cache} {address : String} {value : RegisterValue}
    (h : cache.get? address = some value) : (address, value) ∈ cache.entries := by
  unfold get? at h
  obtain ⟨e, he, rfl⟩ := Option.map_eq_some_iff.1 h
  have hkey : e.1 = address := by simpa using List.find?_some he
  rw [← hkey]
  exact List.mem_of_find?_eq_some he

theorem insert_subperm (address : String) (value : RegisterValue)
    (entries : List (String × RegisterValue)) :
    (insert address value entries).Subperm ((address, value) :: entries) := by
  induction entries with
  | nil => exact List.Subperm.refl _
  | cons e rest ih =>
    obtain ⟨a, v⟩ := e
    unfold insert
    split
    · exact List.Subperm.refl _
    · split
      · exact (List.subperm_cons _).2 List.Subperm.cons_self
      · refine ((List.subperm_cons _).2 ih).trans ?_
        exact (List.Perm.swap _ _ _).subperm

theorem store_subperm (cache : Cache) (address : String) (value : RegisterValue) :
    (cache.store address value).entries.Subperm ((address, value) :: cache.entries) :=
  insert_subperm address value cache.entries

theorem restore_subperm (cache : Cache) (address : String) (value : RegisterValue) :
    (cache.restore address value).entries.Subperm ((address, value) :: cache.entries) := by
  unfold restore
  split
  · exact List.Subperm.cons_self
  · exact store_subperm cache address value

/-- What a taken value leaves behind, together with that value, is no more than what was there. -/
theorem cons_erase_subperm {cache : Cache} {address : String} {value : RegisterValue}
    (h : cache.get? address = some value) :
    ((address, value) :: (cache.erase address).entries).Subperm cache.entries := by
  have hkept : (address, value) ∉ (cache.erase address).entries := by
    simp [erase]
  have hsub : (cache.erase address).entries.Subperm cache.entries := by
    show (List.filter _ _).Subperm _
    exact List.filter_sublist.subperm
  exact List.cons_subperm_of_not_mem_of_mem hkept (mem_entries_of_get? h) hsub

/-! ## Caches that hold the same values -/

variable {cache cache' : Cache} {address : String} {value : RegisterValue}

theorem nodup_keys (cache : Cache) : (cache.entries.map Prod.fst).Nodup := by
  have hne : cache.entries.Pairwise fun e e' => e.1 ≠ e'.1 :=
    cache.ascending.imp fun hlt heq => absurd hlt (by rw [heq]; exact String.lt_irrefl _)
  exact List.pairwise_map.2 hne

theorem mem_entries_iff : (address, value) ∈ cache.entries ↔ cache.get? address = some value := by
  refine ⟨fun hmem => ?_, mem_entries_of_get?⟩
  cases hget : cache.get? address with
  | none =>
    have hno := List.find?_eq_none.1 (Option.map_eq_none_iff.1 hget) _ hmem
    simp at hno
  | some v =>
    have hentry := List.inj_on_of_nodup_map cache.nodup_keys (mem_entries_of_get? hget) hmem rfl
    exact congrArg (some ·.2) hentry

/-- The values of all addresses determine a cache. -/
theorem ext_get? (h : ∀ address, cache.get? address = cache'.get? address) : cache = cache' := by
  have hmem : ∀ e, e ∈ cache.entries ↔ e ∈ cache'.entries := by
    intro e
    rw [mem_entries_iff, mem_entries_iff, h]
  have hperm : cache.entries.Perm cache'.entries :=
    (List.perm_ext_iff_of_nodup cache.nodup_keys.of_map cache'.nodup_keys.of_map).2 hmem
  -- the same entries, in the one order in which they are sorted
  have hentries := hperm.eq_of_pairwise
    (fun _ _ _ _ hlt hgt => absurd hgt (String.lt_asymm hlt)) cache.ascending cache'.ascending
  obtain ⟨entries, _⟩ := cache
  subst hentries
  rfl

/-- A value that was taken can be put back without a trace. -/
theorem restore_erase (h : cache.get? address = some value) :
    (cache.erase address).restore address value = cache := by
  apply ext_get?
  intro a
  rw [get?_restore, get?_erase, get?_erase, if_pos rfl]
  by_cases ha : address = a
  · subst ha
    rw [if_pos rfl, h, Option.getD_none]
  · rw [if_neg ha, if_neg ha]

/-- Forgets the values of some addresses. -/
def without (cache : Cache) (addresses : List String) : Cache :=
  ⟨cache.entries.filter fun e => !addresses.contains e.1, cache.ascending.filter _⟩

theorem get?_without (cache : Cache) (addresses : List String) (a : String) :
    (cache.without addresses).get? a = if a ∈ addresses then none else cache.get? a := by
  have hmem : ∀ v, (cache.without addresses).get? a = some v ↔
      cache.get? a = some v ∧ a ∉ addresses := by
    intro v
    rw [← mem_entries_iff, ← mem_entries_iff]
    show (a, v) ∈ List.filter _ _ ↔ _
    rw [List.mem_filter]
    simp
  apply Option.ext
  intro v
  rw [hmem]
  split
  · next h => simp [h]
  · next h => simp [h]

@[simp] theorem without_nil (cache : Cache) : cache.without [] = cache := by
  apply ext_get?
  intro a
  simp [get?_without]

theorem without_cons (cache : Cache) (address : String) (addresses : List String) :
    cache.without (address :: addresses) = (cache.erase address).without addresses := by
  apply ext_get?
  intro a
  rw [get?_without, get?_without, get?_erase]
  by_cases ha : address = a
  · simp [ha]
  · simp [ha, Ne.symm ha]

end PlcGateway.Cache
