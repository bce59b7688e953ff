import Mathlib.Data.List.Basic
import Mathlib.Data.List.Induction
import PlcGateway.Cache

/-!
# When a value that was taken comes back

A worker takes a value out of the cache, and puts it back if it could not use it. In between other
workers store, take and put back values as they like. Putting back only looks at whether the address
has a value at that moment, so what decides is not whether a newer value was stored since the take,
but whether one is still there: the older value comes back exactly if everything that was stored or
put back since was taken out again (`put_back_iff`). So it can come back after a newer one
(`put_back_after_newer`).
-/

namespace PlcGateway.Cache

/-- What a worker does to the cache. -/
inductive Call where
  | store (address : String) (value : RegisterValue)
  | take (address : String)
  /-- A value that was taken is put back. -/
  | restore (address : String) (value : RegisterValue)

namespace Call

/-- The cache after a call. -/
def apply (cache : Cache) : Call → Cache
  | store address value => cache.store address value
  | take address => (cache.take address).2
  | restore address value => cache.restore address value

/-- The address has a value after the call, whatever was cached before. -/
def Fills (address : String) : Call → Prop
  | store a _ => a = address
  | take _ => False
  | restore a _ => a = address

end Call

/-- The cache after calls of any workers, in the order in which the lock lets them in. -/
def replay (cache : Cache) (calls : List (Nat × Call)) : Cache :=
  calls.foldl (fun cache call => call.2.apply cache) cache

/-- The calls of workers that put back what they have taken and nothing else: a worker that puts a
value back has got it from a take of that address, and has done nothing since. -/
inductive Careful (first : Cache) : List (Nat × Call) → Prop where
  | nil : Careful first []
  | store {calls : List (Nat × Call)} (worker : Nat) (address : String) (value : RegisterValue)
      (past : Careful first calls) : Careful first (calls ++ [(worker, .store address value)])
  | take {calls : List (Nat × Call)} (worker : Nat) (address : String)
      (past : Careful first calls) : Careful first (calls ++ [(worker, .take address)])
  | restore {before between : List (Nat × Call)} {worker : Nat} {address : String}
      {value : RegisterValue} (past : Careful first (before ++ (worker, .take address) :: between))
      (taken : (replay first before).get? address = some value)
      (quiet : ∀ call ∈ between, call.1 ≠ worker) :
      Careful first (before ++ (worker, .take address) :: between ++
        [(worker, .restore address value)])

/-- A value for the address is stored. -/
def Stored (address : String) (calls : List (Nat × Call)) : Prop :=
  ∃ worker value, (worker, .store address value) ∈ calls

/-- A value for the address is stored or put back, and not taken afterwards. -/
def Refilled (address : String) (calls : List (Nat × Call)) : Prop :=
  ∃ earlier call later, calls = earlier ++ call :: later ∧ call.2.Fills address ∧
    ∀ c ∈ later, c.2 ≠ .take address

/-- Putting the value back changes the cache. -/
def PutsBack (cache : Cache) (address : String) (value : RegisterValue) : Prop :=
  cache.restore address value ≠ cache

variable {cache first : Cache} {address : String} {value : RegisterValue}
  {calls : List (Nat × Call)}

theorem putsBack_iff : PutsBack cache address value ↔ cache.get? address = none := by
  constructor
  · intro h
    cases hget : cache.get? address with
    | none => rfl
    | some v =>
      refine absurd ?_ h
      unfold restore
      rw [hget]
  · intro hget heq
    have hnow := cache.get?_restore address address value
    rw [heq, hget, if_pos rfl] at hnow
    simp at hnow

/-! ## Vacant addresses -/

theorem replay_append (calls more : List (Nat × Call)) :
    replay cache (calls ++ more) = replay (replay cache calls) more :=
  List.foldl_append

theorem not_refilled_nil : ¬ Refilled address [] := by
  rintro ⟨earlier, call, later, h, -⟩
  simp at h

theorem refilled_snoc {call : Nat × Call} :
    Refilled address (calls ++ [call]) ↔
      call.2.Fills address ∨ Refilled address calls ∧ call.2 ≠ .take address := by
  constructor
  · rintro ⟨earlier, filling, later, h, fills, kept⟩
    -- the value that is still there came with the last call, or with an earlier one
    rcases List.eq_nil_or_concat' later with rfl | ⟨later, last, rfl⟩
    · obtain ⟨-, hlast⟩ := List.append_inj' h rfl
      rw [List.singleton_inj.1 hlast]
      exact .inl fills
    · rw [← List.cons_append, ← List.append_assoc] at h
      obtain ⟨rfl, hlast⟩ := List.append_inj' h rfl
      obtain rfl := List.singleton_inj.1 hlast
      refine .inr ⟨⟨earlier, filling, later, rfl, fills, fun c hc => ?_⟩, ?_⟩
      · exact kept c (List.mem_append_left _ hc)
      · exact kept call (List.mem_append_right _ (List.mem_singleton_self _))
  · rintro (fills | ⟨⟨earlier, filling, later, rfl, fills, kept⟩, hcall⟩)
    · exact ⟨calls, call, [], rfl, fills, by simp⟩
    · refine ⟨earlier, filling, later ++ [call], by simp, fills, fun c hc => ?_⟩
      rcases List.mem_append.1 hc with hc | hc
      · exact kept c hc
      · rw [List.mem_singleton.1 hc]
        exact hcall

/-- Only a take leaves an address vacant, and only what fills it ends that. -/
theorem get?_apply_eq_none_iff (call : Call) :
    (call.apply cache).get? address = none ↔
      ¬ call.Fills address ∧ (cache.get? address = none ∨ call = .take address) := by
  cases call with
  | store a v =>
    show (cache.store a v).get? address = none ↔ ¬ a = address ∧ _
    rw [get?_store]
    by_cases h : a = address <;> simp [h]
  | take a =>
    show (cache.erase a).get? address = none ↔ ¬ False ∧ _
    rw [get?_erase]
    by_cases h : a = address <;> simp [h]
  | restore a v =>
    show (cache.restore a v).get? address = none ↔ ¬ a = address ∧ _
    rw [get?_restore]
    by_cases h : a = address <;> simp [h]

/-- An address that was vacant is vacant again exactly if whatever came in was taken out. -/
theorem get?_replay_eq_none_iff (vacant : cache.get? address = none) :
    (replay cache calls).get? address = none ↔ ¬ Refilled address calls := by
  induction calls using List.reverseRecOn with
  | nil => exact iff_of_true vacant not_refilled_nil
  | append_singleton calls call ih =>
    have hlast : replay cache (calls ++ [call]) = call.2.apply (replay cache calls) :=
      replay_append calls [call]
    rw [hlast, get?_apply_eq_none_iff, ih, refilled_snoc, not_or, not_and, not_not, imp_iff_not_or]

theorem get?_take (cache : Cache) (address : String) :
    (cache.take address).2.get? address = none := by
  show (cache.erase address).get? address = none
  rw [get?_erase, if_pos rfl]

/-- After a take, a value is put back exactly if the address was not refilled. -/
theorem putsBack_replay_iff (before between : List (Nat × Call)) (worker : Nat) :
    PutsBack (replay first (before ++ (worker, .take address) :: between)) address value ↔
      ¬ Refilled address between := by
  rw [putsBack_iff, replay_append]
  exact get?_replay_eq_none_iff (get?_take _ address)

/-- A worker that has taken a value puts it back, and it is cached again, exactly if the address was
not refilled since. So that it comes back only if nothing was stored since its take holds exactly
if, where something was stored, something that came in since is still cached. -/
theorem put_back_iff (first : Cache) (before between : List (Nat × Call)) (worker : Nat)
    (address : String) (value : RegisterValue) :
    (PutsBack (replay first (before ++ (worker, .take address) :: between)) address value ↔
      ¬ Refilled address between) ∧
    (¬ Refilled address between →
      (replay first (before ++ (worker, .take address) :: between ++
        [(worker, .restore address value)])).get? address = some value) ∧
    ((PutsBack (replay first (before ++ (worker, .take address) :: between)) address value →
        ¬ Stored address between) ↔
      (Stored address between → Refilled address between)) := by
  have hiff : PutsBack (replay first (before ++ (worker, .take address) :: between)) address value ↔
      ¬ Refilled address between := putsBack_replay_iff before between worker
  refine ⟨hiff, fun hempty => ?_, ?_⟩
  · have hvacant := putsBack_iff.1 (hiff.2 hempty)
    rw [replay_append]
    show (restore _ address value).get? address = some value
    rw [get?_restore, if_pos rfl, hvacant, Option.getD_none]
  · rw [hiff, not_imp_not]

/-- A worker takes 1, another stores 2 and takes it, and the first puts 1 back. -/
theorem put_back_after_newer :
    ¬ ∀ (before between : List (Nat × Call)) (worker : Nat) (address : String)
      (value : RegisterValue),
      Careful empty (before ++ (worker, .take address) :: between) →
      (replay empty before).get? address = some value →
      (∀ call ∈ between, call.1 ≠ worker) →
      PutsBack (replay empty (before ++ (worker, .take address) :: between)) address value →
      ¬ Stored address between := by
  intro h
  have nothing : Careful empty [] := .nil
  have taken := (nothing.store 0 "D71" (.unsigned 1)).take 0 "D71"
  have careful := (taken.store 1 "D71" (.unsigned 2)).take 1 "D71"
  refine h [(0, .store "D71" (.unsigned 1))] [(1, .store "D71" (.unsigned 2)), (1, .take "D71")] 0
    "D71" (.unsigned 1) careful (by decide) (by decide) (putsBack_iff.2 (by decide)) ?_
  exact ⟨1, .unsigned 2, by simp⟩

end PlcGateway.Cache
