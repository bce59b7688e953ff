import PlcGateway.Proofs.WriteBack.Round

/-!
# The account of an evaluation

The evaluation of a message leaves three traces: what it counts, what the cache is afterwards, and
what the writer was asked for. `Account` says how the three agree, whatever writes fail. The record
of the writer is complete: it is the trials of one round over the rules, and then the write of the
message itself, if there was one (`evaluate_account`).
-/

namespace PlcGateway

open Trial (consumed)

namespace WriteMap

/-- What the cache holds when the rules are tried: the value of the message is stored if a rule
names its address. -/
def hold (map : WriteMap) (message : Message) (cache : Cache) : Cache :=
  if map.participates message.address then cache.store message.address message.value else cache

/-- A cache that one evaluation after another, each with any writer, has made of the empty one. -/
inductive Reached (map : WriteMap) : Cache → Prop where
  | empty : Reached map .empty
  | evaluate {cache : Cache} {σ : Type} (write : Writer σ) (message : Message) (s : σ)
      (reached : Reached map cache) : Reached map (map.evaluate write message cache s).2.1

end WriteMap

/-- How the outcome of an evaluation, the cache before the rules are tried and after, the trials
for the rules and the direct write of the message agree. -/
structure Account (map : WriteMap) (message : Message) (held final : Cache) (outcome : Outcome)
    (trials : List Trial) (direct : Option Written) : Prop where
  /-- The cache loses exactly the sources whose writes succeeded. -/
  final_eq : final = held.without (consumed trials)
  /-- A source whose writes have all failed keeps its value. -/
  kept : ∀ trial ∈ trials, trial.rule.source ∉ consumed trials →
    final.get? trial.rule.source = some trial.value
  /-- No source is written successfully twice. -/
  once : (consumed trials).Nodup
  /-- A trial is for a triggered rule, and writes the value of its source to the target that the
  source is mapped to. -/
  due : ∀ trial ∈ trials, trial.IsDue map held
  /-- The trials are made for the rules of the map in their order. -/
  inOrder : (trials.map Trial.rule).Sublist map.rules
  /-- A rule that would still write has written in vain. -/
  failed : ∀ rule ∈ map.rules, rule.IsEnabled map final →
    ∃ trial ∈ trials, trial.rule = rule ∧ trial.succeeded = false
  cached_eq : outcome.cached = map.participates message.address
  conditionalWrites_eq : outcome.conditionalWrites = trials.countP Trial.succeeded
  defaultWrite_iff : outcome.defaultWrite = true ↔ ∃ written ∈ direct, written.succeeded = true
  /-- The message itself is written if no rule names its address, to the target that the address is
  mapped to, and only if its value is not zero. -/
  direct_iff : ∀ target value, (∃ succeeded, direct = some ⟨target, value, succeeded⟩) ↔
    map.participates message.address = false ∧ map.target? message.address = some target ∧
      message.value.isNonzero = true ∧ value = message.value.toWrite
  /-- Only addresses that a rule names are cached. -/
  participates : ∀ address value, final.get? address = some value →
    map.participates address = true

namespace WriteMap

variable {σ : Type} {map : WriteMap} {message : Message} {cache : Cache}

theorem evaluate_eq (map : WriteMap) (write : Writer σ) (message : Message) (cache : Cache)
    (s : σ) : map.evaluate write message cache s =
      let (count, final, s) := map.fireAll write map.rules (map.hold message cache) s
      if map.participates message.address then
        ({ cached := true, conditionalWrites := count }, final, s)
      else
        ({ conditionalWrites := count, defaultWrite := (map.writeMapped write message s).1 },
          final, (map.writeMapped write message s).2) := by
  unfold evaluate hold
  by_cases h : map.participates message.address = true
  · simp [h]
  · simp [h]

theorem evaluate_cache (write : Writer σ) (s : σ) : (map.evaluate write message cache s).2.1 =
    (map.fireAll write map.rules (map.hold message cache) s).2.1 := by
  rw [evaluate_eq]
  by_cases h : map.participates message.address = true
  · simp [h]
  · simp [h]

theorem get?_hold {address : String} {value : RegisterValue}
    (h : (map.hold message cache).get? address = some value) :
    map.participates address = true ∨ cache.get? address = some value := by
  unfold hold at h
  split at h
  · next hparticipates =>
    rw [Cache.get?_store] at h
    split at h
    · next heq =>
      rw [← heq]
      exact .inl hparticipates
    · exact .inr h
  · exact .inr h

theorem evaluate_participates (write : Writer σ) (s : σ)
    (h : ∀ address value, cache.get? address = some value → map.participates address = true)
    {address : String} {value : RegisterValue}
    (cached : (map.evaluate write message cache s).2.1.get? address = some value) :
    map.participates address = true := by
  obtain ⟨trials, final, s', round, hplain, -⟩ :=
    map.fireAll_round write map.rules (map.hold message cache) s []
  rw [evaluate_cache, hplain] at cached
  change final.get? address = some value at cached
  rw [round.final_eq, Cache.get?_without] at cached
  split at cached
  · simp at cached
  · rcases get?_hold cached with hnamed | hbefore
    · exact hnamed
    · exact h address value hbefore

/-- Only addresses that a rule names are ever cached. -/
theorem Reached.participates (reached : Reached map cache) (address : String)
    (value : RegisterValue) (cached : cache.get? address = some value) :
    map.participates address = true := by
  induction reached generalizing address value with
  | empty => simp at cached
  | evaluate write message s _ ih => exact evaluate_participates write s ih cached

/-- What a writer is asked for by `writeMapped`: the value of the message where its address is
mapped and the value is not zero, and nothing otherwise. -/
theorem writeMapped_direct (map : WriteMap) (write : Writer σ) (message : Message) (s : σ)
    (record : List Written) :
    ∃ direct : Option Written,
      (∀ target value, (∃ succeeded, direct = some ⟨target, value, succeeded⟩) ↔
        map.target? message.address = some target ∧ message.value.isNonzero = true ∧
          value = message.value.toWrite) ∧
      ((map.writeMapped write message s).1 = true ↔
        ∃ written ∈ direct, written.succeeded = true) ∧
      map.writeMapped write.recorded message (record, s) =
        ((map.writeMapped write message s).1, record ++ direct.toList,
          (map.writeMapped write message s).2) := by
  unfold writeMapped
  cases htarget : map.target? message.address with
  | none => exact ⟨none, by simp, by simp, by simp⟩
  | some target =>
    by_cases hvalue : message.value.isNonzero = true
    · simp only [if_pos hvalue]
      refine ⟨some ⟨target, message.value.toWrite, (write target message.value.toWrite s).1⟩,
        fun t v => ?_, by simp, rfl⟩
      constructor
      · rintro ⟨_, h⟩
        injection h with h
        injection h with ht hv _
        exact ⟨congrArg some ht, hvalue, hv.symm⟩
      · rintro ⟨ht, -, rfl⟩
        injection ht with ht
        exact ⟨_, by rw [ht]⟩
    · simp only [if_neg hvalue]
      exact ⟨none, by simp [hvalue], by simp, by simp⟩

/-- With or without a write of the message, what `evaluate` does is told by what its round over the
rules does. -/
theorem evaluate_direct {write : Writer σ} {s s' : σ} {count : Nat} {final : Cache}
    {record : List Written}
    (plain : map.fireAll write map.rules (map.hold message cache) s = (count, final, s'))
    (recorded : map.fireAll write.recorded map.rules (map.hold message cache) ([], s) =
      (count, final, record, s')) :
    ∃ direct : Option Written,
      (∀ target value, (∃ succeeded, direct = some ⟨target, value, succeeded⟩) ↔
        map.participates message.address = false ∧ map.target? message.address = some target ∧
          message.value.isNonzero = true ∧ value = message.value.toWrite) ∧
      ((map.evaluate write message cache s).1.defaultWrite = true ↔
        ∃ written ∈ direct, written.succeeded = true) ∧
      (map.evaluate write message cache s).1.cached = map.participates message.address ∧
      (map.evaluate write message cache s).1.conditionalWrites = count ∧
      map.evaluate write.recorded message cache ([], s) =
        ((map.evaluate write message cache s).1, (map.evaluate write message cache s).2.1,
          record ++ direct.toList, (map.evaluate write message cache s).2.2) := by
  rw [evaluate_eq map write.recorded, evaluate_eq map write, plain, recorded]
  by_cases h : map.participates message.address = true
  · exact ⟨none, by simp [h], by simp [h], by simp [h], by simp [h], by simp [h]⟩
  · obtain ⟨direct, hdirect, hwritten, hasked⟩ := map.writeMapped_direct write message s' record
    simp only [if_neg h, hasked]
    exact ⟨direct, by simpa [h] using hdirect, hwritten, (Bool.eq_false_iff.2 h).symm, trivial, rfl⟩

/-- The evaluation of a message in any cache that evaluations have led to, with any writer: its
outcome, the cache it leaves and all that the writer was asked for agree. -/
theorem evaluate_account (map : WriteMap) (write : Writer σ) (message : Message) (s : σ)
    (reached : map.Reached cache) :
    ∃ trials direct,
      Account map message (map.hold message cache) (map.evaluate write message cache s).2.1
        (map.evaluate write message cache s).1 trials direct ∧
      map.evaluate write.recorded message cache ([], s) =
        ((map.evaluate write message cache s).1, (map.evaluate write message cache s).2.1,
          trials.map Trial.written ++ direct.toList,
          (map.evaluate write message cache s).2.2) := by
  obtain ⟨trials, final, s', round, hplain, hrecorded⟩ :=
    map.fireAll_round write map.rules (map.hold message cache) s []
  obtain ⟨direct, hdirect, hdefault, hcached, hcount, hasked⟩ := evaluate_direct hplain hrecorded
  have hfinal : (map.evaluate write message cache s).2.1 = final := by
    rw [evaluate_cache, hplain]
  refine ⟨trials, direct, ?_, hasked⟩
  rw [hfinal]
  refine {
    final_eq := round.final_eq
    kept := fun trial hmem hleft => ?_
    once := round.consumed_nodup
    due := round.due
    inOrder := round.sublist
    failed := round.failed_of_enabled
    cached_eq := hcached
    conditionalWrites_eq := hcount
    defaultWrite_iff := hdefault
    direct_iff := hdirect
    participates := fun address value h => ?_ }
  · rw [round.final_eq, Cache.get?_without, if_neg hleft]
    exact (round.due trial hmem).cached
  · rw [← hfinal] at h
    exact evaluate_participates write s reached.participates h

/-- A writer that fails at every other write. -/
def faulty : Writer Bool := fun _ _ works => (works, !works)

/-- The cache of the map `relay` after `M64` and `M65`. -/
def armed : Cache :=
  (relay.evaluate faulty ⟨"M65", .bit 0, "Line1"⟩
    (relay.evaluate faulty ⟨"M64", .bit 1, "Line1"⟩ .empty false).2.1 false).2.1

/-- The first rule tries to write `D71` in vain, and then the second writes it. -/
theorem evaluate_account_faulty :
    relay.Reached armed ∧
    (relay.evaluate faulty ⟨"D71", .unsigned 1, "Line1"⟩ armed false).1 =
      { cached := true, conditionalWrites := 1 } ∧
    ∃ trials direct,
      Account relay ⟨"D71", .unsigned 1, "Line1"⟩
        (relay.hold ⟨"D71", .unsigned 1, "Line1"⟩ armed)
        (relay.evaluate faulty ⟨"D71", .unsigned 1, "Line1"⟩ armed false).2.1
        (relay.evaluate faulty ⟨"D71", .unsigned 1, "Line1"⟩ armed false).1 trials direct ∧
      relay.evaluate faulty.recorded ⟨"D71", .unsigned 1, "Line1"⟩ armed ([], false) =
        ((relay.evaluate faulty ⟨"D71", .unsigned 1, "Line1"⟩ armed false).1,
          (relay.evaluate faulty ⟨"D71", .unsigned 1, "Line1"⟩ armed false).2.1,
          trials.map Trial.written ++ direct.toList,
          (relay.evaluate faulty ⟨"D71", .unsigned 1, "Line1"⟩ armed false).2.2) := by
  have reached : relay.Reached armed := .evaluate faulty _ _ (.evaluate faulty _ _ .empty)
  exact ⟨reached, by decide, evaluate_account relay faulty _ false reached⟩

end WriteMap

end PlcGateway
