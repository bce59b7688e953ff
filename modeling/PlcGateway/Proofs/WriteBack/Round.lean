import PlcGateway.Proofs.Cache.Entries
import PlcGateway.Proofs.WriteBack.Evaluation
import PlcGateway.Proofs.WriteBack.Quiescence

/-!
# One round over the rules

`WriteMap.fireAll` tries rules in order over one cache, and what a rule does to the cache decides
about the rules behind it. `Round` lists what is written: a rule that is not enabled when its turn
comes is skipped, and an enabled one writes its source, which leaves the cache for good if the write
succeeds and is where it was if it fails. The round follows `fireAll` rule by rule
(`fireAll_round`).

All that happens to the cache in a round is that it loses the sources whose writes succeeded, each
once (`Round.final_eq`, `Round.consumed_nodup`), so whatever is written was cached from the start
(`Round.due`), and a rule that is still enabled in the end has written in vain
(`Round.failed_of_enabled`).
-/

namespace PlcGateway

/-- A write of the source of a rule, and whether it succeeded. -/
structure Trial where
  rule : Rule
  target : WriteTarget
  value : RegisterValue
  succeeded : Bool
  deriving DecidableEq

namespace Trial

/-- The cache after a trial. -/
def leave (trial : Trial) (cache : Cache) : Cache :=
  if trial.succeeded then cache.erase trial.rule.source else cache

/-- The rule is enabled, and the trial writes what is cached to where it is mapped. -/
structure IsDue (map : WriteMap) (cache : Cache) (trial : Trial) : Prop where
  triggered : trial.rule.isTriggered cache = true
  mapped : map.target? trial.rule.source = some trial.target
  cached : cache.get? trial.rule.source = some trial.value

/-- The sources whose writes succeeded. -/
def consumed (trials : List Trial) : List String :=
  (trials.filter Trial.succeeded).map fun trial => trial.rule.source

end Trial

/-- The writes when rules are tried in order, and the cache afterwards. -/
inductive Round (map : WriteMap) : List Rule → Cache → List Trial → Cache → Prop where
  | nil (cache : Cache) : Round map [] cache [] cache
  | skip {rule : Rule} {rules : List Rule} {cache final : Cache} {trials : List Trial}
      (idle : ¬ rule.IsEnabled map cache) (more : Round map rules cache trials final) :
      Round map (rule :: rules) cache trials final
  | trial {rules : List Rule} {cache final : Cache} {trials : List Trial} (trial : Trial)
      (due : trial.IsDue map cache) (more : Round map rules (trial.leave cache) trials final) :
      Round map (trial.rule :: rules) cache (trial :: trials) final

variable {map : WriteMap} {rule : Rule} {rules : List Rule} {cache final : Cache}
  {trials : List Trial}

/-! ## What a round does -/

theorem Rule.IsEnabled.exists_due (h : rule.IsEnabled map cache) :
    ∃ target value, ∀ succeeded, Trial.IsDue map cache ⟨rule, target, value, succeeded⟩ := by
  obtain ⟨triggered, mapped, cached⟩ := h
  obtain ⟨target, htarget⟩ := Option.isSome_iff_exists.1 mapped
  obtain ⟨value, hvalue⟩ := Option.isSome_iff_exists.1 cached
  exact ⟨target, value, fun _ => ⟨triggered, htarget, hvalue⟩⟩

theorem Rule.IsEnabled.of_without {addresses : List String}
    (h : rule.IsEnabled map (cache.without addresses)) : rule.IsEnabled map cache := by
  induction addresses generalizing cache with
  | nil =>
    rw [Cache.without_nil] at h
    exact h
  | cons address addresses ih =>
    rw [Cache.without_cons] at h
    exact (ih h).of_erase.1

namespace Trial

variable {trial : Trial}

theorem IsDue.isEnabled (due : trial.IsDue map cache) : trial.rule.IsEnabled map cache :=
  ⟨due.triggered, by rw [due.mapped]; rfl, by rw [due.cached]; rfl⟩

/-- What is due without some address does not write that address, and was due with it. -/
theorem IsDue.of_erase {address : String} (due : trial.IsDue map (cache.erase address)) :
    trial.IsDue map cache ∧ trial.rule.source ≠ address := by
  obtain ⟨enabled, hne⟩ := due.isEnabled.of_erase
  have hcached := due.cached
  rw [Cache.get?_erase, if_neg hne.symm] at hcached
  exact ⟨⟨enabled.triggered, due.mapped, hcached⟩, hne⟩

theorem IsDue.of_leave {earlier : Trial} (due : trial.IsDue map (earlier.leave cache)) :
    trial.IsDue map cache := by
  unfold leave at due
  split at due
  · exact due.of_erase.1
  · exact due

theorem consumed_cons_of_succeeded (h : trial.succeeded = true) (trials : List Trial) :
    consumed (trial :: trials) = trial.rule.source :: consumed trials := by
  unfold consumed
  rw [List.filter_cons_of_pos h, List.map_cons]

theorem consumed_cons_of_failed (h : trial.succeeded = false) (trials : List Trial) :
    consumed (trial :: trials) = consumed trials := by
  unfold consumed
  rw [List.filter_cons_of_neg (by simp [h])]

end Trial

namespace Round

open Trial (consumed)

/-- The trials are made for the rules of the round, in their order and for each at most once. -/
theorem sublist (round : Round map rules cache trials final) :
    (trials.map Trial.rule).Sublist rules := by
  induction round with
  | nil => exact List.Sublist.refl _
  | skip _ _ ih => exact ih.cons _
  | trial trial _ _ ih => exact ih.cons_cons trial.rule

/-- Nothing is written that was not due when the round began. -/
theorem due (round : Round map rules cache trials final) :
    ∀ trial ∈ trials, trial.IsDue map cache := by
  induction round with
  | nil => exact List.forall_mem_nil _
  | skip _ _ ih => exact ih
  | trial first due _ ih =>
    intro trial hmem
    rcases List.mem_cons.1 hmem with rfl | hmem
    · exact due
    · exact (ih trial hmem).of_leave

/-- A round takes the sources whose writes succeeded out of the cache, and nothing else. -/
theorem final_eq (round : Round map rules cache trials final) :
    final = cache.without (consumed trials) := by
  induction round with
  | nil cache => exact (Cache.without_nil cache).symm
  | skip _ _ ih => exact ih
  | @trial _ cache _ trials trial _ _ ih =>
    rw [ih]
    unfold Trial.leave
    cases h : trial.succeeded with
    | true => rw [if_pos rfl, Trial.consumed_cons_of_succeeded h, Cache.without_cons]
    | false => rw [if_neg Bool.false_ne_true, Trial.consumed_cons_of_failed h]

/-- No source is written successfully twice: after the first time it is not cached. -/
theorem consumed_nodup (round : Round map rules cache trials final) :
    (consumed trials).Nodup := by
  induction round with
  | nil => exact List.nodup_nil
  | skip _ _ ih => exact ih
  | @trial _ cache _ trials trial _ more ih =>
    cases h : trial.succeeded with
    | false =>
      rw [Trial.consumed_cons_of_failed h]
      exact ih
    | true =>
      rw [Trial.consumed_cons_of_succeeded h]
      refine List.nodup_cons.2 ⟨fun hmem => ?_, ih⟩
      obtain ⟨later, hlater, hsource⟩ := List.mem_map.1 hmem
      have hdue := more.due later (List.mem_of_mem_filter hlater)
      rw [Trial.leave, if_pos h] at hdue
      exact hdue.of_erase.2 hsource

/-- A rule that would still write after the round has written in the round, in vain. -/
theorem failed_of_enabled (round : Round map rules cache trials final) :
    ∀ rule ∈ rules, rule.IsEnabled map final →
      ∃ trial ∈ trials, trial.rule = rule ∧ trial.succeeded = false := by
  induction round with
  | nil => exact List.forall_mem_nil _
  | skip idle more ih =>
    intro rule hrule enabled
    rcases List.mem_cons.1 hrule with rfl | hrule
    · rw [more.final_eq] at enabled
      exact absurd enabled.of_without idle
    · exact ih rule hrule enabled
  | trial first _ more ih =>
    intro rule hrule enabled
    rcases List.mem_cons.1 hrule with rfl | hrule
    · cases h : first.succeeded with
      | false => exact ⟨first, List.mem_cons_self, rfl, h⟩
      | true =>
        -- its source is gone, so it is not enabled
        rw [more.final_eq, Trial.leave, if_pos h] at enabled
        exact absurd rfl enabled.of_without.of_erase.2
    · obtain ⟨trial, htrial, hfailed⟩ := ih rule hrule enabled
      exact ⟨trial, List.mem_cons_of_mem _ htrial, hfailed⟩

end Round

/-! ## What a writer sees of a round -/

/-- A write that a writer was asked for, and whether it succeeded. -/
structure Written where
  target : WriteTarget
  value : WriteValue
  succeeded : Bool
  deriving DecidableEq

/-- What a writer sees of a trial. -/
def Trial.written (trial : Trial) : Written :=
  ⟨trial.target, trial.value.toWrite, trial.succeeded⟩

variable {σ : Type}

/-- The same writer with a record of what it was asked for, the last write at the end. -/
def Writer.recorded (write : Writer σ) : Writer (List Written × σ) := fun target value state =>
  ((write target value state.2).1,
    state.1 ++ [⟨target, value, (write target value state.2).1⟩], (write target value state.2).2)

theorem Writer.recorded_eq {write : Writer σ} {target : WriteTarget} {value : WriteValue}
    {s s' : σ} {succeeded : Bool} (h : write target value s = (succeeded, s'))
    (record : List Written) : write.recorded target value (record, s) =
      (succeeded, record ++ [⟨target, value, succeeded⟩], s') := by
  unfold Writer.recorded
  rw [h]

namespace WriteMap

/-- A rule that is not enabled is passed over. -/
theorem fireAll_cons_of_not_enabled (write : Writer σ) (rules : List Rule) (s : σ)
    (h : ¬ rule.IsEnabled map cache) :
    map.fireAll write (rule :: rules) cache s = map.fireAll write rules cache s := by
  have hfire : map.fire write rule cache s = (false, cache, s) := by
    unfold fire
    by_cases triggered : rule.isTriggered cache = true
    · rw [if_pos triggered]
      cases mapped : map.target? rule.source with
      | none => rfl
      | some target =>
        cases cached : cache.get? rule.source with
        | none => simp [Cache.take, cached, Cache.erase_eq_self cached]
        | some value =>
          exact absurd ⟨triggered, by rw [mapped]; rfl, by rw [cached]; rfl⟩ h
    · rw [if_neg triggered]
  rw [fireAll_cons, hfire]
  simp

/-- A rule that is enabled writes its source, and the rules behind it find the cache as the trial
leaves it. -/
theorem fireAll_cons_of_due {write : Writer σ} {s s' : σ} {trial : Trial} (rules : List Rule)
    (due : trial.IsDue map cache)
    (hwrite : write trial.target trial.value.toWrite s = (trial.succeeded, s')) :
    map.fireAll write (trial.rule :: rules) cache s =
      ((map.fireAll write rules (trial.leave cache) s').1 + if trial.succeeded then 1 else 0,
        (map.fireAll write rules (trial.leave cache) s').2) := by
  have hfire : map.fire write trial.rule cache s =
      (trial.succeeded, trial.leave cache, s') := by
    unfold fire Cache.take Trial.leave
    rw [if_pos due.triggered, due.mapped]
    simp only [due.cached, hwrite]
    cases trial.succeeded with
    | true => rfl
    | false =>
      show (false, (cache.erase _).restore _ _, s') = (false, cache, s')
      rw [Cache.restore_erase due.cached]
  rw [fireAll_cons, hfire, Nat.add_comm]

/-- Trying rules in order makes a round, counts the trials that succeeded, and shows the writer
these trials and nothing else. -/
theorem fireAll_round (map : WriteMap) (write : Writer σ) (rules : List Rule) (cache : Cache)
    (s : σ) (record : List Written) :
    ∃ trials final s', Round map rules cache trials final ∧
      map.fireAll write rules cache s = (trials.countP Trial.succeeded, final, s') ∧
      map.fireAll write.recorded rules cache (record, s) =
        (trials.countP Trial.succeeded, final, record ++ trials.map Trial.written, s') := by
  induction rules generalizing cache s record with
  | nil => exact ⟨[], cache, s, .nil cache, rfl, by simp [fireAll]⟩
  | cons rule rules ih =>
    by_cases h : rule.IsEnabled map cache
    · obtain ⟨target, value, hdue⟩ := h.exists_due
      rcases hwrite : write target value.toWrite s with ⟨succeeded, s₁⟩
      have due := hdue succeeded
      obtain ⟨trials, final, s', round, hplain, hrecorded⟩ := ih
        (Trial.leave ⟨rule, target, value, succeeded⟩ cache) s₁
        (record ++ [Trial.written ⟨rule, target, value, succeeded⟩])
      have hwrite' : write.recorded target value.toWrite (record, s) =
          (succeeded, record ++ [Trial.written ⟨rule, target, value, succeeded⟩], s₁) :=
        Writer.recorded_eq hwrite record
      refine ⟨_ :: trials, final, s', .trial _ due round, ?_, ?_⟩
      · rw [fireAll_cons_of_due rules due hwrite, hplain, List.countP_cons]
      · rw [fireAll_cons_of_due rules due hwrite', hrecorded, List.countP_cons, List.append_assoc]
        rfl
    · obtain ⟨trials, final, s', round, hplain, hrecorded⟩ := ih cache s record
      refine ⟨trials, final, s', .skip h round, ?_, ?_⟩
      · rw [fireAll_cons_of_not_enabled write rules s h]
        exact hplain
      · rw [fireAll_cons_of_not_enabled write.recorded rules (record, s) h]
        exact hrecorded

end WriteMap

end PlcGateway
