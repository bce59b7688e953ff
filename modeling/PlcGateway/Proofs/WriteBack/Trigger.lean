import PlcGateway.Proofs.WriteBack.Crew
import PlcGateway.Proofs.WriteBack.Schedule

/-!
# What a worker knows about the bit when it takes the source

A worker looks at the bit of a rule and takes the source in two steps, and others may take steps in
between. The look is the worker's last step before the take, and the rule was triggered then. At the
take it still is, unless another worker has meanwhile stored a bit that does not meet the condition,
or taken the bit (`triggered_when_taken`). Then it need not be (`taken_untriggered`).
-/

namespace PlcGateway

namespace Rule

/-- Whether a value at the bit of a rule meets the condition. -/
def accepts (rule : Rule) (value : RegisterValue) : Bool :=
  value.integer?.any rule.operator.holds

theorem isTriggered_eq_any (rule : Rule) (cache : Cache) :
    rule.isTriggered cache = (cache.get? rule.bit).any rule.accepts := by
  unfold isTriggered accepts
  cases cache.get? rule.bit with
  | none => rfl
  | some value => cases hn : value.integer? <;> simp [hn]

end Rule

/-- Whether the event stores a bit that does not meet the condition of a rule, or takes the bit. -/
def WorkerEvent.spoils (rule : Rule) : WorkerEvent → Bool
  | store message => message.address == rule.bit && !rule.accepts message.value
  | take taken _ => taken.source == rule.bit
  | _ => false

variable {map : WriteMap} {rule : Rule} {target : WriteTarget} {value : RegisterValue}

namespace Worker

variable {worker worker' : Worker} {cache cache' : Cache} {event : WorkerEvent}

theorem Step.of_take (step : worker.Step map cache (.take rule value) worker' cache') :
    ∃ message target rules, worker = .taking message rule target rules ∧
      cache.get? rule.source = some value := by
  cases step with
  | take message _ rules target _ _ cached => exact ⟨message, target, rules, rfl, cached⟩

theorem Step.of_forward (step : worker.Step map cache (.forward rule target value) worker' cache') :
    ∃ message rules, worker = .writing message rule target value rules := by
  cases step with
  | forward message _ rules => exact ⟨message, rules, rfl⟩

/-- What does not spoil the bit of a triggered rule leaves it triggered. In particular, putting a
value back changes nothing where one is cached. -/
theorem Step.triggered (step : worker.Step map cache event worker' cache')
    (kept : event.spoils rule = false) (h : rule.isTriggered cache = true) :
    rule.isTriggered cache' = true := by
  cases step with
  | store message =>
    rw [Rule.isTriggered_eq_any, Cache.get?_store]
    by_cases hbit : message.address = rule.bit
    · rw [if_pos hbit]
      simpa [WorkerEvent.spoils, hbit] using kept
    · rw [if_neg hbit, ← Rule.isTriggered_eq_any]
      exact h
  | take message taken =>
    have hbit : taken.source ≠ rule.bit := ne_of_beq_false kept
    rw [Rule.isTriggered_eq_any, Cache.get?_erase, if_neg hbit, ← Rule.isTriggered_eq_any]
    exact h
  | restore message restored _ back =>
    obtain ⟨bit, _, hbit, -, -⟩ := Rule.isTriggered_iff.1 h
    rw [← h]
    apply Rule.isTriggered_congr
    rw [Cache.get?_restore]
    split
    · next heq => rw [heq, hbit, Option.getD_some]
    · rfl
  | _ => exact h

end Worker

namespace Crew

variable {first crew crew' : Crew} {events : List (Nat × WorkerEvent)} {i : Nat}

/-- A rule that is triggered stays so as long as nobody spoils its bit. -/
theorem Run.triggered (run : Run map first events crew)
    (kept : ∀ e ∈ events, e.2.spoils rule = false) (h : rule.isTriggered first.cache = true) :
    rule.isTriggered crew.cache = true := by
  induction run with
  | nil => exact h
  | @snoc mid last events e run step ih =>
    obtain ⟨i, event⟩ := e
    obtain ⟨_, _, _, hstep, _⟩ := step.of_worker
    obtain ⟨hearlier, hnow⟩ := List.forall_mem_append.1 kept
    rw [List.forall_mem_singleton] at hnow
    exact hstep.triggered hnow (ih hearlier)

/-- In the run that led to `crew`, worker `i` has last looked at the bit of the rule, when the rule
was triggered. It is triggered still, if nobody has spoilt the bit since. -/
def Looked (map : WriteMap) (first : Crew) (events : List (Nat × WorkerEvent)) (crew : Crew)
    (i : Nat) (rule : Rule) : Prop :=
  ∃ earlier later seen, events = earlier ++ (i, .look) :: later ∧
    Run map first earlier seen ∧
    (∃ message rules, seen.workers[i]? = some (.trying message (rule :: rules))) ∧
    rule.isTriggered seen.cache = true ∧ (∀ e ∈ later, e.1 ≠ i) ∧
    ((∀ e ∈ later, e.2.spoils rule = false) → rule.isTriggered crew.cache = true)

theorem Step.looked (run : Run map first events crew) (idle : first.isIdle)
    (step : Step map crew (i, .take rule value) crew') :
    crew.cache.get? rule.source = some value ∧ Looked map first events crew i rule := by
  obtain ⟨worker, _, found, hstep, _⟩ := step.of_worker
  obtain ⟨message, target, rules, rfl, cached⟩ := hstep.of_take
  obtain ⟨earlier, later, seen, rfl, hearlier, hlater, hquiet, htrying, htriggered⟩ :=
    run.looked idle found
  refine ⟨cached, earlier, later, seen, rfl, hearlier, ⟨_, _, htrying⟩, htriggered, hquiet,
    fun kept => ?_⟩
  refine hlater.triggered ?_ htriggered
  intro e he
  rcases List.mem_cons.1 he with rfl | he
  · rfl
  · exact kept e he

/-- When a worker takes a value for a rule, it has last looked at the bit. The rule was triggered
then, and still is unless the bit was spoilt in between. When a worker writes a value, it has last
taken it so. -/
theorem triggered_when_taken (run : Run map first events crew) (idle : first.isIdle) :
    (∀ i rule value crew', Step map crew (i, .take rule value) crew' →
      crew.cache.get? rule.source = some value ∧ Looked map first events crew i rule) ∧
    (∀ i rule target value crew', Step map crew (i, .forward rule target value) crew' →
      ∃ earlier later taken, events = earlier ++ (i, .take rule value) :: later ∧
        Run map first earlier taken ∧ (∀ e ∈ later, e.1 ≠ i) ∧
        taken.cache.get? rule.source = some value ∧ Looked map first earlier taken i rule) := by
  refine ⟨fun i rule value crew' step => step.looked run idle, ?_⟩
  intro i rule target value crew' step
  obtain ⟨worker, _, found, hstep, _⟩ := step.of_worker
  obtain ⟨message, rules, rfl⟩ := hstep.of_forward
  obtain ⟨earlier, later, taken, next, rfl, hearlier, htake, -, hquiet, -⟩ := run.took idle found
  exact ⟨earlier, later, taken, rfl, hearlier, hquiet, htake.looked hearlier idle⟩

/-- Worker 0 stores `M64` and finds the first rule of the map `relay` triggered. Before it takes
`D71`, worker 1 stores `M64` again and worker 2 stores 42 at `D71`. -/
def beforeTake (bit : UInt8) : List Turn :=
  [{ worker := 0, message := ⟨"M64", .bit 1, "Line1"⟩ }, { worker := 0 }, { worker := 0 },
    { worker := 1, message := ⟨"M64", .bit bit, "Line1"⟩ }, { worker := 1 },
    { worker := 2, message := ⟨"D71", .unsigned 42, "Line1"⟩ }, { worker := 2 }]

/-- What has happened before worker 0 takes `D71`, and how things are then. -/
def played (bit : UInt8) : List (Nat × WorkerEvent) × Crew :=
  play .relay (start 3) (beforeTake bit)

theorem triggered_when_taken_played :
    Run .relay (start 3) (played 1).1 (played 1).2 ∧ (start 3).isIdle ∧
    (played 1).2.cache.get? "D71" = some (.unsigned 42) ∧
    Looked .relay (start 3) (played 1).1 (played 1).2 0 ⟨"M64", .equal, "D71"⟩ ∧
    Rule.isTriggered ⟨"M64", .equal, "D71"⟩ (played 1).2.cache = true := by
  have run := play_run .relay (start 3) (beforeTake 1)
  have step : Step .relay (played 1).2 (0, .take ⟨"M64", .equal, "D71"⟩ (.unsigned 42)) _ :=
    turn_step (t := { worker := 0 }) (by decide +kernel)
  have taken := (triggered_when_taken run (start_isIdle 3)).1 0 _ _ _ step
  exact ⟨run, start_isIdle 3, taken.1, taken.2, by decide⟩

/-- Where the second bit is 0, worker 0 takes 42 for a rule that is not triggered any more. -/
theorem taken_untriggered :
    ¬ ∀ (map : WriteMap) (size : Nat) (events : List (Nat × WorkerEvent)) (crew crew' : Crew)
      (i : Nat) (rule : Rule) (value : RegisterValue), Run map (start size) events crew →
      Step map crew (i, .take rule value) crew' → rule.isTriggered crew.cache = true := by
  intro h
  have run := play_run .relay (start 3) (beforeTake 0)
  have step : Step .relay (played 0).2 (0, .take ⟨"M64", .equal, "D71"⟩ (.unsigned 42)) _ :=
    turn_step (t := { worker := 0 }) (by decide +kernel)
  exact absurd (h _ _ _ _ _ _ _ _ run step) (by decide)

end Crew

end PlcGateway
