import Mathlib.Data.List.Basic
import PlcGateway.WriteBack.Workers

/-!
# Runs of a crew

A step of a crew is a step of one worker, and the others keep their place. From this follow the
facts that the theorems about write-back rest on: what every step keeps of each worker holds of all
workers after a run, a worker only works on rules of the map and only aims at where the source of
its rule is mapped, and where a worker stands tells which step it took last.
-/

namespace PlcGateway

namespace Worker

/-- A worker has a tail of the map's rules before it, and aims at the device that the source of its
rule is mapped to. -/
def Follows (map : WriteMap) : Worker → Prop
  | idle => True
  | storing _ => True
  | trying _ rules => rules <:+ map.rules
  | taking _ rule target rules =>
    rule :: rules <:+ map.rules ∧ map.target? rule.source = some target
  | writing _ rule target _ rules =>
    rule :: rules <:+ map.rules ∧ map.target? rule.source = some target
  | restoring _ rule _ rules => rule :: rules <:+ map.rules

theorem Step.follows {map : WriteMap} {worker worker' : Worker} {cache cache' : Cache}
    {event : WorkerEvent} (step : worker.Step map cache event worker' cache')
    (h : worker.Follows map) : worker'.Follows map := by
  cases step with
  | begin_storing => trivial
  | begin_trying => exact List.suffix_refl _
  | store => exact List.suffix_refl _
  | pass => exact (List.suffix_cons _ _).trans h
  | trigger message rule rules target cache triggered mapped => exact ⟨h, mapped⟩
  | miss => exact (List.suffix_cons _ _).trans h.1
  | take => exact h
  | forward => exact (List.suffix_cons _ _).trans h.1
  | fail => exact h.1
  | restore => exact (List.suffix_cons _ _).trans h
  | writeMapped => trivial
  | finish => trivial

variable {map : WriteMap} {worker : Worker} {cache cache' : Cache} {event : WorkerEvent}
  {message : Message} {rule : Rule} {target : WriteTarget} {value : RegisterValue}
  {rules : List Rule}

theorem Step.to_taking
    (step : worker.Step map cache event (.taking message rule target rules) cache') :
    event = .look ∧ worker = .trying message (rule :: rules) ∧ rule.isTriggered cache = true := by
  cases step with
  | trigger _ _ _ _ _ triggered => exact ⟨rfl, rfl, triggered⟩

theorem Step.to_writing
    (step : worker.Step map cache event (.writing message rule target value rules) cache') :
    event = .take rule value ∧ cache.get? rule.source = some value := by
  cases step with
  | take _ _ _ _ _ _ cached => exact ⟨rfl, cached⟩

theorem Step.to_restoring
    (step : worker.Step map cache event (.restoring message rule value rules) cache') :
    ∃ target, event = .fail rule target value ∧
      worker = .writing message rule target value rules := by
  cases step with
  | fail _ _ _ target => exact ⟨target, rfl, rfl⟩

end Worker

namespace Crew

variable {map : WriteMap} {first crew crew' : Crew} {events : List (Nat × WorkerEvent)}
  {event : WorkerEvent} {i : Nat}

/-! ## Steps -/

/-- A step of a crew is a step of the worker with the given number, and of no other. -/
theorem Step.of_worker (step : Step map crew (i, event) crew') :
    ∃ worker worker', crew.workers[i]? = some worker ∧
      worker.Step map crew.cache event worker' crew'.cache ∧
      crew'.workers = crew.workers.set i worker' := by
  cases step with
  | one before after worker worker' cache cache' event step =>
    exact ⟨worker, worker', by simp, step, by simp⟩

theorem Step.of_getElem? {worker worker' : Worker} {cache' : Cache}
    (h : crew.workers[i]? = some worker)
    (step : worker.Step map crew.cache event worker' cache') :
    Step map crew (i, event) ⟨cache', crew.workers.set i worker'⟩ := by
  obtain ⟨cache, workers⟩ := crew
  obtain ⟨hi, rfl⟩ := List.getElem?_eq_some_iff.1 h
  have hsplit : workers = workers.take i ++ workers[i] :: workers.drop (i + 1) := by
    rw [← List.drop_eq_getElem_cons hi, List.take_append_drop]
  have hset : workers.set i worker' = workers.take i ++ worker' :: workers.drop (i + 1) := by
    rw [List.set_eq_take_append_cons_drop, if_pos hi]
  have hone : Step map _ _ _ := .one (workers.take i) (workers.drop (i + 1)) _ _ _ _ _ step
  rw [← hset, ← hsplit, List.length_take_of_le (Nat.le_of_lt hi)] at hone
  exact hone

/-! ## Runs -/

theorem Run.single {step : Nat × WorkerEvent} (h : Step map first step crew) :
    Run map first [step] crew :=
  .snoc .nil h

theorem Run.append {more : List (Nat × WorkerEvent)} (run : Run map first events crew)
    (next : Run map crew more crew') : Run map first (events ++ more) crew' := by
  induction next with
  | nil =>
    rw [List.append_nil]
    exact run
  | snoc _ step ih =>
    rw [← List.append_assoc]
    exact .snoc ih step

/-- Everything that happens in a run is a step from where the run was then. -/
theorem Run.exists_step (run : Run map first events crew) {e : Nat × WorkerEvent}
    (h : e ∈ events) : ∃ earlier seen next, Run map first earlier seen ∧ Step map seen e next := by
  induction run with
  | nil => exact absurd h List.not_mem_nil
  | @snoc mid last events _ run step ih =>
    rcases List.mem_append.1 h with h | h
    · exact ih h
    · obtain rfl := List.mem_singleton.1 h
      exact ⟨events, mid, last, run, step⟩

theorem Run.length_workers (run : Run map first events crew) :
    crew.workers.length = first.workers.length := by
  induction run with
  | nil => rfl
  | @snoc mid last events e _ step ih =>
    obtain ⟨_, _, -, -, hset⟩ := step.of_worker
    rw [hset, List.length_set, ih]

/-- Only workers of the crew take steps. -/
theorem Run.worker_lt (run : Run map first events crew) (e : Nat × WorkerEvent) (h : e ∈ events) :
    e.1 < first.workers.length := by
  obtain ⟨_, seen, _, hearlier, step⟩ := run.exists_step h
  obtain ⟨_, _, found, -, -⟩ := step.of_worker
  obtain ⟨hlt, -⟩ := List.getElem?_eq_some_iff.1 found
  exact Nat.lt_of_lt_of_eq hlt hearlier.length_workers

/-- What steps with such events keep of the worker that takes them holds of all workers after a run
of such events. -/
theorem Run.forall_workers {P : Worker → Prop} {Q : WorkerEvent → Prop}
    (keeps : ∀ {worker cache event worker' cache'},
      Worker.Step map worker cache event worker' cache' → Q event → P worker → P worker')
    (run : Run map first events crew) (h : ∀ e ∈ events, Q e.2)
    (hfirst : ∀ worker ∈ first.workers, P worker) : ∀ worker ∈ crew.workers, P worker := by
  induction run with
  | nil => exact hfirst
  | snoc _ step ih =>
    obtain ⟨hearlier, hnow⟩ := List.forall_mem_append.1 h
    rw [List.forall_mem_singleton] at hnow
    have hpast := ih hearlier
    obtain ⟨before, after, worker, worker', cache, cache', event, step⟩ := step
    intro w hw
    rcases List.mem_append.1 hw with hw | hw
    · exact hpast w (List.mem_append_left _ hw)
    · rcases List.mem_cons.1 hw with rfl | hw
      · exact keeps step hnow (hpast worker (by simp))
      · exact hpast w (List.mem_append_right _ (List.mem_cons_of_mem _ hw))

/-- A worker that is not where it was at first has taken a last step, which led it to where it is;
since then only others have moved. -/
theorem Run.last_step {worker : Worker} (run : Run map first events crew)
    (h : crew.workers[i]? = some worker) (moved : first.workers[i]? ≠ some worker) :
    ∃ earlier event later seen next before, events = earlier ++ (i, event) :: later ∧
      Run map first earlier seen ∧ Step map seen (i, event) next ∧ Run map next later crew ∧
      (∀ e ∈ later, e.1 ≠ i) ∧ seen.workers[i]? = some before ∧
      Worker.Step map before seen.cache event worker next.cache := by
  induction run with
  | nil => exact absurd h moved
  | @snoc mid last events e run step ih =>
    obtain ⟨j, event⟩ := e
    obtain ⟨before, after, found, hstep, hset⟩ := step.of_worker
    by_cases hj : j = i
    · -- the worker has just moved, so this is its last step
      subst hj
      obtain ⟨hlt, _⟩ := List.getElem?_eq_some_iff.1 found
      rw [hset, List.getElem?_set_self hlt] at h
      obtain rfl : after = worker := Option.some.inj h
      exact ⟨events, event, [], mid, last, before, rfl, run, step, .nil, by simp, found, hstep⟩
    · rw [hset, List.getElem?_set_ne hj] at h
      obtain ⟨earlier, e', later, seen, next, before, rfl, hrun, hnext, hlater, hquiet, hlast⟩ :=
        ih h
      refine ⟨earlier, e', later ++ [(j, event)], seen, next, before, by simp, hrun, hnext,
        .snoc hlater step, ?_, hlast⟩
      intro e he
      rcases List.mem_append.1 he with he | he
      · exact hquiet e he
      · rw [List.mem_singleton.1 he]
        exact hj

theorem start_isIdle (size : Nat) : (start size).isIdle := by
  intro worker hw
  exact List.eq_of_mem_replicate hw

theorem Run.follows (run : Run map first events crew) (idle : first.isIdle) :
    ∀ worker ∈ crew.workers, worker.Follows map := by
  refine run.forall_workers (Q := fun _ => True) (fun step _ => step.follows)
    (fun _ _ => trivial) ?_
  intro worker hw
  rw [idle worker hw]
  trivial

/-! ## What a worker did last -/

variable {message : Message} {rule : Rule} {target : WriteTarget}
  {value : RegisterValue} {rules : List Rule}

theorem isIdle.getElem?_ne {worker : Worker} (idle : first.isIdle) (h : worker ≠ .idle) :
    first.workers[i]? ≠ some worker := by
  intro hfound
  exact h (idle worker (List.mem_of_getElem? hfound))

/-- A worker that is about to take the source of a rule has last looked at the bit, and the rule was
triggered then. -/
theorem Run.looked (run : Run map first events crew) (idle : first.isIdle)
    (h : crew.workers[i]? = some (.taking message rule target rules)) :
    ∃ earlier later seen, events = earlier ++ (i, .look) :: later ∧
      Run map first earlier seen ∧ Run map seen ((i, .look) :: later) crew ∧
      (∀ e ∈ later, e.1 ≠ i) ∧ seen.workers[i]? = some (.trying message (rule :: rules)) ∧
      rule.isTriggered seen.cache = true := by
  obtain ⟨earlier, event, later, seen, next, _, rfl, hearlier, hlook, hlater, hquiet, hbefore,
    hlast⟩ := run.last_step h (idle.getElem?_ne Worker.noConfusion)
  obtain ⟨rfl, rfl, htriggered⟩ := hlast.to_taking
  exact ⟨earlier, later, seen, rfl, hearlier, (Run.single hlook).append hlater, hquiet, hbefore,
    htriggered⟩

/-- A worker that is about to write a value has last taken it. -/
theorem Run.took (run : Run map first events crew) (idle : first.isIdle)
    (h : crew.workers[i]? = some (.writing message rule target value rules)) :
    ∃ earlier later seen next, events = earlier ++ (i, .take rule value) :: later ∧
      Run map first earlier seen ∧ Step map seen (i, .take rule value) next ∧
      Run map next later crew ∧ (∀ e ∈ later, e.1 ≠ i) ∧
      seen.cache.get? rule.source = some value := by
  obtain ⟨earlier, event, later, seen, next, _, rfl, hearlier, htake, hlater, hquiet, _, hlast⟩ :=
    run.last_step h (idle.getElem?_ne Worker.noConfusion)
  obtain ⟨rfl, hcached⟩ := hlast.to_writing
  exact ⟨earlier, later, seen, next, rfl, hearlier, htake, hlater, hquiet, hcached⟩

end Crew

end PlcGateway
