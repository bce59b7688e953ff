import Mathlib.Data.List.Basic
import PlcGateway.Pool

/-!
# Steps of a pool

`Pool.Step` lists everything that can happen in a pool in one step, with the guard of each case.
Whoever takes a step, it is one of these (`step_of_next`), so what every step keeps is shown with
one case for each constructor.
-/

namespace PlcGateway

/-- A step of a worker: where it was and what waited in the queue, what it does, and where it is and
what waits afterwards. -/
inductive PoolWorker.Step (free closed : Bool) :
    PoolWorker → Option Message → PoolEvent → PoolWorker → Option Message → Prop where
  | turn (waiting : Option Message) (alone : free = true) :
      Step free closed .idle waiting .work .receiving waiting
  | pick (message : Message) :
      Step free closed .receiving (some message) (.pick message) (.received (some message)) none
  | learn (ended : closed = true) : Step free closed .receiving none .work (.received none) none
  | leave (message : Message) (waiting : Option Message) :
      Step free closed (.received (some message)) waiting .work (.handling message) waiting
  | stop (waiting : Option Message) :
      Step free closed (.received none) waiting .work .stopped waiting
  | finish (message : Message) (waiting : Option Message) :
      Step free closed (.handling message) waiting (.finish message) .idle waiting

theorem PoolWorker.step_of_next {free closed : Bool} {waiting waiting' : Option Message}
    {worker worker' : PoolWorker} {event : PoolEvent}
    (h : worker.next free closed waiting = some (event, worker', waiting')) :
    worker.Step free closed waiting event worker' waiting' := by
  unfold next at h
  split at h
  · split at h
    · next hfree =>
      cases h
      exact .turn _ hfree
    · cases h
  · split at h
    · cases h
      exact .pick _
    · split at h
      · next hclosed =>
        cases h
        exact .learn hclosed
      · cases h
  · cases h
    exact .leave _ _
  · cases h
    exact .stop _
  · cases h
    exact .finish _ _
  · cases h

namespace Pool

/-- A step in a pool: of the owner, or of any one worker. -/
inductive Step : Pool → PoolEvent → Pool → Prop where
  | queue (message : Message) (messages : List Message) (workers : List PoolWorker)
      (listening : ∃ worker ∈ workers, worker ≠ .stopped) :
      Step ⟨.queueing (message :: messages), none, workers⟩ (.queue message)
        ⟨.queueing messages, some message, workers⟩
  | refuse (message : Message) (messages : List Message) (waiting : Option Message)
      (workers : List PoolWorker) (stopped : ∀ worker ∈ workers, worker = .stopped) :
      Step ⟨.queueing (message :: messages), waiting, workers⟩ (.refuse message)
        ⟨.queueing messages, waiting, workers⟩
  | close (waiting : Option Message) (workers : List PoolWorker) :
      Step ⟨.queueing [], waiting, workers⟩ .work ⟨.joining 0, waiting, workers⟩
  | join (joined : Nat) (waiting : Option Message) (workers : List PoolWorker)
      (stopped : workers[joined]? = some .stopped) :
      Step ⟨.joining joined, waiting, workers⟩ .work ⟨.joining (joined + 1), waiting, workers⟩
  | one (owner : PoolOwner) (waiting waiting' : Option Message) (before after : List PoolWorker)
      (worker worker' : PoolWorker) (event : PoolEvent)
      (step : worker.Step (isFree ⟨owner, waiting, before ++ worker :: after⟩)
        (isClosed ⟨owner, waiting, before ++ worker :: after⟩) waiting event worker' waiting') :
      Step ⟨owner, waiting, before ++ worker :: after⟩ event
        ⟨owner, waiting', before ++ worker' :: after⟩

variable {pool pool' : Pool} {event : PoolEvent}

theorem isStopped_iff : pool.isStopped = true ↔ ∀ worker ∈ pool.workers, worker = .stopped := by
  unfold isStopped
  rw [List.all_eq_true]
  simp only [beq_iff_eq]

theorem step_of_ownerNext (h : pool.ownerNext = some (event, pool')) : Step pool event pool' := by
  obtain ⟨owner, waiting, workers⟩ := pool
  unfold ownerNext at h
  split at h
  · next howner =>
    cases h
    obtain rfl : owner = .queueing [] := howner
    exact .close _ _
  · next message messages howner =>
    obtain rfl : owner = .queueing (message :: messages) := howner
    split at h
    · next hstopped =>
      cases h
      exact .refuse _ _ _ _ (isStopped_iff.1 hstopped)
    · next hstopped =>
      rw [isStopped_iff] at hstopped
      push Not at hstopped
      split at h
      · next hnone =>
        cases h
        obtain rfl : waiting = none := hnone
        exact .queue _ _ _ hstopped
      · cases h
  · next joined howner =>
    obtain rfl : owner = .joining joined := howner
    split at h
    · next hstopped =>
      cases h
      exact .join _ _ _ hstopped
    · cases h

theorem step_of_workerNext {number : Nat} (h : pool.workerNext number = some (event, pool')) :
    Step pool event pool' := by
  obtain ⟨owner, waiting, workers⟩ := pool
  unfold workerNext at h
  obtain ⟨worker, hfound, h⟩ := Option.bind_eq_some_iff.1 h
  obtain ⟨⟨happens, worker', waiting'⟩, hnext, h⟩ := Option.bind_eq_some_iff.1 h
  cases h
  obtain ⟨hlt, rfl⟩ := List.getElem?_eq_some_iff.1 hfound
  obtain ⟨before, after, hsplit, hlength⟩ : ∃ before after,
      workers = before ++ workers[number] :: after ∧ before.length = number := by
    refine ⟨workers.take number, workers.drop (number + 1), ?_, ?_⟩
    · rw [← List.drop_eq_getElem_cons hlt, List.take_append_drop]
    · exact List.length_take_of_le (Nat.le_of_lt hlt)
  have hstep := PoolWorker.step_of_next hnext
  generalize workers[number] = worker at hsplit hstep
  subst hsplit hlength
  rw [List.set_append_right _ _ (Nat.le_refl _), Nat.sub_self, List.set_cons_zero]
  exact .one _ _ _ _ _ _ _ _ hstep

/-- Whoever takes a step, it is one of these. -/
theorem step_of_next {actor : Actor} (h : pool.next actor = some (event, pool')) :
    Step pool event pool' := by
  cases actor with
  | owner => exact step_of_ownerNext h
  | worker number => exact step_of_workerNext h

end Pool

end PlcGateway
