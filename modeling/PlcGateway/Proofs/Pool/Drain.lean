import Mathlib.Algebra.BigOperators.Group.List.Basic
import Mathlib.Algebra.GroupWithZero.Nat
import PlcGateway.Proofs.Pool.Messages

/-!
# A pool that is shut down has handled every message

Somebody can always go on until the owner has waited for all workers (`Sound.exists_next`), and
nobody can go on for ever, since each step is one of those that were left at first
(`length_play_le`). So however the owner and the workers take turns, the pool comes to its end, and
then every message was handled, once (`play_drains`). A single worker handles the messages in the
order in which they were queued (`handled_play_of_single`).
-/

namespace PlcGateway

namespace PoolWorker

/-- How many steps of a worker are left if no more messages come. -/
def rest : PoolWorker → Nat
  | idle => 3
  | receiving => 2
  | received (some _) => 5
  | received none => 1
  | handling _ => 4
  | stopped => 0

/-- Every step of a worker is one of those that were left. -/
theorem Step.rest_lt {free closed : Bool} {waiting waiting' : Option Message}
    {worker worker' : PoolWorker} {event : PoolEvent}
    (step : worker.Step free closed waiting event worker' waiting') :
    worker'.rest + 4 * waiting'.toList.length < worker.rest + 4 * waiting.toList.length := by
  cases step <;> simp [rest]

end PoolWorker

/-- How many steps of the owner of a pool with so many workers are left, with those of the workers
for the messages that are left. -/
def PoolOwner.rest (workers : Nat) : PoolOwner → Nat
  | queueing messages => 5 * messages.length + 1 + workers
  | joining joined => workers - joined

namespace Pool

variable {pool pool' : Pool} {event : PoolEvent} {events : List PoolEvent} {size : Nat}
  {messages : List Message}

/-! ## Somebody can go on -/

theorem exists_next_of_worker {number : Nat} {worker worker' : PoolWorker}
    {waiting : Option Message} (found : pool.workers[number]? = some worker)
    (h : worker.next pool.isFree pool.isClosed pool.waiting = some (event, worker', waiting)) :
    ∃ actor event pool', pool.next actor = some (event, pool') := by
  refine ⟨.worker number, event, { pool with waiting, workers := pool.workers.set number worker' },
    ?_⟩
  show pool.workerNext number = _
  rw [workerNext, found]
  simp [h]

/-- Where no message waits, an owner with a worker that has not stopped can queue one, or close the
queue. -/
theorem exists_next_of_owner (taking : pool.isClosed = false) (room : pool.waiting = none)
    (listening : pool.isStopped = false) :
    ∃ actor event pool', pool.next actor = some (event, pool') := by
  cases howner : pool.owner with
  | joining joined => simp [isClosed, howner] at taking
  | queueing messages =>
    cases messages with
    | nil =>
      refine ⟨.owner, .work, { pool with owner := .joining 0 }, ?_⟩
      simp [next, ownerNext, howner]
    | cons message messages =>
      refine ⟨.owner, .queue message,
        { pool with owner := .queueing messages, waiting := some message }, ?_⟩
      simp [next, ownerNext, howner, listening, room]

theorem isStopped_eq_false {worker : PoolWorker} (hworker : worker ∈ pool.workers)
    (h : worker ≠ .stopped) : pool.isStopped = false := by
  rw [Bool.eq_false_iff]
  intro hstopped
  exact h (isStopped_iff.1 hstopped worker hworker)

/-- As long as a worker is at the queue, somebody can go on. -/
theorem exists_next_of_isAtQueue {number : Nat} {worker : PoolWorker}
    (found : pool.workers[number]? = some worker) (atQueue : worker.isAtQueue = true) :
    ∃ actor event pool', pool.next actor = some (event, pool') := by
  cases worker with
  | idle => cases atQueue
  | handling message => cases atQueue
  | stopped => cases atQueue
  | received message? =>
    cases message? with
    | some message => exact exists_next_of_worker found rfl
    | none => exact exists_next_of_worker found rfl
  | receiving =>
    cases hwaiting : pool.waiting with
    | some message =>
      apply exists_next_of_worker found
      rw [hwaiting]
      rfl
    | none =>
      cases hclosed : pool.isClosed with
      | true =>
        apply exists_next_of_worker found
        rw [hwaiting, hclosed]
        rfl
      | false =>
        have hworker := List.mem_of_getElem? found
        exact exists_next_of_owner hclosed hwaiting (isStopped_eq_false hworker (by simp))

/-- The owner waits for no more workers than there are. -/
theorem Sound.joined_le (sound : pool.Sound size messages events) :
    pool.owner.joined ≤ pool.workers.length := by
  by_contra h
  have hfound := sound.joined pool.workers.length (Nat.lt_of_not_le h)
  rw [List.getElem?_eq_none (Nat.le_refl _)] at hfound
  cases hfound

theorem Sound.joined_lt {joined : Nat} (sound : pool.Sound size messages events)
    (working : pool.isShutDown = false) (waits : pool.owner = .joining joined) :
    joined < pool.workers.length := by
  have hle := sound.joined_le
  rw [waits] at hle
  refine Nat.lt_of_le_of_ne hle ?_
  simpa [isShutDown, waits] using working

/-- Until the owner has waited for all workers, somebody can go on. -/
theorem Sound.exists_next (sound : pool.Sound size messages events)
    (working : pool.isShutDown = false) :
    ∃ actor event pool', pool.next actor = some (event, pool') := by
  by_cases hstopped : pool.isStopped = true
  · -- all workers have stopped, so there is one more for which the owner can wait
    cases howner : pool.owner with
    | queueing messages =>
      obtain ⟨worker, hworker, hne⟩ := sound.exists_ne_stopped (by simp [isClosed, howner])
      exact absurd (isStopped_iff.1 hstopped worker hworker) hne
    | joining joined =>
      have hlt := sound.joined_lt working howner
      have hfound : pool.workers[joined]? = some .stopped := by
        rw [List.getElem?_eq_getElem hlt,
          isStopped_iff.1 hstopped _ (List.getElem_mem hlt)]
      refine ⟨.owner, .work, { pool with owner := .joining (joined + 1) }, ?_⟩
      simp [next, ownerNext, howner, hfound]
  · rw [isStopped_iff] at hstopped
    push Not at hstopped
    obtain ⟨worker, hworker, hne⟩ := hstopped
    obtain ⟨number, found⟩ := List.getElem?_of_mem hworker
    cases worker with
    | stopped => exact absurd rfl hne
    | handling message => exact exists_next_of_worker found rfl
    | receiving => exact exists_next_of_isAtQueue found rfl
    | received message? => exact exists_next_of_isAtQueue found rfl
    | idle =>
      cases hfree : pool.isFree with
      | true =>
        apply exists_next_of_worker found
        rw [hfree]
        rfl
      | false =>
        -- somebody else is at the queue
        obtain ⟨other, hother, hat⟩ := List.all_eq_false.1 hfree
        obtain ⟨place, found⟩ := List.getElem?_of_mem hother
        exact exists_next_of_isAtQueue found (by simpa using hat)

/-! ## Nobody can go on for ever -/

/-- How many steps in the pool are left. -/
def rest (pool : Pool) : Nat :=
  pool.owner.rest pool.workers.length + 4 * pool.waiting.toList.length +
    (pool.workers.map PoolWorker.rest).sum

theorem Step.rest_lt (step : Step pool event pool') : pool'.rest < pool.rest := by
  cases step with
  | queue message messages workers listening =>
    simp only [rest, PoolOwner.rest, Option.toList_some, Option.toList_none, List.length_cons,
      List.length_nil]
    omega
  | refuse message messages waiting workers stopped =>
    simp only [rest, PoolOwner.rest, List.length_cons]
    omega
  | close waiting workers =>
    simp only [rest, PoolOwner.rest, List.length_nil]
    omega
  | join joined waiting workers stopped =>
    obtain ⟨hlt, -⟩ := List.getElem?_eq_some_iff.1 stopped
    simp only [rest, PoolOwner.rest]
    omega
  | one owner waiting waiting' before after worker worker' event step =>
    have hworker := step.rest_lt
    simp only [rest, List.map_append, List.map_cons, List.sum_append, List.sum_cons,
      List.length_append, List.length_cons]
    omega

/-- As many steps as are taken are no longer left. -/
theorem length_play_le (pool : Pool) (schedule : List Actor) :
    (pool.play schedule).1.length + (pool.play schedule).2.rest ≤ pool.rest := by
  induction schedule generalizing pool with
  | nil =>
    show 0 + pool.rest ≤ pool.rest
    exact Nat.le_of_eq (Nat.zero_add _)
  | cons actor schedule ih =>
    rw [play]
    cases hnext : pool.next actor with
    | none => exact ih pool
    | some happened =>
      have hlt := (step_of_next hnext).rest_lt
      have hmore := ih happened.2
      simp only [List.length_cons]
      omega

theorem rest_start (size : Nat) (messages : List Message) :
    (start size messages).rest = 5 * messages.length + 4 * workersFor size + 1 := by
  show 5 * messages.length + 1 + (List.replicate (workersFor size) PoolWorker.idle).length + 4 * 0 +
    ((List.replicate (workersFor size) PoolWorker.idle).map PoolWorker.rest).sum = _
  rw [List.map_replicate, List.sum_replicate, List.length_replicate]
  show 5 * messages.length + 1 + workersFor size + 4 * 0 + workersFor size * 3 = _
  omega

/-! ## The end -/

/-- When the owner has waited for all workers, all of them have stopped. -/
theorem Sound.isStopped_of_isShutDown (sound : pool.Sound size messages events)
    (shut : pool.isShutDown = true) : pool.isStopped = true := by
  rw [isStopped_iff]
  intro worker hworker
  obtain ⟨number, found⟩ := List.getElem?_of_mem hworker
  obtain ⟨hlt, -⟩ := List.getElem?_eq_some_iff.1 found
  have hjoined : pool.owner.joined = pool.workers.length := by
    unfold isShutDown at shut
    split at shut
    · cases shut
    · next joined howner =>
      rw [howner]
      exact eq_of_beq shut
  rw [← hjoined] at hlt
  exact Option.some.inj (found.symm.trans (sound.joined number hlt))

/-- When all workers have stopped, no message waits or is in anybody's hands. -/
theorem Sound.handled_perm (sound : pool.Sound size messages events)
    (stopped : pool.isStopped = true) : (handled events).Perm messages := by
  have hall := isStopped_iff.1 stopped
  have hpos : 0 < pool.workers.length := by
    rw [sound.length_workers]
    exact Nat.lt_of_lt_of_le Nat.one_pos (Nat.le_max_right size 1)
  obtain ⟨worker, hworker⟩ := List.exists_mem_of_length_pos hpos
  have hended : worker.hasEnded = true := by
    rw [hall worker hworker]
    rfl
  obtain ⟨hclosed, hnone⟩ := sound.drained worker hworker hended
  have hleft : pool.owner.left = [] := by
    unfold isClosed at hclosed
    split at hclosed
    · cases hclosed
    · next joined howner =>
      rw [howner]
      rfl
  have hinHand : pool.inHand = [] := by
    rw [inHand, List.filterMap_eq_nil_iff]
    intro worker hworker
    rw [hall worker hworker]
    rfl
  have hpicked := sound.picked_perm
  rw [hinHand, List.nil_append] at hpicked
  rw [sound.messages_eq, sound.queued_eq, hnone, hleft, Option.toList_none, List.append_nil,
    List.append_nil]
  exact hpicked.symm

theorem length_inHand_le (pool : Pool) : pool.inHand.length ≤ pool.workers.length :=
  List.length_filterMap_le _ _

/-- However the owner and the workers take turns, the messages that were queued are the first ones
of the owner, in order, and none of them was refused. They are picked up in this order, and each is
in one place: in the queue, in the hands of a worker, or handled. No more are unhandled than there
are workers and one. Somebody can go on until the owner has waited for all workers, and there are
only so many steps to be taken. Then all workers have stopped, and every message was handled as
often as it was queued. -/
theorem play_drains (size : Nat) (messages : List Message) (schedule : List Actor) :
    let events := ((start size messages).play schedule).1
    let pool := ((start size messages).play schedule).2
    messages = queued events ++ pool.owner.left ∧
    queued events = picked events ++ pool.waiting.toList ∧
    (queued events).Perm (pool.waiting.toList ++ pool.inHand ++ handled events) ∧
    (queued events).length ≤ (handled events).length + (max size 1 + 1) ∧
    (pool.isShutDown = false → ∃ actor event pool', pool.next actor = some (event, pool')) ∧
    events.length ≤ 5 * messages.length + 4 * max size 1 + 1 ∧
    (pool.isShutDown = true → pool.isStopped = true ∧ (handled events).Perm messages) := by
  intro events pool
  have sound : pool.Sound size messages events := (sound_start size messages).play schedule
  have hplaces : (queued events).Perm (pool.waiting.toList ++ pool.inHand ++ handled events) := by
    rw [sound.queued_eq, List.append_assoc]
    exact (sound.picked_perm.append_right _).trans List.perm_append_comm
  refine ⟨sound.messages_eq, sound.queued_eq, hplaces, ?_, sound.exists_next, ?_, ?_⟩
  · have hlength := hplaces.length_eq
    have hinHand := pool.length_inHand_le
    have hworkers : pool.workers.length = max size 1 := sound.length_workers
    have hwaiting : pool.waiting.toList.length ≤ 1 := by cases pool.waiting <;> simp
    rw [List.length_append, List.length_append] at hlength
    omega
  · have hrest := length_play_le (start size messages) schedule
    rw [rest_start, workersFor] at hrest
    exact Nat.le_trans (Nat.le_add_right _ _) hrest
  · intro shut
    have stopped := sound.isStopped_of_isShutDown shut
    exact ⟨stopped, sound.handled_perm stopped⟩

/-- Two workers handle two messages at the same time, and the second message is handled first. -/
example :
    let one : Message := ⟨"D1", .unsigned 1, "Line1"⟩
    let two : Message := ⟨"D2", .unsigned 2, "Line1"⟩
    let played := (start 2 [one, two]).play
      ([.owner] ++ List.replicate 3 (.worker 0) ++ [.owner] ++ List.replicate 4 (.worker 1) ++
        [.owner] ++ List.replicate 4 (.worker 0) ++ List.replicate 3 (.worker 1) ++
        List.replicate 3 .owner)
    handled played.1 = [two, one] ∧ played.2.isShutDown = true := by
  decide

/-! ## A single worker -/

theorem inHand_singleton (owner : PoolOwner) (waiting : Option Message) (worker : PoolWorker) :
    inHand ⟨owner, waiting, [worker]⟩ = worker.message?.toList := by
  rw [inHand, filterMap_cons_eq, List.filterMap_nil, List.append_nil]

/-- Where there is one worker, it has handled what it has picked up, in order, up to what it has in
its hands. -/
theorem Step.handled_append (step : Step pool event pool') (single : pool.workers.length = 1)
    (h : picked events = handled events ++ pool.inHand) :
    picked (events ++ [event]) = handled (events ++ [event]) ++ pool'.inHand := by
  rw [picked_concat, handled_concat, h]
  cases step with
  | one owner waiting waiting' before after worker worker' event step =>
    have hlength : before.length + (after.length + 1) = 1 := by simpa using single
    obtain rfl : before = [] := List.length_eq_zero_iff.1 (by omega)
    obtain rfl : after = [] := List.length_eq_zero_iff.1 (by omega)
    have hmoved : worker.message?.toList ++ event.picked?.toList =
        event.handled?.toList ++ worker'.message?.toList := step.message_eq
    rw [List.nil_append, List.nil_append, inHand_singleton, inHand_singleton, List.append_assoc,
      List.append_assoc, hmoved]
  | _ => simp [inHand, PoolEvent.picked?, PoolEvent.handled?]

theorem Step.length_workers (step : Step pool event pool') :
    pool'.workers.length = pool.workers.length := by
  cases step with
  | one => simp
  | _ => rfl

theorem picked_play (single : pool.workers.length = 1)
    (h : picked events = handled events ++ pool.inHand) (schedule : List Actor) :
    picked (events ++ (pool.play schedule).1) =
      handled (events ++ (pool.play schedule).1) ++ (pool.play schedule).2.inHand := by
  induction schedule generalizing pool events with
  | nil =>
    rw [play, List.append_nil]
    exact h
  | cons actor schedule ih =>
    rw [play]
    cases hnext : pool.next actor with
    | none => exact ih single h
    | some happened =>
      have step := step_of_next hnext
      have hmore := ih (step.length_workers.trans single) (step.handled_append single h)
      rw [List.append_assoc] at hmore
      exact hmore

/-- A single worker handles the messages in the order in which they were queued. When the pool is
shut down, it has done what `handleAll` does. -/
theorem handled_play_of_single {size : Nat} (single : size ≤ 1) (messages : List Message)
    (schedule : List Actor) :
    let events := ((start size messages).play schedule).1
    let pool := ((start size messages).play schedule).2
    handled events <+: messages ∧
    (pool.isShutDown = true → ∀ (σ : Type) (handle : Message → σ → σ) (s : σ),
      handleAll handle (handled events) s = handleAll handle messages s) := by
  intro events pool
  have sound : pool.Sound size messages events := (sound_start size messages).play schedule
  have hworkers : (start size messages).workers.length = 1 := by
    show (List.replicate (workersFor size) PoolWorker.idle).length = 1
    rw [List.length_replicate, workersFor, Nat.max_eq_right single]
  have hnothing : picked [] = handled [] ++ (start size messages).inHand := by
    show [] = [] ++ (List.replicate _ PoolWorker.idle).filterMap PoolWorker.message?
    simp [PoolWorker.message?]
  have hpicked : picked events = handled events ++ pool.inHand :=
    picked_play hworkers hnothing schedule
  have hmessages : messages =
      handled events ++ (pool.inHand ++ pool.waiting.toList ++ pool.owner.left) := by
    rw [← List.append_assoc, ← List.append_assoc, ← hpicked, ← sound.queued_eq]
    exact sound.messages_eq
  refine ⟨⟨_, hmessages.symm⟩, ?_⟩
  intro shut σ handle s
  have hperm := sound.handled_perm (sound.isStopped_of_isShutDown shut)
  have hall : handled events = messages :=
    List.IsPrefix.eq_of_length ⟨_, hmessages.symm⟩ hperm.length_eq
  rw [hall]

end Pool

end PlcGateway
