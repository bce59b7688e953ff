import Mathlib.Data.List.Perm.Basic
import PlcGateway.Proofs.Pool.Step

/-!
# Where the messages of a pool are

A message that the owner has queued waits in the queue, is in the hands of one worker or was
handled, and workers take messages out of the queue in the order in which they were put in. No
worker stops before the queue is closed and empty. A pool of which this holds is `Sound`; it is so
at first (`sound_start`), and every step keeps it so (`Sound.step`). In particular no step refuses a
message.
-/

namespace PlcGateway

namespace PoolEvent

/-- The message that is put into the queue. -/
def queued? : PoolEvent → Option Message
  | queue message => some message
  | _ => none

/-- The message that is taken out of the queue. -/
def picked? : PoolEvent → Option Message
  | pick message => some message
  | _ => none

/-- The message that was handled. -/
def handled? : PoolEvent → Option Message
  | finish message => some message
  | _ => none

end PoolEvent

namespace PoolWorker

/-- The message that a worker has in its hands. -/
def message? : PoolWorker → Option Message
  | received message? => message?
  | handling message => some message
  | _ => none

/-- Whether a worker knows that no more messages will come. -/
def hasEnded : PoolWorker → Bool
  | received none => true
  | stopped => true
  | _ => false

end PoolWorker

namespace PoolOwner

/-- The messages that are left to be queued. -/
def left : PoolOwner → List Message
  | queueing messages => messages
  | joining _ => []

/-- How many workers were waited for. -/
def joined : PoolOwner → Nat
  | queueing _ => 0
  | joining workers => workers

end PoolOwner

namespace PoolWorker

variable {free closed : Bool} {waiting waiting' : Option Message} {worker worker' : PoolWorker}
  {event : PoolEvent}

/-- A worker puts nothing into the queue, and what it picks up is what waited. -/
theorem Step.waiting_eq (step : worker.Step free closed waiting event worker' waiting') :
    event.queued? = none ∧ waiting.toList = event.picked?.toList ++ waiting'.toList := by
  cases step with
  | _ => exact ⟨rfl, rfl⟩

/-- What a worker has picked up is in its hands until it was handled. -/
theorem Step.message_eq (step : worker.Step free closed waiting event worker' waiting') :
    worker.message?.toList ++ event.picked?.toList =
      event.handled?.toList ++ worker'.message?.toList := by
  cases step with
  | _ => rfl

/-- A worker that learns that no more messages will come has found the queue closed and empty. -/
theorem Step.hasEnded (step : worker.Step free closed waiting event worker' waiting')
    (ended : worker'.hasEnded = true) :
    worker.hasEnded = true ∨ closed = true ∧ waiting' = none := by
  cases step with
  | learn hclosed => exact .inr ⟨hclosed, rfl⟩
  | stop => exact .inl rfl
  | _ => cases ended

theorem Step.ne_stopped (step : worker.Step free closed waiting event worker' waiting') :
    worker ≠ .stopped := by
  rintro rfl
  cases step

end PoolWorker

theorem filterMap_cons_eq {α β : Type} (f : α → Option β) (a : α) (l : List α) :
    (a :: l).filterMap f = (f a).toList ++ l.filterMap f := by
  rw [List.filterMap_cons]
  cases f a <;> rfl

theorem filterMap_concat {α β : Type} (f : α → Option β) (l : List α) (a : α) :
    (l ++ [a]).filterMap f = l.filterMap f ++ (f a).toList := by
  rw [List.filterMap_append, filterMap_cons_eq, List.filterMap_nil, List.append_nil]

namespace Pool

variable {pool pool' : Pool} {event : PoolEvent} {events : List PoolEvent} {size : Nat}
  {messages : List Message}

/-- The messages that were put into the queue, in order. -/
def queued (events : List PoolEvent) : List Message := events.filterMap PoolEvent.queued?

/-- The messages that were taken out of the queue, in order. -/
def picked (events : List PoolEvent) : List Message := events.filterMap PoolEvent.picked?

/-- The messages that were handled, in order. -/
def handled (events : List PoolEvent) : List Message := events.filterMap PoolEvent.handled?

/-- The messages that workers have in their hands. -/
def inHand (pool : Pool) : List Message := pool.workers.filterMap PoolWorker.message?

theorem queued_concat (events : List PoolEvent) (event : PoolEvent) :
    queued (events ++ [event]) = queued events ++ event.queued?.toList :=
  filterMap_concat _ events event

theorem picked_concat (events : List PoolEvent) (event : PoolEvent) :
    picked (events ++ [event]) = picked events ++ event.picked?.toList :=
  filterMap_concat _ events event

theorem handled_concat (events : List PoolEvent) (event : PoolEvent) :
    handled (events ++ [event]) = handled events ++ event.handled?.toList :=
  filterMap_concat _ events event

/-- What workers have in their hands, with one of them apart. -/
theorem inHand_perm (owner : PoolOwner) (waiting : Option Message) (before after : List PoolWorker)
    (worker : PoolWorker) :
    (inHand ⟨owner, waiting, before ++ worker :: after⟩).Perm
      (worker.message?.toList ++ (before ++ after).filterMap PoolWorker.message?) := by
  show ((before ++ worker :: after).filterMap PoolWorker.message?).Perm _
  have hperm : (before ++ worker :: after).Perm (worker :: (before ++ after)) := List.perm_middle
  rw [← filterMap_cons_eq]
  exact hperm.filterMap _

/-! ## Where the messages are -/

/-- What holds in a pool at any time. -/
structure Sound (size : Nat) (messages : List Message) (events : List PoolEvent) (pool : Pool) :
    Prop where
  length_workers : pool.workers.length = workersFor size
  messages_eq : messages = queued events ++ pool.owner.left
  queued_eq : queued events = picked events ++ pool.waiting.toList
  picked_perm : (picked events).Perm (pool.inHand ++ handled events)
  /-- No worker ends before the queue is closed and empty. -/
  drained : ∀ worker ∈ pool.workers, worker.hasEnded = true →
    pool.isClosed = true ∧ pool.waiting = none
  joined : ∀ number < pool.owner.joined, pool.workers[number]? = some .stopped

theorem sound_start (size : Nat) (messages : List Message) :
    (start size messages).Sound size messages [] where
  length_workers := List.length_replicate
  messages_eq := rfl
  queued_eq := rfl
  picked_perm := by
    show List.Perm [] (List.filterMap PoolWorker.message? (List.replicate _ .idle) ++ [])
    simp [PoolWorker.message?]
  drained := by
    intro worker hworker hended
    rw [List.eq_of_mem_replicate hworker] at hended
    cases hended
  joined := by
    intro number h
    exact absurd h (Nat.not_lt_zero number)

/-- A step of a worker keeps the pool sound. -/
theorem Sound.worker_step {owner : PoolOwner} {waiting waiting' : Option Message}
    {before after : List PoolWorker} {worker worker' : PoolWorker} {free closed : Bool}
    (sound : Sound size messages events ⟨owner, waiting, before ++ worker :: after⟩)
    (hclosed : closed = isClosed ⟨owner, waiting, before ++ worker :: after⟩)
    (step : worker.Step free closed waiting event worker' waiting') :
    Sound size messages (events ++ [event]) ⟨owner, waiting', before ++ worker' :: after⟩ := by
  obtain ⟨hqueued, hwaiting⟩ := step.waiting_eq
  have hmessage := step.message_eq
  constructor
  · rw [← sound.length_workers]
    simp
  · rw [sound.messages_eq, queued_concat, hqueued]
    simp
  · rw [queued_concat, hqueued, sound.queued_eq, picked_concat]
    simp [hwaiting]
  · have hpicked := sound.picked_perm
    have hbefore := inHand_perm owner waiting before after worker
    have hafter := inHand_perm owner waiting' before after worker'
    rw [picked_concat, handled_concat]
    -- the other workers hold what they held, so for each message the numbers add up
    rw [List.perm_iff_count] at hpicked hbefore hafter ⊢
    intro message
    have hmoved := congrArg (List.count message) hmessage
    have hpicked := hpicked message
    have hbefore := hbefore message
    have hafter := hafter message
    simp only [List.count_append] at hmoved hpicked hbefore hafter ⊢
    omega
  · intro w hw hended
    have hopen : ∀ w ∈ before ++ worker :: after, w.hasEnded = true →
        isClosed ⟨owner, waiting', before ++ worker' :: after⟩ = true ∧ waiting' = none := by
      intro w hw hended
      obtain ⟨hclosed, hnone⟩ := sound.drained w hw hended
      obtain rfl : waiting = none := hnone
      refine ⟨hclosed, ?_⟩
      have hnil := List.append_eq_nil_iff.1 hwaiting.symm
      simpa using hnil.2
    rcases List.mem_append.1 hw with hw | hw
    · exact hopen w (List.mem_append_left _ hw) hended
    · rcases List.mem_cons.1 hw with rfl | hw
      · rcases step.hasEnded hended with hended | ⟨hended, hnone⟩
        · exact hopen worker (by simp) hended
        · exact ⟨hclosed.symm.trans hended, hnone⟩
      · exact hopen w (by simp [hw]) hended
  · intro number hnumber
    have hstopped := sound.joined number hnumber
    show (before ++ worker' :: after)[number]? = _
    have hne : number ≠ before.length := by
      rintro rfl
      have hworker : (before ++ worker :: after)[before.length]? = some .stopped := hstopped
      rw [List.getElem?_append_right (Nat.le_refl _), Nat.sub_self] at hworker
      exact step.ne_stopped (Option.some.inj hworker)
    have hset : before ++ worker' :: after =
        (before ++ worker :: after).set before.length worker' := by simp
    rw [hset, List.getElem?_set_ne (Ne.symm hne)]
    exact hstopped

/-- A step of the owner keeps the pool sound: it queues a message or none, leaves the workers alone
and does not open the queue again. -/
theorem Sound.owner_step {owner owner' : PoolOwner} {waiting waiting' : Option Message}
    {workers : List PoolWorker} (sound : Sound size messages events ⟨owner, waiting, workers⟩)
    (others : event.picked? = none ∧ event.handled? = none)
    (left : owner.left = event.queued?.toList ++ owner'.left)
    (waits : waiting'.toList = waiting.toList ++ event.queued?.toList)
    (closes : isClosed ⟨owner, waiting, workers⟩ = true →
      isClosed ⟨owner', waiting', workers⟩ = true ∧ waiting' = waiting)
    (joined : ∀ number < owner'.joined, workers[number]? = some .stopped) :
    Sound size messages (events ++ [event]) ⟨owner', waiting', workers⟩ := by
  constructor
  · exact sound.length_workers
  · rw [queued_concat, List.append_assoc, ← left]
    exact sound.messages_eq
  · rw [queued_concat, picked_concat, others.1, Option.toList_none, List.append_nil, waits,
      ← List.append_assoc, ← sound.queued_eq]
  · rw [picked_concat, handled_concat, others.1, others.2, Option.toList_none, List.append_nil,
      List.append_nil]
    exact sound.picked_perm
  · intro worker hworker hended
    obtain ⟨hclosed, hnone⟩ := sound.drained worker hworker hended
    obtain ⟨hclosed', hwaiting⟩ := closes hclosed
    exact ⟨hclosed', hwaiting.trans hnone⟩
  · exact joined

/-- While the owner queues messages, some worker has not stopped. -/
theorem Sound.exists_ne_stopped (sound : pool.Sound size messages events)
    (taking : pool.isClosed = false) : ∃ worker ∈ pool.workers, worker ≠ .stopped := by
  have hpos : 0 < pool.workers.length := by
    rw [sound.length_workers]
    exact Nat.lt_of_lt_of_le Nat.one_pos (Nat.le_max_right size 1)
  obtain ⟨worker, hworker⟩ := List.exists_mem_of_length_pos hpos
  refine ⟨worker, hworker, ?_⟩
  rintro rfl
  have hclosed := (sound.drained _ hworker rfl).1
  rw [taking] at hclosed
  cases hclosed

/-- No step makes an unsound pool of a sound one, and none refuses a message. -/
theorem Sound.step (sound : pool.Sound size messages events) (step : Step pool event pool') :
    pool'.Sound size messages (events ++ [event]) := by
  cases step with
  | queue message rest workers listening =>
    exact sound.owner_step ⟨rfl, rfl⟩ rfl rfl (fun h => nomatch h) sound.joined
  | refuse message rest waiting workers stopped =>
    obtain ⟨worker, hworker, hne⟩ := sound.exists_ne_stopped rfl
    exact absurd (stopped worker hworker) hne
  | close waiting workers =>
    exact sound.owner_step ⟨rfl, rfl⟩ rfl (List.append_nil _).symm (fun h => nomatch h)
      (fun _ h => absurd h (Nat.not_lt_zero _))
  | join joined waiting workers stopped =>
    refine sound.owner_step ⟨rfl, rfl⟩ rfl (List.append_nil _).symm (fun h => ⟨h, rfl⟩) ?_
    intro number hnumber
    rcases Nat.lt_succ_iff_lt_or_eq.1 hnumber with hlt | rfl
    · exact sound.joined number hlt
    · exact stopped
  | one owner waiting waiting' before after worker worker' event step =>
    exact sound.worker_step rfl step

theorem Sound.play (sound : pool.Sound size messages events) (schedule : List Actor) :
    (pool.play schedule).2.Sound size messages (events ++ (pool.play schedule).1) := by
  induction schedule generalizing pool events with
  | nil =>
    rw [Pool.play, List.append_nil]
    exact sound
  | cons actor schedule ih =>
    rw [Pool.play]
    cases hnext : pool.next actor with
    | none => exact ih sound
    | some happened =>
      have hstep := ih (sound.step (step_of_next hnext))
      rw [List.append_assoc] at hstep
      exact hstep

end Pool

end PlcGateway
