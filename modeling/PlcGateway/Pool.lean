import PlcGateway.Register.Value

/-!
# The worker pool

Messages wait in a queue with room for one. The owner of a pool queues its messages in order, each
one as soon as there is room, then closes the queue and waits for the workers. One worker at a time
is at the queue, where it waits for a message; it leaves with the message and handles it. A worker
that finds the queue closed and empty stops. A pool of size zero has one worker all the same.

The owner and the workers take their steps in any order. `next` is the next step of any one of them,
if it can take one, and `play` lets them take turns by a schedule.
-/

namespace PlcGateway

/-- Where a worker of a pool is. -/
inductive PoolWorker where
  /-- The worker waits for its turn at the queue. -/
  | idle
  /-- The worker waits at the queue for a message. -/
  | receiving
  /-- The worker has received a message, or has learned that no more will come, and is still at the
  queue. -/
  | received (next : Option Message)
  /-- The worker handles a message. -/
  | handling (message : Message)
  | stopped
  deriving DecidableEq, Repr

/-- What the owner of a pool is about. -/
inductive PoolOwner where
  /-- These messages are left to be queued. -/
  | queueing (messages : List Message)
  /-- The queue is closed, and so many workers were waited for, in order. -/
  | joining (workers : Nat)
  deriving DecidableEq, Repr

/-- What a step in a pool does. -/
inductive PoolEvent where
  /-- A message is put into the queue. -/
  | queue (message : Message)
  /-- A message is not taken, because there are no workers any more. -/
  | refuse (message : Message)
  /-- A worker takes a message out of the queue. -/
  | pick (message : Message)
  /-- A worker is done with a message. -/
  | finish (message : Message)
  /-- Somebody goes on. -/
  | work
  deriving DecidableEq, Repr

namespace PoolWorker

/-- Whether a worker is at the queue. -/
def isAtQueue : PoolWorker → Bool
  | receiving => true
  | received _ => true
  | _ => false

/-- The next step of a worker: what it does, and where the worker is and what waits in the queue
afterwards. A worker that can take no step waits. -/
def next (free closed : Bool) (waiting : Option Message) :
    PoolWorker → Option (PoolEvent × PoolWorker × Option Message)
  | idle => if free then some (.work, receiving, waiting) else none
  | receiving =>
    match waiting with
    | some message => some (.pick message, received (some message), none)
    | none => if closed then some (.work, received none, none) else none
  | received (some message) => some (.work, handling message, waiting)
  | received none => some (.work, stopped, waiting)
  | handling message => some (.finish message, idle, waiting)
  | stopped => none

end PoolWorker

/-- A pool of workers with its owner. -/
structure Pool where
  owner : PoolOwner
  /-- The message that waits in the queue, if there is one. -/
  waiting : Option Message
  workers : List PoolWorker
  deriving DecidableEq, Repr

namespace Pool

/-- How many workers a pool of a given size has. -/
def workersFor (size : Nat) : Nat := max size 1

/-- A pool that has just been started by an owner with these messages. -/
def start (size : Nat) (messages : List Message) : Pool :=
  ⟨.queueing messages, none, List.replicate (workersFor size) .idle⟩

/-- Whether no worker is at the queue. -/
def isFree (pool : Pool) : Bool := pool.workers.all fun worker => !worker.isAtQueue

/-- Whether no more messages are queued. -/
def isClosed (pool : Pool) : Bool :=
  match pool.owner with
  | .queueing _ => false
  | .joining _ => true

/-- Whether all workers have stopped. -/
def isStopped (pool : Pool) : Bool := pool.workers.all (· == .stopped)

/-- Whether every worker was waited for. -/
def isShutDown (pool : Pool) : Bool :=
  match pool.owner with
  | .queueing _ => false
  | .joining workers => workers == pool.workers.length

/-- The next step of the owner. -/
def ownerNext (pool : Pool) : Option (PoolEvent × Pool) :=
  match pool.owner with
  | .queueing [] => some (.work, { pool with owner := .joining 0 })
  | .queueing (message :: messages) =>
    if pool.isStopped then some (.refuse message, { pool with owner := .queueing messages })
    else
      match pool.waiting with
      | none =>
        some (.queue message, { pool with owner := .queueing messages, waiting := some message })
      | some _ => none
  | .joining workers =>
    if pool.workers[workers]? = some .stopped then
      some (.work, { pool with owner := .joining (workers + 1) })
    else none

/-- The next step of the worker with the given number. -/
def workerNext (pool : Pool) (number : Nat) : Option (PoolEvent × Pool) := do
  let worker ← pool.workers[number]?
  let (event, worker, waiting) ← worker.next pool.isFree pool.isClosed pool.waiting
  some (event, { pool with waiting, workers := pool.workers.set number worker })

/-- Who takes a step in a pool. -/
inductive Actor where
  | owner
  | worker (number : Nat)
  deriving DecidableEq, Repr

/-- The next step of the owner or of a worker, and what the pool is afterwards. -/
def next (pool : Pool) : Actor → Option (PoolEvent × Pool)
  | .owner => pool.ownerNext
  | .worker number => pool.workerNext number

/-- What happens if the owner and the workers take turns by a schedule, and what the pool is
afterwards. Who can take no step lets its turn pass. -/
def play (pool : Pool) : List Actor → List PoolEvent × Pool
  | [] => ([], pool)
  | actor :: schedule =>
    match pool.next actor with
    | none => pool.play schedule
    | some (event, pool) => (event :: (pool.play schedule).1, (pool.play schedule).2)

/-- Handles messages one after the other, as a pool with one worker does. -/
def handleAll {σ : Type} (handle : Message → σ → σ) (messages : List Message) (s : σ) : σ :=
  messages.foldl (fun s message => handle message s) s

end Pool

end PlcGateway
