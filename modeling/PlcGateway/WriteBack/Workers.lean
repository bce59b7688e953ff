import PlcGateway.WriteBack.Engine

/-!
# Workers that share a cache

The workers of a pool apply one write map to their messages over one shared cache. A worker goes
through its message in single steps: it stores the value, and for each rule in order it looks at the
bit, takes the source, writes it, and puts it back if the write has failed. In the end it writes the
value of the message itself, if that was not to be stored. Between two steps of one worker the
others may take any number of steps. `Worker.Step` is a step of one worker, and `Crew.Step` lets any
worker take the next one.

With a single worker this is what `WriteMap.evaluate` does.
-/

namespace PlcGateway

/-- Where the value of a message is written by the mapping of its address. A value that is to be
stored, and one that stands for no integer or for zero, is not written so. -/
def WriteMap.mappedFor? (map : WriteMap) (message : Message) : Option WriteTarget :=
  if map.participates message.address || !message.value.isNonzero then none
  else map.target? message.address

theorem WriteMap.target?_of_mappedFor? {map : WriteMap} {message : Message} {target : WriteTarget}
    (h : map.mappedFor? message = some target) : map.target? message.address = some target := by
  unfold mappedFor? at h
  split at h
  · cases h
  · exact h

/-- How far a worker is with its message. The list holds the rules that are still to be tried. -/
inductive Worker where
  | idle
  /-- The value of the message is to be stored. -/
  | storing (message : Message)
  /-- The bit of the first rule is to be looked at. -/
  | trying (message : Message) (rules : List Rule)
  /-- The bit of the rule met its condition, and the source is to be taken. -/
  | taking (message : Message) (rule : Rule) (target : WriteTarget) (rules : List Rule)
  /-- The source was taken and is to be written. -/
  | writing (message : Message) (rule : Rule) (target : WriteTarget) (value : RegisterValue)
      (rules : List Rule)
  /-- The write has failed, and the source is to be put back. -/
  | restoring (message : Message) (rule : Rule) (value : RegisterValue) (rules : List Rule)
  deriving DecidableEq

/-- What a step does that others can see. -/
inductive WorkerEvent where
  /-- The worker takes up a message. -/
  | begin (message : Message)
  /-- The worker stores the value of its message. -/
  | store (message : Message)
  /-- The worker does nothing but look into the cache. -/
  | look
  /-- The worker takes the source of a rule. -/
  | take (rule : Rule) (value : RegisterValue)
  /-- The worker writes a source, and the write succeeds. -/
  | forward (rule : Rule) (target : WriteTarget) (value : RegisterValue)
  /-- The worker writes a source, and the write fails. -/
  | fail (rule : Rule) (target : WriteTarget) (value : RegisterValue)
  /-- The worker puts a source back. -/
  | restore (rule : Rule) (value : RegisterValue)
  /-- The worker writes the value of its message by the mapping, and is done with the message. -/
  | writeMapped (message : Message) (target : WriteTarget) (succeeds : Bool)
  /-- The worker is done with its message, whose value was not to be written. -/
  | finish (message : Message)
  deriving DecidableEq

/-- A step of one worker: where it was and what the cache was, what it does, and where it is and
what the cache is afterwards. -/
inductive Worker.Step (map : WriteMap) :
    Worker → Cache → WorkerEvent → Worker → Cache → Prop where
  | begin_storing (message : Message) (cache : Cache)
      (caches : map.participates message.address = true) :
      Step map .idle cache (.begin message) (.storing message) cache
  | begin_trying (message : Message) (cache : Cache)
      (caches : map.participates message.address = false) :
      Step map .idle cache (.begin message) (.trying message map.rules) cache
  | store (message : Message) (cache : Cache) :
      Step map (.storing message) cache (.store message) (.trying message map.rules)
        (cache.store message.address message.value)
  /-- The rule is not triggered, or its source is not mapped. -/
  | pass (message : Message) (rule : Rule) (rules : List Rule) (cache : Cache)
      (idle : rule.isTriggered cache = false ∨ map.target? rule.source = none) :
      Step map (.trying message (rule :: rules)) cache .look (.trying message rules) cache
  | trigger (message : Message) (rule : Rule) (rules : List Rule) (target : WriteTarget)
      (cache : Cache) (triggered : rule.isTriggered cache = true)
      (mapped : map.target? rule.source = some target) :
      Step map (.trying message (rule :: rules)) cache .look
        (.taking message rule target rules) cache
  /-- The source is not cached. -/
  | miss (message : Message) (rule : Rule) (rules : List Rule) (target : WriteTarget)
      (cache : Cache) (missing : cache.get? rule.source = none) :
      Step map (.taking message rule target rules) cache .look (.trying message rules) cache
  | take (message : Message) (rule : Rule) (rules : List Rule) (target : WriteTarget)
      (value : RegisterValue) (cache : Cache) (cached : cache.get? rule.source = some value) :
      Step map (.taking message rule target rules) cache (.take rule value)
        (.writing message rule target value rules) (cache.erase rule.source)
  | forward (message : Message) (rule : Rule) (rules : List Rule) (target : WriteTarget)
      (value : RegisterValue) (cache : Cache) :
      Step map (.writing message rule target value rules) cache (.forward rule target value)
        (.trying message rules) cache
  | fail (message : Message) (rule : Rule) (rules : List Rule) (target : WriteTarget)
      (value : RegisterValue) (cache : Cache) :
      Step map (.writing message rule target value rules) cache (.fail rule target value)
        (.restoring message rule value rules) cache
  | restore (message : Message) (rule : Rule) (rules : List Rule) (value : RegisterValue)
      (cache : Cache) :
      Step map (.restoring message rule value rules) cache (.restore rule value)
        (.trying message rules) (cache.restore rule.source value)
  | writeMapped (message : Message) (target : WriteTarget) (succeeds : Bool) (cache : Cache)
      (due : map.mappedFor? message = some target) :
      Step map (.trying message []) cache (.writeMapped message target succeeds) .idle cache
  | finish (message : Message) (cache : Cache) (stays : map.mappedFor? message = none) :
      Step map (.trying message []) cache (.finish message) .idle cache

/-- Workers and the cache that they share. -/
structure Crew where
  cache : Cache
  workers : List Worker

namespace Crew

/-- A crew of idle workers with an empty cache. -/
def start (size : Nat) : Crew := ⟨Cache.empty, List.replicate size .idle⟩

/-- A step of any one worker, with the number of that worker. -/
inductive Step (map : WriteMap) : Crew → Nat × WorkerEvent → Crew → Prop where
  | one (before after : List Worker) (worker worker' : Worker) (cache cache' : Cache)
      (event : WorkerEvent) (step : worker.Step map cache event worker' cache') :
      Step map ⟨cache, before ++ worker :: after⟩ (before.length, event)
        ⟨cache', before ++ worker' :: after⟩

/-- The steps of a crew from a first state to a later one, with all that has happened, in order, and
which worker did it. -/
inductive Run (map : WriteMap) (first : Crew) : List (Nat × WorkerEvent) → Crew → Prop where
  | nil : Run map first [] first
  | snoc {crew crew' : Crew} {events : List (Nat × WorkerEvent)} {event : Nat × WorkerEvent}
      (run : Run map first events crew) (step : Step map crew event crew') :
      Run map first (events ++ [event]) crew'

/-- Whether every worker is idle. -/
def isIdle (crew : Crew) : Prop := ∀ worker ∈ crew.workers, worker = .idle

instance (crew : Crew) : Decidable crew.isIdle :=
  inferInstanceAs (Decidable (∀ worker ∈ crew.workers, worker = .idle))

end Crew

end PlcGateway
