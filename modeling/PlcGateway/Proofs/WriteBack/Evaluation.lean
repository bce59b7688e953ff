import PlcGateway.Proofs.WriteBack.Delivery

/-!
# A worker that nobody disturbs

`Worker.Step` cuts the evaluation of a message into steps, and `WriteMap.evaluate` does it at once.
Where no other worker takes a step in between, the two agree: what `evaluate` would still do is the
same before and after every step (`rest_eq`), and the steps come to an end (`exists_alone`). So the
evaluation of a message is a run of one worker (`evaluate_run`), and every such run with the same
answers of the writer is that evaluation (`evaluate_eq_of_alone`).
-/

namespace PlcGateway

/-- The writer answers the write of the event so. Any other event leaves the writer alone. -/
def WorkerEvent.Answered {σ : Type} (write : Writer σ) (s s' : σ) : WorkerEvent → Prop
  | forward _ target value => write target value.toWrite s = (true, s')
  | fail _ target value => write target value.toWrite s = (false, s')
  | writeMapped message target succeeds => write target message.value.toWrite s = (succeeds, s')
  | _ => s' = s

/-- The value of a message was written by the mapping, with success. -/
def WorkerEvent.isMappedWrite : WorkerEvent → Bool
  | writeMapped _ _ succeeds => succeeds
  | _ => false

namespace Worker

variable {σ : Type}

/-- Steps that one worker takes with nobody in between, where a writer answers its writes. -/
inductive Alone (map : WriteMap) (write : Writer σ) :
    Worker → Cache → σ → List WorkerEvent → Worker → Cache → σ → Prop where
  | done (worker : Worker) (cache : Cache) (s : σ) :
      Alone map write worker cache s [] worker cache s
  | step {worker worker' last : Worker} {cache cache' final : Cache} {s s' t : σ}
      {event : WorkerEvent} {events : List WorkerEvent}
      (step : worker.Step map cache event worker' cache') (answered : event.Answered write s s')
      (more : Alone map write worker' cache' s' events last final t) :
      Alone map write worker cache s (event :: events) last final t

/-- What is left to be done when the rules were tried: whether the value of the message is written
by the mapping, and what the writer will be in the end. -/
def restMapped (map : WriteMap) (write : Writer σ) (message : Message) (s : σ) : Bool × σ :=
  match map.mappedFor? message with
  | some target => write target message.value.toWrite s
  | none => (false, s)

/-- What is left to be done when some rules are still to be tried: how many more of their writes
succeed, whether the value of the message is written by the mapping, and what the cache and the
writer will be in the end. -/
def restTrying (map : WriteMap) (write : Writer σ) (message : Message) (rules : List Rule)
    (cache : Cache) (s : σ) : Nat × Bool × Cache × σ :=
  let (count, cache, s) := map.fireAll write rules cache s
  let (written, s) := restMapped map write message s
  (count, written, cache, s)

/-- What is left to be done once a value has been taken for a rule. -/
def restWriting (map : WriteMap) (write : Writer σ) (message : Message) (rule : Rule)
    (target : WriteTarget) (value : RegisterValue) (rules : List Rule) (cache : Cache) (s : σ) :
    Nat × Bool × Cache × σ :=
  match write target value.toWrite s with
  | (true, s) =>
    (1 + (restTrying map write message rules cache s).1,
      (restTrying map write message rules cache s).2)
  | (false, s) => restTrying map write message rules (cache.restore rule.source value) s

/-- What is left to be done for the message of a worker. -/
def rest (map : WriteMap) (write : Writer σ) : Worker → Cache → σ → Nat × Bool × Cache × σ
  | idle, cache, s => (0, false, cache, s)
  | storing message, cache, s =>
    restTrying map write message map.rules (cache.store message.address message.value) s
  | trying message rules, cache, s => restTrying map write message rules cache s
  | taking message rule target rules, cache, s =>
    match cache.get? rule.source with
    | none => restTrying map write message rules cache s
    | some value =>
      restWriting map write message rule target value rules (cache.erase rule.source) s
  | writing message rule target value rules, cache, s =>
    restWriting map write message rule target value rules cache s
  | restoring message rule value rules, cache, s =>
    restTrying map write message rules (cache.restore rule.source value) s

end Worker

theorem Cache.erase_eq_self {cache : Cache} {address : String} (h : cache.get? address = none) :
    cache.erase address = cache := by
  obtain ⟨entries, ascending⟩ := cache
  unfold get? at h
  unfold erase
  congr 1
  rw [List.filter_eq_self]
  intro e he
  have hne := List.find?_eq_none.1 (Option.map_eq_none_iff.1 h) e he
  simpa using hne

namespace WriteMap

variable {σ : Type} {map : WriteMap} {write : Writer σ} {rule : Rule} {rules : List Rule}
  {cache : Cache} {s : σ}

theorem fireAll_cons (map : WriteMap) (write : Writer σ) (rule : Rule) (rules : List Rule)
    (cache : Cache) (s : σ) : map.fireAll write (rule :: rules) cache s =
      ((if (map.fire write rule cache s).1 then 1 else 0) +
          (map.fireAll write rules (map.fire write rule cache s).2.1
            (map.fire write rule cache s).2.2).1,
        (map.fireAll write rules (map.fire write rule cache s).2.1
          (map.fire write rule cache s).2.2).2) :=
  rfl

theorem fireAll_cons_of_pass (h : rule.isTriggered cache = false ∨ map.target? rule.source = none) :
    map.fireAll write (rule :: rules) cache s = map.fireAll write rules cache s := by
  have hfire : map.fire write rule cache s = (false, cache, s) := by
    unfold fire
    rcases h with h | h
    · simp [h]
    · simp [h]
  rw [fireAll_cons, hfire]
  simp

end WriteMap

namespace Worker

variable {σ : Type} {map : WriteMap} {write : Writer σ} {message : Message} {rule : Rule}
  {rules : List Rule} {cache : Cache} {s : σ}

theorem restTrying_of_pass (h : rule.isTriggered cache = false ∨ map.target? rule.source = none) :
    restTrying map write message (rule :: rules) cache s =
      restTrying map write message rules cache s := by
  unfold restTrying
  rw [WriteMap.fireAll_cons_of_pass h]

/-- A rule that is triggered and has a target is tried by taking its source. -/
theorem restTrying_of_trigger {target : WriteTarget} (triggered : rule.isTriggered cache = true)
    (mapped : map.target? rule.source = some target) :
    restTrying map write message (rule :: rules) cache s =
      rest map write (.taking message rule target rules) cache s := by
  unfold restTrying rest
  rw [WriteMap.fireAll_cons]
  unfold WriteMap.fire Cache.take
  rw [if_pos triggered, mapped]
  cases hget : cache.get? rule.source with
  | none => simp [hget, Cache.erase_eq_self hget, restTrying]
  | some value =>
    unfold restWriting
    rcases hwrite : write target value.toWrite s with ⟨_ | _, s'⟩
    · simp [hget, hwrite, restTrying]
    · simp [hget, hwrite, restTrying]

/-- What is done for a message whose value is not stored, when the rules were tried. -/
theorem restMapped_of_not_participates (h : map.participates message.address = false) :
    restMapped map write message s = map.writeMapped write message s := by
  unfold restMapped WriteMap.mappedFor? WriteMap.writeMapped
  cases map.target? message.address with
  | none => simp
  | some target => cases hvalue : message.value.isNonzero <;> simp [h]

theorem restMapped_of_participates (h : map.participates message.address = true) :
    restMapped map write message s = (false, s) := by
  unfold restMapped WriteMap.mappedFor?
  simp [h]

/-- Evaluating a message is to store its value, if that is to be stored, and to do what is left. -/
theorem evaluate_eq_restTrying (map : WriteMap) (write : Writer σ) (message : Message)
    (cache : Cache) (s : σ) :
    map.evaluate write message cache s =
      let stored := if map.participates message.address then
        cache.store message.address message.value else cache
      let rest := restTrying map write message map.rules stored s
      ({ cached := map.participates message.address
         conditionalWrites := rest.1
         defaultWrite := rest.2.1 }, rest.2.2) := by
  unfold WriteMap.evaluate restTrying
  cases h : map.participates message.address with
  | true => simp [restMapped_of_participates h]
  | false => simp [restMapped_of_not_participates h]

/-- Whatever a step does, apart from taking up a message, is part of what was left to be done. -/
theorem Step.rest_eq {worker worker' : Worker} {cache cache' : Cache} {event : WorkerEvent}
    {s s' : σ} (step : worker.Step map cache event worker' cache')
    (answered : event.Answered write s s') (busy : event.message? = none) :
    worker.rest map write cache s =
      (event.forward?.toList.length + (worker'.rest map write cache' s').1,
        event.isMappedWrite || (worker'.rest map write cache' s').2.1,
        (worker'.rest map write cache' s').2.2) := by
  cases step with
  | begin_storing => exact absurd busy (by simp [WorkerEvent.message?])
  | begin_trying => exact absurd busy (by simp [WorkerEvent.message?])
  | store =>
    obtain rfl : s' = s := answered
    simp [rest, WorkerEvent.forward?, WorkerEvent.isMappedWrite]
  | pass message rule rules cache idle =>
    obtain rfl : s' = s := answered
    simp [rest, WorkerEvent.forward?, WorkerEvent.isMappedWrite, restTrying_of_pass idle]
  | trigger message rule rules target cache triggered mapped =>
    obtain rfl : s' = s := answered
    show restTrying map write message (rule :: rules) cache s' = _
    rw [restTrying_of_trigger triggered mapped]
    simp [WorkerEvent.forward?, WorkerEvent.isMappedWrite]
  | miss message rule rules target cache missing =>
    obtain rfl : s' = s := answered
    simp [rest, WorkerEvent.forward?, WorkerEvent.isMappedWrite, missing]
  | take message rule rules target value cache cached =>
    obtain rfl : s' = s := answered
    simp [rest, WorkerEvent.forward?, WorkerEvent.isMappedWrite, cached]
  | forward message rule rules target value cache =>
    have hwrite : write target value.toWrite s = (true, s') := answered
    simp [rest, restWriting, WorkerEvent.forward?, WorkerEvent.isMappedWrite, hwrite]
  | fail message rule rules target value cache =>
    have hwrite : write target value.toWrite s = (false, s') := answered
    simp [rest, restWriting, WorkerEvent.forward?, WorkerEvent.isMappedWrite, hwrite]
  | restore =>
    obtain rfl : s' = s := answered
    simp [rest, WorkerEvent.forward?, WorkerEvent.isMappedWrite]
  | writeMapped message target succeeds cache due =>
    have hwrite : write target message.value.toWrite s = (succeeds, s') := answered
    simp [rest, restTrying, restMapped, WriteMap.fireAll, WorkerEvent.forward?,
      WorkerEvent.isMappedWrite, due, hwrite]
  | finish message cache stays =>
    obtain rfl : s' = s := answered
    simp [rest, restTrying, restMapped, WriteMap.fireAll, WorkerEvent.forward?,
      WorkerEvent.isMappedWrite, stays]

/-- A worker that comes to its end alone has done what was left to be done. -/
theorem Alone.rest_eq {worker last : Worker} {cache final : Cache} {s t : σ}
    {events : List WorkerEvent} (alone : Alone map write worker cache s events last final t)
    (idle : last = .idle) (busy : ∀ event ∈ events, event.message? = none) :
    worker.rest map write cache s =
      ((events.filterMap WorkerEvent.forward?).length, events.any WorkerEvent.isMappedWrite, final,
        t) := by
  induction alone with
  | done =>
    subst idle
    rfl
  | @step _ _ _ _ _ _ _ _ _ event events step answered more ih =>
    have hnone := busy event List.mem_cons_self
    have hmore := ih idle fun e he => busy e (List.mem_cons_of_mem _ he)
    rw [step.rest_eq answered hnone, hmore, List.filterMap_cons, List.any_cons]
    cases event.forward? with
    | none => simp
    | some forward => simp [Nat.add_comm]

/-! ## The steps come to an end -/

/-- The worker can come to the end of its message alone. -/
def Ends (map : WriteMap) (write : Writer σ) (worker : Worker) (cache : Cache) (s : σ) : Prop :=
  ∃ events final t, Alone map write worker cache s events .idle final t ∧
    ∀ event ∈ events, event.message? = none

theorem Ends.of_step {worker worker' : Worker} {cache cache' : Cache} {event : WorkerEvent}
    {s s' : σ} (step : worker.Step map cache event worker' cache')
    (answered : event.Answered write s s') (busy : event.message? = none)
    (more : Ends map write worker' cache' s') : Ends map write worker cache s := by
  obtain ⟨events, final, t, alone, hmore⟩ := more
  refine ⟨event :: events, final, t, .step step answered alone, fun e he => ?_⟩
  rcases List.mem_cons.1 he with rfl | he
  · exact busy
  · exact hmore e he

theorem trying_ends (map : WriteMap) (write : Writer σ) (message : Message) (rules : List Rule)
    (cache : Cache) (s : σ) : Ends map write (.trying message rules) cache s := by
  induction rules generalizing cache s with
  | nil =>
    have idle (t : σ) : Ends map write .idle cache t := ⟨[], cache, t, .done _ _ _, by simp⟩
    cases hmapped : map.mappedFor? message with
    | none => exact (idle s).of_step (.finish message cache hmapped) rfl rfl
    | some target =>
      exact (idle _).of_step (.writeMapped message target _ cache hmapped) rfl rfl
  | cons rule rules ih =>
    by_cases htriggered : rule.isTriggered cache = true
    · cases hmapped : map.target? rule.source with
      | none => exact (ih cache s).of_step (.pass _ _ _ _ (.inr hmapped)) rfl rfl
      | some target =>
        refine .of_step (.trigger _ _ _ _ _ htriggered hmapped) rfl rfl ?_
        cases hget : cache.get? rule.source with
        | none => exact (ih cache s).of_step (.miss _ _ _ _ _ hget) rfl rfl
        | some value =>
          refine .of_step (.take _ _ _ _ _ _ hget) rfl rfl ?_
          rcases hwrite : write target value.toWrite s with ⟨_ | _, s'⟩
          · refine .of_step (.fail _ _ _ _ _ _) hwrite rfl ?_
            exact (ih _ s').of_step (.restore _ _ _ _ _) rfl rfl
          · exact (ih _ s').of_step (.forward _ _ _ _ _ _) hwrite rfl
    · have huntriggered := Bool.eq_false_iff.2 htriggered
      exact (ih cache s).of_step (.pass _ _ _ _ (.inl huntriggered)) rfl rfl

/-- A worker that takes up a message comes to the end of it. -/
theorem exists_alone (map : WriteMap) (write : Writer σ) (message : Message) (cache : Cache)
    (s : σ) : ∃ events final t,
      Alone map write .idle cache s (.begin message :: events) .idle final t ∧
        ∀ event ∈ events, event.message? = none := by
  by_cases h : map.participates message.address = true
  · have hstored := trying_ends map write message map.rules
      (cache.store message.address message.value) s
    obtain ⟨events, final, t, alone, busy⟩ := hstored.of_step (.store message cache) rfl rfl
    exact ⟨events, final, t, .step (.begin_storing message cache h) rfl alone, busy⟩
  · obtain ⟨events, final, t, alone, busy⟩ := trying_ends map write message map.rules cache s
    exact ⟨events, final, t, .step (.begin_trying message cache (Bool.eq_false_iff.2 h)) rfl alone,
      busy⟩

/-- A worker that goes through a message alone does what `evaluate` does: it forwards as many
values, writes the message itself or not, and leaves the same cache and writer. -/
theorem evaluate_eq_of_alone {message : Message} {cache final : Cache} {s t : σ}
    {events : List WorkerEvent}
    (alone : Alone map write .idle cache s (.begin message :: events) .idle final t)
    (busy : ∀ event ∈ events, event.message? = none) :
    map.evaluate write message cache s =
      ({ cached := map.participates message.address
         conditionalWrites := (events.filterMap WorkerEvent.forward?).length
         defaultWrite := events.any WorkerEvent.isMappedWrite }, final, t) := by
  cases alone with
  | step begins answered more =>
    obtain rfl := answered
    have hrest := more.rest_eq rfl busy
    rw [evaluate_eq_restTrying]
    cases begins with
    | begin_storing _ _ caches =>
      change restTrying map write message map.rules (cache.store message.address message.value) _ =
        _ at hrest
      simp only [caches, hrest, if_true]
    | begin_trying _ _ caches =>
      change restTrying map write message map.rules cache _ = _ at hrest
      simp only [caches, hrest, Bool.false_eq_true, if_false]

theorem Alone.run {worker last : Worker} {cache final : Cache} {s t : σ} {events : List WorkerEvent}
    (alone : Alone map write worker cache s events last final t) (before after : List Worker) :
    Crew.Run map ⟨cache, before ++ worker :: after⟩ (events.map (Prod.mk before.length))
      ⟨final, before ++ last :: after⟩ := by
  induction alone with
  | done => exact .nil
  | step step _ _ ih =>
    exact (Crew.Run.single (.one before after _ _ _ _ _ step)).append ih

end Worker

/-- The evaluation of a message is a run of any one idle worker of a crew, in which nobody else
takes a step and as many writes succeed as `evaluate` counts. -/
theorem WriteMap.evaluate_run {σ : Type} (map : WriteMap) (write : Writer σ) (message : Message)
    (cache : Cache) (s : σ) (before after : List Worker) :
    ∃ events, Crew.Run map ⟨cache, before ++ .idle :: after⟩ events
        ⟨(map.evaluate write message cache s).2.1, before ++ .idle :: after⟩ ∧
      Crew.takenUp events = [message] ∧
      (Crew.forwards events).length = (map.evaluate write message cache s).1.conditionalWrites := by
  obtain ⟨events, final, t, alone, busy⟩ := Worker.exists_alone map write message cache s
  have hevaluate := Worker.evaluate_eq_of_alone alone busy
  rw [hevaluate]
  refine ⟨_, alone.run before after, ?_, ?_⟩
  · unfold Crew.takenUp
    rw [List.filterMap_map, List.filterMap_cons]
    have hmore : events.filterMap WorkerEvent.message? = [] := List.filterMap_eq_nil_iff.2 busy
    exact congrArg (message :: ·) hmore
  · unfold Crew.forwards
    rw [List.filterMap_map, List.filterMap_cons]
    rfl

end PlcGateway
