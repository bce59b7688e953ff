import PlcGateway.Proofs.Register.Real
import PlcGateway.Proofs.WriteBack.Account
import PlcGateway.Proofs.WriteBack.Trigger

/-!
# Real numbers and the engine

The text of a real number stands for no integer. A message with such a value is not written by the
mapping of its address, in no run of any crew (`Run.not_isReal_of_writeMapped`), and a rule with
such a value at its bit is not triggered. So while the value stays at the bit, no worker begins to
fire the rule. A worker that has found the rule triggered before, and was overtaken by the worker
that brought the value, may still take the source and write it, each once
(`RunWhile.firings_sublist`, `Run.overtaken`). It does so in `forwarded_over_real`, and never if it
is alone (`Run.firingLeft_alone`).
-/

namespace PlcGateway

/-! ## Values that stand for no integer -/

/-- A value that a single-precision number is read as. -/
def RegisterValue.IsReal (value : RegisterValue) : Prop :=
  ∃ payload, RegisterFormat.real.decode payload = .ok value

theorem RegisterValue.IsReal.integer?_eq_none {value : RegisterValue} (real : value.IsReal) :
    value.integer? = none := by
  obtain ⟨payload, h⟩ := real
  exact RegisterFormat.integer?_of_decode_real h

namespace Rule

/-- The bit of a rule is cached with a real number. -/
def HasReal (rule : Rule) (cache : Cache) : Prop :=
  ∃ value, cache.get? rule.bit = some value ∧ value.IsReal

theorem HasReal.not_isTriggered {rule : Rule} {cache : Cache} (h : rule.HasReal cache) :
    rule.isTriggered cache = false := by
  obtain ⟨value, hbit, real⟩ := h
  rw [isTriggered_eq_any, hbit, Option.any_some, accepts, real.integer?_eq_none, Option.any_none]

theorem not_hasReal_of_isTriggered {rule : Rule} {cache : Cache}
    (h : rule.isTriggered cache = true) : ¬ rule.HasReal cache := by
  intro real
  exact Bool.false_ne_true (real.not_isTriggered.symm.trans h)

end Rule

namespace WriteMap

variable {σ : Type} {map : WriteMap} {write : Writer σ} {rule : Rule} {cache : Cache} {s : σ}
  {message : Message}

theorem fire_of_hasReal (h : rule.HasReal cache) :
    map.fire write rule cache s = (false, cache, s) := by
  unfold fire
  simp [h.not_isTriggered]

theorem writeMapped_eq_of_integer? (h : message.value.integer? = none) :
    map.writeMapped write message s = (false, s) := by
  have hzero : message.value.isNonzero = false := by
    unfold RegisterValue.isNonzero
    rw [h]
  unfold writeMapped
  cases map.target? message.address with
  | none => rfl
  | some target => simp [hzero]

/-- A message whose value stands for no integer is cached or not, and makes the rules be tried. That
is all. -/
theorem evaluate_of_integer? (h : message.value.integer? = none) :
    map.evaluate write message cache s =
      ({ cached := map.participates message.address
         conditionalWrites := (map.fireAll write map.rules (map.hold message cache) s).1 },
        (map.fireAll write map.rules (map.hold message cache) s).2) := by
  rw [evaluate_eq]
  simp only [writeMapped_eq_of_integer? h]
  cases map.participates message.address with
  | true => rfl
  | false => rfl

theorem mappedFor?_eq_none_of_integer? (h : message.value.integer? = none) :
    map.mappedFor? message = none := by
  unfold mappedFor? RegisterValue.isNonzero
  simp [h]

end WriteMap

/-! ## Steps of a worker -/

/-- What a worker does for a rule that it has found triggered. -/
inductive FiringStep where
  /-- It takes the source. -/
  | take
  /-- It writes the source. -/
  | write
  deriving DecidableEq

namespace WorkerEvent

/-- What the event does for the rule; a write counts whether or not it succeeds. -/
def firing? (rule : Rule) : WorkerEvent → Option FiringStep
  | take fired _ => if fired = rule then some .take else none
  | forward fired _ _ => if fired = rule then some .write else none
  | fail fired _ _ => if fired = rule then some .write else none
  | _ => none

/-- The event stores a real number at the bit of the rule, or puts one back there. -/
def BringsReal (rule : Rule) : WorkerEvent → Prop
  | store message => message.address = rule.bit ∧ message.value.IsReal
  | restore restored value => restored.source = rule.bit ∧ value.IsReal
  | _ => False

end WorkerEvent

namespace Worker

variable {map : WriteMap} {worker worker' : Worker} {cache cache' : Cache} {event : WorkerEvent}
  {rule : Rule} {message : Message} {target : WriteTarget} {succeeds : Bool}

theorem Step.of_writeMapped
    (step : worker.Step map cache (.writeMapped message target succeeds) worker' cache') :
    map.mappedFor? message = some target := by
  cases step with
  | writeMapped _ _ _ _ due => exact due

theorem Step.bringsReal (step : worker.Step map cache event worker' cache')
    (absent : ¬ rule.HasReal cache) (h : rule.HasReal cache') : event.BringsReal rule := by
  obtain ⟨value, hbit, real⟩ := h
  cases step with
  | store message =>
    rw [Cache.get?_store] at hbit
    split at hbit
    · next haddress =>
      obtain rfl : message.value = value := Option.some.inj hbit
      exact ⟨haddress, real⟩
    · exact absurd ⟨value, hbit, real⟩ absent
  | take message taken =>
    rw [Cache.get?_erase] at hbit
    split at hbit
    · cases hbit
    · exact absurd ⟨value, hbit, real⟩ absent
  | restore message restored _ back =>
    rw [Cache.get?_restore] at hbit
    split at hbit
    · next hsource =>
      cases hcached : cache.get? restored.source with
      | none =>
        rw [hcached] at hbit
        obtain rfl : back = value := Option.some.inj hbit
        exact ⟨hsource, real⟩
      | some other =>
        rw [hcached] at hbit
        obtain rfl : other = value := Option.some.inj hbit
        exact absurd ⟨other, hsource ▸ hcached, real⟩ absent
    · exact absurd ⟨value, hbit, real⟩ absent
  | _ => exact absurd ⟨value, hbit, real⟩ absent

/-- What a worker has still to do for a rule that it has found triggered. -/
def firingLeft (rule : Rule) : Worker → List FiringStep
  | taking _ fired _ _ => if fired = rule then [.take, .write] else []
  | writing _ fired _ _ _ => if fired = rule then [.write] else []
  | _ => []

theorem cases_of_firingLeft_ne_nil (h : worker.firingLeft rule ≠ []) :
    (∃ message target rules, worker = .taking message rule target rules) ∨
      ∃ message target value rules, worker = .writing message rule target value rules := by
  cases worker with
  | taking message fired target rules =>
    by_cases hfired : fired = rule
    · subst hfired
      exact .inl ⟨message, target, rules, rfl⟩
    · simp [firingLeft, hfired] at h
  | writing message fired target value rules =>
    by_cases hfired : fired = rule
    · subst hfired
      exact .inr ⟨message, target, value, rules, rfl⟩
    · simp [firingLeft, hfired] at h
  | _ => exact absurd rfl h

/-- While a rule is not triggered, a worker does not begin to fire it, and what it does for it is
what it had to do next. -/
theorem Step.firingLeft_sublist (step : worker.Step map cache event worker' cache')
    (untriggered : rule.isTriggered cache = false) :
    ((event.firing? rule).toList ++ worker'.firingLeft rule).Sublist (worker.firingLeft rule) := by
  cases step with
  | trigger _ fired _ _ _ triggered =>
    have hfired : fired ≠ rule := by
      rintro rfl
      exact Bool.false_ne_true (untriggered.symm.trans triggered)
    simp [WorkerEvent.firing?, firingLeft, hfired]
  | take _ fired => by_cases h : fired = rule <;> simp [WorkerEvent.firing?, firingLeft, h]
  | forward _ fired => by_cases h : fired = rule <;> simp [WorkerEvent.firing?, firingLeft, h]
  | fail _ fired => by_cases h : fired = rule <;> simp [WorkerEvent.firing?, firingLeft, h]
  | _ => exact List.nil_sublist _

end Worker

/-! ## Runs -/

namespace Crew

/-- A run in which the cache has a property before every step. -/
inductive RunWhile (map : WriteMap) (P : Cache → Prop) (first : Crew) :
    List (Nat × WorkerEvent) → Crew → Prop where
  | nil : RunWhile map P first [] first
  | snoc {crew crew' : Crew} {events : List (Nat × WorkerEvent)} {event : Nat × WorkerEvent}
      (run : RunWhile map P first events crew) (meanwhile : P crew.cache)
      (step : Step map crew event crew') : RunWhile map P first (events ++ [event]) crew'

/-- What worker `i` has done for a rule. -/
def firings (events : List (Nat × WorkerEvent)) (i : Nat) (rule : Rule) : List FiringStep :=
  events.filterMap fun e => if e.1 = i then e.2.firing? rule else none

/-- What worker `i` has still to do for a rule that it has found triggered. -/
def firingLeft (crew : Crew) (i : Nat) (rule : Rule) : List FiringStep :=
  crew.workers[i]?.elim [] (Worker.firingLeft rule)

variable {map : WriteMap} {P Q : Cache → Prop} {first crew crew' : Crew}
  {events : List (Nat × WorkerEvent)} {rule : Rule} {i : Nat}

theorem RunWhile.mono (run : RunWhile map P first events crew) (h : ∀ cache, P cache → Q cache) :
    RunWhile map Q first events crew := by
  induction run with
  | nil => exact .nil
  | snoc _ meanwhile step ih => exact .snoc ih (h _ meanwhile) step

/-- A run begins with the property unless nothing happens in it. -/
theorem RunWhile.first_or (run : RunWhile map P first events crew) :
    P first.cache ∨ events = [] ∧ crew = first := by
  induction run with
  | nil => exact .inr ⟨rfl, rfl⟩
  | snoc _ meanwhile _ ih =>
    rcases ih with h | ⟨-, rfl⟩
    · exact .inl h
    · exact .inl meanwhile

/-- No run makes or tries to make a write of a real number by the mapping of its address. -/
theorem Run.not_isReal_of_writeMapped (run : Run map first events crew) {message : Message}
    {target : WriteTarget} {succeeds : Bool}
    (h : (i, .writeMapped message target succeeds) ∈ events) : ¬ message.value.IsReal := by
  intro real
  obtain ⟨_, _, _, -, step⟩ := run.exists_step h
  obtain ⟨_, _, -, hstep, -⟩ := step.of_worker
  have hnone : map.mappedFor? message = none :=
    WriteMap.mappedFor?_eq_none_of_integer? real.integer?_eq_none
  exact Option.some_ne_none target (hstep.of_writeMapped.symm.trans hnone)

theorem Step.firingLeft_sublist {e : Nat × WorkerEvent} (step : Step map crew e crew')
    (untriggered : rule.isTriggered crew.cache = false) (i : Nat) :
    (firings [e] i rule ++ crew'.firingLeft i rule).Sublist (crew.firingLeft i rule) := by
  obtain ⟨j, event⟩ := e
  obtain ⟨worker, worker', found, hstep, hset⟩ := step.of_worker
  unfold firingLeft
  rw [hset]
  by_cases hj : j = i
  · subst hj
    obtain ⟨hlt, -⟩ := List.getElem?_eq_some_iff.1 found
    have hworker := hstep.firingLeft_sublist untriggered
    cases hfiring : event.firing? rule <;>
      simpa [firings, List.getElem?_set_self hlt, found, hfiring] using hworker
  · simp [firings, List.getElem?_set_ne hj, hj]

/-- While a rule is not triggered, each worker only does for it what it had still to do at first. -/
theorem RunWhile.firings_sublist
    (run : RunWhile map (fun cache => rule.isTriggered cache = false) first events crew) (i : Nat) :
    (firings events i rule ++ crew.firingLeft i rule).Sublist (first.firingLeft i rule) := by
  induction run with
  | nil => exact List.Sublist.refl _
  | @snoc mid last events e _ meanwhile step ih =>
    have happend : firings (events ++ [e]) i rule = firings events i rule ++ firings [e] i rule :=
      List.filterMap_append
    rw [happend, List.append_assoc]
    exact ((step.firingLeft_sublist meanwhile i).append_left _).trans ih

theorem Run.exists_bringsReal (run : Run map first events crew)
    (absent : ¬ rule.HasReal first.cache) (h : rule.HasReal crew.cache) :
    ∃ e ∈ events, e.2.BringsReal rule := by
  induction run with
  | nil => exact absurd h absent
  | @snoc mid _ events e _ step ih =>
    by_cases hmid : rule.HasReal mid.cache
    · obtain ⟨e, he, hbrings⟩ := ih hmid
      exact ⟨e, List.mem_append_left _ he, hbrings⟩
    · obtain ⟨_, _, -, hstep, -⟩ := step.of_worker
      exact ⟨e, by simp, hstep.bringsReal hmid h⟩

/-- A worker that has still something to do for a rule has found it triggered, and since then it has
done nothing but take the source. -/
theorem Run.looked_of_firingLeft (run : Run map first events crew) (idle : first.isIdle)
    (h : crew.firingLeft i rule ≠ []) :
    ∃ earlier later seen, events = earlier ++ (i, .look) :: later ∧
      Run map first earlier seen ∧ Run map seen ((i, .look) :: later) crew ∧
      rule.isTriggered seen.cache = true ∧
      ∀ e ∈ later, e.1 = i → ∃ value, e.2 = .take rule value := by
  unfold firingLeft at h
  cases hworker : crew.workers[i]? with
  | none =>
    rw [hworker] at h
    exact absurd rfl h
  | some worker =>
    rw [hworker] at h
    rcases Worker.cases_of_firingLeft_ne_nil h with ⟨message, target, rules, rfl⟩ |
      ⟨message, target, value, rules, rfl⟩
    · obtain ⟨earlier, later, seen, rfl, hearlier, hlater, hquiet, -, htriggered⟩ :=
        run.looked idle hworker
      exact ⟨earlier, later, seen, rfl, hearlier, hlater, htriggered,
        fun e he heq => absurd heq (hquiet e he)⟩
    · -- the worker looked before it took the source, which was its last step
      obtain ⟨before, after, taken, next, rfl, hbefore, htake, hafter, hquiet, -⟩ :=
        run.took idle hworker
      obtain ⟨taker, _, found, hstep, -⟩ := htake.of_worker
      obtain ⟨message', target', rules', rfl, -⟩ := hstep.of_take
      obtain ⟨earlier, later, seen, rfl, hearlier, hlater, hquiet', -, htriggered⟩ :=
        hbefore.looked idle found
      refine ⟨earlier, later ++ (i, .take rule value) :: after, seen, by simp, hearlier, ?_,
        htriggered, ?_⟩
      · simpa using hlater.append ((Run.single htake).append hafter)
      · intro e he heq
        rcases List.mem_append.1 he with he | he
        · exact absurd heq (hquiet' e he)
        · rcases List.mem_cons.1 he with rfl | he
          · exact ⟨value, rfl⟩
          · exact absurd heq (hquiet e he)

/-- In this run worker `i` has found the rule triggered, and afterwards another worker has brought a
real number to the bit. -/
def Overtaken (map : WriteMap) (first : Crew) (events : List (Nat × WorkerEvent)) (i : Nat)
    (rule : Rule) : Prop :=
  ∃ earlier later seen, events = earlier ++ (i, .look) :: later ∧ Run map first earlier seen ∧
    rule.isTriggered seen.cache = true ∧ ∃ e ∈ later, e.1 ≠ i ∧ e.2.BringsReal rule

theorem Run.overtaken (run : Run map first events crew) (idle : first.isIdle)
    (real : rule.HasReal crew.cache) (h : crew.firingLeft i rule ≠ []) :
    Overtaken map first events i rule := by
  obtain ⟨earlier, later, seen, rfl, hearlier, hlater, htriggered, htakes⟩ :=
    run.looked_of_firingLeft idle h
  refine ⟨earlier, later, seen, rfl, hearlier, htriggered, ?_⟩
  obtain ⟨e, he, hbrings⟩ :=
    hlater.exists_bringsReal (Rule.not_hasReal_of_isTriggered htriggered) real
  -- the worker itself has looked and taken the source, and neither brings a number
  rcases List.mem_cons.1 he with rfl | he
  · exact hbrings.elim
  · refine ⟨e, he, fun heq => ?_, hbrings⟩
    obtain ⟨value, htake⟩ := htakes e he heq
    rw [htake] at hbrings
    exact hbrings

/-- In a crew of one, nobody else brings a number between the look and the write. -/
theorem Run.firingLeft_alone (run : Run map (start 1) events crew) (real : rule.HasReal crew.cache)
    (i : Nat) : crew.firingLeft i rule = [] := by
  by_contra hleft
  obtain ⟨earlier, later, seen, rfl, -, -, e, he, hother, -⟩ :=
    run.overtaken (start_isIdle 1) real hleft
  have hi : i < 1 := run.worker_lt (i, .look) (by simp)
  have he : e.1 < 1 := run.worker_lt e (by simp [he])
  omega

end Crew

/-! ## Real numbers -/

/-- Any four bytes are read as a real number, and no real number stands for an integer. A message
with a real number makes nothing be written but what the rules write, and no crew ever writes a real
number by the mapping of its address. A rule with a real number at its bit is not fired. While the
number stays at the bit, a worker only takes and writes the source of the rule, each once, if it has
found the rule triggered before another worker brought the number. So a worker that is alone takes
and writes nothing. -/
theorem WriteMap.real_fires_nothing (map : WriteMap) {payload : List UInt8}
    (long : 4 ≤ payload.length) :
    (∃ value, RegisterFormat.real.decode payload = .ok value ∧ value.integer? = none ∧
      ∀ {σ : Type} (write : Writer σ) (address source : String) (cache : Cache) (s : σ),
        map.evaluate write ⟨address, value, source⟩ cache s =
          ({ cached := map.participates address
             conditionalWrites :=
              (map.fireAll write map.rules (map.hold ⟨address, value, source⟩ cache) s).1
             defaultWrite := false },
            (map.fireAll write map.rules (map.hold ⟨address, value, source⟩ cache) s).2)) ∧
    (∀ (rule : Rule) {σ : Type} (write : Writer σ) (cache : Cache) (s : σ), rule.HasReal cache →
      map.fire write rule cache s = (false, cache, s)) ∧
    ∀ (size : Nat) (past : List (Nat × WorkerEvent)) (first : Crew),
      Crew.Run map (Crew.start size) past first →
      (∀ i message target succeeds, (i, .writeMapped message target succeeds) ∈ past →
        ¬ message.value.IsReal) ∧
      ∀ rule : Rule,
        (∀ i, rule.HasReal first.cache → first.firingLeft i rule ≠ [] →
          Crew.Overtaken map (Crew.start size) past i rule) ∧
        ∀ (events : List (Nat × WorkerEvent)) (crew : Crew),
          Crew.RunWhile map rule.HasReal first events crew →
          ∀ i, (Crew.firings events i rule ++ crew.firingLeft i rule).Sublist
              (first.firingLeft i rule) ∧
            (size = 1 → Crew.firings events i rule = []) := by
  refine ⟨?_, fun rule σ write cache s h => fire_of_hasReal h, ?_⟩
  · obtain ⟨value, hvalue⟩ : ∃ value, RegisterFormat.real.decode payload = .ok value :=
      RegisterFormat.exists_decode long
    have hinteger := RegisterFormat.integer?_of_decode_real hvalue
    exact ⟨value, hvalue, hinteger, fun write address source cache s =>
      evaluate_of_integer? hinteger⟩
  · intro size past first run
    refine ⟨fun i message target succeeds h => run.not_isReal_of_writeMapped h, fun rule =>
      ⟨fun i real hleft => run.overtaken (Crew.start_isIdle size) real hleft, ?_⟩⟩
    intro events crew stretch i
    have hfirings := (stretch.mono fun cache h => h.not_isTriggered).firings_sublist i
    refine ⟨hfirings, ?_⟩
    rintro rfl
    rcases stretch.first_or with real | ⟨rfl, -⟩
    · rw [run.firingLeft_alone real i, List.sublist_nil, List.append_eq_nil_iff] at hfirings
      exact hfirings.1
    · rfl

namespace Crew

/-- Two workers at the map `relay`. Worker 1 is done with 42 at `D71`, which is cached. Worker 0 has
stored `M64` and found the first rule triggered when worker 1 stores one and a half at `M64`. -/
def storingReal : List Turn :=
  [{ worker := 1, message := ⟨"D71", .unsigned 42, "Line1"⟩ }] ++
  List.replicate 5 { worker := 1 } ++
  [{ worker := 0, message := ⟨"M64", .bit 1, "Line1"⟩ }, { worker := 0 }, { worker := 0 },
    { worker := 1, message := ⟨"M64", .real "1.50000", "Line1"⟩ }, { worker := 1 }]

/-- What has happened until `M64` is one and a half, and how things are then. -/
def realStored : List (Nat × WorkerEvent) × Crew := play .relay (start 2) storingReal

/-- Worker 0 writes 42 for the rule `M64==D71` when `M64` is one and a half. -/
theorem forwarded_over_real :
    ¬ ∀ (map : WriteMap) (size : Nat) (events : List (Nat × WorkerEvent)) (crew crew' : Crew)
      (i : Nat) (rule : Rule) (target : WriteTarget) (value : RegisterValue),
      Run map (start size) events crew → Step map crew (i, .forward rule target value) crew' →
      ¬ rule.HasReal crew.cache := by
  intro h
  let crew : Crew := (play .relay (start 2) (storingReal ++ [{ worker := 0 }])).2
  have run : Run .relay (start 2) _ crew := play_run _ _ _
  have step : Step .relay crew (0, .forward ⟨"M64", .equal, "D71"⟩
      (.relayed "3302" 3302 (by decide) (by decide)) (.unsigned 42)) _ :=
    turn_step (t := { worker := 0 }) (by decide +kernel)
  have hbit : crew.cache.get? "M64" = some (.real "1.50000") := by decide +kernel
  have hreal : RegisterFormat.real.decode [0x00, 0x00, 0xC0, 0x3F] = .ok (.real "1.50000") := by
    decide +kernel
  exact h _ _ _ _ _ _ _ _ _ run step ⟨_, hbit, _, hreal⟩

end Crew

/-- One and a half arrives at `M64`. Without rules it is not written. Where 42 is cached at `D71`,
neither operator makes it be taken. Of two workers, the one that was overtaken takes and writes 42,
and nothing more. -/
theorem WriteMap.real_fires_nothing_relay :
    RegisterFormat.real.decode [0x00, 0x00, 0xC0, 0x3F] = .ok (.real "1.50000") ∧
    WriteMap.evaluate ⟨relay.mappings, []⟩ faulty ⟨"M64", .real "1.50000", "Line1"⟩ .empty true =
      ({ cached := false, conditionalWrites := 0, defaultWrite := false }, .empty, true) ∧
    (∀ operator, relay.fire faulty ⟨"M64", operator, "D71"⟩
        ((Cache.empty.store "D71" (.unsigned 42)).store "M64" (.real "1.50000")) true =
      (false, (Cache.empty.store "D71" (.unsigned 42)).store "M64" (.real "1.50000"), true)) ∧
    Crew.realStored.2.firingLeft 0 ⟨"M64", .equal, "D71"⟩ = [.take, .write] ∧
    Crew.Overtaken relay (Crew.start 2) Crew.realStored.1 0 ⟨"M64", .equal, "D71"⟩ ∧
    ∃ target crew,
      Crew.RunWhile relay (Rule.HasReal ⟨"M64", .equal, "D71"⟩) Crew.realStored.2
        [(0, .take ⟨"M64", .equal, "D71"⟩ (.unsigned 42)),
          (0, .forward ⟨"M64", .equal, "D71"⟩ target (.unsigned 42))] crew ∧
      crew.firingLeft 0 ⟨"M64", .equal, "D71"⟩ = [] := by
  have long : 4 ≤ [(0x00 : UInt8), 0x00, 0xC0, 0x3F].length := by decide
  have hvalue : RegisterFormat.real.decode [0x00, 0x00, 0xC0, 0x3F] = .ok (.real "1.50000") := by
    decide +kernel
  have run : Crew.Run relay (Crew.start 2) Crew.realStored.1 Crew.realStored.2 :=
    Crew.play_run _ _ _
  obtain ⟨-, hfire, hrun⟩ := relay.real_fires_nothing long
  obtain ⟨-, hrule⟩ := hrun 2 _ _ run
  obtain ⟨hovertaken, hstretch⟩ := hrule ⟨"M64", .equal, "D71"⟩
  have hleft : Crew.realStored.2.firingLeft 0 ⟨"M64", .equal, "D71"⟩ = [.take, .write] := by
    decide +kernel
  refine ⟨hvalue, ?_, fun operator => ?_, hleft, ?_, ?_⟩
  · obtain ⟨value, hread, -, hmessage⟩ :=
      (WriteMap.real_fires_nothing ⟨relay.mappings, []⟩ long).1
    obtain rfl : value = .real "1.50000" := Except.ok.inj (hread.symm.trans hvalue)
    exact hmessage faulty "M64" "Line1" .empty true
  · exact hfire ⟨"M64", operator, "D71"⟩ faulty _ true ⟨_, rfl, _, hvalue⟩
  · exact hovertaken 0 ⟨_, by decide +kernel, _, hvalue⟩ (by rw [hleft]; exact List.cons_ne_nil _ _)
  · have first : Rule.HasReal ⟨"M64", .equal, "D71"⟩ Crew.realStored.2.cache :=
      ⟨.real "1.50000", by decide +kernel, _, hvalue⟩
    have take : Crew.Step relay Crew.realStored.2
        (0, .take ⟨"M64", .equal, "D71"⟩ (.unsigned 42)) _ :=
      Crew.turn_step (t := { worker := 0 }) (by decide +kernel)
    have second : Rule.HasReal ⟨"M64", .equal, "D71"⟩
        (Crew.realStored.2.turn relay { worker := 0 }).2.cache :=
      ⟨.real "1.50000", by decide +kernel, _, hvalue⟩
    have write : Crew.Step relay (Crew.realStored.2.turn relay { worker := 0 }).2
        (0, .forward ⟨"M64", .equal, "D71"⟩ (.relayed "3302" 3302 (by decide) (by decide))
          (.unsigned 42)) _ :=
      Crew.turn_step (t := { worker := 0 }) (by decide +kernel)
    have stretch := (Crew.RunWhile.nil.snoc first take).snoc second write
    refine ⟨_, _, stretch, ?_⟩
    have hfirings := (hstretch _ _ stretch 0).1
    rw [hleft] at hfirings
    have hdone : ([FiringStep.take, .write] ++
        Crew.firingLeft _ 0 ⟨"M64", .equal, "D71"⟩).Sublist [.take, .write] := hfirings
    simpa using hdone

end PlcGateway
