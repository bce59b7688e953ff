import PlcGateway.Proofs.WriteBack.Crew

/-!
# Runs that are played from a schedule

A schedule says which worker takes the next turn, and what it meets there: the message that comes if
the worker is idle, and whether its write succeeds if it writes. `play` computes what a crew does
under a schedule. The runs of a crew are exactly what schedules play (`run_iff_play`), so a worker
is never stuck, and a run can be given by its schedule.
-/

namespace PlcGateway

/-- The turn of a worker. -/
structure Turn where
  worker : Nat
  /-- The message that comes if the worker is idle. -/
  message : Message := default
  /-- Whether the write succeeds if the worker writes. -/
  succeeds : Bool := true

/-- What a worker does in its turn. -/
def Worker.next (map : WriteMap) (turn : Turn) : Worker → Cache → WorkerEvent × Worker × Cache
  | .idle, cache =>
    if map.participates turn.message.address then
      (.begin turn.message, .storing turn.message, cache)
    else (.begin turn.message, .trying turn.message map.rules, cache)
  | .storing message, cache =>
    (.store message, .trying message map.rules, cache.store message.address message.value)
  | .trying message [], cache =>
    match map.mappedFor? message with
    | some target => (.writeMapped message target turn.succeeds, .idle, cache)
    | none => (.finish message, .idle, cache)
  | .trying message (rule :: rules), cache =>
    if rule.isTriggered cache then
      match map.target? rule.source with
      | some target => (.look, .taking message rule target rules, cache)
      | none => (.look, .trying message rules, cache)
    else (.look, .trying message rules, cache)
  | .taking message rule target rules, cache =>
    match cache.get? rule.source with
    | some value =>
      (.take rule value, .writing message rule target value rules, cache.erase rule.source)
    | none => (.look, .trying message rules, cache)
  | .writing message rule target value rules, cache =>
    if turn.succeeds then (.forward rule target value, .trying message rules, cache)
    else (.fail rule target value, .restoring message rule value rules, cache)
  | .restoring message rule value rules, cache =>
    (.restore rule value, .trying message rules, cache.restore rule.source value)

theorem Worker.next_step (map : WriteMap) (turn : Turn) (worker : Worker) (cache : Cache) :
    worker.Step map cache (worker.next map turn cache).1 (worker.next map turn cache).2.1
      (worker.next map turn cache).2.2 := by
  cases worker with
  | idle =>
    by_cases h : map.participates turn.message.address = true
    · simp only [next, if_pos h]
      exact .begin_storing _ _ h
    · simp only [next, if_neg h]
      exact .begin_trying _ _ (Bool.eq_false_iff.2 h)
  | storing message => exact .store _ _
  | trying message rules =>
    cases rules with
    | nil =>
      simp only [next]
      cases hmapped : map.mappedFor? message with
      | none => exact .finish _ _ hmapped
      | some target => exact .writeMapped _ _ _ _ hmapped
    | cons rule rules =>
      by_cases h : rule.isTriggered cache = true
      · simp only [next, if_pos h]
        cases htarget : map.target? rule.source with
        | none => exact .pass _ _ _ _ (.inr htarget)
        | some target => exact .trigger _ _ _ _ _ h htarget
      · simp only [next, if_neg h]
        exact .pass _ _ _ _ (.inl (Bool.eq_false_iff.2 h))
  | taking message rule target rules =>
    simp only [next]
    cases hvalue : cache.get? rule.source with
    | none => exact .miss _ _ _ _ _ hvalue
    | some value => exact .take _ _ _ _ _ _ hvalue
  | writing message rule target value rules =>
    by_cases h : turn.succeeds = true
    · simp only [next, if_pos h]
      exact .forward _ _ _ _ _ _
    · simp only [next, if_neg h]
      exact .fail _ _ _ _ _ _
  | restoring message rule value rules => exact .restore _ _ _ _ _

/-- Every step of a worker is what it does in some turn. -/
theorem Worker.Step.exists_turn {map : WriteMap} {worker worker' : Worker} {cache cache' : Cache}
    {event : WorkerEvent} (step : worker.Step map cache event worker' cache') (i : Nat) :
    ∃ turn : Turn, turn.worker = i ∧ worker.next map turn cache = (event, worker', cache') := by
  cases step with
  | begin_storing message cache caches =>
    exact ⟨{ worker := i, message }, rfl, by simp [next, caches]⟩
  | begin_trying message cache caches =>
    exact ⟨{ worker := i, message }, rfl, by simp [next, caches]⟩
  | pass message rule rules cache idle =>
    refine ⟨{ worker := i }, rfl, ?_⟩
    rcases idle with untriggered | unmapped
    · simp [next, untriggered]
    · simp [next, unmapped]
  | trigger message rule rules target cache triggered mapped =>
    exact ⟨{ worker := i }, rfl, by simp [next, triggered, mapped]⟩
  | miss message rule rules target cache missing =>
    exact ⟨{ worker := i }, rfl, by simp [next, missing]⟩
  | take message rule rules target value cache cached =>
    exact ⟨{ worker := i }, rfl, by simp [next, cached]⟩
  | fail => exact ⟨{ worker := i, succeeds := false }, rfl, rfl⟩
  | writeMapped message target succeeds cache due =>
    exact ⟨{ worker := i, succeeds }, rfl, by simp [next, due]⟩
  | finish message cache stays => exact ⟨{ worker := i }, rfl, by simp [next, stays]⟩
  | _ => exact ⟨{ worker := i }, rfl, rfl⟩

namespace Crew

/-- What a crew does in one turn. Where there is no such worker, nothing happens. -/
def turn (map : WriteMap) (crew : Crew) (turn : Turn) : List (Nat × WorkerEvent) × Crew :=
  match crew.workers[turn.worker]? with
  | none => ([], crew)
  | some worker =>
    ([(turn.worker, (worker.next map turn crew.cache).1)],
      ⟨(worker.next map turn crew.cache).2.2,
        crew.workers.set turn.worker (worker.next map turn crew.cache).2.1⟩)

/-- What a crew does under a schedule. -/
def play (map : WriteMap) (crew : Crew) : List Turn → List (Nat × WorkerEvent) × Crew
  | [] => ([], crew)
  | t :: schedule =>
    ((crew.turn map t).1 ++ (play map (crew.turn map t).2 schedule).1,
      (play map (crew.turn map t).2 schedule).2)

/-- What happens in a turn is a step, if anything does. -/
theorem turn_step {map : WriteMap} {crew : Crew} {t : Turn} {e : Nat × WorkerEvent}
    (h : (crew.turn map t).1 = [e]) : Step map crew e (crew.turn map t).2 := by
  unfold turn at h ⊢
  cases hworker : crew.workers[t.worker]? with
  | none => simp [hworker] at h
  | some worker =>
    rw [hworker] at h
    rw [← List.singleton_inj.1 h]
    exact .of_getElem? hworker (worker.next_step map t crew.cache)

theorem turn_run (map : WriteMap) (crew : Crew) (t : Turn) :
    Run map crew (crew.turn map t).1 (crew.turn map t).2 := by
  cases hworker : crew.workers[t.worker]? with
  | none =>
    unfold turn
    rw [hworker]
    exact .nil
  | some worker =>
    have hevents : (crew.turn map t).1 = [(t.worker, (worker.next map t crew.cache).1)] := by
      unfold turn
      rw [hworker]
    rw [hevents]
    exact .single (turn_step hevents)

/-- What is played is a run. -/
theorem play_run (map : WriteMap) (crew : Crew) (schedule : List Turn) :
    Run map crew (play map crew schedule).1 (play map crew schedule).2 := by
  induction schedule generalizing crew with
  | nil => exact .nil
  | cons t schedule ih => exact (turn_run map crew t).append (ih _)

theorem play_append (map : WriteMap) (crew : Crew) (schedule more : List Turn) :
    play map crew (schedule ++ more) =
      ((play map crew schedule).1 ++ (play map (play map crew schedule).2 more).1,
        (play map (play map crew schedule).2 more).2) := by
  induction schedule generalizing crew with
  | nil => rfl
  | cons t schedule ih =>
    simp only [play, List.cons_append, ih, List.append_assoc]

theorem Step.exists_turn {map : WriteMap} {crew crew' : Crew} {e : Nat × WorkerEvent}
    (step : Step map crew e crew') : ∃ t, crew.turn map t = ([e], crew') := by
  obtain ⟨before, after, worker, worker', cache, cache', event, step⟩ := step
  obtain ⟨t, ht, hnext⟩ := step.exists_turn before.length
  refine ⟨t, ?_⟩
  unfold turn
  rw [ht]
  simp [hnext]

/-- The runs of a crew are exactly what schedules play. -/
theorem run_iff_play {map : WriteMap} {first crew : Crew} {events : List (Nat × WorkerEvent)} :
    Run map first events crew ↔ ∃ schedule, play map first schedule = (events, crew) := by
  constructor
  · intro run
    induction run with
    | nil => exact ⟨[], rfl⟩
    | snoc _ step ih =>
      obtain ⟨schedule, hplay⟩ := ih
      obtain ⟨t, ht⟩ := step.exists_turn
      refine ⟨schedule ++ [t], ?_⟩
      rw [play_append, hplay]
      simp [play, ht]
  · rintro ⟨schedule, h⟩
    have run := play_run map first schedule
    rw [h] at run
    exact run

end Crew

/-! ## A map to play with -/

/-- A data register of the PLC `Line2`. -/
def WriteTarget.relayed (number : String) (offset : UInt32)
    (h : DeviceCode.d.offset? number.toList = some offset)
    (trimmed : Text.trimmed number = number) : WriteTarget :=
  ⟨"Line2", ⟨.d, number, offset, .unsigned, 1, trimmed, h, by decide⟩⟩

/-- The rules `M64==D71;M65!=D71;D71==M64`, with mappings for `D71` and `M64`. The first two share
their source, and the third has the source of the first for its bit and the bit for its source. -/
def WriteMap.relay : WriteMap where
  mappings := [("D71", .relayed "3302" 3302 (by decide) (by decide)),
    ("M64", .relayed "3303" 3303 (by decide) (by decide))]
  rules := [⟨"M64", .equal, "D71"⟩, ⟨"M65", .notEqual, "D71"⟩, ⟨"D71", .equal, "M64"⟩]

end PlcGateway
