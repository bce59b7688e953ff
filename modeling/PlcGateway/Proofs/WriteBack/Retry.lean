import PlcGateway.Proofs.Cache.PutBack
import PlcGateway.Proofs.WriteBack.Delivery

/-!
# When a write fails

All that the workers of a crew do to the cache are the calls of their steps, in order (`replay`),
and they put back what they have taken and nothing else (`careful`). So what holds of such calls
holds of the crew: after a failed write the value comes back exactly if the address of the source
was not refilled since the take (`put_back_iff_not_refilled`). An older value can therefore be
written after a newer one.
-/

namespace PlcGateway

open Cache (Call Careful Refilled)

/-- What a step does to the cache. -/
def WorkerEvent.call? : WorkerEvent → Option Call
  | store message => some (.store message.address message.value)
  | take rule _ => some (.take rule.source)
  | restore rule value => some (.restore rule.source value)
  | _ => none

theorem Worker.Step.cache_eq {map : WriteMap} {worker worker' : Worker} {cache cache' : Cache}
    {event : WorkerEvent} (step : worker.Step map cache event worker' cache') :
    cache' = event.call?.elim cache (Call.apply cache) := by
  cases step with
  | _ => rfl

theorem Worker.Step.of_restore {map : WriteMap} {worker worker' : Worker} {cache cache' : Cache}
    {rule : Rule} {value : RegisterValue}
    (step : worker.Step map cache (.restore rule value) worker' cache') :
    ∃ message rules, worker = .restoring message rule value rules := by
  cases step with
  | restore message _ rules => exact ⟨message, rules, rfl⟩

namespace Crew

variable {map : WriteMap} {first crew crew' : Crew} {events : List (Nat × WorkerEvent)}
  {i : Nat} {rule : Rule} {value : RegisterValue}

/-- What a run does to the cache. -/
def calls (events : List (Nat × WorkerEvent)) : List (Nat × Call) :=
  events.filterMap fun e => e.2.call?.map fun call => (e.1, call)

theorem calls_append (events more : List (Nat × WorkerEvent)) :
    calls (events ++ more) = calls events ++ calls more :=
  List.filterMap_append

/-- The cache after a run is what the calls have made of it. -/
theorem Run.replay (run : Run map first events crew) :
    crew.cache = Cache.replay first.cache (calls events) := by
  induction run with
  | nil => rfl
  | @snoc mid last events e run step ih =>
    obtain ⟨i, event⟩ := e
    obtain ⟨_, _, _, hstep, _⟩ := step.of_worker
    rw [hstep.cache_eq, ih, calls_append, Cache.replay_append]
    cases hcall : event.call? with
    | none => simp [calls, hcall, Cache.replay]
    | some call => simp [calls, hcall, Cache.replay]

theorem not_mem_calls (h : ∀ e ∈ events, e.1 ≠ i) : ∀ call ∈ calls events, call.1 ≠ i := by
  intro call hcall
  obtain ⟨e, he, hmap⟩ := List.mem_filterMap.1 hcall
  obtain ⟨_, _, rfl⟩ := Option.map_eq_some_iff.1 hmap
  exact h e he

/-- A worker that is about to put a value back has taken it, and since then only failed to write
it. -/
theorem Run.took_back {message : Message} {rules : List Rule}
    (run : Run map first events crew) (idle : first.isIdle)
    (h : crew.workers[i]? = some (.restoring message rule value rules)) :
    ∃ earlier between seen, events = earlier ++ (i, .take rule value) :: between ∧
      Run map first earlier seen ∧ seen.cache.get? rule.source = some value ∧
      ∀ call ∈ calls between, call.1 ≠ i := by
  obtain ⟨earlier, event, later, seen, next, before, rfl, hearlier, -, -, hquiet, hbefore,
    hlast⟩ := run.last_step h (idle.getElem?_ne Worker.noConfusion)
  obtain ⟨target, rfl, rfl⟩ := hlast.to_restoring
  obtain ⟨sooner, between, taken, _, rfl, hsooner, -, -, hstill, hcached⟩ :=
    hearlier.took idle hbefore
  refine ⟨sooner, between ++ (i, .fail rule target value) :: later, taken, by simp, hsooner,
    hcached, ?_⟩
  rw [calls_append]
  intro call hcall
  rcases List.mem_append.1 hcall with hcall | hcall
  · exact not_mem_calls hstill call hcall
  · exact not_mem_calls hquiet call hcall

/-- Workers put back what they have taken and nothing else. -/
theorem Run.careful (run : Run map first events crew) (idle : first.isIdle) :
    Careful first.cache (calls events) := by
  induction run with
  | nil => exact .nil
  | @snoc mid last events e run step ih =>
    obtain ⟨i, event⟩ := e
    obtain ⟨worker, _, found, hstep, _⟩ := step.of_worker
    rw [calls_append]
    cases event with
    | store message => exact .store i _ _ ih
    | take rule value => exact .take i _ ih
    | restore rule value =>
      obtain ⟨message, rules, rfl⟩ := hstep.of_restore
      obtain ⟨earlier, between, seen, rfl, hearlier, hcached, hquiet⟩ := run.took_back idle found
      rw [hearlier.replay] at hcached
      rw [calls_append] at ih ⊢
      exact .restore ih hcached hquiet
    | _ =>
      -- no call
      show Careful first.cache (calls events ++ [])
      rw [List.append_nil]
      exact ih

/-- After a failed write a value comes back exactly if its address was not refilled since the worker
took it. -/
theorem Step.put_back_iff_not_refilled (run : Run map first events crew) (idle : first.isIdle)
    (step : Step map crew (i, .restore rule value) crew') :
    ∃ earlier between, events = earlier ++ (i, .take rule value) :: between ∧
      (∀ call ∈ calls between, call.1 ≠ i) ∧
      (crew'.cache ≠ crew.cache ↔ ¬ Refilled rule.source (calls between)) := by
  obtain ⟨worker, _, found, hstep, _⟩ := step.of_worker
  obtain ⟨message, rules, rfl⟩ := hstep.of_restore
  obtain ⟨earlier, between, _, rfl, _, _, hquiet⟩ := run.took_back idle found
  refine ⟨earlier, between, rfl, hquiet, ?_⟩
  rw [hstep.cache_eq, run.replay, calls_append]
  exact Cache.putsBack_replay_iff (calls earlier) (calls between) i

/-- Two workers at the map `relay`. Worker 0 takes 8, worker 1 stores 9 and writes it, and the write
of 8 fails. When the bit comes again, 8 is written. -/
def latecomer : List Turn :=
  [{ worker := 0, message := ⟨"M64", .bit 1, "Line1"⟩ }] ++ List.replicate 6 { worker := 0 } ++
  [{ worker := 0, message := ⟨"D71", .unsigned 8, "Line1"⟩ }] ++
  List.replicate 3 { worker := 0 } ++
  [{ worker := 1, message := ⟨"D71", .unsigned 9, "Line1"⟩ }] ++
  List.replicate 7 { worker := 1 } ++ [{ worker := 0, succeeds := false }] ++
  List.replicate 4 { worker := 0 } ++
  [{ worker := 1, message := ⟨"M64", .bit 1, "Line1"⟩ }] ++ List.replicate 4 { worker := 1 }

example : (forwards (play .relay (start 2) latecomer).1).map (·.value) =
    [.unsigned 9, .unsigned 8] := by
  decide +kernel

end Crew

end PlcGateway
