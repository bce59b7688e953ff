import PlcGateway.Proofs.WriteBack.Crew
import PlcGateway.Proofs.WriteBack.Schedule

/-!
# No trigger is missed

A rule is enabled when its bit is cached and meets the condition, its source is mapped, and a value
of its source is cached. Only storing a value and putting one back can enable a rule. A worker that
has stored a value goes through all rules afterwards, so as long as no write fails, every enabled
rule has a worker that has still to try it (`Attentive`). When all workers are idle there is no such
worker, hence no enabled rule (`not_enabled_of_idle`). With failing writes this is not so: the
worker that puts a source back goes on with the rules after its own.
-/

namespace PlcGateway

/-- The rule would write if it were tried now. -/
structure Rule.IsEnabled (rule : Rule) (map : WriteMap) (cache : Cache) : Prop where
  triggered : rule.isTriggered cache = true
  mapped : (map.target? rule.source).isSome
  cached : (cache.get? rule.source).isSome

/-- Forgetting a value enables no rule: a rule whose bit is missing is not triggered. -/
theorem Rule.IsEnabled.of_erase {rule : Rule} {map : WriteMap} {cache : Cache} {address : String}
    (h : rule.IsEnabled map (cache.erase address)) :
    rule.IsEnabled map cache ∧ rule.source ≠ address := by
  obtain ⟨triggered, mapped, cached⟩ := h
  obtain ⟨value, _, hbit, _, _⟩ := isTriggered_iff.1 triggered
  rw [Cache.get?_erase] at hbit cached
  have hb : address ≠ rule.bit := by
    rintro rfl
    simp at hbit
  have hs : address ≠ rule.source := by
    rintro rfl
    simp at cached
  refine ⟨⟨?_, mapped, ?_⟩, hs.symm⟩
  · rw [← triggered]
    apply isTriggered_congr
    rw [Cache.get?_erase, if_neg hb]
  · rw [if_neg hs] at cached
    exact cached

namespace WorkerEvent

/-- Whether the event is a write for a rule that has failed. -/
def failed : WorkerEvent → Bool
  | fail _ _ _ => true
  | _ => false

end WorkerEvent

namespace Worker

/-- The rules that a worker is still to try, with the one whose source it is about to take. -/
def pending : Worker → List Rule
  | idle => []
  | storing _ => []
  | trying _ rules => rules
  | taking _ rule _ rules => rule :: rules
  | writing _ _ _ _ rules => rules
  | restoring _ _ _ rules => rules

/-- Whether a worker is about to put a source back. -/
def isRestoring : Worker → Bool
  | restoring _ _ _ _ => true
  | _ => false

variable {map : WriteMap} {worker worker' : Worker} {cache cache' : Cache} {event : WorkerEvent}

theorem Step.not_restoring (step : worker.Step map cache event worker' cache')
    (h : event.failed = false) : worker'.isRestoring = false := by
  cases step with
  | fail => exact absurd h (by simp [WorkerEvent.failed])
  | _ => rfl

/-- A rule that is enabled after a step has still to be tried by the worker that took it, or was
enabled before the step and is only passed over if it was not pending. -/
theorem Step.pending_of_enabled {rule : Rule} (step : worker.Step map cache event worker' cache')
    (noRestore : worker.isRestoring = false) (hrule : rule ∈ map.rules)
    (h : rule.IsEnabled map cache') :
    rule ∈ worker'.pending ∨
      rule.IsEnabled map cache ∧ (rule ∈ worker.pending → rule ∈ worker'.pending) := by
  cases step with
  | begin_storing => exact .inr ⟨h, id⟩
  | begin_trying => exact .inl hrule
  | store => exact .inl hrule
  | pass message tried rules cache idle =>
    refine .inr ⟨h, fun hmem => ?_⟩
    rcases List.mem_cons.1 hmem with rfl | hmem
    · -- the rule that is passed over is not triggered or not mapped, so not enabled
      rcases idle with idle | idle
      · exact absurd h.triggered (by simp [idle])
      · exact absurd h.mapped (by simp [idle])
    · exact hmem
  | trigger => exact .inr ⟨h, id⟩
  | miss message tried rules target cache missing =>
    refine .inr ⟨h, fun hmem => ?_⟩
    rcases List.mem_cons.1 hmem with rfl | hmem
    · exact absurd h.cached (by simp [missing])
    · exact hmem
  | take message tried rules target value cache cached =>
    obtain ⟨hbefore, hne⟩ := h.of_erase
    refine .inr ⟨hbefore, fun hmem => ?_⟩
    rcases List.mem_cons.1 hmem with rfl | hmem
    · exact absurd rfl hne
    · exact hmem
  | forward => exact .inr ⟨h, id⟩
  | fail => exact .inr ⟨h, id⟩
  | restore => exact absurd noRestore (by simp [isRestoring])
  | writeMapped => exact .inr ⟨h, id⟩
  | finish => exact .inr ⟨h, id⟩

end Worker

namespace Crew

variable {map : WriteMap} {crew crew' : Crew} {events : List (Nat × WorkerEvent)} {size : Nat}

/-- Every enabled rule has a worker that has still to try it. -/
def Attentive (map : WriteMap) (crew : Crew) : Prop :=
  ∀ rule ∈ map.rules, rule.IsEnabled map crew.cache →
    ∃ worker ∈ crew.workers, rule ∈ worker.pending

theorem Step.attentive {e : Nat × WorkerEvent} (step : Step map crew e crew')
    (noRestore : ∀ worker ∈ crew.workers, worker.isRestoring = false)
    (h : Attentive map crew) : Attentive map crew' := by
  obtain ⟨before, after, worker, worker', cache, cache', event, step⟩ := step
  intro rule hrule enabled
  have hworker : worker.isRestoring = false := noRestore worker (by simp)
  rcases step.pending_of_enabled hworker hrule enabled with hpending | ⟨henabled, hkept⟩
  · exact ⟨worker', by simp, hpending⟩
  · -- it was enabled before, and the worker that had still to try it has still to
    obtain ⟨w, hw, hpending⟩ := h rule hrule henabled
    rcases List.mem_append.1 hw with hw | hw
    · exact ⟨w, List.mem_append_left _ hw, hpending⟩
    · rcases List.mem_cons.1 hw with rfl | hw
      · exact ⟨worker', by simp, hkept hpending⟩
      · exact ⟨w, List.mem_append_right _ (List.mem_cons_of_mem _ hw), hpending⟩

theorem Run.not_restoring (run : Run map (start size) events crew)
    (succeed : ∀ e ∈ events, e.2.failed = false) :
    ∀ worker ∈ crew.workers, worker.isRestoring = false := by
  refine run.forall_workers (Q := fun event => event.failed = false)
    (fun step h _ => step.not_restoring h) succeed ?_
  intro worker hw
  rw [start_isIdle size worker hw]
  rfl

theorem start_attentive : Attentive map (start size) := by
  intro rule _ h
  exact absurd h.cached (by simp [start])

theorem Run.attentive (run : Run map (start size) events crew)
    (succeed : ∀ e ∈ events, e.2.failed = false) : Attentive map crew := by
  induction run with
  | nil => exact start_attentive
  | snoc run step ih =>
    have hpast := fun e he => succeed e (List.mem_append_left _ he)
    exact step.attentive (run.not_restoring hpast) (ih hpast)

/-- When no write for a rule has failed and every worker is idle, no rule of the map is enabled,
whichever of its bit and its source came last. -/
theorem not_enabled_of_idle (run : Run map (start size) events crew)
    (succeed : ∀ e ∈ events, e.2.failed = false) (idle : crew.isIdle) :
    ∀ rule ∈ map.rules, ¬ rule.IsEnabled map crew.cache := by
  intro rule hrule enabled
  obtain ⟨worker, hw, hpending⟩ := run.attentive succeed rule hrule enabled
  rw [idle worker hw] at hpending
  exact List.not_mem_nil hpending

/-- Two workers at the map `relay`. `D71` and `M64` come at the same time, both workers see that the
third rule is triggered, and one of them takes `M64`. Then `M65` comes, and `D71` goes. -/
def exchanges : List Turn :=
  [{ worker := 0, message := ⟨"D71", .unsigned 1, "Line1"⟩ }, { worker := 0 },
    { worker := 1, message := ⟨"M64", .unsigned 5, "Line1"⟩ }, { worker := 1 }] ++
  List.replicate 3 { worker := 0 } ++ List.replicate 3 { worker := 1 } ++
  [{ worker := 0 }, { worker := 1 }, { worker := 0 }, { worker := 0 }, { worker := 1 },
    { worker := 1, message := ⟨"M65", .bit 0, "Line1"⟩ }] ++ List.replicate 7 { worker := 1 }

/-- What happens at these turns, and how things are then. -/
def exchanged : List (Nat × WorkerEvent) × Crew := play .relay (start 2) exchanges

theorem not_enabled_after_exchanges :
    Run .relay (start 2) exchanged.1 exchanged.2 ∧ (∀ e ∈ exchanged.1, e.2.failed = false) ∧
    exchanged.2.isIdle ∧
    ∀ rule ∈ WriteMap.relay.rules, ¬ rule.IsEnabled .relay exchanged.2.cache :=
  ⟨play_run _ _ _, by decide, by decide,
    not_enabled_of_idle (play_run _ _ _) (by decide) (by decide)⟩

end Crew

end PlcGateway
