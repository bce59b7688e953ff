import Mathlib.Algebra.BigOperators.Group.List.Basic
import Mathlib.Algebra.Order.Group.Multiset
import Mathlib.Tactic.Abel
import PlcGateway.Proofs.Cache.Entries
import PlcGateway.Proofs.WriteBack.Crew
import PlcGateway.Proofs.WriteBack.Schedule

/-!
# Every value is forwarded at most once

A value that a message brings is, from then on, in one place only: in the hands of a worker, in the
cache, forwarded, or lost because a newer value was stored over it. `held_le` says so for a whole
run, as a balance of values by address: what was forwarded and what is still held is no more than
what the messages brought. The successful writes of a run can therefore be matched one to one with
messages (`forwards_matched`), whatever the order in which the workers took their steps.
-/

namespace PlcGateway

/-- A write of a rule's source that has succeeded. -/
structure Forward where
  rule : Rule
  target : WriteTarget
  value : RegisterValue
  deriving DecidableEq

/-- Values with the addresses that they belong to. -/
abbrev Items := Multiset (String × RegisterValue)

/-- A value with the address that it belongs to. -/
def Message.item (message : Message) : String × RegisterValue := (message.address, message.value)

namespace Forward

/-- The value that is written, with the address that it belongs to. -/
def item (forward : Forward) : String × RegisterValue := (forward.rule.source, forward.value)

/-- A write carries the value of a message for the source of a rule to where that is mapped. -/
structure Carries (map : WriteMap) (forward : Forward) (message : Message) : Prop where
  rule_mem : forward.rule ∈ map.rules
  address_eq : message.address = forward.rule.source
  value_eq : message.value = forward.value
  mapped : map.target? forward.rule.source = some forward.target

end Forward

namespace WorkerEvent

/-- The message that a worker takes up. -/
def message? : WorkerEvent → Option Message
  | begin message => some message
  | _ => none

/-- The write that has succeeded. -/
def forward? : WorkerEvent → Option Forward
  | forward rule target value => some ⟨rule, target, value⟩
  | _ => none

/-- The address whose value is written and the target of the write, whether or not it has
succeeded. -/
def written? : WorkerEvent → Option (String × WriteTarget)
  | forward rule target _ => some (rule.source, target)
  | fail rule target _ => some (rule.source, target)
  | writeMapped message target _ => some (message.address, target)
  | _ => none

end WorkerEvent

/-- The value that a worker has in its hands: one that it is to store, or one that it has taken. -/
def Worker.held : Worker → Items
  | .idle => 0
  | .storing message => {message.item}
  | .trying _ _ => 0
  | .taking _ _ _ _ => 0
  | .writing _ rule _ value _ => {(rule.source, value)}
  | .restoring _ rule value _ => {(rule.source, value)}

namespace Crew

variable {map : WriteMap} {first crew crew' : Crew} {events : List (Nat × WorkerEvent)}

/-- The messages that workers have taken up, in order. -/
def takenUp (events : List (Nat × WorkerEvent)) : List Message :=
  events.filterMap fun e => e.2.message?

/-- The writes that have succeeded, in order. -/
def forwards (events : List (Nat × WorkerEvent)) : List Forward :=
  events.filterMap fun e => e.2.forward?

/-- All values that are cached or in the hands of a worker. -/
def held (crew : Crew) : Items :=
  (crew.workers.map Worker.held).sum + (crew.cache.entries : Items)

@[simp] theorem takenUp_append (events more : List (Nat × WorkerEvent)) :
    takenUp (events ++ more) = takenUp events ++ takenUp more :=
  List.filterMap_append

@[simp] theorem forwards_append (events more : List (Nat × WorkerEvent)) :
    forwards (events ++ more) = forwards events ++ forwards more :=
  List.filterMap_append

/-- What was forwarded, as values by address. -/
def sent (events : List (Nat × WorkerEvent)) : Items :=
  (forwards events : Multiset Forward).map Forward.item

/-- What the messages brought, as values by address. -/
def brought (events : List (Nat × WorkerEvent)) : Items :=
  (takenUp events : Multiset Message).map Message.item

theorem sent_append (events more : List (Nat × WorkerEvent)) :
    sent (events ++ more) = sent events + sent more := by
  unfold sent
  rw [forwards_append, ← Multiset.coe_add, Multiset.map_add]

theorem brought_append (events more : List (Nat × WorkerEvent)) :
    brought (events ++ more) = brought events + brought more := by
  unfold brought
  rw [takenUp_append, ← Multiset.coe_add, Multiset.map_add]

end Crew

/-! ## The balance of values -/

/-- What a step forwards and what is held after it is no more than what it takes up and what was
held before. -/
theorem Worker.Step.held_le {map : WriteMap} {worker worker' : Worker} {cache cache' : Cache}
    {event : WorkerEvent} (step : worker.Step map cache event worker' cache') (i : Nat) :
    Crew.sent [(i, event)] + (worker'.held + (cache'.entries : Items)) ≤
      Crew.brought [(i, event)] + (worker.held + (cache.entries : Items)) := by
  cases step with
  | begin_storing message =>
    show (0 : Items) + ({message.item} + _) ≤ {message.item} + (0 + _)
    rw [zero_add, zero_add]
  | begin_trying message =>
    show (0 : Items) + (0 + _) ≤ {message.item} + (0 + _)
    rw [zero_add]
    exact Multiset.le_add_left _ _
  | store message =>
    show (0 : Items) + (0 + _) ≤ 0 + ({message.item} + _)
    rw [zero_add, zero_add, zero_add]
    exact Multiset.coe_le.2 (cache.store_subperm _ _)
  | pass => exact le_rfl
  | trigger => exact le_rfl
  | miss => exact le_rfl
  | take message rule rules target value cache cached =>
    show (0 : Items) + ({(rule.source, value)} + _) ≤ 0 + (0 + _)
    rw [zero_add, zero_add, zero_add]
    exact Multiset.coe_le.2 (Cache.cons_erase_subperm cached)
  | forward message rule rules target value =>
    show ({(rule.source, value)} : Items) + (0 + _) ≤ 0 + ({(rule.source, value)} + _)
    rw [zero_add, zero_add]
  | fail => exact le_rfl
  | restore message rule rules value =>
    show (0 : Items) + (0 + _) ≤ 0 + ({(rule.source, value)} + _)
    rw [zero_add, zero_add, zero_add]
    exact Multiset.coe_le.2 (cache.restore_subperm _ _)
  | writeMapped => exact le_rfl
  | finish => exact le_rfl

namespace Crew

variable {map : WriteMap} {first crew crew' : Crew} {events : List (Nat × WorkerEvent)}

theorem Step.held_le {e : Nat × WorkerEvent} (step : Step map crew e crew') :
    sent [e] + crew'.held ≤ brought [e] + crew.held := by
  obtain ⟨before, after, worker, worker', cache, cache', event, step⟩ := step
  have hworker := step.held_le before.length
  unfold held
  simp only [List.map_append, List.map_cons, List.sum_append, List.sum_cons]
  -- the other workers hold the same before and after
  generalize (before.map Worker.held).sum = b at *
  generalize (after.map Worker.held).sum = a at *
  calc _ = (b + a) + (sent [(before.length, event)] + (worker'.held + cache'.entries)) := by abel
    _ ≤ (b + a) + (brought [(before.length, event)] + (worker.held + cache.entries)) :=
      add_le_add_right hworker _
    _ = _ := by abel

/-- What was forwarded in a run and what is held at its end is no more than what the messages
brought and what was held at first. -/
theorem Run.held_le (run : Run map first events crew) :
    sent events + crew.held ≤ brought events + first.held := by
  induction run with
  | nil => exact le_rfl
  | @snoc crew crew' events e _ step ih =>
    rw [sent_append, brought_append]
    calc sent events + sent [e] + crew'.held
        = sent events + (sent [e] + crew'.held) := add_assoc _ _ _
      _ ≤ sent events + (brought [e] + crew.held) := add_le_add_right step.held_le _
      _ = brought [e] + (sent events + crew.held) := by abel
      _ ≤ brought [e] + (brought events + first.held) := add_le_add_right ih _
      _ = brought events + brought [e] + first.held := by abel

theorem start_held (size : Nat) : (start size).held = 0 := by
  show (List.map Worker.held (List.replicate size .idle)).sum + 0 = 0
  rw [List.map_replicate, List.sum_replicate, add_zero]
  exact nsmul_zero size

theorem Run.sent_le_brought {size : Nat} (run : Run map (start size) events crew) :
    sent events ≤ brought events := by
  have h := run.held_le
  rw [start_held, add_zero] at h
  exact (Multiset.le_add_right _ _).trans h

/-! ## Where a value goes -/

theorem Run.exists_follows (run : Run map first events crew) (idle : first.isIdle)
    {e : Nat × WorkerEvent} (h : e ∈ events) :
    ∃ worker worker' cache cache', worker.Follows map ∧
      Worker.Step map worker cache e.2 worker' cache' := by
  obtain ⟨earlier, seen, next, hearlier, hstep⟩ := run.exists_step h
  obtain ⟨worker, worker', found, step, -⟩ := hstep.of_worker
  exact ⟨worker, worker', _, _, hearlier.follows idle worker (List.mem_of_getElem? found), step⟩

/-- A value is only written to where its address is mapped. -/
theorem Run.written_mapped (run : Run map first events crew) (idle : first.isIdle)
    {e : Nat × WorkerEvent} (h : e ∈ events) {address : String} {target : WriteTarget}
    (written : e.2.written? = some (address, target)) : map.target? address = some target := by
  obtain ⟨i, event⟩ := e
  obtain ⟨_, _, _, _, hfollows, step⟩ := run.exists_follows idle h
  cases step with
  | forward =>
    obtain ⟨rfl, rfl⟩ := Prod.mk.inj (Option.some.inj written)
    exact hfollows.2
  | fail =>
    obtain ⟨rfl, rfl⟩ := Prod.mk.inj (Option.some.inj written)
    exact hfollows.2
  | writeMapped _ _ _ _ due =>
    obtain ⟨rfl, rfl⟩ := Prod.mk.inj (Option.some.inj written)
    exact WriteMap.target?_of_mappedFor? due
  | _ => cases written

theorem Run.forwards_mapped {size : Nat} (run : Run map (start size) events crew) :
    ∀ forward ∈ forwards events, forward.rule ∈ map.rules ∧
      map.target? forward.rule.source = some forward.target := by
  intro forward h
  obtain ⟨⟨i, event⟩, he, hforward⟩ := List.mem_filterMap.1 h
  obtain ⟨_, _, _, _, hfollows, step⟩ := run.exists_follows (start_isIdle size) he
  cases step with
  | forward =>
    obtain rfl := Option.some.inj hforward
    exact ⟨hfollows.1.mem List.mem_cons_self, hfollows.2⟩
  | _ => cases hforward

/-- The successful writes of a run are matched with distinct messages: each write carries the value
of its message, whose address is the source of the rule, to the target mapped for that source. -/
theorem forwards_matched {size : Nat} (run : Run map (start size) events crew) :
    ∃ message : Fin (forwards events).length → Fin (takenUp events).length,
      Function.Injective message ∧
        ∀ write : Fin (forwards events).length,
          Forward.Carries map (forwards events)[write] (takenUp events)[message write] := by
  have hsub : ((forwards events).map Forward.item).Subperm ((takenUp events).map Message.item) := by
    rw [← Multiset.coe_le, ← Multiset.map_coe, ← Multiset.map_coe]
    exact run.sent_le_brought
  have hwrites : (forwards events).length = ((forwards events).map Forward.item).length := by
    rw [List.length_map]
  have hmessages : ((takenUp events).map Message.item).length = (takenUp events).length := by
    rw [List.length_map]
  refine ⟨fun write => (hsub.idxInj (write.cast hwrites)).cast hmessages, ?_, ?_⟩
  · intro w w' h
    have hval := Fin.ext_iff.1 h
    have hcast := Fin.ext_iff.1 (hsub.idxInj_injective (Fin.ext hval))
    exact Fin.ext hcast
  · intro write
    have hitem := hsub.getElem_idxInj_eq_getElem (i := write.cast hwrites)
    rw [List.getElem_map, List.getElem_map] at hitem
    obtain ⟨hrule, hmapped⟩ := run.forwards_mapped _ (List.getElem_mem write.isLt)
    exact ⟨hrule, congrArg Prod.fst hitem, congrArg Prod.snd hitem, hmapped⟩

/-- Two workers at the map `relay`. The write of 42 fails after 43 was stored, so 42 is dropped and
43 written. The write of 44 fails, and the next rule with the same source writes it. -/
def retries : List Turn :=
  [{ worker := 0, message := ⟨"M64", .bit 1, "Line1"⟩ }] ++ List.replicate 6 { worker := 0 } ++
  [{ worker := 0, message := ⟨"D71", .unsigned 42, "Line1"⟩ }] ++
  List.replicate 3 { worker := 0 } ++
  [{ worker := 1, message := ⟨"D71", .unsigned 43, "Line1"⟩ }, { worker := 1 },
    { worker := 0, succeeds := false }] ++
  List.replicate 4 { worker := 0 } ++ List.replicate 6 { worker := 1 } ++
  [{ worker := 0, message := ⟨"M65", .bit 0, "Line1"⟩ }] ++ List.replicate 7 { worker := 0 } ++
  [{ worker := 1, message := ⟨"D71", .unsigned 44, "Line1"⟩ }] ++
  List.replicate 3 { worker := 1 } ++ [{ worker := 1, succeeds := false }] ++
  List.replicate 6 { worker := 1 }

/-- What happens at these turns. -/
def retried : List (Nat × WorkerEvent) := (play .relay (start 2) retries).1

theorem forwards_matched_retried :
    Run .relay (start 2) retried (play .relay (start 2) retries).2 ∧
    (forwards retried).map (·.value) = [.unsigned 43, .unsigned 44] ∧
    (takenUp retried).length = 5 ∧
    ∃ message : Fin (forwards retried).length → Fin (takenUp retried).length,
      Function.Injective message ∧ ∀ write : Fin (forwards retried).length,
        Forward.Carries .relay (forwards retried)[write] (takenUp retried)[message write] :=
  ⟨play_run _ _ _, by decide +kernel, by decide, forwards_matched (play_run _ _ _)⟩

end Crew

end PlcGateway
