import PlcGateway.Cache
import PlcGateway.Register.Value
import PlcGateway.WriteBack.Map

/-!
# The write-back engine

`evaluate` applies a write map to one message. The value of an address that a rule names is only
cached. Then every rule is tried in order: if the integer at its bit meets the condition and its
source is mapped and cached, the value is taken out of the cache and written, and put back if the
write fails. A value that was not cached is written to the device that its address is mapped to, if
it stands for an integer other than zero.

The engine knows of a writer only whether a write succeeded; `σ` is what the writer works on.
-/

namespace PlcGateway

/-- Writes a value to a target and tells whether that succeeded. -/
abbrev Writer (σ : Type) := WriteTarget → WriteValue → σ → Bool × σ

/-- What one evaluation did. -/
structure Outcome where
  /-- The value was stored in the cache. -/
  cached : Bool := false
  /-- How many rules wrote a value. -/
  conditionalWrites : Nat := 0
  /-- The value was written by the mapping of its address. -/
  defaultWrite : Bool := false
  deriving DecidableEq, Repr, Inhabited

/-- Whether a value stands for an integer other than zero. -/
def RegisterValue.isNonzero (value : RegisterValue) : Bool :=
  match value.integer? with
  | some n => n != 0
  | none => false

namespace Rule

/-- Whether the bit of a rule is cached with an integer that meets the condition. -/
def isTriggered (rule : Rule) (cache : Cache) : Bool :=
  match (cache.get? rule.bit).bind RegisterValue.integer? with
  | some n => rule.operator.holds n
  | none => false

theorem isTriggered_iff {rule : Rule} {cache : Cache} :
    rule.isTriggered cache = true ↔ ∃ value n, cache.get? rule.bit = some value ∧
      value.integer? = some n ∧ rule.operator.holds n = true := by
  unfold isTriggered
  cases hvalue : cache.get? rule.bit with
  | none => simp
  | some value => cases hn : value.integer? <;> simp [hn]

/-- Only the value of the bit decides whether a rule is triggered. -/
theorem isTriggered_congr {rule : Rule} {cache cache' : Cache}
    (h : cache.get? rule.bit = cache'.get? rule.bit) :
    rule.isTriggered cache = rule.isTriggered cache' := by
  unfold isTriggered
  rw [h]

end Rule

namespace WriteMap

variable {σ : Type}

/-- Tries one rule and tells whether it wrote. -/
def fire (map : WriteMap) (write : Writer σ) (rule : Rule) (cache : Cache) (s : σ) :
    Bool × Cache × σ :=
  if rule.isTriggered cache then
    match map.target? rule.source with
    | none => (false, cache, s)
    | some target =>
      match cache.take rule.source with
      | (none, cache) => (false, cache, s)
      | (some value, cache) =>
        match write target value.toWrite s with
        | (true, s) => (true, cache, s)
        | (false, s) => (false, cache.restore rule.source value, s)
  else (false, cache, s)

/-- Tries rules in order and counts those that wrote. -/
def fireAll (map : WriteMap) (write : Writer σ) : List Rule → Cache → σ → Nat × Cache × σ
  | [], cache, s => (0, cache, s)
  | rule :: rules, cache, s =>
    let (fired, cache, s) := map.fire write rule cache s
    let (count, cache, s) := map.fireAll write rules cache s
    ((if fired then 1 else 0) + count, cache, s)

/-- Writes a value to the device that its address is mapped to. -/
def writeMapped (map : WriteMap) (write : Writer σ) (message : Message) (s : σ) : Bool × σ :=
  match map.target? message.address with
  | none => (false, s)
  | some target =>
    if message.value.isNonzero then write target message.value.toWrite s else (false, s)

/-- Applies a write map to one message. -/
def evaluate (map : WriteMap) (write : Writer σ) (message : Message) (cache : Cache) (s : σ) :
    Outcome × Cache × σ :=
  if map.participates message.address then
    let cache := cache.store message.address message.value
    let (count, cache, s) := map.fireAll write map.rules cache s
    ({ cached := true, conditionalWrites := count }, cache, s)
  else
    let (count, cache, s) := map.fireAll write map.rules cache s
    let (written, s) := map.writeMapped write message s
    ({ conditionalWrites := count, defaultWrite := written }, cache, s)

end WriteMap

end PlcGateway
