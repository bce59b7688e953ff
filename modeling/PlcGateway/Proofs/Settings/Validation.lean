import Mathlib.Data.List.Nodup
import PlcGateway.Proofs.Text.Blank
import PlcGateway.Settings.Validation

/-!
# Which rule is reported

The rules of a configuration stand in an order: that of the bus, those of the scan, then those of
each PLC, one PLC after the other. `brokenRules` lists all that a configuration breaks in this
order, and `IsValid` says what it is to break none. Checking stops at the first rule that is broken,
so it reports the head of the list, and accepts what is valid (`Settings.validate_reports`).
-/

namespace PlcGateway

/-! ## Valid settings -/

/-- What a PLC has to be by itself. -/
structure PlcSettings.IsValid (plc : PlcSettings) : Prop where
  name : ∃ c ∈ plc.name.toList, Text.isBlank c = false
  port : plc.port ≠ 0
  frameLimit : ∀ limit ∈ plc.maxRegistersPerFrame, 1 ≤ limit.toNat ∧ limit.toNat ≤ 960

/-- What the scan settings have to be. -/
structure ScanSettings.IsValid (scan : ScanSettings) : Prop where
  plcs : scan.plcs ≠ []
  workers : 1 ≤ scan.workers.toNat
  readTimeout : 0 < scan.readTimeoutMs.toNat
  plc : ∀ plc ∈ scan.plcs, plc.IsValid
  names : (scan.plcs.map PlcSettings.name).Nodup

/-- What a configuration has to be. -/
structure Settings.IsValid (settings : Settings) : Prop where
  mode : settings.bus.mode ∈ ["client", "peer", "router"]
  scan : settings.scan.IsValid

/-! ## Broken rules -/

/-- A rule, if its condition does not hold. -/
def BrokenRule.unless (rule : BrokenRule) (condition : Prop) [Decidable condition] :
    List BrokenRule :=
  if condition then [] else [rule]

/-- The rules that a PLC breaks, given the names of the PLCs before it. -/
def PlcSettings.brokenRules (earlier : List String) (plc : PlcSettings) : List BrokenRule :=
  BrokenRule.blankName.unless (plc.name.toList.any fun c => !Text.isBlank c) ++
    (BrokenRule.nameTaken plc.name).unless (plc.name ∉ earlier) ++
    (BrokenRule.zeroPort plc.name).unless (plc.port ≠ 0) ++
    plc.maxRegistersPerFrame.toList.flatMap fun limit =>
      (BrokenRule.frameLimit plc.name limit).unless (1 ≤ limit.toNat ∧ limit.toNat ≤ 960)

/-- The rules that PLCs break, PLC by PLC, given the names of the PLCs before them. -/
def PlcSettings.allBrokenRules (earlier : List String) : List PlcSettings → List BrokenRule
  | [] => []
  | plc :: plcs => plc.brokenRules earlier ++ allBrokenRules (earlier ++ [plc.name]) plcs

/-- The rules that scan settings break. -/
def ScanSettings.brokenRules (scan : ScanSettings) : List BrokenRule :=
  BrokenRule.noPlcs.unless (scan.plcs ≠ []) ++
    BrokenRule.noWorkers.unless (1 ≤ scan.workers.toNat) ++
    BrokenRule.noReadTimeout.unless (0 < scan.readTimeoutMs.toNat) ++
    PlcSettings.allBrokenRules [] scan.plcs

/-- The rules that a configuration breaks. -/
def Settings.brokenRules (settings : Settings) : List BrokenRule :=
  (BrokenRule.busMode settings.bus.mode).unless
    (settings.bus.mode ∈ ["client", "peer", "router"]) ++ settings.scan.brokenRules

namespace BrokenRule

variable {rule : BrokenRule} {condition : Prop} [Decidable condition]

theorem unless_eq_nil_iff : rule.unless condition = [] ↔ condition := by
  unfold BrokenRule.unless
  split <;> simp [*]

/-- What a check comes to that stops at the first broken rule. -/
def firstOf : List BrokenRule → Except BrokenRule Unit
  | [] => .ok ()
  | rule :: _ => .error rule

theorem firstOf_eq_ok_iff {rules : List BrokenRule} : firstOf rules = .ok () ↔ rules = [] := by
  cases rules <;> simp [firstOf]

theorem firstOf_eq_error_iff {rules : List BrokenRule} :
    firstOf rules = .error rule ↔ rules.head? = some rule := by
  cases rules <;> simp [firstOf]

theorem firstOf_append (front back : List BrokenRule) : firstOf (front ++ back) =
    match firstOf front with
    | .error rule => .error rule
    | .ok () => firstOf back := by
  cases front <;> rfl

/-- A check goes on where a condition holds. -/
theorem firstOf_unless_append (rules : List BrokenRule) :
    firstOf (rule.unless condition ++ rules) =
      if condition then firstOf rules else .error rule := by
  unfold BrokenRule.unless
  split <;> rfl

end BrokenRule

/-! ## One PLC -/

theorem validFrameLimit_iff {limit : UInt16} :
    validFrameLimit limit = true ↔ 1 ≤ limit.toNat ∧ limit.toNat ≤ 960 := by
  simp only [validFrameLimit, Bool.and_eq_true, decide_eq_true_eq]
  rfl

namespace PlcSettings

open BrokenRule (firstOf firstOf_append firstOf_unless_append)

variable {plc : PlcSettings} {plcs : List PlcSettings} {taken earlier : List String}

theorem not_allBlank_iff {s : List Char} :
    ¬ Text.allBlank s = true ↔ (s.any fun c => !Text.isBlank c) = true := by
  simp [Text.allBlank_iff]

/-- A check of a PLC reports the first rule that the PLC breaks. -/
theorem validate_eq_firstOf (same : ∀ name, name ∈ taken ↔ name ∈ earlier) :
    plc.validate taken = firstOf (plc.brokenRules earlier) := by
  have hname : taken.contains plc.name = true ↔ ¬ plc.name ∉ earlier := by
    rw [List.contains_iff_mem, same, not_not]
  unfold validate brokenRules
  simp only [List.append_assoc, firstOf_unless_append, ← not_allBlank_iff, ite_not, hname]
  cases plc.maxRegistersPerFrame with
  | none => rfl
  | some limit =>
    rw [Option.toList_some, List.flatMap_singleton, ← List.append_nil (BrokenRule.unless ..),
      firstOf_unless_append]
    simp only [validFrameLimit_iff]
    rfl

theorem validateAll_eq_firstOf (same : ∀ name, name ∈ taken ↔ name ∈ earlier) :
    validateAll taken plcs = firstOf (allBrokenRules earlier plcs) := by
  induction plcs generalizing taken earlier with
  | nil => rfl
  | cons plc plcs ih =>
    have hsame : ∀ name, name ∈ plc.name :: taken ↔ name ∈ earlier ++ [plc.name] := by
      intro name
      rw [List.mem_cons, List.mem_append, List.mem_singleton, same, or_comm]
    rw [allBrokenRules, firstOf_append, ← validate_eq_firstOf same, ← ih hsame]
    rfl

theorem brokenRules_eq_nil_iff :
    plc.brokenRules earlier = [] ↔ plc.IsValid ∧ plc.name ∉ earlier := by
  unfold brokenRules
  simp only [List.append_eq_nil_iff, BrokenRule.unless_eq_nil_iff, List.flatMap_eq_nil_iff,
    Option.mem_toList, List.any_eq_true, Bool.not_eq_true']
  constructor
  · rintro ⟨⟨⟨name, fresh⟩, port⟩, frameLimit⟩
    exact ⟨⟨name, port, frameLimit⟩, fresh⟩
  · rintro ⟨⟨name, port, frameLimit⟩, fresh⟩
    exact ⟨⟨⟨name, fresh⟩, port⟩, frameLimit⟩

theorem allBrokenRules_eq_nil_iff : allBrokenRules earlier plcs = [] ↔
    (∀ plc ∈ plcs, plc.IsValid) ∧ (plcs.map name).Nodup ∧ ∀ plc ∈ plcs, plc.name ∉ earlier := by
  induction plcs generalizing earlier with
  | nil => simp [allBrokenRules]
  | cons plc plcs ih =>
    rw [allBrokenRules, List.append_eq_nil_iff, brokenRules_eq_nil_iff, ih, List.map_cons,
      List.nodup_cons, List.forall_mem_cons, List.forall_mem_cons, List.mem_map]
    simp only [List.mem_append, List.mem_singleton, not_or, not_exists, not_and]
    constructor
    · rintro ⟨⟨valid, fresh⟩, others, nodup, apart⟩
      exact ⟨⟨valid, others⟩, ⟨fun other hother => (apart other hother).2, nodup⟩, fresh,
        fun other hother => (apart other hother).1⟩
    · rintro ⟨⟨valid, others⟩, ⟨apart, nodup⟩, fresh, hothers⟩
      exact ⟨⟨valid, fresh⟩, others, nodup, fun other hother =>
        ⟨hothers other hother, apart other hother⟩⟩

end PlcSettings

/-! ## Configurations -/

open BrokenRule (firstOf_append firstOf_unless_append firstOf_eq_ok_iff firstOf_eq_error_iff)

theorem ScanSettings.validate_eq_firstOf (scan : ScanSettings) :
    scan.validate = BrokenRule.firstOf scan.brokenRules := by
  have hplcs : scan.plcs.isEmpty = true ↔ ¬ scan.plcs ≠ [] := by
    rw [List.isEmpty_iff, not_not]
  have hworkers : scan.workers = 0 ↔ ¬ 1 ≤ scan.workers.toNat := by
    rw [← UInt64.toNat_inj, UInt64.toNat_zero]
    omega
  have htimeout : scan.readTimeoutMs = 0 ↔ ¬ 0 < scan.readTimeoutMs.toNat := by
    rw [← UInt64.toNat_inj, UInt64.toNat_zero]
    omega
  unfold validate brokenRules
  simp only [List.append_assoc, firstOf_unless_append, hplcs, hworkers, htimeout, ite_not]
  rw [PlcSettings.validateAll_eq_firstOf fun name => Iff.rfl]

theorem ScanSettings.brokenRules_eq_nil_iff {scan : ScanSettings} :
    scan.brokenRules = [] ↔ scan.IsValid := by
  unfold brokenRules
  simp only [List.append_eq_nil_iff, BrokenRule.unless_eq_nil_iff,
    PlcSettings.allBrokenRules_eq_nil_iff, List.not_mem_nil, not_false_eq_true, implies_true,
    and_true]
  constructor
  · rintro ⟨⟨⟨plcs, workers⟩, readTimeout⟩, plc, names⟩
    exact ⟨plcs, workers, readTimeout, plc, names⟩
  · rintro ⟨plcs, workers, readTimeout, plc, names⟩
    exact ⟨⟨⟨plcs, workers⟩, readTimeout⟩, plc, names⟩

theorem ScanSettings.validate_eq_ok_iff {scan : ScanSettings} :
    scan.validate = .ok () ↔ scan.IsValid := by
  rw [validate_eq_firstOf, firstOf_eq_ok_iff, brokenRules_eq_nil_iff]

theorem Settings.validate_eq_firstOf (settings : Settings) :
    settings.validate = BrokenRule.firstOf settings.brokenRules := by
  have hmode : BusSettings.modes.contains settings.bus.mode = true ↔
      settings.bus.mode ∈ ["client", "peer", "router"] := List.contains_iff_mem
  rw [brokenRules, firstOf_unless_append, ← ScanSettings.validate_eq_firstOf]
  unfold validate BusSettings.validate
  simp only [hmode]
  by_cases h : settings.bus.mode ∈ ["client", "peer", "router"]
  · simp only [if_pos h]
  · simp only [if_neg h]

theorem Settings.validate_eq_ok_iff {settings : Settings} :
    settings.validate = .ok () ↔ settings.IsValid := by
  rw [validate_eq_firstOf, firstOf_eq_ok_iff, brokenRules, List.append_eq_nil_iff,
    BrokenRule.unless_eq_nil_iff, ScanSettings.brokenRules_eq_nil_iff]
  exact ⟨fun ⟨mode, scan⟩ => ⟨mode, scan⟩, fun ⟨mode, scan⟩ => ⟨mode, scan⟩⟩

/-- A configuration is accepted exactly if it is valid, and otherwise the first of the rules that it
breaks is reported. -/
theorem Settings.validate_reports (settings : Settings) :
    (settings.validate = .ok () ↔ settings.IsValid) ∧
    ∀ rule, settings.validate = .error rule ↔ settings.brokenRules.head? = some rule := by
  refine ⟨validate_eq_ok_iff, fun rule => ?_⟩
  rw [validate_eq_firstOf]
  exact firstOf_eq_error_iff

end PlcGateway
