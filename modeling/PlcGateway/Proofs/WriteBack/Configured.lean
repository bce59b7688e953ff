import PlcGateway.Proofs.Text.Cut
import PlcGateway.WriteBack.Map

/-!
# What the settings ask of the write map

The entries of the texts of all PLCs stand in one order, PLC after PLC and text order within one.
`Configured` says what a write map has to be for them: which entries its rules come from, which
addresses take part in a rule, and which entry decides where an address is written. The write map of
the PLCs is so (`ofPlcs_configured`).
-/

namespace PlcGateway

namespace WriteMap

/-! ## Entries -/

/-- Joined pieces are found again as entries, without the blanks around them and without those that
hold nothing else. -/
theorem entries_join {pieces : List (List Char)} (h : ∀ p ∈ pieces, ';' ∉ p) :
    entries (String.ofList (Text.join ';' pieces)) =
      (pieces.map Text.trim).filter fun entry => !entry.isEmpty := by
  unfold entries
  rw [String.toList_ofList]
  cases pieces with
  | nil => rfl
  | cons piece pieces => rw [Text.fields_join (List.cons_ne_nil _ _) h]

/-- The entry gives the mapping of an address to a device: before its first `>` stands the address,
with or without blanks around it, and behind it the device. -/
def Maps (entry : List Char) (address : String) (device : Device) : Prop :=
  ∃ before after, entry = before ++ '>' :: after ∧ '>' ∉ before ∧
    String.ofList (Text.trim before) = address ∧
    Device.parseTarget (String.ofList after) = .ok device

theorem parseMapping?_iff {plc : String} {entry : List Char} {address : String}
    {target : WriteTarget} : parseMapping? plc entry = some (address, target) ↔
      target.plc = plc ∧ Maps entry address target.device := by
  unfold parseMapping? Maps
  constructor
  · intro h
    obtain ⟨⟨before, after⟩, hcut, h⟩ := Option.bind_eq_some_iff.1 h
    obtain ⟨device, hdevice, h⟩ := Option.bind_eq_some_iff.1 h
    simp only [Option.some.injEq, Prod.mk.injEq] at h
    obtain ⟨rfl, rfl⟩ := h
    obtain ⟨rfl, hnot⟩ := Text.cut?_singleton_iff.1 hcut
    refine ⟨rfl, before, after, rfl, hnot, rfl, ?_⟩
    cases hparse : Device.parseTarget (String.ofList after) with
    | error e => simp [hparse, Except.toOption] at hdevice
    | ok d => simp_all [Except.toOption]
  · rintro ⟨rfl, before, after, rfl, hnot, rfl, hparse⟩
    rw [Text.cut?_append_cons hnot]
    simp [hparse, Except.toOption]

theorem parseMapping?_eq_none_iff (plc : String) {entry : List Char} :
    parseMapping? plc entry = none ↔ ∀ address device, ¬ Maps entry address device := by
  constructor
  · intro h address device hmaps
    have hsome : parseMapping? plc entry = some (address, ⟨plc, device⟩) :=
      parseMapping?_iff.2 ⟨rfl, hmaps⟩
    rw [h] at hsome
    exact nomatch hsome
  · intro h
    refine Option.eq_none_iff_forall_ne_some.2 ?_
    rintro ⟨address, target⟩ hsome
    exact h address target.device (parseMapping?_iff.1 hsome).2

/-- The entries of all mappings, with the PLC that each stands with. -/
def mappingEntries (plcs : List PlcSettings) : List (String × List Char) :=
  plcs.flatMap fun plc => (entries plc.writeMap).map (Prod.mk plc.name)

/-- The entries of all rules. -/
def ruleEntries (plcs : List PlcSettings) : List (List Char) :=
  plcs.flatMap fun plc => entries plc.conditionalWrites

/-! ## What the settings ask for -/

/-- What the three parts of a write map have to be for the settings of some PLCs. -/
structure Configured (plcs : List PlcSettings) (rules : List Rule) (participates : String → Bool)
    (target? : String → Option WriteTarget) : Prop where
  /-- The rules are what the entries that can be read give, in order. -/
  rules_eq : rules = (ruleEntries plcs).filterMap fun entry => Rule.parse? (String.ofList entry)
  participates_iff : ∀ address, participates address = true ↔
    ∃ rule ∈ rules, rule.bit = address ∨ rule.source = address
  /-- Of the entries that map an address the last decides, and so does the PLC it stands with. -/
  target_iff : ∀ address target, target? address = some target ↔
    ∃ earlier entry later, mappingEntries plcs = earlier ++ (target.plc, entry) :: later ∧
      Maps entry address target.device ∧
      ∀ other ∈ later, ∀ device, ¬ Maps other.2 address device
  unmapped_iff : ∀ address, target? address = none ↔
    ∀ entry ∈ mappingEntries plcs, ∀ device, ¬ Maps entry.2 address device

theorem mappings_eq (plcs : List PlcSettings) : (ofPlcs plcs).mappings =
    (mappingEntries plcs).filterMap fun entry => parseMapping? entry.1 entry.2 := by
  show plcs.flatMap mappingsOf = _
  unfold mappingEntries
  rw [List.filterMap_flatMap]
  congr 1
  funext plc
  rw [List.filterMap_map]
  rfl

theorem rules_eq (plcs : List PlcSettings) : (ofPlcs plcs).rules =
    (ruleEntries plcs).filterMap fun entry => Rule.parse? (String.ofList entry) := by
  show plcs.flatMap rulesOf = _
  unfold ruleEntries
  rw [List.filterMap_flatMap]
  rfl

/-- Where an entry says that the value of an address is written. -/
def mapped? (address : String) (entry : String × List Char) : Option WriteTarget :=
  ((parseMapping? entry.1 entry.2).filter fun mapping => mapping.1 == address).map (·.2)

theorem mapped?_iff {address : String} {entry : String × List Char} {target : WriteTarget} :
    mapped? address entry = some target ↔
      target.plc = entry.1 ∧ Maps entry.2 address target.device := by
  rw [← parseMapping?_iff]
  unfold mapped?
  constructor
  · intro h
    obtain ⟨⟨a, t⟩, hfilter, rfl⟩ := Option.map_eq_some_iff.1 h
    obtain ⟨hparse, ha⟩ := Option.filter_eq_some_iff.1 hfilter
    rw [hparse, ← beq_iff_eq.1 ha]
  · intro h
    simp [h, Option.filter]

theorem mapped?_eq_none_iff {address : String} {entry : String × List Char} :
    mapped? address entry = none ↔ ∀ device, ¬ Maps entry.2 address device := by
  rw [Option.eq_none_iff_forall_ne_some]
  constructor
  · intro h device hmaps
    exact h ⟨entry.1, device⟩ (mapped?_iff.2 ⟨rfl, hmaps⟩)
  · intro h target hsome
    exact h target.device (mapped?_iff.1 hsome).2

/-- The target of an address is what the last entry gives that maps it. -/
theorem target?_eq (plcs : List PlcSettings) (address : String) :
    (ofPlcs plcs).target? address =
      (mappingEntries plcs).reverse.findSome? (mapped? address) := by
  unfold target?
  rw [mappings_eq, ← List.filterMap_reverse]
  induction (mappingEntries plcs).reverse with
  | nil => rfl
  | cons entry rest ih =>
    rw [List.filterMap_cons, List.findSome?_cons, ← ih]
    unfold mapped?
    cases parseMapping? entry.1 entry.2 with
    | none => rfl
    | some mapping =>
      by_cases h : mapping.1 = address
      · simp [Option.filter, h]
      · simp [Option.filter, h]

theorem participates_iff {map : WriteMap} {address : String} : map.participates address = true ↔
    ∃ rule ∈ map.rules, rule.bit = address ∨ rule.source = address := by
  unfold participates Rule.names
  simp only [List.any_eq_true, Bool.or_eq_true, beq_iff_eq]

theorem ofPlcs_configured (plcs : List PlcSettings) :
    Configured plcs (ofPlcs plcs).rules (ofPlcs plcs).participates (ofPlcs plcs).target? where
  rules_eq := rules_eq plcs
  participates_iff _ := participates_iff
  target_iff address target := by
    rw [target?_eq, List.findSome?_eq_some_iff]
    constructor
    · rintro ⟨later, ⟨plc, entry⟩, earlier, hsplit, hmapped, hlater⟩
      obtain ⟨rfl, hmaps⟩ := mapped?_iff.1 hmapped
      refine ⟨earlier.reverse, entry, later.reverse, ?_, hmaps, fun other hother => ?_⟩
      · rw [List.reverse_eq_iff.1 hsplit]
        simp
      · exact mapped?_eq_none_iff.1 (hlater other (List.mem_reverse.1 hother))
    · rintro ⟨earlier, entry, later, hsplit, hmaps, hlater⟩
      refine ⟨later.reverse, (target.plc, entry), earlier.reverse, ?_,
        mapped?_iff.2 ⟨rfl, hmaps⟩, fun other hother => ?_⟩
      · rw [hsplit]
        simp
      · exact mapped?_eq_none_iff.2 (hlater other (List.mem_reverse.1 hother))
  unmapped_iff address := by
    rw [target?_eq, List.findSome?_eq_none_iff]
    simp only [List.mem_reverse, mapped?_eq_none_iff]

end WriteMap

end PlcGateway
