import Mathlib.Data.List.Forall2
import PlcGateway.Proofs.WriteBack.Configured
import PlcGateway.WriteBack.Tables

/-!
# Reading the settings entry by entry

The tables that are filled entry by entry agree with what `WriteMap.ofPlcs` collects
(`ofPlcs_agrees`), since each step keeps them together (`Holds.putTarget`, `Holds.putRule`): the
participants are always those of the rules so far. Pieces that are blank or cannot be read change
nothing, wherever they stand (`Padded.ofPlcs_eq`).
-/

namespace PlcGateway

/-- The longer list is the shorter one with more elements put in anywhere, each of which is
extra. -/
inductive Interspersed {α : Type} (extra : α → Prop) : List α → List α → Prop where
  | nil : Interspersed extra [] []
  | keep (a : α) {shorter longer : List α} (more : Interspersed extra shorter longer) :
      Interspersed extra (a :: shorter) (a :: longer)
  | insert (a : α) {shorter longer : List α} (isExtra : extra a)
      (more : Interspersed extra shorter longer) : Interspersed extra shorter (a :: longer)

namespace Interspersed

variable {α β : Type} {extra : α → Prop} {shorter longer : List α}

theorem sublist (h : Interspersed extra shorter longer) : shorter.Sublist longer := by
  induction h with
  | nil => exact List.Sublist.refl _
  | keep a _ ih => exact ih.cons_cons a
  | insert a _ _ ih => exact ih.cons a

/-- Whatever ignores the extra elements finds the same in both lists. -/
theorem filterMap_eq {f : α → Option β} (h : Interspersed extra shorter longer)
    (ignored : ∀ a, extra a → f a = none) : longer.filterMap f = shorter.filterMap f := by
  induction h with
  | nil => rfl
  | keep a _ ih => rw [List.filterMap_cons, List.filterMap_cons, ih]
  | insert a isExtra _ ih => rw [List.filterMap_cons, ignored a isExtra, ih]

end Interspersed

namespace WriteMap

/-! ## Entries that cannot be read -/

/-- The longer text is the shorter one with more pieces put in anywhere, each of which is extra. -/
def PaddedText (extra : List Char → Prop) (shorter longer : String) : Prop :=
  ∃ pieces pieces', (∀ p ∈ pieces', ';' ∉ p) ∧ Interspersed extra pieces pieces' ∧
    shorter = String.ofList (Text.join ';' pieces) ∧ longer = String.ofList (Text.join ';' pieces')

/-- The piece is blank, or it gives no mapping. -/
def IsNoMapping (piece : List Char) : Prop :=
  Text.trim piece = [] ∨ ∀ address device, ¬ Maps (Text.trim piece) address device

/-- The piece is blank, or it gives no rule. -/
def IsNoRule (piece : List Char) : Prop :=
  Text.trim piece = [] ∨ Rule.parse? (String.ofList (Text.trim piece)) = none

/-- The second settings of a PLC have more pieces in the texts for the write map, each of which is
blank or cannot be read. -/
structure Padded (plc plc' : PlcSettings) : Prop where
  name_eq : plc'.name = plc.name
  writeMap : PaddedText IsNoMapping plc.writeMap plc'.writeMap
  conditionalWrites : PaddedText IsNoRule plc.conditionalWrites plc'.conditionalWrites

/-- Whatever cannot be made of the extra pieces is made of the same entries in both texts. -/
theorem PaddedText.filterMap_entries {α : Type} {extra : List Char → Prop}
    {shorter longer : String} {f : List Char → Option α} (h : PaddedText extra shorter longer)
    (ignored : ∀ p, extra p → Text.trim p = [] ∨ f (Text.trim p) = none) :
    (entries longer).filterMap f = (entries shorter).filterMap f := by
  obtain ⟨pieces, pieces', hpieces', hinterspersed, rfl, rfl⟩ := h
  have hpieces : ∀ p ∈ pieces, ';' ∉ p := fun p hp => hpieces' p (hinterspersed.sublist.subset hp)
  rw [entries_join hpieces, entries_join hpieces', List.filterMap_filter, List.filterMap_filter,
    List.filterMap_map, List.filterMap_map]
  apply hinterspersed.filterMap_eq
  intro p hp
  rcases ignored p hp with hblank | hnone
  · simp [hblank]
  · simp [hnone]

theorem Padded.mappingsOf_eq {plc plc' : PlcSettings} (h : Padded plc plc') :
    mappingsOf plc' = mappingsOf plc := by
  unfold mappingsOf
  rw [h.name_eq]
  refine h.writeMap.filterMap_entries fun p hp => ?_
  rw [parseMapping?_eq_none_iff]
  exact hp

theorem Padded.rulesOf_eq {plc plc' : PlcSettings} (h : Padded plc plc') :
    rulesOf plc' = rulesOf plc :=
  h.conditionalWrites.filterMap_entries fun _ hp => hp

theorem Padded.ofPlcs_eq {plcs plcs' : List PlcSettings} (h : List.Forall₂ Padded plcs plcs') :
    ofPlcs plcs' = ofPlcs plcs := by
  have hboth : plcs'.flatMap mappingsOf = plcs.flatMap mappingsOf ∧
      plcs'.flatMap rulesOf = plcs.flatMap rulesOf := by
    induction h with
    | nil => exact ⟨rfl, rfl⟩
    | cons hplc _ ih =>
      simp only [List.flatMap_cons, hplc.mappingsOf_eq, hplc.rulesOf_eq, ih, and_self]
  unfold ofPlcs
  rw [hboth.1, hboth.2]

end WriteMap

/-! ## Reading entry by entry -/

namespace WriteTables

open WriteMap (mappingsOf rulesOf Configured Padded)

/-- The tables hold what these mappings and rules come to. -/
structure Holds (tables : WriteTables) (mappings : List (String × WriteTarget))
    (rules : List Rule) : Prop where
  targets_eq : tables.targets = mappings.reverse
  rules_eq : tables.rules = rules
  participants_iff : ∀ address, address ∈ tables.participants ↔
    ∃ rule ∈ rules, rule.bit = address ∨ rule.source = address

variable {tables : WriteTables} {mappings : List (String × WriteTarget)} {rules : List Rule}

namespace Holds

theorem putTarget (h : Holds tables mappings rules) (mapping : String × WriteTarget) :
    Holds (tables.putTarget mapping) (mappings ++ [mapping]) rules where
  targets_eq := by
    show mapping :: tables.targets = _
    rw [h.targets_eq, List.reverse_concat]
  rules_eq := h.rules_eq
  participants_iff := h.participants_iff

/-- A rule and the addresses that it names come in together. -/
theorem putRule (h : Holds tables mappings rules) (rule : Rule) :
    Holds (tables.putRule rule) mappings (rules ++ [rule]) where
  targets_eq := h.targets_eq
  rules_eq := congrArg (· ++ [rule]) h.rules_eq
  participants_iff address := by
    show address ∈ rule.source :: rule.bit :: tables.participants ↔ _
    simp only [List.mem_cons, List.mem_append, h.participants_iff]
    constructor
    · rintro (rfl | rfl | ⟨earlier, hearlier, hnames⟩)
      · exact ⟨rule, by simp, .inr rfl⟩
      · exact ⟨rule, by simp, .inl rfl⟩
      · exact ⟨earlier, .inl hearlier, hnames⟩
    · rintro ⟨r, hr, hnames⟩
      rcases hr with hr | rfl | hr
      · exact .inr (.inr ⟨r, hr, hnames⟩)
      · rcases hnames with rfl | rfl
        · exact .inr (.inl rfl)
        · exact .inl rfl
      · exact absurd hr List.not_mem_nil

theorem putTargets (h : Holds tables mappings rules) (more : List (String × WriteTarget)) :
    Holds (more.foldl WriteTables.putTarget tables) (mappings ++ more) rules := by
  induction more generalizing tables mappings with
  | nil => simpa using h
  | cons mapping more ih => simpa using ih (h.putTarget mapping)

theorem putRules (h : Holds tables mappings rules) (more : List Rule) :
    Holds (more.foldl WriteTables.putRule tables) mappings (rules ++ more) := by
  induction more generalizing tables rules with
  | nil => simpa using h
  | cons rule more ih => simpa using ih (h.putRule rule)

end Holds

theorem foldl_addMapping (plc : String) (entries : List (List Char)) (tables : WriteTables) :
    entries.foldl (addMapping plc) tables =
      (entries.filterMap (WriteMap.parseMapping? plc)).foldl putTarget tables := by
  rw [List.foldl_filterMap]
  congr 1
  funext tables entry
  unfold addMapping
  cases WriteMap.parseMapping? plc entry <;> rfl

theorem foldl_addRule (entries : List (List Char)) (tables : WriteTables) :
    entries.foldl addRule tables =
      (entries.filterMap fun entry => Rule.parse? (String.ofList entry)).foldl putRule tables := by
  rw [List.foldl_filterMap]
  congr 1
  funext tables entry
  unfold addRule
  cases Rule.parse? (String.ofList entry) <;> rfl

/-- Entries that cannot be read do nothing, so a PLC adds what can be read. -/
theorem addPlc_eq (tables : WriteTables) (plc : PlcSettings) : tables.addPlc plc =
    (rulesOf plc).foldl putRule ((mappingsOf plc).foldl putTarget tables) := by
  unfold addPlc
  rw [foldl_addRule, foldl_addMapping]
  rfl

theorem Holds.addPlcs (h : Holds tables mappings rules) (plcs : List PlcSettings) :
    Holds (plcs.foldl addPlc tables) (mappings ++ plcs.flatMap mappingsOf)
      (rules ++ plcs.flatMap rulesOf) := by
  induction plcs generalizing tables mappings rules with
  | nil => simpa using h
  | cons plc plcs ih =>
    have hplc := (h.putTargets (mappingsOf plc)).putRules (rulesOf plc)
    rw [← addPlc_eq] at hplc
    simpa using ih hplc

/-- The tables and the write map of the same PLCs answer alike. -/
theorem ofPlcs_agrees (plcs : List PlcSettings) :
    (ofPlcs plcs).rules = (WriteMap.ofPlcs plcs).rules ∧
    (ofPlcs plcs).participates = (WriteMap.ofPlcs plcs).participates ∧
    (ofPlcs plcs).target? = (WriteMap.ofPlcs plcs).target? := by
  have hempty : Holds {} [] [] := ⟨rfl, rfl, by simp⟩
  have holds : Holds (ofPlcs plcs) (WriteMap.ofPlcs plcs).mappings (WriteMap.ofPlcs plcs).rules :=
    hempty.addPlcs plcs
  refine ⟨holds.rules_eq, ?_, ?_⟩
  · funext address
    rw [Bool.eq_iff_iff, WriteMap.participates_iff, ← holds.participants_iff]
    exact List.contains_iff_mem
  · funext address
    unfold target? WriteMap.target?
    rw [holds.targets_eq]

theorem ofPlcs_eq_of_padded {plcs plcs' : List PlcSettings}
    (h : List.Forall₂ Padded plcs plcs') : ofPlcs plcs' = ofPlcs plcs := by
  unfold ofPlcs
  generalize ({} : WriteTables) = tables
  induction h generalizing tables with
  | nil => rfl
  | cons hplc _ ih =>
    rw [List.foldl_cons, List.foldl_cons, ih, addPlc_eq, addPlc_eq, hplc.mappingsOf_eq,
      hplc.rulesOf_eq]

/-- For all settings: what the tables hold that are filled entry by entry is what the settings ask
for, the write map answers as the tables do, and pieces that are blank or cannot be read change
neither. -/
theorem ofPlcs_reads (plcs : List PlcSettings) :
    Configured plcs (ofPlcs plcs).rules (ofPlcs plcs).participates (ofPlcs plcs).target? ∧
    Configured plcs (WriteMap.ofPlcs plcs).rules (WriteMap.ofPlcs plcs).participates
      (WriteMap.ofPlcs plcs).target? ∧
    ∀ plcs', List.Forall₂ Padded plcs plcs' →
      ofPlcs plcs' = ofPlcs plcs ∧ WriteMap.ofPlcs plcs' = WriteMap.ofPlcs plcs := by
  obtain ⟨hrules, hparticipates, htarget⟩ := ofPlcs_agrees plcs
  have hmap := WriteMap.ofPlcs_configured plcs
  refine ⟨?_, hmap, fun plcs' h => ⟨ofPlcs_eq_of_padded h, Padded.ofPlcs_eq h⟩⟩
  rw [hrules, hparticipates, htarget]
  exact hmap

/-- Settings of a PLC with one mapping and one rule. -/
def tidy : PlcSettings where
  name := "Line2"
  host := "10.0.0.2"
  writeMap := "D71>D,3302"
  conditionalWrites := "M64==D71"

/-- The same mapping and the same rule among pieces that are blank or cannot be read. -/
def untidy : PlcSettings where
  name := "Line2"
  host := "10.0.0.2"
  writeMap := " bad ;D71>D,3302; D71>Q,1;"
  conditionalWrites := "; ;M64==D71;M64=D72"

theorem ofPlcs_reads_untidy :
    List.Forall₂ Padded [tidy] [untidy] ∧ ofPlcs [untidy] = ofPlcs [tidy] ∧
    WriteMap.ofPlcs [untidy] = WriteMap.ofPlcs [tidy] ∧
    (ofPlcs [untidy]).participants = ["D71", "M64"] := by
  have mapping : WriteMap.PaddedText WriteMap.IsNoMapping tidy.writeMap untidy.writeMap := by
    refine ⟨["D71>D,3302".toList], [" bad ".toList, "D71>D,3302".toList, " D71>Q,1".toList, []],
      by decide, ?_, rfl, rfl⟩
    refine .insert _ ?_ (.keep _ (.insert _ ?_ (.insert _ (.inl rfl) .nil)))
    · exact .inr ((WriteMap.parseMapping?_eq_none_iff "Line2").1 (by decide))
    · exact .inr ((WriteMap.parseMapping?_eq_none_iff "Line2").1 (by decide))
  have rule : WriteMap.PaddedText WriteMap.IsNoRule tidy.conditionalWrites
      untidy.conditionalWrites := by
    refine ⟨["M64==D71".toList], [[], [' '], "M64==D71".toList, "M64=D72".toList],
      by decide, ?_, rfl, rfl⟩
    refine .insert _ (.inl rfl) (.insert _ (.inl (by decide)) (.keep _ (.insert _ ?_ .nil)))
    exact .inr (by decide)
  have padded : List.Forall₂ Padded [tidy] [untidy] := .cons ⟨rfl, mapping, rule⟩ .nil
  obtain ⟨htables, hmap⟩ := (ofPlcs_reads [tidy]).2.2 [untidy] padded
  exact ⟨padded, htables, hmap, by decide⟩

end WriteTables

end PlcGateway
