import Mathlib.Algebra.GroupWithZero.Nat
import Mathlib.Data.List.Induction
import Mathlib.Data.List.Nodup
import PlcGateway.Proofs.Settings.Validation
import PlcGateway.Service.Basic

/-!
# The registry of a service

PLCs are registered one after another, and a name may be used again. The registry then holds every
name once, where it was used first, with what was registered last under it
(`isRegistryOf_registerAll`). Where no name is used twice, it is the list of the registrations
(`IsRegistryOf.plcs_eq_of_nodup`), and the PLCs of a configuration that is accepted have different
names (`ScanSettings.names_nodup`).
-/

namespace PlcGateway

/-! ## Names without repetition -/

theorem eraseDups_append_singleton (names : List String) (name : String) :
    (names ++ [name]).eraseDups =
      if name ∈ names then names.eraseDups else names.eraseDups ++ [name] := by
  rw [List.eraseDups_append, List.removeAll, List.filter_singleton]
  by_cases h : name ∈ names
  · simp [h]
  · simp [h, List.eraseDups_cons]

theorem eraseDups_of_nodup {names : List String} (nodup : names.Nodup) :
    names.eraseDups = names := by
  induction names using List.reverseRecOn with
  | nil => rfl
  | append_singleton names name ih =>
    obtain ⟨hnames, -, hfresh⟩ := List.nodup_append.1 nodup
    have hname : name ∉ names := fun hmem => hfresh name hmem name (List.mem_singleton_self name) rfl
    rw [eraseDups_append_singleton, if_neg hname, ih hnames]

namespace Service

/-! ## Lookup -/

theorem find?_eq_some_iff {service : Service} {name : String} {plc : PlcConnection} :
    service.find? name = some plc ↔ plc ∈ service.plcs ∧ plc.name = name := by
  have hfound : ∀ {plc}, service.find? name = some plc → plc ∈ service.plcs ∧ plc.name = name :=
    fun found => ⟨List.mem_of_find?_eq_some found, by simpa using List.find?_some found⟩
  refine ⟨hfound, ?_⟩
  rintro ⟨hmem, hname⟩
  cases hfind : service.find? name with
  | none =>
    have hno := List.find?_eq_none.1 hfind plc hmem
    simp [hname] at hno
  | some found =>
    obtain ⟨hmem', hname'⟩ := hfound hfind
    exact congrArg some
      (List.inj_on_of_nodup_map service.names_nodup hmem' hmem (hname'.trans hname.symm))

theorem find?_eq_none_iff {service : Service} {name : String} :
    service.find? name = none ↔ name ∉ service.names := by
  unfold find? names
  simp [List.find?_eq_none]

/-! ## Registrations -/

/-- Registers PLCs one after another, each with the devices that are scanned there. -/
def registerAll (calls : List (Endpoint × List Device)) (service : Service) : Service :=
  calls.foldl (fun service call => service.register call.1 call.2) service

/-- What was registered last under a name. -/
def lastOf (calls : List (Endpoint × List Device)) (name : String) :
    Option (Endpoint × List Device) :=
  calls.reverse.find? fun call => call.1.name == name

/-- A PLC as it is registered. -/
def connectionOf (call : Endpoint × List Device) : PlcConnection := .make call.1 call.2

/-- What the registry of a service is after some registrations. -/
structure IsRegistryOf (calls : List (Endpoint × List Device)) (service : Service) : Prop where
  nodup : service.names.Nodup
  /-- The names are held in the order in which they were used first. -/
  names_eq : service.names = (calls.map fun call => call.1.name).eraseDups
  /-- Under every name is what was registered last. -/
  plcs_eq : service.plcs = service.names.filterMap fun name => (lastOf calls name).map connectionOf
  find?_eq : ∀ name, service.find? name = (lastOf calls name).map connectionOf
  deviceCount_eq : service.deviceCount =
    ((service.names.filterMap (lastOf calls)).map fun call => call.2.length).sum

variable {calls : List (Endpoint × List Device)} {call : Endpoint × List Device}
  {service : Service} {name : String}

theorem lastOf_append_singleton (calls : List (Endpoint × List Device))
    (call : Endpoint × List Device) (name : String) :
    lastOf (calls ++ [call]) name =
      if call.1.name = name then some call else lastOf calls name := by
  unfold lastOf
  rw [List.reverse_append, List.reverse_singleton, List.singleton_append, List.find?_cons]
  by_cases h : call.1.name = name
  · rw [if_pos h, beq_iff_eq.2 h]
  · rw [if_neg h, beq_false_of_ne h]

theorem of_lastOf_eq_some (h : lastOf calls name = some call) :
    call ∈ calls ∧ call.1.name = name :=
  ⟨List.mem_reverse.1 (List.mem_of_find?_eq_some h), by simpa using List.find?_some h⟩

theorem lastOf_eq_none_iff : lastOf calls name = none ↔ name ∉ calls.map fun call => call.1.name := by
  unfold lastOf
  simp [List.find?_eq_none]

/-- Under a name that is used once, this use is the last. -/
theorem lastOf_of_nodup (nodup : (calls.map fun call => call.1.name).Nodup) (h : call ∈ calls) :
    lastOf calls call.1.name = some call := by
  cases hlast : lastOf calls call.1.name with
  | none => exact absurd (List.mem_map_of_mem h) (lastOf_eq_none_iff.1 hlast)
  | some last =>
    obtain ⟨hmem, hname⟩ := of_lastOf_eq_some hlast
    exact congrArg some (List.inj_on_of_nodup_map nodup hmem h hname)

/-! ## One registration -/

theorem names_register (service : Service) (call : Endpoint × List Device) :
    (service.register call.1 call.2).names =
      if call.1.name ∈ service.names then service.names else service.names ++ [call.1.name] := by
  show (insert (connectionOf call) service.plcs).map PlcConnection.name = _
  unfold insert
  by_cases h : call.1.name ∈ service.names
  · have hheld : (connectionOf call).name ∈ service.plcs.map PlcConnection.name := h
    rw [if_pos hheld, if_pos h, names_substitute]
    rfl
  · have hfresh : (connectionOf call).name ∉ service.plcs.map PlcConnection.name := h
    rw [if_neg hfresh, if_neg h, List.map_append]
    rfl

/-- Registering a PLC puts it in the place that its name has, and moves no other. -/
theorem plcs_register
    (plcs : service.plcs = service.names.filterMap fun name => (lastOf calls name).map connectionOf)
    (known : ∀ name ∈ service.names, name ∈ calls.map fun call => call.1.name) :
    (service.register call.1 call.2).plcs =
      (service.register call.1 call.2).names.filterMap fun name =>
        (lastOf (calls ++ [call]) name).map connectionOf := by
  have hname : (connectionOf call).name = call.1.name := rfl
  rw [names_register]
  show insert (connectionOf call) service.plcs = _
  unfold insert
  by_cases h : call.1.name ∈ service.names
  · have hheld : (connectionOf call).name ∈ service.plcs.map PlcConnection.name := h
    rw [if_pos hheld, if_pos h, substitute, plcs, List.map_filterMap]
    apply List.filterMap_congr
    intro name hmem
    rw [lastOf_append_singleton, Option.map_map]
    cases hlast : lastOf calls name with
    | none => exact absurd (known name hmem) (lastOf_eq_none_iff.1 hlast)
    | some last =>
      obtain ⟨-, rfl⟩ := of_lastOf_eq_some hlast
      have hother : (connectionOf last).name = last.1.name := rfl
      rw [Option.map_some, Function.comp_apply, hother, hname]
      by_cases hsame : last.1.name = call.1.name
      · rw [if_pos hsame, if_pos hsame.symm, Option.map_some]
      · rw [if_neg hsame, if_neg (Ne.symm hsame), Option.map_some]
  · have hfresh : (connectionOf call).name ∉ service.plcs.map PlcConnection.name := h
    rw [if_neg hfresh, if_neg h, List.filterMap_append, plcs]
    congr 1
    · apply List.filterMap_congr
      intro name hmem
      have hne : call.1.name ≠ name := by
        rintro rfl
        exact h hmem
      rw [lastOf_append_singleton, if_neg hne]
    · simp [lastOf_append_singleton]

/-! ## Any number of registrations -/

theorem registerAll_append_singleton (calls : List (Endpoint × List Device))
    (call : Endpoint × List Device) (service : Service) :
    registerAll (calls ++ [call]) service =
      (registerAll calls service).register call.1 call.2 := by
  unfold registerAll
  rw [List.foldl_append]
  rfl

theorem names_registerAll (calls : List (Endpoint × List Device)) (readTimeoutMs : Nat) :
    (registerAll calls (empty readTimeoutMs)).names =
      (calls.map fun call => call.1.name).eraseDups := by
  induction calls using List.reverseRecOn with
  | nil => rfl
  | append_singleton calls call ih =>
    rw [registerAll_append_singleton, names_register, ih, List.map_append, List.map_singleton,
      eraseDups_append_singleton]
    simp only [List.mem_eraseDups]

theorem plcs_registerAll (calls : List (Endpoint × List Device)) (readTimeoutMs : Nat) :
    (registerAll calls (empty readTimeoutMs)).plcs =
      (registerAll calls (empty readTimeoutMs)).names.filterMap fun name =>
        (lastOf calls name).map connectionOf := by
  induction calls using List.reverseRecOn with
  | nil => rfl
  | append_singleton calls call ih =>
    rw [registerAll_append_singleton]
    refine plcs_register ih fun name hname => ?_
    rwa [names_registerAll, List.mem_eraseDups] at hname

theorem deviceCount_eq_sum (service : Service) :
    service.deviceCount = (service.plcs.map fun plc => plc.devices.length).sum := by
  unfold deviceCount devices
  rw [List.length_flatMap]
  simp only [List.length_map]

theorem isRegistryOf_registerAll (calls : List (Endpoint × List Device)) (readTimeoutMs : Nat) :
    (registerAll calls (empty readTimeoutMs)).IsRegistryOf calls := by
  have names := names_registerAll calls readTimeoutMs
  have plcs := plcs_registerAll calls readTimeoutMs
  refine ⟨Service.names_nodup _, names, plcs, fun name => ?_, ?_⟩
  · cases hlast : lastOf calls name with
    | none =>
      have hunused := lastOf_eq_none_iff.1 hlast
      rw [← List.mem_eraseDups, ← names] at hunused
      exact find?_eq_none_iff.2 hunused
    | some last =>
      obtain ⟨hmem, rfl⟩ := of_lastOf_eq_some hlast
      refine find?_eq_some_iff.2 ⟨?_, rfl⟩
      rw [plcs, List.mem_filterMap]
      refine ⟨last.1.name, ?_, by rw [hlast]; rfl⟩
      rw [names, List.mem_eraseDups]
      exact List.mem_map_of_mem hmem
  · rw [deviceCount_eq_sum, plcs, List.map_filterMap, List.map_filterMap]
    congr 1
    apply List.filterMap_congr
    intro name _
    rw [Option.map_map]
    rfl

/-- With every name used once, the PLCs are held in the order of their registration. -/
theorem IsRegistryOf.plcs_eq_of_nodup (registry : service.IsRegistryOf calls)
    (nodup : (calls.map fun call => call.1.name).Nodup) :
    service.plcs = calls.map connectionOf := by
  rw [registry.plcs_eq, registry.names_eq, eraseDups_of_nodup nodup, List.filterMap_map,
    List.filterMap_eq_map_iff_forall_eq_some]
  intro call hmem
  rw [Function.comp_apply, lastOf_of_nodup nodup hmem, Option.map_some]

end Service

/-! ## Configured PLCs -/

/-- The PLCs of scan settings that are accepted have different names. -/
theorem ScanSettings.names_nodup {scan : ScanSettings} (valid : scan.validate = .ok ()) :
    (scan.plcs.map PlcSettings.name).Nodup := (validate_eq_ok_iff.1 valid).names

namespace Service

/-- A PLC as configured is registered with its endpoint and the devices of its lists. -/
def callOf (plc : PlcSettings) : Endpoint × List Device := (.ofSettings plc, configuredDevices plc)

theorem foldl_registerSettings (plcs : List PlcSettings) (service : Service) :
    plcs.foldl registerSettings service = registerAll (plcs.map callOf) service := by
  unfold registerAll
  rw [List.foldl_map]
  rfl

end Service

end PlcGateway
