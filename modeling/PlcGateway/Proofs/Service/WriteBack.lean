import PlcGateway.Proofs.Service.Scan
import PlcGateway.Proofs.WriteBack.Configured
import PlcGateway.Proofs.WriteBack.Delivery
import PlcGateway.Proofs.WriteBack.Writer

/-!
# Write-back over the registered PLCs

The mappings of a write map go to PLCs that are configured, and the service that a configuration is
registered in knows all of these (`mem_names_of_target?`). Reads and writes change nothing about the
names that a service knows, so a write to a target of the map always finds its PLC, in every run of
the engine (`registry_complete`).
-/

namespace PlcGateway

/-! ## Targets -/

/-- A target of the map of some PLCs is a device of one of them. -/
theorem WriteMap.exists_plc_of_target? {plcs : List PlcSettings} {address : String}
    {target : WriteTarget} (mapped : (ofPlcs plcs).target? address = some target) :
    ∃ plc ∈ plcs, plc.name = target.plc := by
  obtain ⟨earlier, entry, later, hentries, -, -⟩ :=
    ((ofPlcs_configured plcs).target_iff address target).1 mapped
  have hmem : (target.plc, entry) ∈ mappingEntries plcs := by
    rw [hentries]
    exact List.mem_append_right _ List.mem_cons_self
  obtain ⟨plc, hplc, hentry⟩ := List.mem_flatMap.1 hmem
  obtain ⟨_, -, heq⟩ := List.mem_map.1 hentry
  exact ⟨plc, hplc, congrArg Prod.fst heq⟩

/-! ## Writes to PLCs that are known -/

variable {ν : Type} {network : Network ν}

theorem PlcConnection.writeTexts_ne_unknownPlc (device : Device) (texts : List String)
    (plc : PlcConnection) (s : ν) (name : String) :
    (plc.writeTexts network device texts s).1 ≠ .error (.unknownPlc name) := by
  induction texts generalizing plc s with
  | nil => exact nofun
  | cons text texts ih =>
    unfold writeTexts
    cases device.format.encode text device.registers with
    | error e => exact nofun
    | ok payload =>
      simp only
      cases (plc.write network device payload s).result with
      | error e => exact nofun
      | ok _ => exact ih _ _

namespace Service

variable {service other : Service} {target : WriteTarget} {s : ν}

theorem SameSettings.names_eq (same : service.SameSettings other) : other.names = service.names := by
  rw [names_eq_map, names_eq_map, same.registered_eq]

theorem SameSettings.writeDevice (same : service.SameSettings other) (name : String)
    (device : Device) (value : WriteValue) (s : ν) :
    service.SameSettings (writeDevice network name device value (other, s)).2.1 := by
  cases hknown : other.find? name with
  | none =>
    simp only [Service.writeDevice, hknown]
    exact same
  | some plc =>
    simp only [Service.writeDevice, hknown]
    exact same.setClient hknown _

/-- A write finds every PLC whose name was registered. -/
theorem SameSettings.writeDevice_ne_unknownPlc (same : service.SameSettings other) {name : String}
    (known : name ∈ service.names) (device : Device) (value : WriteValue) (s : ν)
    (unknown : String) :
    (Service.writeDevice network name device value (other, s)).1 ≠ .error (.unknownPlc unknown) := by
  rw [← same.names_eq] at known
  cases hfind : other.find? name with
  | none => exact absurd known (find?_eq_none_iff.1 hfind)
  | some plc =>
    simp only [Service.writeDevice, hfind]
    exact plc.writeTexts_ne_unknownPlc device value.strings s unknown

/-- The writer of the write-back rules, with a note of how each write has ended. -/
def notingWriter (network : Network ν) :
    Writer (List (Except ServiceError Unit) × Service × ν) := fun target value (notes, state) =>
  let (result, state) := writeDevice network target.plc target.device value state
  (result.isOk, notes ++ [result], state)

theorem notingWriter_extends (network : Network ν) :
    (notingWriter network).Extends (writer network) Prod.snd := by
  rintro target value ⟨notes, state⟩
  rcases hwrite : writeDevice network target.plc target.device value state with ⟨_ | _, state'⟩
  · simp only [writer, notingWriter, hwrite]
    rfl
  · simp only [writer, notingWriter, hwrite]
    rfl

/-- No write was noted to have found no PLC of its name. -/
def FindsPlcs (service : Service) : List (Except ServiceError Unit) × Service × ν → Prop :=
  fun (notes, other, _) => service.SameSettings other ∧
    ∀ note ∈ notes, ∀ unknown, note ≠ .error (.unknownPlc unknown)

theorem notingWriter_keeps {map : WriteMap} (network : Network ν)
    (known : ∀ address target, map.target? address = some target → target.plc ∈ service.names) :
    (notingWriter network).Keeps map fun state => service.FindsPlcs state := by
  rintro address target value ⟨notes, other, s⟩ mapped ⟨same, found⟩
  refine ⟨same.writeDevice target.plc target.device value s, fun note hnote => ?_⟩
  rcases List.mem_append.1 hnote with hnote | hnote
  · exact found note hnote
  · rw [List.mem_singleton.1 hnote]
    exact same.writeDevice_ne_unknownPlc (known address target mapped) target.device value s

/-! ## Configurations -/

theorem isRegistryOf_settings (plcs : List PlcSettings) (readTimeoutMs : Nat) :
    (plcs.foldl registerSettings (empty readTimeoutMs)).IsRegistryOf (plcs.map callOf) := by
  rw [foldl_registerSettings]
  exact isRegistryOf_registerAll _ _

/-- The map of some PLCs only names PLCs that are registered with them. -/
theorem mem_names_of_target? {plcs : List PlcSettings} {address : String} (readTimeoutMs : Nat)
    (mapped : (WriteMap.ofPlcs plcs).target? address = some target) :
    target.plc ∈ (plcs.foldl registerSettings (empty readTimeoutMs)).names := by
  obtain ⟨plc, hplc, hname⟩ := WriteMap.exists_plc_of_target? mapped
  rw [(isRegistryOf_settings plcs readTimeoutMs).names_eq, List.mem_eraseDups, List.map_map,
    ← hname]
  exact List.mem_map_of_mem hplc

/-- What a service holds after any registrations. After those of a configuration that is accepted,
it holds all its PLCs in order, and every target of the write map is on one of them. So wherever the
connections are, a write to such a target finds its PLC. The engine makes no other writes, in a run
through any messages, or among any number of workers. -/
theorem registry_complete {scan : ScanSettings} (valid : scan.validate = .ok ())
    (readTimeoutMs : Nat) :
    let map := WriteMap.ofPlcs scan.plcs
    let service := scan.plcs.foldl registerSettings (empty readTimeoutMs)
    (∀ calls, (registerAll calls (empty readTimeoutMs)).IsRegistryOf calls) ∧
    service.plcs = scan.plcs.map (fun plc => .make (.ofSettings plc) (configuredDevices plc)) ∧
    service.names = scan.plcs.map PlcSettings.name ∧
    (∀ address target, map.target? address = some target → target.plc ∈ service.names ∧
      ∀ {ν : Type} (network : Network ν) (other : Service) (value : WriteValue) (s : ν),
        service.SameSettings other → ∀ unknown,
          (writeDevice network target.plc target.device value (other, s)).1 ≠
            .error (.unknownPlc unknown)) ∧
    (∀ {ν : Type} (network : Network ν) (other : Service) (s : ν), service.SameSettings other →
      ∀ messages cache,
        let run := map.evaluateAll (notingWriter network) messages cache ([], other, s)
        map.evaluateAll (writer network) messages cache (other, s) =
          (run.1, run.2.1, run.2.2.2) ∧
        service.SameSettings run.2.2.2.1 ∧
        ∀ note ∈ run.2.2.1, ∀ unknown, note ≠ .error (.unknownPlc unknown)) ∧
    ∀ (size : Nat) (events : List (Nat × WorkerEvent)) (crew : Crew),
      Crew.Run map (Crew.start size) events crew →
      ∀ e ∈ events, ∀ address target, e.2.written? = some (address, target) →
        map.target? address = some target := by
  intro map service
  have registry : service.IsRegistryOf (scan.plcs.map callOf) :=
    isRegistryOf_settings scan.plcs readTimeoutMs
  have nodup : ((scan.plcs.map callOf).map fun call => call.1.name).Nodup := by
    rw [List.map_map]
    exact scan.names_nodup valid
  have plcs : service.plcs = scan.plcs.map fun plc => connectionOf (callOf plc) := by
    rw [registry.plcs_eq_of_nodup nodup, List.map_map]
    rfl
  have known : ∀ address target, map.target? address = some target →
      target.plc ∈ service.names :=
    fun address target mapped => mem_names_of_target? readTimeoutMs mapped
  refine ⟨fun calls => isRegistryOf_registerAll calls readTimeoutMs, plcs, ?_,
    fun address target mapped => ⟨known address target mapped, ?_⟩, ?_, ?_⟩
  · show service.plcs.map PlcConnection.name = _
    rw [plcs, List.map_map]
    rfl
  · intro ν network other value s same unknown
    exact same.writeDevice_ne_unknownPlc (known address target mapped) target.device value s unknown
  · intro ν network other s same messages cache run
    have start : service.FindsPlcs ([], other, s) := ⟨same, List.forall_mem_nil _⟩
    have kept : service.FindsPlcs run.2.2 :=
      (notingWriter_keeps network known).evaluateAll start messages cache
    exact ⟨(notingWriter_extends network).evaluateAll messages cache ([], other, s), kept⟩
  · intro size events crew run e he address target written
    exact run.written_mapped (Crew.start_isIdle size) he written

/-- Two PLCs, where what is read from the first is written to the second. -/
def twoLines : ScanSettings where
  plcs := [
    { name := "Line1", host := "one", devicesBit := "M,64,3", devicesWord := "D,71,1,D,72,1" },
    { name := "Line2", host := "two", writeMap := "D71>D,3302,1;D72>D,3303,1",
      conditionalWrites := "M64==D71" }]

/-- The second PLC refuses the connection, and this is all that a write ends with. -/
theorem registry_complete_two_lines :
    let service := twoLines.plcs.foldl registerSettings (empty 1000)
    let run := (WriteMap.ofPlcs twoLines.plcs).evaluateAll
      (notingWriter ⟨fun _ _ => some Peer.refusing⟩)
      [⟨"D71", .unsigned 8, "Line1"⟩, ⟨"D72", .unsigned 9, "Line1"⟩, ⟨"M64", .bit 1, "Line1"⟩]
      .empty ([], service, ())
    twoLines.validate = .ok () ∧ service.names = ["Line1", "Line2"] ∧
    run.2.2.1 = [.error (.link .refused), .error (.link .refused)] ∧
    ∀ note ∈ run.2.2.1, ∀ unknown, note ≠ .error (.unknownPlc unknown) := by
  intro service run
  have valid : twoLines.validate = .ok () := by decide +kernel
  obtain ⟨-, -, names, -, runs, -⟩ := registry_complete valid 1000
  have found := runs ⟨fun _ _ => some Peer.refusing⟩ service () (.refl service)
    [⟨"D71", .unsigned 8, "Line1"⟩, ⟨"D72", .unsigned 9, "Line1"⟩, ⟨"M64", .bit 1, "Line1"⟩] .empty
  exact ⟨valid, names, by decide +kernel, found.2.2⟩

end Service

end PlcGateway
