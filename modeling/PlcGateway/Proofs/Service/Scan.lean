import PlcGateway.Link.Basic
import PlcGateway.Proofs.Scan.Pass
import PlcGateway.Proofs.Service.Registry

/-!
# Scans of a service

A service scans the devices of its PLCs in the order of registration. Every device is read from the
PLC that lists it: reads change nothing about the PLCs but their clients (`sameSettings_attempts`),
and of two PLCs with one name there is never more than one (`find?_eq_some_iff`). With a queue that
is open, a failure does not touch the messages of other devices (`scan_open`).
-/

namespace PlcGateway

namespace Service

variable {service other : Service} {plc : PlcConnection} {name : String}

/-! ## What is registered -/

/-- How the PLCs of a service are reached, and which devices are scanned there, in order. -/
def registered (service : Service) : List (Endpoint × List Device) :=
  service.plcs.map fun plc => (plc.endpoint, plc.devices)

theorem names_eq_map (service : Service) :
    service.names = service.registered.map fun plc => plc.1.name := by
  rw [registered, List.map_map]
  rfl

theorem devices_eq_flatMap (service : Service) :
    service.devices = service.registered.flatMap fun plc => plc.2.map (plc.1.name, ·) := by
  rw [registered, List.flatMap_map]
  rfl

/-- A device is scanned on the PLC that has its name. -/
theorem exists_of_mem_devices {device : Device} (scanned : (name, device) ∈ service.devices) :
    ∃ plc, service.find? name = some plc ∧ device ∈ plc.devices := by
  obtain ⟨plc, hplc, hdevice⟩ := List.mem_flatMap.1 scanned
  obtain ⟨_, hmem, hplace⟩ := List.mem_map.1 hdevice
  obtain ⟨rfl, rfl⟩ := Prod.mk.inj hplace
  exact ⟨plc, find?_eq_some_iff.2 ⟨hplc, rfl⟩, hmem⟩

/-! ## What reads leave unchanged -/

/-- The services differ in the clients of their PLCs at most. -/
structure SameSettings (service other : Service) : Prop where
  registered_eq : other.registered = service.registered
  readTimeoutMs_eq : other.readTimeoutMs = service.readTimeoutMs

theorem SameSettings.refl (service : Service) : service.SameSettings service := ⟨rfl, rfl⟩

theorem SameSettings.devices_eq (same : service.SameSettings other) :
    other.devices = service.devices := by
  rw [devices_eq_flatMap, devices_eq_flatMap, same.registered_eq]

theorem SameSettings.setClient (same : service.SameSettings other)
    (known : other.find? name = some plc) (client : Client) :
    service.SameSettings (other.setClient plc client) := by
  refine ⟨?_, same.readTimeoutMs_eq⟩
  rw [← same.registered_eq]
  show (substitute { plc with client } other.plcs).map (fun plc => (plc.endpoint, plc.devices)) =
    other.plcs.map fun plc => (plc.endpoint, plc.devices)
  unfold substitute
  rw [List.map_map]
  apply List.map_congr_left
  have hsame : PlcConnection.name { plc with client } = plc.name := rfl
  intro third hthird
  by_cases hname : third.name = plc.name
  · -- names are not used twice
    have hself : other.find? name = some third :=
      find?_eq_some_iff.2 ⟨hthird, hname.trans (find?_eq_some_iff.1 known).2⟩
    obtain rfl := Option.some.inj (known.symm.trans hself)
    rw [Function.comp_apply, hsame, if_pos rfl]
  · rw [Function.comp_apply, hsame, if_neg hname]

variable {ν : Type} {network : Network ν}

theorem SameSettings.reader (same : service.SameSettings other) (name : String) (device : Device)
    (s : ν) : service.SameSettings (reader network name device (other, s)).2.1 := by
  rw [Service.reader]
  cases hknown : other.find? name with
  | none => exact same
  | some plc =>
    simp only
    split
    · exact same.setClient hknown _
    · exact same.setClient hknown _

/-- Reads in a row change nothing but clients. -/
theorem sameSettings_attempts (network : Network ν) (devices : List (String × Device)) (s : ν) :
    service.SameSettings ((Service.reader network).attempts devices (service, s)).2.1 := by
  refine Reader.attempts_invariant (P := fun state : Service × ν => service.SameSettings state.1)
    ?_ devices (SameSettings.refl service)
  intro name device state same
  exact same.reader name device state.2

/-! ## What a read comes to -/

/-- How an exchange with a PLC ends as the read of a device in a scan. -/
inductive EndsAs (service : Service) (device : Device) (exchange : Exchange ν (List UInt8)) :
    Reading → Prop where
  | value (payload : List UInt8) (v : RegisterValue)
      (inTime : service.givesUp exchange.elapsedMs = false) (read : exchange.result = .ok payload)
      (decoded : device.format.decode payload = .ok v) : EndsAs service device exchange (.value v)
  | timedOut (late : service.givesUp exchange.elapsedMs = true) :
      EndsAs service device exchange .timedOut
  | unread (e : LinkError) (inTime : service.givesUp exchange.elapsedMs = false)
      (failed : exchange.result = .error e) : EndsAs service device exchange .failed
  | undecoded (payload : List UInt8) (e : CodecError)
      (inTime : service.givesUp exchange.elapsedMs = false) (read : exchange.result = .ok payload)
      (failed : device.format.decode payload = .error e) : EndsAs service device exchange .failed

theorem reader_endsAs (network : Network ν) (known : service.find? name = some plc)
    (device : Device) (s : ν) :
    service.EndsAs device (plc.read network device s)
      (reader network name device (service, s)).1 := by
  rw [Service.reader, known]
  cases hlate : service.givesUp (plc.read network device s).elapsedMs with
  | true =>
    simp only [hlate, if_true]
    exact .timedOut hlate
  | false =>
    simp only [hlate, Bool.false_eq_true, if_false]
    cases hresult : (plc.read network device s).result with
    | error e => exact .unread e hlate hresult
    | ok payload =>
      cases hdecode : device.format.decode payload with
      | error e =>
        simp only [hdecode]
        exact .undecoded payload e hlate hresult hdecode
      | ok v =>
        simp only [hdecode]
        exact .value payload v hlate hresult hdecode

/-- Every device of a scan is read from the PLC that it is scanned on, as the reads before have left
it. -/
theorem attempt_endsAs (network : Network ν) (count i : Nat) (s : ν) {attempt : Attempt}
    (attempted : ((reader network).attempts (service.devices.take count) (service, s)).1[i]? =
      some attempt) :
    let state := ((reader network).attempts (service.devices.take i) (service, s)).2
    service.SameSettings state.1 ∧ ∃ plc, state.1.find? attempt.plc = some plc ∧
      attempt.device ∈ plc.devices ∧
      state.1.EndsAs attempt.device (plc.read network attempt.device state.2) attempt.reading := by
  intro state
  have hsame : service.SameSettings state.1 := sameSettings_attempts network _ s
  refine ⟨hsame, ?_⟩
  rw [Reader.getElem?_attempts, Option.map_eq_some_iff] at attempted
  obtain ⟨⟨name, device⟩, hplace, rfl⟩ := attempted
  obtain ⟨hlt, -⟩ := List.getElem?_eq_some_iff.1 hplace
  have hscanned : (name, device) ∈ state.1.devices := by
    rw [hsame.devices_eq]
    exact List.mem_of_mem_take (List.mem_of_getElem? hplace)
  obtain ⟨plc, hknown, hdevice⟩ := exists_of_mem_devices hscanned
  refine ⟨plc, hknown, hdevice, ?_⟩
  -- the devices before this one are the same in both rows
  have htake : (service.devices.take count).take i = service.devices.take i := by
    rw [List.take_take, Nat.min_eq_left]
    rw [List.length_take] at hlt
    omega
  rw [htake]
  exact reader_endsAs network hknown device state.2

/-! ## Registration -/

/-- PLCs with different names are scanned in the order in which they were registered. -/
theorem devices_foldl_register (readTimeoutMs : Nat) {plcs : List (Endpoint × List Device)}
    (nodup : (plcs.map fun plc => plc.1.name).Nodup) :
    (plcs.foldl (fun service plc => service.register plc.1 plc.2) (empty readTimeoutMs)).devices =
      plcs.flatMap fun plc => plc.2.map (plc.1.name, ·) := by
  have registry := isRegistryOf_registerAll plcs readTimeoutMs
  show (registerAll plcs (empty readTimeoutMs)).devices = _
  rw [devices, registry.plcs_eq_of_nodup nodup, List.flatMap_map]
  rfl

/-! ## Scans -/

/-- With a queue that is open, a scan attempts the devices in the order of registration, all of them
or as many as it has patience for, and no others. Its report counts every attempt once, and it
queues a message for every read that has given a value, in order, and nothing else; a check of the
report finds whether there is a message for every attempt. Every device is read from the PLC that it
is scanned on. -/
theorem scan_open {π : Type} {queue : Queue π} {queued : π → List Message} (service : Service)
    (isOpen : queue.IsOpen queued) (patience : Option Nat) (p : π) :
    (∀ (σ : Type) (read : Reader σ) (s : σ),
      let attempted := service.devices.take (patience.getD service.deviceCount)
      let attempts := (read.attempts attempted s).1
      let pass := scan read queue service.devices patience s p
      attempts.map Attempt.place = attempted ∧ pass.readers = (read.attempts attempted s).2 ∧
      (pass.ending = .cancelled ↔ ∃ n, patience = some n ∧ n ≤ service.deviceCount) ∧
      pass.ending ≠ .closed ∧
      pass.report =
        { attempted := attempts.length
          succeeded := (Attempt.messages attempts).length
          timedOut := attempts.countP (·.reading = .timedOut)
          failed := attempts.countP (·.reading = .failed) } ∧
      pass.report.attempted =
        pass.report.succeeded + pass.report.timedOut + pass.report.failed ∧
      queued pass.queue = queued p ++ Attempt.messages attempts ∧
      (pass.report.check = .ok () ↔
        ∀ attempt ∈ attempts, ∃ message, attempt.message? = some message)) ∧
    (∀ (ν : Type) (network : Network ν) (s : ν) (i : Nat) (attempt : Attempt),
      ((reader network).attempts (service.devices.take (patience.getD service.deviceCount))
        (service, s)).1[i]? = some attempt →
      let state := ((reader network).attempts (service.devices.take i) (service, s)).2
      service.SameSettings state.1 ∧ ∃ plc, state.1.find? attempt.plc = some plc ∧
        attempt.device ∈ plc.devices ∧
        state.1.EndsAs attempt.device (plc.read network attempt.device state.2)
          attempt.reading) ∧
    ∀ (readTimeoutMs : Nat) (plcs : List (Endpoint × List Device)),
      (plcs.map fun plc => plc.1.name).Nodup →
      (plcs.foldl (fun service plc => service.register plc.1 plc.2)
        (empty readTimeoutMs)).devices = plcs.flatMap fun plc => plc.2.map (plc.1.name, ·) := by
  refine ⟨?_, fun ν network s i attempt attempted => attempt_endsAs network _ i s attempted,
    fun readTimeoutMs plcs nodup => devices_foldl_register readTimeoutMs nodup⟩
  intro σ read s attempted attempts pass
  have hpass : pass.HasAttempted queued {} (queued p) (read.attempts attempted s) :=
    scanFrom_hasAttempted read isOpen service.devices patience {} s p
  have hreport : pass.report = _ := hpass.report_eq.trans (ScanReport.countAll_eq {} attempts)
  simp only [Nat.zero_add] at hreport
  refine ⟨Reader.map_place_attempts .., hpass.readers_eq, ?_, hpass.not_closed, hreport, ?_,
    hpass.queued_eq, ?_⟩
  · exact ending_scanFrom read isOpen service.devices patience {} s p
  · rw [hreport]
    exact ScanReport.length_attempts attempts
  · rw [hpass.report_eq]
    exact ScanReport.check_countAll_eq_ok_iff

/-- The device of the first of two PLCs cannot be read, and that of the second one can. -/
theorem scan_open_second_only :
    let service := ((empty 1000).register { name := "one", host := "one", port := 1 }
      [⟨.d, "7", 7, .unsigned, 1, rfl, rfl, by decide⟩]).register
      { name := "two", host := "two", port := 2 } [⟨.d, "8", 8, .unsigned, 1, rfl, rfl, by decide⟩]
    let pass := scan (reader ⟨fun _ _ => some Script.peer⟩)
      (fun message (queued : List Message) => some (queued ++ [message])) service.devices none
      (service, { items := [{ bytes := Station.local.response 0xC051 [] },
        { bytes := Station.local.response 0 [0x2A, 0x00] }] }) []
    service.devices = [("one", ⟨.d, "7", 7, .unsigned, 1, rfl, rfl, by decide⟩),
      ("two", ⟨.d, "8", 8, .unsigned, 1, rfl, rfl, by decide⟩)] ∧
    pass.queue = [⟨"D8", .unsigned 42, "two"⟩] ∧ pass.report.check ≠ .ok () := by
  intro service pass
  have isOpen : Queue.IsOpen (fun message (queued : List Message) => some (queued ++ [message]))
      id := fun message queued => ⟨_, rfl, rfl⟩
  obtain ⟨hscan, -, hregistered⟩ := scan_open service isOpen none []
  obtain ⟨-, -, -, -, -, -, hqueue, -⟩ := hscan _
    (reader ⟨fun _ _ => some Script.peer⟩) (service,
      { items := [{ bytes := Station.local.response 0xC051 [] },
        { bytes := Station.local.response 0 [0x2A, 0x00] }] })
  exact ⟨hregistered 1000 [(_, _), (_, _)] (by decide), hqueue.trans (by decide +kernel),
    by decide +kernel⟩

end Service

end PlcGateway
