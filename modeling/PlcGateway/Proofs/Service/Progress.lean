import PlcGateway.Link.Basic
import PlcGateway.Proofs.Service.Walk
import PlcGateway.Proofs.Simulator.Reply

/-!
# How far a write comes

A write to a device ends at the first of its steps that fails. A PLC that is recorded has seen the
frames before it, each of them acknowledged, and at most the frame of this step
(`Service.writeDevice_progress`). For this it has to send no more than one response to a request, as
simulated PLCs do with all their faults (`isReply_of_plant`).
-/

namespace PlcGateway

variable {ν : Type}

/-! ## Where a walk stops -/

/-- A frame was sent, and the answer acknowledges it. -/
def WriteChunk.IsAcknowledged (options : ClientOptions) (code : DeviceCode) (chunk : WriteChunk)
    (sent : Sent) : Prop :=
  chunk.request options code = .ok sent.request ∧ sent.answer.Acknowledges options.ioTimeoutMs

/-- The request is that of a frame, and the answer is one that the peer gives to it. -/
def Sent.IsWrite (peer : Peer ν) (code : DeviceCode) (sent : Sent) : Prop :=
  ∃ (options : ClientOptions) (chunk : WriteChunk) (s : ν),
    chunk.request options code = .ok sent.request ∧ sent.answer = (peer.answer sent.request s).1

namespace Client

/-- The client after requests that were answered with a whole response each. -/
def afterAll (client : Client) (sent : List Sent) : Client :=
  sent.foldl (fun client sent => client.afterReply sent.answer) client

/-- How a walk ends with the steps that are left: what is still sent, and the result. -/
inductive Stops (peer : Peer ν) (client : Client) (s : ν) (code : DeviceCode) :
    List (Except ServiceError WriteChunk) → List Sent → Except ServiceError Unit → Prop where
  /-- No step is left. -/
  | finished : Stops peer client s code [] [] (.ok ())
  /-- There are no frames for a text. -/
  | unplanned (e : ServiceError) (later : List (Except ServiceError WriteChunk)) :
      Stops peer client s code (.error e :: later) [] (.error e)
  /-- There is no request for a frame. -/
  | unbuilt (chunk : WriteChunk) (later : List (Except ServiceError WriteChunk)) (e : FrameError)
      (refused : chunk.request client.options code = .error e) :
      Stops peer client s code (.ok chunk :: later) [] (.error (.link (.frame e)))
  /-- There is no connection over which a frame can be sent. -/
  | unsent (chunk : WriteChunk) (later : List (Except ServiceError WriteChunk)) (e : LinkError)
      (cause : client.CannotSend peer s e) :
      Stops peer client s code (.ok chunk :: later) [] (.error (.link e))
  /-- A frame is sent, and its answer is a failure. -/
  | failed (chunk : WriteChunk) (later : List (Except ServiceError WriteChunk)) (sent : Sent)
      (e : LinkError) (built : chunk.request client.options code = .ok sent.request)
      (outcome : sent.answer.outcome client.options.ioTimeoutMs = .error e) :
      Stops peer client s code (.ok chunk :: later) [sent] (.error (.link e))

variable {peer : Peer ν} {code : DeviceCode} {client : Client} {s : ν} {chunk : WriteChunk}
  {steps : List (Except ServiceError WriteChunk)} {record last : List Sent}
  {result : Except ServiceError Unit}

/-- What the peer would do on a new connection is of no interest to a client that has one. -/
theorem Stops.of_connected {s' : ν} (connected : client.connection.isSome)
    (stops : client.Stops peer s' code steps last result) :
    client.Stops peer s code steps last result := by
  cases stops with
  | finished => exact .finished
  | unplanned e later => exact .unplanned e later
  | unbuilt chunk later e refused => exact .unbuilt chunk later e refused
  | failed chunk later sent e built outcome => exact .failed chunk later sent e built outcome
  | unsent chunk later e cause =>
    cases cause with
    | refused unconnected declined => simp [unconnected] at connected
    | broken connection hconnection closed =>
      exact .unsent chunk later _ (.broken connection hconnection closed)

theorem Stops.eq_ok_iff (stops : client.Stops peer s code steps last result) :
    result = .ok () ↔ steps = [] := by
  cases stops <;> simp

theorem isSome_connection_afterAll (connected : client.connection.isSome) (sent : List Sent) :
    (client.afterAll sent).connection.isSome := by
  induction sent generalizing client with
  | nil => exact connected
  | cons first sent ih => exact ih rfl

/-- A client with nothing left to be read stops at a frame, or the frame is acknowledged. -/
theorem write_recorded_cases (drained : client.IsDrained) (peer : Peer ν) (code : DeviceCode)
    (chunk : WriteChunk) (later : List (Except ServiceError WriteChunk)) (record : List Sent)
    (s : ν) :
    let write :=
      client.write peer.recorded code chunk.address chunk.registers chunk.data (record, s)
    (∃ last e, write.result = .error e ∧ write.peer.1 = record ++ last ∧
      client.Stops peer s code (.ok chunk :: later) last (.error (.link e)) ∧
      ((∀ sent ∈ last, Frame.IsReply sent.answer.bytes) → write.client.IsDrained)) ∨
    ∃ sent, write.result = .ok () ∧ write.peer.1 = record ++ [sent] ∧
      chunk.IsAcknowledged client.options code sent ∧
      (Frame.IsReply sent.answer.bytes → write.client = client.afterReply sent.answer) := by
  intro write
  cases hrequest : chunk.request client.options code with
  | error e =>
    have hwrite : write = _ := write_of_request_error hrequest
    left
    rw [hwrite]
    exact ⟨[], .frame e, rfl, (List.append_nil record).symm, .unbuilt chunk later e hrequest,
      fun _ => drained⟩
  | ok request =>
    have hwrite : write = _ := write_of_request_ok hrequest
    rw [hwrite]
    rcases exchange_of_drained drained peer request record s with
      ⟨e, hcause, hresult, hpeer, hclient⟩ | ⟨answer, hresult, hpeer, hclient⟩
    · refine .inl ⟨[], e, ?_, ?_, .unsent chunk later e hcause, fun _ => hclient⟩
      · show Except.map _ _ = _
        rw [hresult]
        rfl
      · rw [List.append_nil]
        exact hpeer
    · cases houtcome : answer.outcome client.options.ioTimeoutMs with
      | error e =>
        refine .inl ⟨[⟨request, answer⟩], e, ?_, hpeer,
          .failed chunk later ⟨request, answer⟩ e hrequest houtcome, fun replies => ?_⟩
        · show Except.map _ _ = _
          rw [hresult, houtcome]
          rfl
        · exact (hclient (replies _ (List.mem_singleton_self _))).1
      | ok data =>
        refine .inr ⟨⟨request, answer⟩, ?_, hpeer, ⟨hrequest, ?_⟩, fun reply => ?_⟩
        · show Except.map _ _ = _
          rw [hresult, houtcome]
          rfl
        · exact Answer.exists_outcome_eq_ok_iff.1 ⟨data, houtcome⟩
        · exact (hclient reply).2 data houtcome

/-- A record only grows, and only by frames and what the peer answers to them. -/
theorem record_write (peer : Peer ν) (client : Client) (code : DeviceCode) (chunk : WriteChunk)
    (record : List Sent) (s : ν) :
    ∃ sent, (client.write peer.recorded code chunk.address chunk.registers chunk.data
        (record, s)).peer.1 = record ++ sent ∧ ∀ one ∈ sent, one.IsWrite peer code := by
  cases hrequest : chunk.request client.options code with
  | error e =>
    refine ⟨[], ?_, by simp⟩
    rw [write_of_request_error hrequest, List.append_nil]
  | ok request =>
    rw [write_of_request_ok hrequest]
    rcases client.exchange_recorded_cases peer request record s with
      ⟨e, s', -, hexchange⟩ | ⟨before, s', -, -, hexchange⟩
    · refine ⟨[], ?_, by simp⟩
      rw [hexchange, List.append_nil]
      rfl
    · refine ⟨[⟨request, (peer.answer request s').1⟩], ?_, ?_⟩
      · rw [hexchange]
        exact congrArg Prod.fst (client.peer_conclude ..)
      · intro one hone
        rw [List.mem_singleton.1 hone]
        exact ⟨client.options, chunk, s', hrequest, rfl⟩

theorem record_walk (peer : Peer ν) (code : DeviceCode)
    (steps : List (Except ServiceError WriteChunk)) (client : Client) (record : List Sent) (s : ν) :
    ∃ sent, (client.walk peer.recorded code steps (record, s)).2.2.1 = record ++ sent ∧
      ∀ one ∈ sent, one.IsWrite peer code := by
  induction steps generalizing client record s with
  | nil => exact ⟨[], (List.append_nil record).symm, by simp⟩
  | cons step steps ih =>
    cases step with
    | error e => exact ⟨[], (List.append_nil record).symm, by simp⟩
    | ok chunk =>
      obtain ⟨first, hfirst, hwrite⟩ := record_write peer client code chunk record s
      rw [walk]
      generalize client.write peer.recorded code chunk.address chunk.registers chunk.data
        (record, s) = write at hfirst ⊢
      obtain ⟨result, elapsedMs, client', record', s'⟩ := write
      obtain rfl : record' = record ++ first := hfirst
      cases result with
      | error e => exact ⟨first, rfl, hwrite⟩
      | ok _ =>
        obtain ⟨others, hothers, hwrites⟩ := ih client' (record ++ first) s'
        refine ⟨first ++ others, ?_, ?_⟩
        · rw [← List.append_assoc]
          exact hothers
        · intro one hone
          rcases List.mem_append.1 hone with hone | hone
          · exact hwrite one hone
          · exact hwrites one hone

/-- How far a walk comes. -/
theorem walk_recorded (drained : client.IsDrained)
    (replies : ∀ sent ∈ (client.walk peer.recorded code steps (record, s)).2.2.1,
      Frame.IsReply sent.answer.bytes) :
    ∃ done rest acknowledged last, steps = done.map .ok ++ rest ∧
      (client.walk peer.recorded code steps (record, s)).2.2.1 = record ++ (acknowledged ++ last) ∧
      List.Forall₂ (WriteChunk.IsAcknowledged client.options code) done acknowledged ∧
      (client.afterAll acknowledged).Stops peer s code rest last
        (client.walk peer.recorded code steps (record, s)).1 ∧
      (client.walk peer.recorded code steps (record, s)).2.1.IsDrained := by
  induction steps generalizing client record s with
  | nil => exact ⟨[], [], [], [], rfl, (List.append_nil record).symm, .nil, .finished, drained⟩
  | cons step steps ih =>
    cases step with
    | error e =>
      exact ⟨[], _, [], [], rfl, (List.append_nil record).symm, .nil, .unplanned e steps, drained⟩
    | ok chunk =>
      rcases write_recorded_cases drained peer code chunk steps record s with
        ⟨last, e, hresult, hrecord, hstops, hclient⟩ | ⟨sent, hresult, hrecord, hsent, hclient⟩
      · simp only [walk, hresult] at replies ⊢
        rw [hrecord] at replies
        refine ⟨[], _, [], last, rfl, hrecord, .nil, hstops, hclient fun sent hsent => ?_⟩
        exact replies sent (List.mem_append_right _ hsent)
      · simp only [walk, hresult] at replies ⊢
        generalize client.write peer.recorded code chunk.address chunk.registers chunk.data
          (record, s) = write at hrecord hclient replies ⊢
        obtain ⟨_, elapsedMs, client', record', s'⟩ := write
        simp only at hrecord hclient replies ⊢
        subst hrecord
        -- the record only grows, so this answer is one of those that are replies
        have hreply : Frame.IsReply sent.answer.bytes := by
          obtain ⟨more, hmore, -⟩ := record_walk peer code steps client' (record ++ [sent]) s'
          apply replies sent
          rw [hmore]
          simp
        obtain rfl := hclient hreply
        obtain ⟨done, rest, acknowledged, last, rfl, hrecord, hdone, hstops, hdrained⟩ :=
          ih (client.isDrained_afterReply sent.answer) replies
        refine ⟨chunk :: done, rest, sent :: acknowledged, last, rfl, ?_, .cons hsent hdone, ?_,
          hdrained⟩
        · rw [hrecord, List.append_assoc]
          rfl
        · exact hstops.of_connected (isSome_connection_afterAll rfl acknowledged)

end Client

/-! ## Writes to devices -/

theorem Network.resolve?_recorded {network : Network ν} {host : String} {port : UInt16}
    {peer : Option (Peer ν)} (resolved : network.resolve? host port = peer) :
    network.recorded.resolve? host port = peer.map Peer.recorded :=
  congrArg (Option.map Peer.recorded) resolved

namespace PlcConnection

variable {network : Network ν} {peer : Peer ν} {plc : PlcConnection} {device : Device}
  {texts : List String} {s : ν}

/-- The record changes nothing. -/
theorem writeTexts_forget (network : Network ν) (device : Device) (texts : List String)
    (plc : PlcConnection) (record : List Sent) (s : ν) :
    plc.writeTexts network device texts s =
      let (result, client, _, s) := plc.writeTexts network.recorded device texts (record, s)
      (result, client, s) := by
  cases hresolve : network.resolve? plc.endpoint.host plc.endpoint.port with
  | none =>
    rw [writeTexts_of_unresolved hresolve,
      writeTexts_of_unresolved (Network.resolve?_recorded hresolve)]
  | some peer =>
    rw [writeTexts_eq_walk hresolve, writeTexts_eq_walk (Network.resolve?_recorded hresolve)]
    exact Client.walk_forget ..

/-- How far a write of texts comes. -/
theorem writeTexts_recorded
    (resolved : network.resolve? plc.endpoint.host plc.endpoint.port = some peer)
    (drained : plc.client.IsDrained)
    (replies : ∀ sent ∈ (plc.writeTexts network.recorded device texts ([], s)).2.2.1,
      Frame.IsReply sent.answer.bytes) :
    ∃ done rest acknowledged last,
      texts.flatMap (plc.endpoint.steps device) = done.map .ok ++ rest ∧
      (plc.writeTexts network.recorded device texts ([], s)).2.2.1 = acknowledged ++ last ∧
      List.Forall₂ (WriteChunk.IsAcknowledged plc.client.options device.code) done acknowledged ∧
      (plc.client.afterAll acknowledged).Stops peer s device.code rest last
        (plc.writeTexts network.recorded device texts ([], s)).1 ∧
      ((plc.writeTexts network.recorded device texts ([], s)).1 = .ok () ↔
        ∃ frames, List.Forall₂ (plc.endpoint.Sends device) texts frames ∧ done = frames.flatten) ∧
      (plc.writeTexts network.recorded device texts ([], s)).2.1.IsDrained := by
  rw [writeTexts_eq_walk (Network.resolve?_recorded resolved)] at replies ⊢
  obtain ⟨done, rest, acknowledged, last, hsteps, hrecord, hdone, hstops, hdrained⟩ :=
    Client.walk_recorded drained replies
  refine ⟨done, rest, acknowledged, last, hsteps, hrecord, hdone, hstops, ?_, hdrained⟩
  rw [hstops.eq_ok_iff, ← Endpoint.flatMap_steps_eq_map_ok_iff, hsteps, List.append_right_eq_self]

end PlcConnection

namespace Service

theorem writeDevice_of_find? {service : Service} {name : String} {plc : PlcConnection}
    (known : service.find? name = some plc) (network : Network ν) (device : Device)
    (value : WriteValue) (s : ν) :
    writeDevice network name device value (service, s) =
      ((plc.writeTexts network device value.strings s).1,
        service.setClient plc (plc.writeTexts network device value.strings s).2.1,
        (plc.writeTexts network device value.strings s).2.2) := by
  simp only [writeDevice, known]

/-- The record changes nothing. -/
theorem writeDevice_forget (network : Network ν) (service : Service) (name : String)
    (device : Device) (value : WriteValue) (record : List Sent) (s : ν) :
    writeDevice network name device value (service, s) =
      let run := writeDevice network.recorded name device value (service, record, s)
      (run.1, run.2.1, run.2.2.2) := by
  cases hknown : service.find? name with
  | none => simp only [writeDevice, hknown]
  | some plc =>
    rw [writeDevice_of_find? hknown, writeDevice_of_find? hknown,
      plc.writeTexts_forget network device value.strings record s]

/-- Simulated PLCs, with all their faults, answer what is written to a device with replies. -/
theorem isReply_of_plant (online : Nat → Bool) (plant : Plant) (service : Service) (name : String)
    (device : Device) (value : WriteValue) :
    ∀ sent ∈ (writeDevice (Plant.network online).recorded name device value
      (service, [], plant)).2.2.1, Frame.IsReply sent.answer.bytes := by
  intro sent hsent
  cases hknown : service.find? name with
  | none => simp [writeDevice, hknown] at hsent
  | some plc =>
    rw [writeDevice_of_find? hknown] at hsent
    cases hresolve : (Plant.network online).resolve? plc.endpoint.host plc.endpoint.port with
    | none =>
      rw [PlcConnection.writeTexts_of_unresolved (Network.resolve?_recorded hresolve)] at hsent
      exact absurd hsent List.not_mem_nil
    | some peer =>
      rw [PlcConnection.writeTexts_eq_walk (Network.resolve?_recorded hresolve)] at hsent
      obtain ⟨more, hmore, hwrites⟩ := Client.record_walk peer device.code
        (value.strings.flatMap (plc.endpoint.steps device)) plc.client [] plant
      rw [hmore, List.nil_append] at hsent
      obtain ⟨options, chunk, plant', hrequest, hanswer⟩ := hwrites sent hsent
      have hbuilt : options.station.writeRequest options.writeVariant device.code chunk.address
          chunk.registers chunk.data = .ok sent.request := hrequest
      rw [hanswer]
      exact Plant.isReply_answer hresolve hbuilt plant'

/-- A write to a device of an unknown PLC does nothing. Else it goes through the frames of all texts
in order. Those in front were sent and acknowledged, at most one frame was sent behind them, and the
write ends with the failure of the first step that is left. It ends well exactly if every text can
be encoded and has frames and these are the acknowledged ones. This is so if the PLC sends no more
than one response to a request, as simulated PLCs do with all their faults. -/
theorem writeDevice_progress (network : Network ν) (service : Service) (name : String)
    (device : Device) (value : WriteValue) (s : ν) :
    let run := writeDevice network.recorded name device value (service, [], s)
    writeDevice network name device value (service, s) = (run.1, run.2.1, run.2.2.2) ∧
    (service.find? name = none → run = (.error (.unknownPlc name), service, [], s)) ∧
    (∀ plc, service.find? name = some plc →
      (network.resolve? plc.endpoint.host plc.endpoint.port = none →
        run.1 = plc.endpoint.unresolvedResult device value.strings ∧ run.2.2 = ([], s)) ∧
      ∀ peer, network.resolve? plc.endpoint.host plc.endpoint.port = some peer →
        plc.client.IsDrained → (∀ sent ∈ run.2.2.1, Frame.IsReply sent.answer.bytes) →
        ∃ done rest acknowledged last,
          value.strings.flatMap (plc.endpoint.steps device) = done.map .ok ++ rest ∧
          run.2.2.1 = acknowledged ++ last ∧
          List.Forall₂ (WriteChunk.IsAcknowledged plc.client.options device.code) done
            acknowledged ∧
          (plc.client.afterAll acknowledged).Stops peer s device.code rest last run.1 ∧
          (run.1 = .ok () ↔ ∃ frames,
            List.Forall₂ (plc.endpoint.Sends device) value.strings frames ∧
              done = frames.flatten) ∧
          ∃ client, run.2.1 = service.setClient plc client ∧ client.IsDrained) ∧
    ∀ (online : Nat → Bool) (plant : Plant), ∀ sent ∈ (writeDevice (Plant.network online).recorded
      name device value (service, [], plant)).2.2.1, Frame.IsReply sent.answer.bytes := by
  intro run
  refine ⟨writeDevice_forget network service name device value [] s, ?_, ?_,
    fun online plant => isReply_of_plant online plant service name device value⟩
  · intro unknown
    simp only [run, writeDevice, unknown]
  · intro plc known
    have hrun : run = _ := writeDevice_of_find? known network.recorded device value ([], s)
    rw [hrun]
    constructor
    · intro unresolved
      rw [PlcConnection.writeTexts_of_unresolved (Network.resolve?_recorded unresolved)]
      exact ⟨rfl, rfl⟩
    · intro peer resolved drained replies
      obtain ⟨done, rest, acknowledged, last, hsteps, hrecord, hdone, hstops, hok, hdrained⟩ :=
        PlcConnection.writeTexts_recorded resolved drained replies
      exact ⟨done, rest, acknowledged, last, hsteps, hrecord, hdone, hstops, hok, _, rfl, hdrained⟩

/-- Of three texts the first is acknowledged, and the second is answered with an end code. The third
is not sent. -/
theorem writeDevice_progress_end_code :
    let run := writeDevice (Network.recorded ⟨fun _ _ => some Script.peer⟩) "plc"
      ⟨.d, "10", 10, .unsigned, 1, rfl, rfl, by decide⟩ (.texts ["1", "2", "3"])
      (alone none, [], { items := [{ bytes := Station.local.response 0 [] },
        { bytes := Station.local.response 0xC051 [] }] })
    run.1 = .error (.link (.frame (.endCode 0xC051))) ∧
    ∃ (chunk : WriteChunk) (sent failed : Sent), run.2.2.1 = [sent, failed] ∧
      chunk.IsAcknowledged {} .d sent ∧
      failed.answer.outcome 5000 = .error (.frame (.endCode 0xC051)) := by
  intro run
  have hresult : run.1 = .error (.link (.frame (.endCode 0xC051))) := by decide +kernel
  have hanswers : run.2.2.1.map Sent.answer = [{ bytes := Station.local.response 0 [] },
      { bytes := Station.local.response 0xC051 [] }] := by decide +kernel
  have replies : ∀ sent ∈ run.2.2.1, Frame.IsReply sent.answer.bytes := by
    intro sent hsent
    have hanswer : sent.answer ∈ run.2.2.1.map Sent.answer := List.mem_map_of_mem hsent
    rw [hanswers, List.mem_pair] at hanswer
    rcases hanswer with hanswer | hanswer
    · rw [hanswer]
      exact .whole _ _ _ (by decide)
    · rw [hanswer]
      exact .whole _ _ _ (by decide)
  obtain ⟨done, rest, acknowledged, last, -, hrecord, hdone, hstops, -, -⟩ :=
    ((writeDevice_progress ⟨fun _ _ => some Script.peer⟩ (alone none) "plc"
      ⟨.d, "10", 10, .unsigned, 1, rfl, rfl, by decide⟩ (.texts ["1", "2", "3"])
      { items := [{ bytes := Station.local.response 0 [] },
        { bytes := Station.local.response 0xC051 [] }] }).2.2.1
      (.make { name := "plc", host := "plc", port := 0 } []) rfl).2 Script.peer rfl
      (by rintro connection ⟨⟩) replies
  have hstops : Client.Stops _ _ _ _ _ _ run.1 := hstops
  have hrecord : run.2.2.1 = acknowledged ++ last := hrecord
  rw [hresult] at hstops
  rw [hrecord, List.map_append] at hanswers
  refine ⟨hresult, ?_⟩
  rw [hrecord]
  -- what is sent last is not acknowledged, so something is sent last
  have hfailed : ¬ Answer.Acknowledges 5000 { bytes := Station.local.response 0xC051 [] } := by
    rintro ⟨-, data, hdata⟩
    cases hdata
  have hacknowledged : ∀ sent ∈ acknowledged, sent.answer.Acknowledges 5000 := by
    intro sent hsent
    obtain ⟨i, hi, rfl⟩ := List.getElem_of_mem hsent
    exact (hdone.get (hdone.length_eq ▸ hi) hi).2
  cases hstops with
  | failed chunk later failed e built outcome =>
    rcases hdone with _ | ⟨hfirst, _ | _⟩
    · simp at hanswers
    · exact ⟨_, _, failed, rfl, hfirst, outcome⟩
    · simp at hanswers
  | _ =>
    rw [List.map_nil, List.append_nil] at hanswers
    have hmem : ({ bytes := Station.local.response 0xC051 [] } : Answer) ∈
        acknowledged.map Sent.answer := hanswers ▸ by simp
    obtain ⟨sent, hsent, hanswer⟩ := List.mem_map.1 hmem
    exact absurd (hanswer ▸ hacknowledged sent hsent) hfailed

end Service

end PlcGateway
