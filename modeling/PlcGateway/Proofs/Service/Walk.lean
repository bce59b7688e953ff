import PlcGateway.Proofs.Link.Recorded
import PlcGateway.Proofs.Service.Refusal

/-!
# Writes as walks

The steps in which a value is written are the frames of its texts in order; where a text cannot be
encoded or has no frames, the step is that failure (`Endpoint.steps`). Two loops, one over texts and
one over frames, make one walk over all steps (`PlcConnection.writeTexts_eq_walk`).
-/

namespace PlcGateway

variable {ν : Type}

/-! ## The steps of a write -/

namespace Endpoint

/-- The steps in which a text is written to a device: its frames, or else the failure with which the
write ends. -/
def steps (endpoint : Endpoint) (device : Device) (text : String) :
    List (Except ServiceError WriteChunk) :=
  match device.format.encode text device.registers with
  | .error e => [.error (.codec e)]
  | .ok payload =>
    match endpoint.frames device payload with
    | .error e => [.error (.link (.frame e))]
    | .ok chunks => chunks.map .ok

/-- What a write of texts comes to if the host has no address. -/
def unresolvedResult (endpoint : Endpoint) (device : Device) :
    List String → Except ServiceError Unit
  | [] => .ok ()
  | text :: _ =>
    match device.format.encode text device.registers with
    | .error e => .error (.codec e)
    | .ok _ => .error (.link (.unresolved endpoint.host endpoint.port))

variable {endpoint : Endpoint} {device : Device} {text : String} {texts : List String}
  {chunks : List WriteChunk}

/-- The steps of a text are frames exactly if it can be encoded and has frames. -/
theorem steps_eq_map_ok_iff :
    endpoint.steps device text = chunks.map .ok ↔ endpoint.Sends device text chunks := by
  unfold steps Sends
  cases hencode : device.format.encode text device.registers with
  | error e => cases chunks <;> simp
  | ok payload =>
    cases hframes : endpoint.frames device payload with
    | error e => cases chunks <;> simp [hframes]
    | ok frames =>
      have hinjective :
          Function.Injective (Except.ok : WriteChunk → Except ServiceError WriteChunk) :=
        fun _ _ => Except.ok.inj
      simp [hframes, hinjective.list_map.eq_iff]

theorem flatMap_steps_eq_map_ok_iff :
    texts.flatMap (endpoint.steps device) = chunks.map .ok ↔
      ∃ frames, List.Forall₂ (endpoint.Sends device) texts frames ∧ chunks = frames.flatten := by
  induction texts generalizing chunks with
  | nil => simp [eq_comm]
  | cons text texts ih =>
    rw [List.flatMap_cons, eq_comm, List.map_eq_append_iff]
    constructor
    · rintro ⟨first, others, rfl, hfirst, hothers⟩
      obtain ⟨frames, hframes, rfl⟩ := ih.1 hothers.symm
      exact ⟨first :: frames, .cons (steps_eq_map_ok_iff.1 hfirst.symm) hframes, rfl⟩
    · rintro ⟨_, hframes, rfl⟩
      obtain _ | ⟨hfirst, hothers⟩ := hframes
      exact ⟨_, _, rfl, (steps_eq_map_ok_iff.2 hfirst).symm, (ih.2 ⟨_, hothers, rfl⟩).symm⟩

end Endpoint

namespace Client

/-- Takes steps in order up to the first that fails. -/
def walk (peer : Peer ν) (code : DeviceCode) :
    List (Except ServiceError WriteChunk) → Client → ν → Except ServiceError Unit × Client × ν
  | [], client, s => (.ok (), client, s)
  | .error e :: _, client, s => (.error e, client, s)
  | .ok chunk :: steps, client, s =>
    let first := client.write peer code chunk.address chunk.registers chunk.data s
    match first.result with
    | .error e => (.error (.link e), first.client, first.peer)
    | .ok () => walk peer code steps first.client first.peer

variable {peer : Peer ν} {code : DeviceCode} {client : Client} {s : ν}

theorem walk_append (peer : Peer ν) (code : DeviceCode)
    (steps more : List (Except ServiceError WriteChunk)) (client : Client) (s : ν) :
    client.walk peer code (steps ++ more) s =
      match client.walk peer code steps s with
      | (.error e, client, s) => (.error e, client, s)
      | (.ok (), client, s) => client.walk peer code more s := by
  induction steps generalizing client s with
  | nil => rfl
  | cons step steps ih =>
    cases step with
    | error e => rfl
    | ok chunk =>
      rw [List.cons_append, walk, walk]
      cases (client.write peer code chunk.address chunk.registers chunk.data s).result with
      | error e => rfl
      | ok _ => exact ih _ _

/-- Frames are written in order up to the first that fails. -/
theorem walk_map_ok (peer : Peer ν) (code : DeviceCode) (chunks : List WriteChunk) (client : Client)
    (s : ν) :
    client.walk peer code (chunks.map .ok) s =
      ((client.writeFrames peer code chunks s).result.mapError .link,
        (client.writeFrames peer code chunks s).client,
        (client.writeFrames peer code chunks s).peer) := by
  induction chunks generalizing client s with
  | nil => rfl
  | cons chunk chunks ih =>
    rw [List.map_cons, walk, writeFrames]
    cases hresult : (client.write peer code chunk.address chunk.registers chunk.data s).result with
    | error e => simp only [hresult, Except.mapError]
    | ok _ => exact ih _ _

/-- The record changes nothing. -/
theorem write_forget (peer : Peer ν) (client : Client) (code : DeviceCode) (chunk : WriteChunk)
    (record : List Sent) (s : ν) :
    (client.write peer.recorded code chunk.address chunk.registers chunk.data (record, s)).forget =
      client.write peer code chunk.address chunk.registers chunk.data s := by
  cases hrequest : chunk.request client.options code with
  | error e =>
    rw [write_of_request_error hrequest, write_of_request_error hrequest]
    rfl
  | ok request =>
    rw [write_of_request_ok hrequest, write_of_request_ok hrequest,
      ← exchange_forget peer client request record s]
    rfl

theorem walk_forget (peer : Peer ν) (code : DeviceCode)
    (steps : List (Except ServiceError WriteChunk)) (client : Client) (record : List Sent) (s : ν) :
    client.walk peer code steps s =
      let (result, client, _, s) := client.walk peer.recorded code steps (record, s)
      (result, client, s) := by
  induction steps generalizing client record s with
  | nil => rfl
  | cons step steps ih =>
    cases step with
    | error e => rfl
    | ok chunk =>
      rw [walk, walk, ← write_forget peer client code chunk record s]
      simp only [Exchange.forget]
      cases (client.write peer.recorded code chunk.address chunk.registers chunk.data
        (record, s)).result with
      | error e => rfl
      | ok _ => exact ih _ _ _

end Client

namespace PlcConnection

variable {network : Network ν} {peer : Peer ν} {plc : PlcConnection} {device : Device}
  {texts : List String} {s : ν}

/-- Writing texts frame by frame is one walk over all steps. -/
theorem writeTexts_eq_walk
    (resolved : network.resolve? plc.endpoint.host plc.endpoint.port = some peer) :
    writeTexts network device texts plc s =
      plc.client.walk peer device.code (texts.flatMap (plc.endpoint.steps device)) s := by
  induction texts generalizing plc s with
  | nil => rfl
  | cons text texts ih =>
    rw [List.flatMap_cons, Client.walk_append, writeTexts, Endpoint.steps]
    cases hencode : device.format.encode text device.registers with
    | error e => rfl
    | ok payload =>
      cases hframes : plc.endpoint.frames device payload with
      | error e => simp only [write, withPeer, resolved, hframes, Client.walk]
      | ok chunks =>
        simp only [write_eq_writeFrames resolved hframes, hframes, Client.walk_map_ok]
        cases (plc.client.writeFrames peer device.code chunks s).result with
        | error e => rfl
        | ok _ =>
          -- the texts that are left are written by the client of this one
          exact @ih { plc with client := _ } _ resolved

/-- Without an address for the host, a write ends with its first text and changes nothing. -/
theorem writeTexts_of_unresolved
    (unresolved : network.resolve? plc.endpoint.host plc.endpoint.port = none) :
    writeTexts network device texts plc s =
      (plc.endpoint.unresolvedResult device texts, plc.client, s) := by
  cases texts with
  | nil => rfl
  | cons text texts =>
    simp only [writeTexts, Endpoint.unresolvedResult]
    cases device.format.encode text device.registers with
    | error e => rfl
    | ok payload => simp only [write, withPeer, unresolved]

end PlcConnection

end PlcGateway
