import PlcGateway.Link.Basic
import PlcGateway.Proofs.Link.Alone
import PlcGateway.Proofs.Link.Asked

/-!
# Who gets which answer

Responses carry no number; only the connection tells to which request one belongs. Still every call
that ends with data or with an end code has them from the answer to its own request, and no byte of
an answer is read by another call, however many callers share the client and whichever of them fail
or are abandoned (`results_answered`).
-/

namespace PlcGateway

/-- A call to read gives the data that have come. -/
theorem LinkCall.eq_of_outcome_ok {call : LinkCall} {data payload : List UInt8}
    (given : call.outcome (.ok data) = .ok (some payload)) : payload = data := by
  cases call with
  | write code offset points data' => simp [outcome, Except.map] at given
  | read variant code offset points =>
    simp only [outcome, Except.bind, Client.checkWords] at given
    split at given
    · simp [Except.map] at given
    · simpa [Except.map, eq_comm] using given

namespace Line

variable {options : ClientOptions} {line line' : Line} {events : List LineEvent} {event : LineEvent}

/-! ## Events and where they come from -/

/-- The result of a call is that of an exchange with the data or the end code of an answer. -/
def IsAnswered (options : ClientOptions) (calls : List LinkCall) (events : List LineEvent)
    (number : Nat) (result : Except LinkError (Option (List UInt8))) : Prop :=
  ∃ (call : LinkCall) (request : List UInt8) (s : Station) (endCode : UInt16) (data : List UInt8),
    calls[number]? = some call ∧ call.request options = .ok request ∧
    .answer number (request.map (number, ·)) (s.response endCode data) ∈ events ∧
    result = call.outcome (if endCode = 0 then .ok data else .error (.frame (.endCode endCode)))

/-- A success or an end code: only a response gives them. -/
def IsOfResponse (result : Except LinkError (Option (List UInt8))) : Prop :=
  (∃ value, result = .ok value) ∨ ∃ code, result = .error (.frame (.endCode code))

/-- Where an event comes from that has to do with an answer. -/
def IsExplained (options : ClientOptions) (calls : List LinkCall) (events : List LineEvent) :
    LineEvent → Prop
  | .read number byte => byte.1 = number
  | .answer number request _ =>
    ∃ sent, HasRequest options calls number sent ∧ request = sent.map (number, ·)
  | .result number result => IsOfResponse result → IsAnswered options calls events number result
  | _ => True

theorem IsExplained.mono {calls calls' : List LinkCall} (h : IsExplained options calls events event)
    (more : calls <+: calls') (later : List LineEvent) :
    IsExplained options calls' (events ++ later) event := by
  cases event with
  | ask | work | abandon => trivial
  | read => exact h
  | answer =>
    obtain ⟨sent, wanted, hsent⟩ := h
    exact ⟨sent, wanted.mono more, hsent⟩
  | result =>
    intro hresponse
    obtain ⟨call, request, s, endCode, data, hcall, hrequest, hanswer, hresult⟩ := h hresponse
    obtain ⟨added, rfl⟩ := more
    refine ⟨call, request, s, endCode, data, ?_, hrequest, List.mem_append_left _ hanswer, hresult⟩
    rw [List.getElem?_append_left (List.getElem?_eq_some_iff.1 hcall).1, hcall]

theorem isOfResponse_error_iff {e : LinkError} :
    IsOfResponse (.error e) ↔ ∃ code, e = .frame (.endCode code) := by
  simp [IsOfResponse]

theorem not_isOfResponse_refused {call : LinkCall} {e : FrameError}
    (refused : call.request options = .error e) : ¬ IsOfResponse (.error (.frame e)) := by
  rw [isOfResponse_error_iff]
  rintro ⟨code, ⟨⟩⟩
  rcases Order.frame_eq_error_iff.1 refused with ⟨-, h⟩ | ⟨-, -, -, h⟩ <;> simp at h

theorem not_isOfResponse_unread {connection : Connection} {e : LinkError}
    (unread : connection.readBody = .error e) : ¬ IsOfResponse (.error e) := by
  rw [isOfResponse_error_iff]
  rintro ⟨code, rfl⟩
  rcases Connection.kind_of_readBody_error unread with htransport | ⟨announced, -, h⟩
  · simp [LinkError.isTransport] at htransport
  · simp at h

theorem calls_step (step : Step options line event line') : line.calls <+: line'.calls := by
  cases step with
  | ask | refuse => exact List.prefix_append ..
  | _ => exact List.prefix_rfl

/-- What a step does is explained by what has happened before. -/
theorem IsSound.explained (sound : IsSound options events line)
    (replies : ∀ number request bytes, .answer number request bytes ∈ events → Frame.IsReply bytes)
    (step : Step options line event line') : IsExplained options line.calls events event := by
  cases step with
  | refuse call e refused =>
    intro h
    exact absurd h (not_isOfResponse_refused refused)
  | reject number place got e busy wrong =>
    intro h
    exact absurd h (not_isOfResponse_unread wrong)
  | decline number e dialing cause =>
    rcases cause with rfl | rfl <;> simp [IsExplained, isOfResponse_error_iff]
  | fail number place left got e busy cause =>
    rcases cause with rfl | rfl <;> simp [IsExplained, isOfResponse_error_iff]
  | read number place wire got byte more busy unread found coming =>
    have hserves := sound.serves busy found
    cases hserves with
    | asking sent _ wanted =>
      -- the peer has not been asked yet, so nothing comes
      simp at coming
    | answered request _ coming' wanted answer =>
      obtain ⟨next, rest, rfl, rfl, rfl⟩ := List.map_eq_cons_iff.1 coming
      rfl
  | answer place number wire start body rest bytes found request first =>
    obtain ⟨wanted, hsent⟩ := sound.asked found request first
    exact ⟨_, wanted, (sound.taken found request first).1.trans hsent⟩
  | finish number place call got body busy made whole =>
    obtain ⟨-, request, s, endCode, data, ⟨call', hcall, hrequest⟩, hanswer, rfl⟩ :=
      sound.read replies busy whole
    obtain rfl := Option.some.inj (hcall.symm.trans made)
    intro _
    refine ⟨_, request, s, endCode, data, hcall, hrequest, hanswer, ?_⟩
    rw [Frame.responseData_ofWord]
    split <;> rfl
  | _ => trivial

/-! ## Runs -/

/-- Between any two steps of a run all is as it should be, and so is all that has happened. -/
theorem Run.explained (run : Run options {} events line)
    (replies : ∀ number request bytes, .answer number request bytes ∈ events →
      Frame.IsReply bytes) :
    IsSound options events line ∧ IsOnce options events line ∧
      ∀ event ∈ events, IsExplained options line.calls events event := by
  induction run with
  | nil => exact ⟨.init, .init, by simp⟩
  | @snoc line line' events event run step ih =>
    have replies' : ∀ number request bytes, .answer number request bytes ∈ events →
        Frame.IsReply bytes := by
      intro number request bytes h
      exact replies number request bytes (List.mem_append_left _ h)
    obtain ⟨sound, once, hold⟩ := ih replies'
    refine ⟨sound.step replies' step, once.step sound step, ?_⟩
    intro e he
    apply IsExplained.mono ?_ (calls_step step) [event]
    rcases List.mem_append.1 he with he | he
    · exact hold e he
    · rw [List.mem_singleton.1 he]
      exact sound.explained replies' step

/-- A call may be abandoned when it has sent its request over a new connection, and the peer may
answer it after that. -/
theorem run_late {call : LinkCall} {request : List UInt8}
    (built : call.request options = .ok request) (free : line.turn = .free)
    (slot : line.slot = none) (reply : List UInt8) :
    ∃ events line', Run options line events line' ∧ line'.calls = line.calls ++ [call] ∧
      line'.turn = .free ∧ line'.slot = none ∧ .abandon line.calls.length ∈ events ∧
      ∀ number request bytes, .answer number request bytes ∈ events → bytes = reply := by
  have hwire : (line.wires ++ [({} : Wire)])[line.wires.length]? = some {} :=
    List.getElem?_concat_length
  have hsent := (run_connect built free slot).append (run_send rfl hwire)
  have hdropped := hsent.snoc (.drop _ line.calls.length rfl)
  have hasked : ((line.wires ++ [({} : Wire)]).set line.wires.length
      ⟨request.map (line.calls.length, ·), []⟩)[line.wires.length]? =
        some ⟨request.map (line.calls.length, ·), []⟩ :=
    List.getElem?_set_self (by simp)
  have hlate := hdropped.snoc (step_answer built hasked reply)
  exact ⟨_, _, hlate, rfl, rfl, slot, by simp, by simp +contextual⟩

/-- Callers share a client, and any of them may fail or be abandoned at any time; the peer answers
with responses, with parts of them or with bytes that are not marked as one. Then a call reads only
bytes of answers to its own request, no request is answered twice, and what is returned as data or
as an end code is what the answer to the request of this call carries. -/
theorem results_answered (run : Run options {} events line)
    (replies : ∀ number request bytes, .answer number request bytes ∈ events →
      Frame.IsReply bytes) :
    (∀ number byte, .read number byte ∈ events → byte.1 = number) ∧
    (∀ number request bytes, .answer number request bytes ∈ events →
      ∃ sent, HasRequest options line.calls number sent ∧ request = sent.map (number, ·)) ∧
    (events.filterMap LineEvent.answered?).Nodup ∧
    (∀ number value, .result number (.ok value) ∈ events →
      ∃ (call : LinkCall) (request : List UInt8) (s : Station) (data : List UInt8),
        line.calls[number]? = some call ∧ call.request options = .ok request ∧
        .answer number (request.map (number, ·)) (s.response 0 data) ∈ events ∧
        call.outcome (.ok data) = .ok value ∧ ∀ payload, value = some payload → payload = data) ∧
    ∀ number code, .result number (.error (.frame (.endCode code))) ∈ events →
      ∃ (request : List UInt8) (s : Station) (data : List UInt8),
        HasRequest options line.calls number request ∧
        .answer number (request.map (number, ·)) (s.response code data) ∈ events := by
  obtain ⟨-, once, hexplained⟩ := run.explained replies
  refine ⟨?_, ?_, (List.nodup_append.1 once.nodup).1, ?_, ?_⟩
  · intro number byte h
    exact hexplained _ h
  · intro number request bytes h
    exact hexplained _ h
  · intro number value h
    obtain ⟨call, request, s, endCode, data, hcall, hrequest, hanswer, hresult⟩ :=
      hexplained _ h (.inl ⟨value, rfl⟩)
    by_cases hcode : endCode = 0
    · subst hcode
      rw [if_pos rfl] at hresult
      refine ⟨call, request, s, data, hcall, hrequest, hanswer, hresult.symm, ?_⟩
      rintro payload rfl
      exact LinkCall.eq_of_outcome_ok hresult.symm
    · rw [if_neg hcode, call.outcome_error] at hresult
      simp at hresult
  · intro number code h
    obtain ⟨call, request, s, endCode, data, hcall, hrequest, hanswer, hresult⟩ :=
      hexplained _ h (.inr ⟨code, rfl⟩)
    by_cases hcode : endCode = 0
    · rw [if_pos hcode] at hresult
      obtain ⟨_, _, _, _, _, -, hshort⟩ := LinkCall.of_outcome_ok_error hresult.symm
      simp at hshort
    · rw [if_neg hcode, call.outcome_error] at hresult
      simp only [Except.error.injEq, LinkError.frame.injEq, FrameError.endCode.injEq] at hresult
      subst hresult
      exact ⟨request, s, data, ⟨call, hcall, hrequest⟩, hanswer⟩

/-- A call is abandoned when it has sent its request, and the answer to it comes after that. The
next call gets the answer to its own request. -/
theorem results_answered_late : ∃ events line, Run {} {} events line ∧
    (∀ number request bytes, .answer number request bytes ∈ events → Frame.IsReply bytes) ∧
    .abandon 0 ∈ events ∧ .result 1 (.ok (some [7, 0])) ∈ events ∧
    ∃ (request : List UInt8) (s : Station) (data : List UInt8),
      .answer 1 (request.map (1, ·)) (s.response 0 data) ∈ events ∧ [7, 0] = data := by
  obtain ⟨request, hrequest⟩ :
      ∃ request, (LinkCall.read .standard .d 0 1).request {} = .ok request := ⟨_, rfl⟩
  obtain ⟨first, line, hfirst, hcalls, hfree, hslot, habandon, hlate⟩ :=
    run_late hrequest (rfl : ({} : Line).turn = .free) rfl (Station.local.response 0 [9, 9])
  have shows : line.Shows {} := shows_of_lost hfree hslot rfl
  obtain ⟨later, last, hlater, -, hresult, hanswers⟩ := Client.run_perform Script.peer
    ⟨[{ bytes := Station.local.response 0 [7, 0] }], [], 0⟩ (.read .standard .d 5 1) shows
  rw [hcalls] at hresult
  have run := hfirst.append hlater
  have replies : ∀ number request bytes, .answer number request bytes ∈ first ++ later →
      Frame.IsReply bytes := by
    intro number request bytes h
    rcases List.mem_append.1 h with h | h
    · rw [hlate _ _ _ h]
      exact .whole _ 0 [9, 9] (by decide)
    · rw [(hanswers _ _ _ h).2]
      exact .whole _ 0 [7, 0] (by decide)
  have hone : LineEvent.result 1 (.ok (some [7, 0])) ∈ first ++ later :=
    List.mem_append_right _ hresult
  obtain ⟨-, -, -, hread, -⟩ := results_answered run replies
  obtain ⟨call, request, s, data, -, -, hanswer, -, hpayload⟩ := hread 1 _ hone
  exact ⟨_, last, run, replies, List.mem_append_left _ habandon, hone, request, s, data, hanswer,
    hpayload _ rfl⟩

end Line

end PlcGateway
