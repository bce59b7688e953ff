import PlcGateway.Link.Line
import PlcGateway.Proofs.Link.Connected

/-!
# A client that is used alone

A call that nobody disturbs takes the steps of one that shares its client with others, and
`Client.perform` is what these steps come to (`run_perform`).
-/

namespace PlcGateway

theorem Answer.bytes_within_after (answer : Answer) (limitMs : Nat) :
    (answer.within limitMs).bytes ++ (answer.after limitMs).bytes = answer.bytes := by
  unfold within after
  split
  · exact List.append_nil _
  · rfl

namespace Line

variable {options : ClientOptions} {first line line' : Line} {events events' : List LineEvent}
  {event : LineEvent}

theorem Run.single (step : Step options line event line') : Run options line [event] line' :=
  .snoc .nil step

theorem Run.append (run : Run options first events line) (run' : Run options line events' line') :
    Run options first (events ++ events') line' := by
  induction run' with
  | nil => rwa [List.append_nil]
  | snoc _ step ih =>
    rw [← List.append_assoc]
    exact .snoc ih step

/-! ## A call with a connection -/

/-- The line where a call uses a connection. -/
def serving (line : Line) (number place : Nat) (left got : List UInt8) (wire : Wire) : Line :=
  { line with turn := .busy number place left got, wires := line.wires.set place wire }

variable {number place : Nat} {left got : List UInt8} {wire : Wire}

theorem serving_serving (left' got' : List UInt8) (wire' : Wire) :
    (line.serving number place left got wire).serving number place left' got' wire' =
      line.serving number place left' got' wire' := by
  simp only [serving, List.set_set]

theorem serving_self (busy : line.turn = .busy number place left got)
    (found : line.wires[place]? = some wire) : line.serving number place left got wire = line := by
  obtain ⟨hin, rfl⟩ := List.getElem?_eq_some_iff.1 found
  rw [serving, List.set_getElem_self, ← busy]

theorem wires_serving (found : line.wires[place]? = some wire) (number : Nat)
    (left got : List UInt8) (wire' : Wire) :
    (line.serving number place left got wire').wires[place]? = some wire' :=
  List.getElem?_set_self (List.getElem?_eq_some_iff.1 found).1

/-- What is left of a request is sent. -/
theorem run_send (busy : line.turn = .busy number place left [])
    (found : line.wires[place]? = some wire) :
    Run options line (List.replicate left.length .work) (line.serving number place [] []
      { wire with toPeer := wire.toPeer ++ left.map (number, ·) }) := by
  induction left generalizing line wire with
  | nil =>
    rw [List.map_nil, List.append_nil, serving_self busy found]
    exact .nil
  | cons byte left ih =>
    have hrest := ih rfl (wires_serving found number left []
      { wire with toPeer := wire.toPeer ++ [(number, byte)] })
    rw [serving_serving, List.append_assoc] at hrest
    exact (Run.single (.send line number place wire byte left busy found)).append hrest

/-- The peer takes a request off a connection, in use or lost, and answers it. -/
theorem step_answer {order : Order} {request : List UInt8} {coming : List (Nat × UInt8)}
    (built : order.frame = .ok request)
    (found : line.wires[place]? = some ⟨request.map (number, ·), coming⟩) (bytes : List UInt8) :
    Step options line (.answer number (request.map (number, ·)) bytes)
      { line with wires := line.wires.set place ⟨[], coming ++ bytes.map (number, ·)⟩ } := by
  obtain ⟨start, body, rfl, hnext, -, -⟩ := Order.next?_frame built []
  have hfirst : ((start ++ body).map (number, ·)).head?.map Prod.fst = some number := by
    obtain ⟨-, hstart, -⟩ := Frame.next?_eq_some_iff.1 hnext
    cases start with
    | nil => simp [Frame.prefixLength] at hstart
    | cons byte start => rfl
  have step : Step options line _ _ := .answer line place number _ start body [] bytes found
    (by simpa [Function.comp_def] using hnext) hfirst
  have hlength : start.length + body.length = ((start ++ body).map (number, ·)).length := by simp
  rwa [hlength, List.take_length, List.drop_length] at step

/-- Bytes that have come are read as long as they do not tell how the exchange ends. -/
theorem run_read {bytes rest : List (Nat × UInt8)} (busy : line.turn = .busy number place [] got)
    (found : line.wires[place]? = some wire) (coming : wire.toClient = bytes ++ rest)
    (unread : ∀ early late, bytes.map Prod.snd = early ++ late → late ≠ [] →
      Connection.readBody ⟨got ++ early, false⟩ = .error .timedOut) :
    Run options line (bytes.map (.read number))
      (line.serving number place [] (got ++ bytes.map Prod.snd)
        { wire with toClient := rest }) := by
  induction bytes generalizing line wire got with
  | nil =>
    obtain rfl : wire.toClient = rest := coming
    rw [List.map_nil, List.map_nil, List.append_nil, serving_self busy found]
    exact .nil
  | cons byte bytes ih =>
    have hunread := unread [] _ rfl (by simp)
    rw [List.append_nil] at hunread
    have hrest := ih rfl (wires_serving found number [] (got ++ [byte.2])
      { wire with toClient := bytes ++ rest }) rfl (by
        intro early late hparts hlate
        rw [List.append_assoc]
        exact unread (byte.2 :: early) late (by simp [hparts]) hlate)
    rw [serving_serving, List.append_assoc] at hrest
    exact (Run.single (.read line number place wire got byte (bytes ++ rest) busy hunread found
      coming)).append hrest

/-! ## A call from its start to its end -/

/-- The line after a call was made. -/
def queue (line : Line) (call : LinkCall) : Line :=
  { line with calls := line.calls ++ [call], waiting := line.calls.length :: line.waiting }

/-- Nobody uses the line, and what has come over the connection in its slot has arrived at the
client. -/
structure Shows (line : Line) (client : Client) : Prop where
  free : line.turn = .free
  lost : client.connection = none → line.slot = none
  kept : ∀ connection, client.connection = some connection → ∃ place coming,
    line.slot = some place ∧ line.wires[place]? = some ⟨[], coming⟩ ∧
      coming.map Prod.snd = connection.arrived

variable {ν : Type}

/-- From here the call with the number may end as an exchange has ended, and nothing but its request
is answered, as the peer replies to it. -/
def MayEnd (options : ClientOptions) (line : Line) (number : Nat)
    (exchange : Exchange ν (Option (List UInt8))) (reply : List UInt8 → List UInt8) : Prop :=
  ∃ events last, Run options line events last ∧ last.Shows exchange.client ∧
    .result number exchange.result ∈ events ∧
    ∀ other request bytes, .answer other request bytes ∈ events →
      other = number ∧ bytes = reply (request.map Prod.snd)

variable {exchange : Exchange ν (Option (List UInt8))} {reply : List UInt8 → List UInt8}

theorem MayEnd.before (run : Run options line events line')
    (answers : ∀ other request bytes, .answer other request bytes ∈ events →
      other = number ∧ bytes = reply (request.map Prod.snd))
    (ends : MayEnd options line' number exchange reply) :
    MayEnd options line number exchange reply := by
  obtain ⟨later, last, hrun, hshows, hresult, hanswers⟩ := ends
  refine ⟨events ++ later, last, run.append hrun, hshows, List.mem_append_right _ hresult, ?_⟩
  intro other request bytes h
  rcases List.mem_append.1 h with h | h
  · exact answers other request bytes h
  · exact hanswers other request bytes h

theorem MayEnd.last {result : Except LinkError (Option (List UInt8))}
    (step : Step options line (.result number result) line') (ended : exchange.result = result)
    (shows : line'.Shows exchange.client) : MayEnd options line number exchange reply := by
  subst ended
  exact ⟨_, line', Run.single step, shows, List.mem_singleton_self _, by simp⟩

/-- A client that has lost its connection is shown when the turn is over. -/
theorem shows_of_lost {client : Client} (free : line.turn = .free) (slot : line.slot = none)
    (lost : client.connection = none) : line.Shows client :=
  ⟨free, fun _ => slot, by simp [lost]⟩

variable {before : Connection} {coming : List (Nat × UInt8)} {late : List UInt8}

/-- What has come is no response, or not the whole of one. -/
theorem mayEnd_unread {e : LinkError} (busy : line.turn = .busy number place [] [])
    (slot : line.slot = none) (found : line.wires[place]? = some ⟨[], coming⟩)
    (come : coming.map Prod.snd = before.arrived ++ late) (unread : before.readBody = .error e)
    (failed : exchange.result = .error e) (lost : exchange.client.connection = none) :
    MayEnd options line number exchange reply := by
  rcases Connection.of_readBody_error unread with rfl | ⟨-, -, e', -, -, -, rfl⟩
  · refine .last (.fail _ number place [] [] _ busy ?_) failed (shows_of_lost rfl slot lost)
    split
    · exact .inl rfl
    · exact .inr rfl
  · obtain ⟨start, more, harrived, hstart, hunread⟩ := Connection.exists_of_readBody_frame unread
    rw [harrived, List.append_assoc] at come
    obtain ⟨front, rest, rfl, rfl, -⟩ := List.map_eq_append_iff.1 come
    refine .before (run_read busy found rfl hunread) (by simp) ?_
    exact .last (.reject _ number place _ e' rfl hstart) failed (shows_of_lost rfl slot lost)

/-- What has come begins with a response. -/
theorem mayEnd_read {call : LinkCall} {body : List UInt8} {rest after : Connection}
    (made : line.calls[number]? = some call) (busy : line.turn = .busy number place [] [])
    (found : line.wires[place]? = some ⟨[], coming⟩)
    (come : coming.map Prod.snd = before.arrived ++ late)
    (read : before.readBody = .ok (body, rest))
    (ended : exchange.result = call.outcome ((Frame.responseData body).mapError .frame))
    (kept : exchange.client.connection = some after) (left : after.arrived = rest.arrived ++ late) :
    MayEnd options line number exchange reply := by
  obtain ⟨start, harrived, -, hstart, hlength⟩ := Connection.readBody_eq_ok_iff.1 read
  have hwhole : Connection.readBody ⟨start ++ body, false⟩ = .ok (body, {}) :=
    Connection.readBody_eq_ok_iff.2 ⟨start, (List.append_nil _).symm, rfl, hstart, hlength⟩
  rw [harrived, List.append_assoc _ rest.arrived] at come
  obtain ⟨front, behind, rfl, hfront, hbehind⟩ := List.map_eq_append_iff.1 come
  have hunread : ∀ early more, front.map Prod.snd = early ++ more → more ≠ [] →
      Connection.readBody ⟨early, false⟩ = .error .timedOut := by
    intro early more hparts hmore
    rw [← hfront, hparts] at hwhole
    exact Connection.readBody_of_early hwhole hmore
  refine .before (run_read busy found rfl hunread) (by simp) ?_
  refine .last (.finish _ number place call _ body rfl made (hfront ▸ hwhole)) ended ⟨rfl, ?_, ?_⟩
  · simp [kept]
  · intro connection hconnection
    obtain rfl := Option.some.inj (kept.symm.trans hconnection)
    exact ⟨place, behind, rfl, List.getElem?_set_self (List.getElem?_eq_some_iff.1 found).1,
      hbehind.trans left.symm⟩

/-- A call is made while the client is free and has no connection, and gets a new one. -/
theorem run_connect {call : LinkCall} {request : List UInt8}
    (built : call.request options = .ok request) (free : line.turn = .free)
    (slot : line.slot = none) :
    Run options line [.ask call, .work, .work]
      { line with
        calls := line.calls ++ [call]
        turn := .busy line.calls.length line.wires.length request []
        wires := line.wires ++ [{}] } := by
  have hdial : Step options (line.queue call) _ _ :=
    .dial _ line.calls.length free (List.mem_cons_self ..) slot
  rw [queue, List.erase_cons_head] at hdial
  have hconnect : Step options
      { line with calls := line.calls ++ [call], turn := .dialing line.calls.length } _ _ :=
    .connect _ line.calls.length request rfl ⟨call, List.getElem?_concat_length, built⟩
  exact .snoc (.snoc (.single (.ask line call request built)) hdial) hconnect

end Line

namespace Client

variable {ν : Type} {peer : Peer ν} {client : Client} {s s' : ν} {call : LinkCall}
  {connection : Connection} {request : List UInt8} {line : Line} {number place : Nat}

/-- An exchange over a connection. -/
theorem mayEnd_exchange {coming : List (Nat × UInt8)} (made : line.calls[number]? = some call)
    (built : call.request client.options = .ok request)
    (busy : line.turn = .busy number place request []) (slot : line.slot = none)
    (found : line.wires[place]? = some ⟨[], coming⟩)
    (connected : client.connect peer s = (some connection, s'))
    (arrived : coming.map Prod.snd = connection.arrived) :
    Line.MayEnd client.options line number ((client.exchange peer request s).mapResult call.outcome)
      (fun request => (peer.answer request s').1.bytes) := by
  unfold exchange
  simp only [connected]
  split
  · exact .last (.fail _ number place request [] .broken busy (.inl rfl)) (call.outcome_error _)
      (Line.shows_of_lost rfl slot rfl)
  · -- the request is sent, and the answer is on its way at once, even if it comes late
    have hsend : Line.Run client.options line _ _ := Line.run_send busy found
    have hanswer : Line.Step client.options _ _ _ := Line.step_answer built
      (Line.wires_serving found number [] [] ⟨request.map (number, ·), coming⟩)
      (peer.answer request s').1.bytes
    refine .before (hsend.append (.single hanswer)) (by simp +contextual [Function.comp_def]) ?_
    have hcome : (coming ++ (peer.answer request s').1.bytes.map (number, ·)).map Prod.snd =
        (connection.receive ((peer.answer request s').1.within client.options.ioTimeoutMs)).arrived
          ++ ((peer.answer request s').1.after client.options.ioTimeoutMs).bytes := by
      rw [List.map_append, arrived, Connection.receive, List.append_assoc,
        Answer.bytes_within_after]
      simp [Function.comp_def]
    have hfound := Line.wires_serving (Line.wires_serving found number [] []
      ⟨request.map (number, ·), coming⟩) number [] []
      ⟨[], coming ++ (peer.answer request s').1.bytes.map (number, ·)⟩
    split
    · next e hread =>
      exact Line.mayEnd_unread rfl slot hfound hcome hread (call.outcome_error e) rfl
    · next body rest hread =>
      exact Line.mayEnd_read made rfl hfound hcome hread rfl rfl rfl

/-- Carrying out a call is one of the ways in which callers who share the client may go on: nobody
else does anything. -/
theorem run_perform (peer : Peer ν) (s : ν) (call : LinkCall) (shows : line.Shows client) :
    Line.MayEnd client.options line line.calls.length (client.perform peer s call)
      (fun request => (peer.answer request (client.connect peer s).2).1.bytes) := by
  cases built : call.request client.options with
  | error e =>
    rw [perform_of_refused built]
    exact .last (.refuse line call e built) rfl ⟨shows.free, shows.lost, shows.kept⟩
  | ok request =>
    rw [perform_of_built built]
    have hmade : (line.calls ++ [call])[line.calls.length]? = some call :=
      List.getElem?_concat_length
    cases hconnection : client.connection with
    | some connection =>
      have hconnect : client.connect peer s = (some connection, s) := by rw [connect, hconnection]
      rw [hconnect]
      obtain ⟨place, coming, hslot, hwire, hcoming⟩ := shows.kept connection hconnection
      have hreuse : Line.Step client.options (line.queue call) _ _ :=
        .reuse _ line.calls.length place request shows.free (List.mem_cons_self ..)
          ⟨call, hmade, built⟩ hslot
      refine .before (.snoc (.single (.ask line call request built)) hreuse) (by simp) ?_
      exact mayEnd_exchange hmade built rfl rfl hwire hconnect hcoming
    | none =>
      rcases haccept : peer.accept client.options.connectTimeoutMs s with ⟨_ | _, s'⟩
      · have hconnect : client.connect peer s = (none, s') := by rw [connect, hconnection, haccept]
        have hexchange : client.exchange peer request s =
            ⟨.error .refused, 0, client.close, s'⟩ := by
          rw [exchange, hconnect]
        rw [hexchange]
        have hdial : Line.Step client.options (line.queue call) _ _ :=
          .dial _ line.calls.length shows.free (List.mem_cons_self ..) (shows.lost hconnection)
        refine .before (.snoc (.single (.ask line call request built)) hdial) (by simp) ?_
        exact .last (.decline _ line.calls.length .refused rfl (.inl rfl)) (call.outcome_error _)
          (Line.shows_of_lost rfl (shows.lost hconnection) rfl)
      · have hconnect : client.connect peer s = (some {}, s') := by
          rw [connect, hconnection, haccept]
        rw [hconnect]
        have hrun := Line.run_connect built shows.free (shows.lost hconnection)
        refine .before hrun (by simp) ?_
        have hwire : (line.wires ++ [⟨[], []⟩])[line.wires.length]? = some ⟨[], []⟩ :=
          List.getElem?_concat_length
        exact mayEnd_exchange hmade built rfl (shows.lost hconnection) hwire hconnect rfl

end Client

end PlcGateway
