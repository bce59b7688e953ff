import PlcGateway.Link.Line
import PlcGateway.Proofs.Frame.Stream
import PlcGateway.Proofs.Link.Exchange
import PlcGateway.Proofs.Link.Reading

/-!
# What is on its way between a client and its peer

Between any two steps of callers that share a client, nothing is on its way over a connection in the
slot, and over the connection of the call whose turn it is nothing but bytes of its request or of
the answer to it (`IsSound.step`). A body is read only of a whole response, and a peer that has sent
one has nothing else to send (`IsReply.of_readBody`); so the connection can go back into the slot.
-/

namespace PlcGateway

/-! ## Replies -/

/-- What a peer answers a request with: a response, the beginning of one, or bytes that are not
marked as a response. A peer that sends nothing stops at the beginning. -/
inductive Frame.IsReply : List UInt8 → Prop where
  | whole (s : Station) (endCode : UInt16) (data : List UInt8) (short : data.length + 2 < 65536) :
      IsReply (s.response endCode data)
  | part (s : Station) (endCode : UInt16) (data sent unsent : List UInt8)
      (short : data.length + 2 < 65536) (parts : s.response endCode data = sent ++ unsent)
      (cut : unsent ≠ []) : IsReply sent
  | stray (bytes : List UInt8) (wrong : ¬ bytes.take 2 <+: Frame.responseMark) : IsReply bytes

/-- What can be read as a body from the beginning of a response is all of it. -/
theorem Station.of_readBody_response {s : Station} {endCode : UInt16}
    {data got more body : List UInt8} (short : data.length + 2 < 65536)
    (parts : s.response endCode data = got ++ more)
    (read : Connection.readBody ⟨got, false⟩ = .ok (body, {})) :
    more = [] ∧ body = Bytes.ofWord endCode ++ data := by
  have hwhole := Connection.readBody_response s endCode [] false short
  rw [List.append_nil, parts, Connection.readBody_append read more] at hwhole
  simp only [Except.ok.injEq, Prod.mk.injEq, Connection.mk.injEq, List.nil_append] at hwhole
  exact ⟨hwhole.2.1, hwhole.1⟩

/-- A body is read only from a reply that is a response, and nothing of the reply is left then. -/
theorem Frame.IsReply.of_readBody {got coming body : List UInt8}
    (reply : Frame.IsReply (got ++ coming))
    (read : Connection.readBody ⟨got, false⟩ = .ok (body, {})) :
    coming = [] ∧ ∃ (s : Station) (endCode : UInt16) (data : List UInt8),
      got = s.response endCode data ∧ body = Bytes.ofWord endCode ++ data := by
  generalize hbytes : got ++ coming = bytes at reply
  cases reply with
  | whole s endCode data short =>
    obtain ⟨rfl, rfl⟩ := Station.of_readBody_response short hbytes.symm read
    exact ⟨rfl, s, endCode, data, by rw [← hbytes, List.append_nil], rfl⟩
  | part s endCode data sent unsent short parts cut =>
    rw [← hbytes, List.append_assoc] at parts
    obtain ⟨hmore, -⟩ := Station.of_readBody_response short parts read
    exact absurd (List.append_eq_nil_iff.1 hmore).2 cut
  | stray bytes wrong =>
    obtain ⟨start, hgot, -, hstart, hlength⟩ := Connection.readBody_eq_ok_iff.1 read
    have hmark := ((Frame.responseLength_eq_ok_iff hstart).1 hlength).1
    have hstream : bytes = start ++ (body ++ coming) := by
      rw [← hbytes, (by simpa using hgot : got = start ++ body), List.append_assoc]
    have htake : bytes.take 2 = start.take 2 := by
      rw [hstream, List.take_append_of_le_length (by rw [hstart]; decide)]
    exact absurd (htake ▸ hmark ▸ List.prefix_rfl) wrong

namespace Line

variable {options : ClientOptions} {line line' : Line} {events : List LineEvent} {event : LineEvent}

/-! ## The request of a call -/

namespace HasRequest

variable {calls calls' : List LinkCall} {number : Nat} {request : List UInt8}

theorem lt_length (wanted : HasRequest options calls number request) : number < calls.length := by
  obtain ⟨call, hcall, -⟩ := wanted
  exact (List.getElem?_eq_some_iff.1 hcall).1

theorem prefix_iff (more : calls <+: calls') (made : number < calls.length) :
    HasRequest options calls' number request ↔ HasRequest options calls number request := by
  obtain ⟨added, rfl⟩ := more
  rw [HasRequest, HasRequest, List.getElem?_append_left made]

theorem mono (wanted : HasRequest options calls number request) (more : calls <+: calls') :
    HasRequest options calls' number request :=
  (prefix_iff more wanted.lt_length).2 wanted

theorem unique {request' : List UInt8} (wanted : HasRequest options calls number request)
    (wanted' : HasRequest options calls number request') : request = request' := by
  obtain ⟨call, hcall, hrequest⟩ := wanted
  obtain ⟨call', hcall', hrequest'⟩ := wanted'
  obtain rfl := Option.some.inj (hcall.symm.trans hcall')
  exact Except.ok.inj (hrequest.symm.trans hrequest')

/-- A request that is taken off a connection is a whole one, of the call that its first byte is
of. -/
theorem of_next? {first : Nat} {sent left start body rest : List UInt8}
    (wanted : HasRequest options calls number (sent ++ left))
    (request : Frame.next? ((sent.map (number, ·)).map Prod.snd) = some ((start, body), rest))
    (head : (sent.map (number, ·)).head?.map Prod.fst = some first) :
    sent = start ++ body ∧ left = [] ∧ number = first := by
  obtain ⟨call, -, hrequest⟩ := wanted
  have hsent : (sent.map (number, ·)).map Prod.snd = sent := by simp [Function.comp_def]
  rw [hsent] at request
  obtain ⟨hparts, hleft⟩ := Order.of_next?_sent hrequest request
  refine ⟨hparts, hleft, ?_⟩
  cases sent with
  | nil => simp at head
  | cons byte sent => simpa using head

end HasRequest

/-! ## What is on its way -/

/-- How far the call has come that uses a connection: it is still sending, or the peer has answered
it and it has read some of the answer. -/
inductive Serves (options : ClientOptions) (calls : List LinkCall) (events : List LineEvent)
    (number : Nat) : List UInt8 → List UInt8 → Wire → Prop where
  | asking (sent left : List UInt8) (wanted : HasRequest options calls number (sent ++ left)) :
      Serves options calls events number left [] ⟨sent.map (number, ·), []⟩
  | answered (request got coming : List UInt8) (wanted : HasRequest options calls number request)
      (answer : .answer number (request.map (number, ·)) (got ++ coming) ∈ events) :
      Serves options calls events number [] got ⟨[], coming.map (number, ·)⟩

/-- What holds between any two steps. -/
structure IsSound (options : ClientOptions) (events : List LineEvent) (line : Line) : Prop where
  /-- Nothing is on its way over a connection that is kept. -/
  kept : ∀ place, line.slot = some place → line.turn = .free ∧ line.wires[place]? = some {}
  busy : ∀ number place left got, line.turn = .busy number place left got →
    ∃ wire, line.wires[place]? = some wire ∧
      Serves options line.calls events number left got wire
  /-- On no connection, used or lost, are the bytes of two requests. -/
  sent : ∀ wire ∈ line.wires, wire.toPeer = [] ∨ ∃ number sent left,
    HasRequest options line.calls number (sent ++ left) ∧ wire.toPeer = sent.map (number, ·)

theorem Serves.mono {calls calls' : List LinkCall} {number : Nat} {left got : List UInt8}
    {wire : Wire} (serves : Serves options calls events number left got wire)
    (more : calls <+: calls') (event : LineEvent) :
    Serves options calls' (events ++ [event]) number left got wire := by
  cases serves with
  | asking sent left wanted => exact .asking sent left (wanted.mono more)
  | answered request got coming wanted answer =>
    exact .answered request got coming (wanted.mono more) (List.mem_append_left _ answer)

namespace IsSound

theorem init : IsSound options [] {} where
  kept := by simp
  busy := by simp
  sent := by simp

theorem serves (sound : IsSound options events line) {number place : Nat} {left got : List UInt8}
    {wire : Wire} (busy : line.turn = .busy number place left got)
    (found : line.wires[place]? = some wire) :
    Serves options line.calls events number left got wire := by
  obtain ⟨wire', hwire, hserves⟩ := sound.busy number place left got busy
  obtain rfl := Option.some.inj (found.symm.trans hwire)
  exact hserves

theorem slot_eq_none (sound : IsSound options events line) (used : line.turn ≠ .free) :
    line.slot = none := by
  cases hslot : line.slot with
  | none => rfl
  | some place => exact absurd (sound.kept place hslot).1 used

/-- What is on the connections stays as it is when calls are made or leave. -/
theorem ofCalls (sound : IsSound options events line) {calls : List LinkCall}
    (more : line.calls <+: calls) (waiting : List Nat) (event : LineEvent) :
    IsSound options (events ++ [event]) { line with calls, waiting } where
  kept := sound.kept
  busy number place left got hturn := by
    obtain ⟨wire, hwire, hserves⟩ := sound.busy number place left got hturn
    exact ⟨wire, hwire, hserves.mono more event⟩
  sent wire hwire := by
    rcases sound.sent wire hwire with hnone | ⟨number, sent, left, wanted, hsent⟩
    · exact .inl hnone
    · exact .inr ⟨number, sent, left, wanted.mono more, hsent⟩

/-- No connection is used and none is kept. -/
theorem ofTurn (sound : IsSound options events line) {waiting : List Nat} {turn : Turn}
    {slot : Option Nat} (empty : slot = none)
    (idle : ∀ number place left got, turn ≠ .busy number place left got) (event : LineEvent) :
    IsSound options (events ++ [event]) { line with waiting, turn, slot } where
  kept := by simp [empty]
  busy number place left got hturn := absurd hturn (idle number place left got)
  sent := sound.sent

/-- A call that ends without a whole response loses its connection. -/
theorem lose (sound : IsSound options events line) (used : line.turn ≠ .free) (event : LineEvent) :
    IsSound options (events ++ [event]) { line with turn := .free } :=
  sound.ofTurn (sound.slot_eq_none used) (by simp) event

/-- A call takes a connection with nothing on its way. -/
theorem start (sound : IsSound options events line) {number place : Nat} {request : List UInt8}
    {waiting : List Nat} {slot : Option Nat} {wires : List Wire} (empty : slot = none)
    (wanted : HasRequest options line.calls number request) (found : wires[place]? = some {})
    (same : ∀ wire ∈ wires, wire ∈ line.wires ∨ wire.toPeer = []) (event : LineEvent) :
    IsSound options (events ++ [event])
      { line with waiting, turn := .busy number place request [], slot, wires } where
  kept := by simp [empty]
  busy number' place' left got hturn := by
    simp only [Turn.busy.injEq] at hturn
    obtain ⟨rfl, rfl, rfl, rfl⟩ := hturn
    exact ⟨{}, found, .asking [] request wanted⟩
  sent wire hwire := by
    rcases same wire hwire with hold | hnone
    · exact sound.sent wire hold
    · exact .inl hnone

/-- The call that uses a connection goes on with it. -/
theorem go (sound : IsSound options events line) {number place : Nat}
    {left got left' got' : List UInt8} {wire wire' : Wire}
    (busy : line.turn = .busy number place left got)
    (found : line.wires[place]? = some wire) (event : LineEvent)
    (serves : Serves options line.calls (events ++ [event]) number left' got' wire') :
    IsSound options (events ++ [event])
      { line with turn := .busy number place left' got', wires := line.wires.set place wire' } where
  kept place' hslot := by simp [sound.slot_eq_none (by simp [busy])] at hslot
  busy number' place' left'' got'' hturn := by
    simp only [Turn.busy.injEq] at hturn
    obtain ⟨rfl, rfl, rfl, rfl⟩ := hturn
    have hin : place < line.wires.length := (List.getElem?_eq_some_iff.1 found).1
    exact ⟨wire', List.getElem?_set_self hin, serves⟩
  sent other hother := by
    rcases List.mem_or_eq_of_mem_set hother with hold | rfl
    · exact sound.sent other hold
    · cases serves with
      | asking sent left wanted => exact .inr ⟨number, sent, left', wanted, rfl⟩
      | answered request got coming wanted answer => exact .inl rfl

/-- A call that has read a body has read the answer to its request, and all of it. -/
theorem read (sound : IsSound options events line)
    (replies : ∀ number request bytes, .answer number request bytes ∈ events → Frame.IsReply bytes)
    {number place : Nat} {got body : List UInt8} (busy : line.turn = .busy number place [] got)
    (whole : Connection.readBody ⟨got, false⟩ = .ok (body, {})) :
    line.wires[place]? = some {} ∧
      ∃ (request : List UInt8) (s : Station) (endCode : UInt16) (data : List UInt8),
        HasRequest options line.calls number request ∧
        .answer number (request.map (number, ·)) (s.response endCode data) ∈ events ∧
        body = Bytes.ofWord endCode ++ data := by
  obtain ⟨wire, hwire, hserves⟩ := sound.busy number place [] got busy
  cases hserves with
  | asking sent left wanted =>
    -- nothing was read
    simp [Connection.readBody, Connection.take, Frame.prefixLength] at whole
  | answered request got coming wanted answer =>
    obtain ⟨rfl, s, endCode, data, rfl, rfl⟩ := (replies _ _ _ answer).of_readBody whole
    rw [List.append_nil] at answer
    exact ⟨hwire, request, s, endCode, data, wanted, answer, rfl⟩

/-- The peer takes only whole requests off. -/
theorem asked (sound : IsSound options events line) {place number : Nat} {wire : Wire}
    {start body rest : List UInt8} (found : line.wires[place]? = some wire)
    (request : Frame.next? (wire.toPeer.map Prod.snd) = some ((start, body), rest))
    (first : wire.toPeer.head?.map Prod.fst = some number) :
    HasRequest options line.calls number (start ++ body) ∧
      wire.toPeer = (start ++ body).map (number, ·) := by
  rcases sound.sent wire (List.mem_of_getElem? found) with
    hnone | ⟨number', sent, left, wanted, hsent⟩
  · simp [hnone] at first
  · rw [hsent] at request first
    obtain ⟨rfl, rfl, rfl⟩ := wanted.of_next? request first
    rw [List.append_nil] at wanted
    exact ⟨wanted, hsent⟩

/-- With a request all that was sent over its connection is taken off. -/
theorem taken (sound : IsSound options events line) {place number : Nat} {wire : Wire}
    {start body rest : List UInt8} (found : line.wires[place]? = some wire)
    (request : Frame.next? (wire.toPeer.map Prod.snd) = some ((start, body), rest))
    (first : wire.toPeer.head?.map Prod.fst = some number) :
    wire.toPeer.take (start.length + body.length) = wire.toPeer ∧
      wire.toPeer.drop (start.length + body.length) = [] := by
  obtain ⟨-, hsent⟩ := sound.asked found request first
  have hlength : start.length + body.length = wire.toPeer.length := by simp [hsent]
  exact ⟨by rw [hlength, List.take_length], by rw [hlength, List.drop_length]⟩

/-- The peer answers a request that was on a connection, in use or lost. -/
theorem answer (sound : IsSound options events line) {place number : Nat} {wire : Wire}
    {start body rest : List UInt8} (found : line.wires[place]? = some wire)
    (request : Frame.next? (wire.toPeer.map Prod.snd) = some ((start, body), rest))
    (first : wire.toPeer.head?.map Prod.fst = some number) (bytes : List UInt8) :
    IsSound options (events ++ [.answer number wire.toPeer bytes]) { line with
      wires := line.wires.set place ⟨[], wire.toClient ++ bytes.map (number, ·)⟩ } := by
  obtain ⟨wanted, hsent⟩ := sound.asked found request first
  have hin : place < line.wires.length := (List.getElem?_eq_some_iff.1 found).1
  refine ⟨?_, ?_, ?_⟩
  · intro kept hslot
    obtain ⟨hfree, hkept⟩ := sound.kept kept hslot
    -- a connection that is kept carries no request
    have hne : place ≠ kept := by
      rintro rfl
      obtain rfl := Option.some.inj (found.symm.trans hkept)
      simp at first
    exact ⟨hfree, (List.getElem?_set_ne hne).trans hkept⟩
  · intro number' place' left got hturn
    by_cases heq : place = place'
    · subst heq
      have hserves := sound.serves hturn found
      refine ⟨_, List.getElem?_set_self hin, ?_⟩
      cases hserves with
      | asking sent _ wanted' =>
        obtain ⟨rfl, rfl, rfl⟩ := wanted'.of_next? request first
        refine .answered _ [] bytes wanted ?_
        simp
      | answered _ _ coming _ _ => simp at first
    · obtain ⟨wire', hwire, hserves⟩ := sound.busy number' place' left got hturn
      exact ⟨wire', (List.getElem?_set_ne heq).trans hwire, hserves.mono List.prefix_rfl _⟩
  · intro other hother
    rcases List.mem_or_eq_of_mem_set hother with hold | rfl
    · exact sound.sent other hold
    · exact .inl rfl

/-- A step keeps what holds between any two steps. -/
theorem step (sound : IsSound options events line)
    (replies : ∀ number request bytes, .answer number request bytes ∈ events → Frame.IsReply bytes)
    (step : Step options line event line') : IsSound options (events ++ [event]) line' := by
  cases step with
  -- calls come and go, and nothing moves over a connection
  | ask call request built => exact sound.ofCalls (List.prefix_append ..) _ _
  | refuse call e refused => exact sound.ofCalls (List.prefix_append ..) _ _
  | leave number waits => exact sound.ofCalls List.prefix_rfl _ _
  -- a connection is taken that has nothing on its way, or none yet
  | reuse number place request free waits wanted kept =>
    exact sound.start rfl wanted (sound.kept place kept).2 (fun _ hwire => .inl hwire) _
  | connect number request dialing wanted =>
    have hnew : ∀ wire ∈ line.wires ++ [({} : Wire)], wire ∈ line.wires ∨ wire.toPeer = [] := by
      intro wire hwire
      rcases List.mem_append.1 hwire with hold | hadded
      · exact .inl hold
      · exact .inr (by rw [List.mem_singleton.1 hadded])
    exact sound.start (sound.slot_eq_none (by simp [dialing])) wanted List.getElem?_concat_length
      hnew _
  | dial number free waits kept => exact sound.ofTurn kept (by simp) _
  | close wire free kept => exact sound.ofTurn rfl (by simp) _
  -- the turn is over, and the connection is lost
  | decline number e dialing cause => exact sound.lose (by simp [dialing]) _
  | reject number place got e busy wrong => exact sound.lose (by simp [busy]) _
  | fail number place left got e busy cause => exact sound.lose (by simp [busy]) _
  | drop number uses =>
    apply sound.lose
    intro hfree
    simp [hfree, Turn.number?] at uses
  | closed closing => exact sound.lose (by simp [closing]) _
  -- bytes move over a connection
  | send number place wire byte left busy found =>
    have hserves := sound.serves busy found
    cases hserves with
    | asking sent _ wanted =>
      refine sound.go busy found _ ?_
      have h : Serves options line.calls (events ++ [.work]) number left []
          ⟨(sent ++ [byte]).map (number, ·), []⟩ := .asking _ left (by simpa using wanted)
      rwa [List.map_append] at h
  | read number place wire got byte more busy unread found coming =>
    have hserves := sound.serves busy found
    cases hserves with
    | asking sent _ wanted => simp at coming
    | answered request _ coming' wanted answer =>
      obtain ⟨next, rest, rfl, rfl, rfl⟩ := List.map_eq_cons_iff.1 coming
      refine sound.go busy found _ (.answered request _ rest wanted ?_)
      simpa using answer
  | finish number place call got body busy made whole =>
    have hplace := (sound.read replies busy whole).1
    refine ⟨?_, by simp, sound.sent⟩
    intro kept hkept
    obtain rfl := Option.some.inj hkept
    exact ⟨rfl, hplace⟩
  | answer place number wire start body rest bytes found request first =>
    obtain ⟨htake, hdrop⟩ := sound.taken found request first
    rw [htake, hdrop]
    exact sound.answer found request first bytes

end IsSound

end Line

end PlcGateway
