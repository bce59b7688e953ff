import PlcGateway.Link.Client

/-!
# What is read of a response

A response is read exactly if what has arrived begins with its start and with as many bytes as the
start announces (`readBody_eq_ok_iff`). It can be given up for one reason only besides bytes that
are missing: nine bytes have come that do not start a response, or that announce fewer bytes than
its end code has (`of_readBody_error`).
-/

namespace PlcGateway

/-- The failure for a response that announces too few bytes for its end code. -/
def LinkError.IsMisannounced (e : LinkError) : Prop :=
  ∃ announced < 2, e = .frame (.shortResponse Frame.responseHeader (Frame.prefixLength + announced))

namespace Frame

/-- Nine bytes start a response exactly if they are marked as one and announce an end code. -/
theorem responseLength_eq_ok_iff {start : List UInt8} {length : Nat}
    (whole : start.length = prefixLength) : responseLength start = .ok length ↔
      start.take 2 = responseMark ∧ 2 ≤ announced start ∧ length = announced start := by
  rcases start with _ | ⟨first, _ | ⟨second, rest⟩⟩
  · simp [prefixLength] at whole
  · simp [prefixLength] at whole
  · have htake : (first :: second :: rest).take 2 = [first, second] := rfl
    rw [responseLength, if_neg (Nat.not_lt.2 (Nat.le_of_eq whole.symm)), htake]
    split
    · next hmark => simp [hmark]
    · next hmark =>
      have hmark : [first, second] = responseMark := Decidable.not_not.1 hmark
      split
      · next hshort => simp [Nat.not_le.2 hshort]
      · next hlong => simp [hmark, Nat.le_of_not_lt hlong, eq_comm]

theorem of_responseLength_error {start : List UInt8} {e : FrameError}
    (whole : start.length = prefixLength) (failed : responseLength start = .error e) :
    (∃ first second, e = .badSubheader first second) ∨ LinkError.IsMisannounced (.frame e) := by
  rcases start with _ | ⟨first, _ | ⟨second, rest⟩⟩
  · simp [prefixLength] at whole
  · simp [prefixLength] at whole
  · rw [responseLength, if_neg (Nat.not_lt.2 (Nat.le_of_eq whole.symm))] at failed
    split at failed
    · exact .inl ⟨first, second, (Except.error.inj failed).symm⟩
    · split at failed
      · next hshort => exact .inr ⟨_, hshort, congrArg _ (Except.error.inj failed).symm⟩
      · simp at failed

theorem of_responseData_error {body : List UInt8} {e : FrameError} (long : 2 ≤ body.length)
    (failed : responseData body = .error e) : ∃ code, e = .endCode code := by
  rcases body with _ | ⟨low, _ | ⟨high, data⟩⟩
  · simp at long
  · simp at long
  · rw [responseData] at failed
    split at failed
    · simp at failed
    · exact ⟨_, (Except.error.inj failed).symm⟩

end Frame

namespace Connection

variable {connection rest : Connection} {bytes body : List UInt8} {count : Nat} {e : LinkError}

theorem take_eq_ok_iff : connection.take count = .ok (bytes, rest) ↔
    connection.arrived = bytes ++ rest.arrived ∧ bytes.length = count ∧
      rest.closed = connection.closed := by
  obtain ⟨arrived, closed⟩ := connection
  obtain ⟨left, closed'⟩ := rest
  rw [take]
  constructor
  · intro h
    split at h
    · simp at h
    · next hmany =>
      simp only [Except.ok.injEq, Prod.mk.injEq, Connection.mk.injEq] at h
      obtain ⟨rfl, rfl, rfl⟩ := h
      exact ⟨(List.take_append_drop count arrived).symm,
        List.length_take_of_le (Nat.le_of_not_lt hmany), rfl⟩
  · rintro ⟨harrived, hlength, hclosed⟩
    simp only at harrived hclosed
    subst harrived hclosed
    have hlong : ¬ (bytes ++ left).length < count := by
      rw [List.length_append]
      omega
    rw [if_neg hlong, List.take_left' hlength, List.drop_left' hlength]

theorem take_of_lt (few : connection.arrived.length < count) :
    connection.take count = .error (if connection.closed then .broken else .timedOut) :=
  if_pos few

theorem of_take_error (failed : connection.take count = .error e) :
    e = if connection.closed then LinkError.broken else LinkError.timedOut := by
  rw [take] at failed
  split at failed
  · exact (Except.error.inj failed).symm
  · simp at failed

/-- A body is read exactly behind a start that announces it. -/
theorem readBody_eq_ok_iff : connection.readBody = .ok (body, rest) ↔
    ∃ start, connection.arrived = start ++ body ++ rest.arrived ∧
      rest.closed = connection.closed ∧ start.length = Frame.prefixLength ∧
      Frame.responseLength start = .ok body.length := by
  unfold readBody
  constructor
  · intro h
    split at h
    · simp at h
    · next start middle htake =>
      obtain ⟨harrived, hstart, hclosed⟩ := take_eq_ok_iff.1 htake
      split at h
      · simp at h
      · next length hlength =>
        obtain ⟨hmiddle, rfl, hrest⟩ := take_eq_ok_iff.1 h
        refine ⟨start, ?_, hrest.trans hclosed, hstart, hlength⟩
        rw [harrived, hmiddle, List.append_assoc]
  · rintro ⟨start, harrived, hclosed, hstart, hlength⟩
    have htake : connection.take Frame.prefixLength =
        .ok (start, ⟨body ++ rest.arrived, connection.closed⟩) :=
      take_eq_ok_iff.2 ⟨by rw [harrived, List.append_assoc], hstart, rfl⟩
    simp only [htake, hlength]
    exact take_eq_ok_iff.2 ⟨rfl, rfl, hclosed⟩

/-- What comes behind a body is not read with it. -/
theorem readBody_append {got left : List UInt8} {closed : Bool}
    (read : readBody ⟨got, closed⟩ = .ok (body, ⟨left, closed⟩)) (more : List UInt8) :
    readBody ⟨got ++ more, closed⟩ = .ok (body, ⟨left ++ more, closed⟩) := by
  obtain ⟨start, harrived, -, hstart, hlength⟩ := readBody_eq_ok_iff.1 read
  refine readBody_eq_ok_iff.2 ⟨start, ?_, rfl, hstart, hlength⟩
  simp only at harrived ⊢
  rw [harrived, List.append_assoc _ left more]

/-- No body is read if bytes are missing, or if nine bytes have come that start no response. -/
theorem of_readBody_error (failed : connection.readBody = .error e) :
    (e = if connection.closed then LinkError.broken else LinkError.timedOut) ∨
    ∃ start more e', connection.arrived = start ++ more ∧ start.length = Frame.prefixLength ∧
      Frame.responseLength start = .error e' ∧ e = .frame e' := by
  unfold readBody at failed
  split at failed
  · next htake =>
    obtain rfl := Except.error.inj failed
    exact .inl (of_take_error htake)
  · next start middle htake =>
    obtain ⟨harrived, hstart, hclosed⟩ := take_eq_ok_iff.1 htake
    split at failed
    · next e' hlength =>
      exact .inr ⟨start, _, e', harrived, hstart, hlength, (Except.error.inj failed).symm⟩
    · rw [← hclosed]
      exact .inl (of_take_error failed)

/-- Bytes that start no response do not become one by what comes behind them. -/
theorem readBody_append_of_frame {got : List UInt8} {closed : Bool} {e : FrameError}
    (failed : readBody ⟨got, closed⟩ = .error (.frame e)) (more : List UInt8) :
    readBody ⟨got ++ more, closed⟩ = .error (.frame e) := by
  rcases of_readBody_error failed with h | ⟨start, left, e', harrived, hstart, hlength, he⟩
  · split at h <;> simp at h
  · have htake : take ⟨got ++ more, closed⟩ Frame.prefixLength =
        .ok (start, ⟨left ++ more, closed⟩) := by
      refine take_eq_ok_iff.2 ⟨?_, hstart, rfl⟩
      simp only at harrived ⊢
      rw [harrived, List.append_assoc]
    simp only [readBody, htake, hlength, he]

/-- What starts no response is found out at its ninth byte. -/
theorem exists_of_readBody_frame {arrived : List UInt8} {closed : Bool} {e : FrameError}
    (failed : readBody ⟨arrived, closed⟩ = .error (.frame e)) : ∃ start more,
      arrived = start ++ more ∧ readBody ⟨start, false⟩ = .error (.frame e) ∧
      ∀ early late, start = early ++ late → late ≠ [] →
        readBody ⟨early, false⟩ = .error .timedOut := by
  rcases of_readBody_error failed with h | ⟨start, more, e', harrived, hstart, hlength, he⟩
  · split at h <;> simp at h
  · refine ⟨start, more, harrived, ?_, ?_⟩
    · have htake : take ⟨start, false⟩ Frame.prefixLength = .ok (start, ⟨[], false⟩) :=
        take_eq_ok_iff.2 ⟨(List.append_nil start).symm, hstart, rfl⟩
      simp only [readBody, htake, hlength, he]
    · intro early late hparts hlate
      have hshort : early.length < Frame.prefixLength := by
        rw [← hstart, hparts, List.length_append]
        exact Nat.lt_add_of_pos_right (List.length_pos_iff.2 hlate)
      rw [readBody, take_of_lt hshort]
      rfl

/-- Of a body that has not come whole, the rest is waited for. -/
theorem readBody_of_early {early late : List UInt8}
    (whole : readBody ⟨early ++ late, false⟩ = .ok (body, {})) (missing : late ≠ []) :
    readBody ⟨early, false⟩ = .error .timedOut := by
  rcases hearly : readBody ⟨early, false⟩ with e | ⟨body', left⟩
  · rcases of_readBody_error hearly with rfl | ⟨_, _, e', -, -, -, rfl⟩
    · rfl
    · rw [readBody_append_of_frame hearly late] at whole
      simp at whole
  · obtain ⟨-, -, hclosed, -⟩ := readBody_eq_ok_iff.1 hearly
    obtain ⟨arrived, closed⟩ := left
    obtain rfl : closed = false := hclosed
    rw [readBody_append hearly late] at whole
    simp only [Except.ok.injEq, Prod.mk.injEq, Connection.mk.injEq, List.append_eq_nil_iff] at whole
    exact absurd whole.2.1.2 missing

/-- The failures to read a body, by their kinds. -/
theorem kind_of_readBody_error (failed : connection.readBody = .error e) :
    e.isTransport = true ∨ e.IsMisannounced := by
  rcases of_readBody_error failed with rfl | ⟨start, more, e', -, hstart, hlength, rfl⟩
  · left
    split <;> rfl
  · rcases Frame.of_responseLength_error hstart hlength with ⟨first, second, rfl⟩ | hannounced
    · exact .inl rfl
    · exact .inr hannounced

theorem two_le_length_of_readBody (read : connection.readBody = .ok (body, rest)) :
    2 ≤ body.length := by
  obtain ⟨start, -, -, hstart, hlength⟩ := readBody_eq_ok_iff.1 read
  obtain ⟨-, hlong, heq⟩ := (Frame.responseLength_eq_ok_iff hstart).1 hlength
  rw [heq]
  exact hlong

end Connection

end PlcGateway
