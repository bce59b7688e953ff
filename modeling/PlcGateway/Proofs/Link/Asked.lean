import Mathlib.Data.List.Nodup
import Mathlib.Data.List.Perm.Subperm
import PlcGateway.Proofs.Link.Line

/-!
# Every call asks once

A call that waits or has its turn is lined up once, and when its turn is over it never comes back
(`IsLinedUp.step`). In its turn it sends its request over one connection, and the peer takes it off
once. So no call is answered twice (`IsOnce.step`).
-/

namespace PlcGateway

/-- The call whose request the peer answers. -/
def LineEvent.answered? : LineEvent → Option Nat
  | .answer number .. => some number
  | _ => none

/-- The call of which a request, or its beginning, is on a connection. -/
def Wire.asking? (wire : Wire) : Option Nat := wire.toPeer.head?.map Prod.fst

namespace Line

variable {options : ClientOptions} {line line' : Line} {events : List LineEvent} {event : LineEvent}

/-- The calls that wait or have their turn. -/
def pending (line : Line) : List Nat := line.turn.number?.toList ++ line.waiting

/-- The calls that have sent a part of their request, with the answered ones. -/
def asked (events : List LineEvent) (line : Line) : List Nat :=
  events.filterMap LineEvent.answered? ++ line.wires.filterMap Wire.asking?

/-- A call that is new waits for its turn; besides it no call waits or has its turn that did not
before. -/
theorem pending_step (step : Step options line event line') :
    (line'.pending.Subperm line.pending ∧ line.calls.length ≤ line'.calls.length) ∨
    (line'.pending.Perm (line.calls.length :: line.pending) ∧
      line'.calls.length = line.calls.length + 1) := by
  cases step with
  | ask call request built => exact .inr ⟨List.perm_middle, by simp⟩
  | refuse call e refused => exact .inl ⟨List.Subperm.refl _, by simp⟩
  | reuse number wire request free waits wanted kept =>
    have h := (List.perm_cons_erase waits).symm.subperm
    exact .inl ⟨by simpa [pending, free, Turn.number?] using h, Nat.le_refl _⟩
  | dial number free waits kept =>
    have h := (List.perm_cons_erase waits).symm.subperm
    exact .inl ⟨by simpa [pending, free, Turn.number?] using h, Nat.le_refl _⟩
  | connect number request dialing wanted =>
    exact .inl ⟨by simp [pending, dialing, Turn.number?, List.Subperm.refl], Nat.le_refl _⟩
  | send number place wire byte left busy found =>
    exact .inl ⟨by simp [pending, busy, Turn.number?, List.Subperm.refl], Nat.le_refl _⟩
  | read number place wire got byte more busy unread found coming =>
    exact .inl ⟨by simp [pending, busy, Turn.number?, List.Subperm.refl], Nat.le_refl _⟩
  | leave number waits => exact .inl ⟨(List.erase_sublist.append_left _).subperm, Nat.le_refl _⟩
  | answer place number wire start body rest bytes found request first =>
    exact .inl ⟨List.Subperm.refl _, Nat.le_refl _⟩
  | _ =>
    -- the turn is over
    exact .inl ⟨(List.sublist_append_right _ _).subperm, Nat.le_refl _⟩

/-- Every call is lined up once. -/
structure IsLinedUp (line : Line) : Prop where
  nodup : line.pending.Nodup
  made : ∀ number ∈ line.pending, number < line.calls.length

theorem IsLinedUp.step (linedUp : line.IsLinedUp) (step : Step options line event line') :
    line'.IsLinedUp := by
  rcases pending_step step with ⟨hpending, hcalls⟩ | ⟨hpending, hcalls⟩
  · constructor
    · obtain ⟨same, hperm, hsublist⟩ := hpending
      exact hperm.nodup_iff.1 (linedUp.nodup.sublist hsublist)
    · intro number hnumber
      exact Nat.lt_of_lt_of_le (linedUp.made number (hpending.subset hnumber)) hcalls
  · constructor
    · have hnew : line.calls.length ∉ line.pending := by
        intro h
        exact Nat.lt_irrefl _ (linedUp.made _ h)
      exact hpending.nodup_iff.2 (List.nodup_cons.2 ⟨hnew, linedUp.nodup⟩)
    · intro number hnumber
      rw [hcalls]
      rcases List.mem_cons.1 (hpending.subset hnumber) with rfl | hold
      · exact Nat.lt_succ_self _
      · exact Nat.lt_succ_of_lt (linedUp.made number hold)

/-! ## Requests that have begun -/

/-- What is left of a request after a byte was sent is not all of it. -/
theorem HasRequest.not_of_sent {calls : List LinkCall} {number : Nat} {byte : UInt8}
    {sent left : List UInt8} (wanted : HasRequest options calls number (sent ++ byte :: left)) :
    ¬ HasRequest options calls number left := by
  intro hleft
  have hlength := congrArg List.length (wanted.unique hleft)
  simp only [List.length_append, List.length_cons] at hlength
  omega

/-- A call has sent a part of its request: it is over, or it has its turn and has not all of its
request left to be sent. -/
def HasBegun (options : ClientOptions) (line : Line) (number : Nat) : Prop :=
  number < line.calls.length ∧ (number ∈ line.pending → ∃ place left got,
    line.turn = .busy number place left got ∧ ¬ HasRequest options line.calls number left)

theorem HasBegun.step {number : Nat} (begun : HasBegun options line number)
    (sound : IsSound options events line) (linedUp : line.IsLinedUp)
    (step : Step options line event line') : HasBegun options line' number := by
  obtain ⟨hmade, hbegun⟩ := begun
  have hgrow : line.calls.length ≤ line'.calls.length := by
    rcases pending_step step with ⟨-, h⟩ | ⟨-, h⟩ <;> omega
  refine ⟨Nat.lt_of_lt_of_le hmade hgrow, ?_⟩
  intro hpending
  have hold : number ∈ line.pending := by
    rcases pending_step step with ⟨h, -⟩ | ⟨h, -⟩
    · exact h.subset hpending
    · rcases List.mem_cons.1 (h.subset hpending) with rfl | hold
      · exact absurd hmade (Nat.lt_irrefl _)
      · exact hold
  obtain ⟨place, left, got, hturn, hleft⟩ := hbegun hold
  have hover : number ∉ line.waiting := by
    have h := linedUp.nodup
    rw [pending, hturn] at h
    exact (List.nodup_cons.1 h).1
  cases step with
  | ask | refuse =>
    refine ⟨place, left, got, hturn, ?_⟩
    rwa [HasRequest.prefix_iff (List.prefix_append ..) hmade]
  | leave | answer => exact ⟨place, left, got, hturn, hleft⟩
  -- a call has its turn already, so no other one gets it
  | reuse _ _ _ free | dial _ free | close _ free => simp [free] at hturn
  | connect _ _ dialing | decline _ _ dialing => simp [dialing] at hturn
  | closed closing => simp [closing] at hturn
  | send number' place' wire byte left' busy found =>
    obtain ⟨rfl, -⟩ := Turn.busy.inj (busy.symm.trans hturn)
    have hserves := sound.serves busy found
    cases hserves with
    | asking sent _ wanted => exact ⟨_, _, _, rfl, wanted.not_of_sent⟩
  | read number' place' wire got' byte more busy unread found coming =>
    obtain ⟨rfl, rfl, rfl, rfl⟩ := Turn.busy.inj (busy.symm.trans hturn)
    exact ⟨_, _, _, rfl, hleft⟩
  | _ =>
    -- the turn of the call is over
    exact absurd hpending hover

/-- What is found in a list of which one element is replaced. -/
theorem perm_filterMap_set {α β : Type} (f : α → Option β) {items : List α} {place : Nat}
    {item : α} (found : items[place]? = some item) : ∃ rest,
      (items.filterMap f).Perm ((f item).toList ++ rest) ∧
      ∀ item', ((items.set place item').filterMap f).Perm ((f item').toList ++ rest) := by
  obtain ⟨hin, rfl⟩ := List.getElem?_eq_some_iff.1 found
  have hfront : ∀ (front : List α) (item : α) (back : List α),
      ((front ++ item :: back).filterMap f).Perm
        ((f item).toList ++ (front.filterMap f ++ back.filterMap f)) := by
    intro front item back
    rw [List.filterMap_append, List.filterMap_cons]
    cases f item with
    | none => exact .refl _
    | some b => exact List.perm_middle
  refine ⟨(items.take place).filterMap f ++ (items.drop (place + 1)).filterMap f, ?_, ?_⟩
  · have h := hfront (items.take place) items[place] (items.drop (place + 1))
    rwa [← List.drop_eq_getElem_cons hin, List.take_append_drop] at h
  · intro item'
    rw [List.set_eq_take_append_cons_drop, if_pos hin]
    exact hfront _ _ _

/-- No request is sent or answered again. -/
structure IsOnce (options : ClientOptions) (events : List LineEvent) (line : Line) : Prop where
  linedUp : line.IsLinedUp
  nodup : (asked events line).Nodup
  begun : ∀ number ∈ asked events line, HasBegun options line number

theorem asked_concat (quiet : event.answered? = none) :
    asked (events ++ [event]) line = asked events line := by
  simp [asked, List.filterMap_append, quiet]

/-- Requests on their way and answered ones stay as they are, but for one call at most that has sent
nothing so far and sends the first byte of its request. -/
theorem perm_asked_step (sound : IsSound options events line)
    (step : Step options line event line') :
    (asked (events ++ [event]) line').Perm (asked events line) ∨
    ∃ number, (asked (events ++ [event]) line').Perm (number :: asked events line) ∧
      ¬ HasBegun options line number ∧ HasBegun options line' number := by
  cases step with
  | connect number request dialing wanted =>
    have hnew : (line.wires ++ [({} : Wire)]).filterMap Wire.asking? =
        line.wires.filterMap Wire.asking? := by
      simp [List.filterMap_append, Wire.asking?]
    rw [asked_concat rfl, asked, hnew]
    exact .inl (.refl _)
  | send number place wire byte left busy found =>
    rw [asked_concat rfl]
    obtain ⟨rest, hold, hset⟩ := perm_filterMap_set Wire.asking? found
    have hserves := sound.serves busy found
    cases hserves with
    | asking sent _ wanted =>
      cases sent with
      | nil =>
        -- the first byte of the request
        refine .inr ⟨number, ?_, ?_, wanted.lt_length, ?_⟩
        · refine .trans (.append_left _ (hset _)) (.trans List.perm_middle ?_)
          exact .cons _ (.append_left _ hold.symm)
        · rintro ⟨-, h⟩
          obtain ⟨_, _, _, hturn, hleft⟩ := h (by simp [pending, busy, Turn.number?])
          obtain ⟨-, -, rfl, -⟩ := Turn.busy.inj (busy.symm.trans hturn)
          exact hleft wanted
        · intro _
          exact ⟨_, _, _, rfl, wanted.not_of_sent⟩
      | cons first sent => exact .inl (.append_left _ (.trans (hset _) hold.symm))
  | read number place wire got byte more busy unread found coming =>
    rw [asked_concat rfl]
    obtain ⟨rest, hold, hset⟩ := perm_filterMap_set Wire.asking? found
    exact .inl (.append_left _ (.trans (hset _) hold.symm))
  | answer place number wire start body rest bytes found request first =>
    obtain ⟨others, hold, hset⟩ := perm_filterMap_set Wire.asking? found
    rw [(sound.taken found request first).2, asked, List.filterMap_append, List.append_assoc]
    have hasking : wire.asking? = some number := first
    rw [hasking] at hold
    -- the number leaves the connection and joins those that are answered
    exact .inl (.append_left _ (.trans (.cons number (hset _)) hold.symm))
  | _ => exact .inl (.of_eq (asked_concat rfl))

theorem IsOnce.init : IsOnce options [] {} where
  linedUp := ⟨List.nodup_nil, by simp [pending, Turn.number?]⟩
  nodup := List.nodup_nil
  begun := by simp [asked]

theorem IsOnce.step (once : IsOnce options events line) (sound : IsSound options events line)
    (step : Step options line event line') : IsOnce options (events ++ [event]) line' := by
  have hbegun : ∀ number ∈ asked events line, HasBegun options line' number := by
    intro number hnumber
    exact (once.begun number hnumber).step sound once.linedUp step
  have hlinedUp := once.linedUp.step step
  rcases perm_asked_step sound step with hsame | ⟨number, hmore, hnot, hnew⟩
  · refine ⟨hlinedUp, hsame.nodup_iff.2 once.nodup, ?_⟩
    intro n hn
    exact hbegun n (hsame.subset hn)
  · have hfresh : number ∉ asked events line := by
      intro h
      exact hnot (once.begun number h)
    refine ⟨hlinedUp, hmore.nodup_iff.2 (List.nodup_cons.2 ⟨hfresh, once.nodup⟩), ?_⟩
    · intro n hn
      rcases List.mem_cons.1 (hmore.subset hn) with rfl | hold
      · exact hnew
      · exact hbegun n hold

end Line

end PlcGateway
