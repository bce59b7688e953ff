import PlcGateway.Frame.Basic

/-!
# Plans for long writes

A payload of more words than one frame may carry is cut into chunks. The payload is used from the
front while the addresses go down: the first chunk lands at the address of the payload's last
register, and each chunk lands lower by as many registers as were planned before it.
-/

namespace PlcGateway

/-- What one frame of a long write carries, and where it goes. -/
structure WriteChunk where
  address : UInt32
  registers : UInt16
  data : List UInt8
  deriving DecidableEq, Repr

namespace WritePlan

/-- How many registers hold a number of bytes. -/
def registersFor (bytes : Nat) : Nat := (bytes + 1) / 2

/-- The chunks for the last `left` registers of a payload, the first of them at address `top`. -/
def chunks (limit : Nat) (limit_pos : 0 < limit) (top left : Nat) (payload : List UInt8) :
    List WriteChunk :=
  if left = 0 then []
  else
    let registers := min limit left
    ⟨UInt32.ofNat top, UInt16.ofNat registers, payload.take (2 * registers)⟩
      :: chunks limit limit_pos (top - registers) (left - registers)
          (payload.drop (2 * registers))
termination_by left
decreasing_by omega

/-- Cuts a payload into frames of at most `limit` registers, a limit of zero counting as one. It
fails if the last register would have no 32-bit address. -/
def make (base : UInt32) (payload : List UInt8) (limit : UInt16) :
    Except FrameError (List WriteChunk) :=
  let total := registersFor payload.length
  let top := base.toNat + (total - 1)
  if UInt32.size ≤ top then .error (.addressOutOfRange base)
  else .ok (chunks (max limit.toNat 1) (by omega) top total payload)

end WritePlan

end PlcGateway
