/-!
# Little-endian numbers

All numbers of the wire format have a fixed number of bytes, the least significant first.
`little` writes them and `number` reads them; bytes come back from the number that they stand for
(`little_number`).
-/

namespace PlcGateway.Bytes

/-- The `width` lowest bytes of a number, the least significant first. -/
def little : Nat → Nat → List UInt8
  | 0, _ => []
  | width + 1, n => UInt8.ofNat (n % 256) :: little width (n / 256)

/-- The number that bytes stand for, the least significant first. -/
def number : List UInt8 → Nat
  | [] => 0
  | b :: rest => b.toNat + 256 * number rest

/-- A 16-bit word from its low and its high byte. -/
def word (low high : UInt8) : UInt16 := UInt16.ofNat (number [low, high])

/-- The low and the high byte of a 16-bit word. -/
def ofWord (w : UInt16) : List UInt8 := little 2 w.toNat

@[simp] theorem length_little (width n : Nat) : (little width n).length = width := by
  induction width generalizing n with
  | zero => rfl
  | succ width ih => simp [little, ih]

/-- Bytes come back from the number they stand for. -/
theorem little_number (bytes : List UInt8) : little bytes.length (number bytes) = bytes := by
  induction bytes with
  | nil => rfl
  | cons b rest ih =>
    have hb := b.toNat_lt
    simp only [List.length_cons, little, number]
    rw [Nat.add_mul_mod_self_left, Nat.mod_eq_of_lt hb, UInt8.ofNat_toNat,
      Nat.add_mul_div_left _ _ (by decide), Nat.div_eq_of_lt hb, Nat.zero_add, ih]

end PlcGateway.Bytes
