import PlcGateway.Ieee.Basic

/-!
# Scaling by powers of ten in steps

Some texts are read by rounding their digits to a number first and multiplying or dividing it by a
rounded power of ten then. `powerOfTen`, `product` and `quotient` are the rounded operations on
magnitudes, and `decimalShift` is the whole rule: a factor beyond `10 ^ 308` is divided by in
several steps, and multiplying past the greatest finite number fails.
-/

namespace PlcGateway.Ieee.Format

variable (f : Format)

/-- The significand and the exponent of a finite magnitude. -/
def parts (magnitude : Nat) : Nat × Int :=
  match f.datum magnitude with
  | .finite _ significand exponent => (significand, exponent)
  | _ => (0, 0)

/-- The magnitude nearest to a power of ten. -/
def powerOfTen (n : Nat) : Nat := f.nearest (Nat.pow 10 n) 1

/-- The product of two finite magnitudes, rounded. -/
def product (x y : Nat) : Nat :=
  let (s, e) := f.parts x
  let (t, g) := f.parts y
  f.scaled (s * t) (e + g)

/-- The quotient of two finite magnitudes, rounded. -/
def quotient (x y : Nat) : Nat :=
  let (s, e) := f.parts x
  let (t, g) := f.parts y
  f.nearest (s * Nat.pow 2 (e - g).toNat) (t * Nat.pow 2 (g - e).toNat)

/-- The largest power of ten that is formed in one step. -/
def greatestPower : Nat := 308

/-- A magnitude divided by a power of ten. -/
def shiftDown (x n : Nat) : Nat :=
  if n ≤ greatestPower then f.quotient x (f.powerOfTen n)
  else if x = 0 then 0
  else shiftDown (f.quotient x (f.powerOfTen greatestPower)) (n - greatestPower)
termination_by n
decreasing_by simp only [greatestPower] at *; omega

/-- A magnitude multiplied by a power of ten, if the product is finite. -/
def shiftUp? (x n : Nat) : Option Nat :=
  if x = 0 then some 0
  else if greatestPower < n then none
  else
    let y := f.product x (f.powerOfTen n)
    if f.infinityBits ≤ y then none else some y

/-- A natural number rounded to a magnitude, times a power of ten, rounded again. -/
def decimalShift? (significand : Nat) (exponent : Int) : Option Nat :=
  let x := f.nearest significand 1
  if 0 ≤ exponent then f.shiftUp? x exponent.toNat else some (f.shiftDown x (-exponent).toNat)

end PlcGateway.Ieee.Format
