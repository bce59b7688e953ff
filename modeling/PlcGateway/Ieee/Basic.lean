/-!
# Binary floating-point numbers, exactly

A bit pattern of an interchange format stands for a `Datum`: a signed integer times a power of
two, an infinity, or no number. All arithmetic here is on natural numbers. `Format.nearest` rounds
any quotient to a format once, ties going to the even significand, with gradual underflow and
overflow to infinity; every other conversion is built on it.
-/

namespace PlcGateway.Ieee

/-- A quotient rounded to the nearest integer, a half going to the even one. -/
def roundDiv (num den : Nat) : Nat :=
  let q := num / den
  let r := num % den
  if 2 * r < den then q else if den < 2 * r then q + 1 else q + q % 2

/-- A binary interchange format: the widths of its fraction and its exponent field. -/
structure Format where
  fractionBits : Nat
  exponentBits : Nat
  deriving DecidableEq, Repr

/-- Single precision. -/
def binary32 : Format := ⟨23, 8⟩

/-- Double precision. -/
def binary64 : Format := ⟨52, 11⟩

/-- What a bit pattern stands for; a finite number is `± significand * 2 ^ exponent`. -/
inductive Datum where
  | nan
  | infinite (negative : Bool)
  | finite (negative : Bool) (significand : Nat) (exponent : Int)
  deriving DecidableEq, Repr

namespace Format

variable (f : Format)

/-- The exponent field of the numbers from one to two. -/
def bias : Nat := Nat.pow 2 (f.exponentBits - 1) - 1

/-- The exponent of the unit that the smallest numbers are counted in. -/
def leastExponent : Int := 1 - (f.bias : Int) - f.fractionBits

/-- The weight of the sign bit. -/
def signBit : Nat := Nat.pow 2 (f.fractionBits + f.exponentBits)

/-- The bit pattern of positive infinity. -/
def infinityBits : Nat := (Nat.pow 2 f.exponentBits - 1) * Nat.pow 2 f.fractionBits

/-- The bit pattern of the quiet NaN without a payload. -/
def nanBits : Nat := f.infinityBits + Nat.pow 2 (f.fractionBits - 1)

/-- A magnitude with a sign. -/
def signed (negative : Bool) (magnitude : Nat) : Nat :=
  if negative then f.signBit + magnitude else magnitude

/-- What a bit pattern stands for. -/
def datum (bits : Nat) : Datum :=
  let negative := bits / f.signBit % 2 == 1
  let exponent := bits / Nat.pow 2 f.fractionBits % Nat.pow 2 f.exponentBits
  let fraction := bits % Nat.pow 2 f.fractionBits
  if exponent = Nat.pow 2 f.exponentBits - 1 then
    if fraction = 0 then .infinite negative else .nan
  else if exponent = 0 then .finite negative fraction f.leastExponent
  else .finite negative (Nat.pow 2 f.fractionBits + fraction) (f.leastExponent + (exponent - 1))

/-- The greatest power of two not above a quotient, as its exponent. -/
def floorLog (num den : Nat) : Int :=
  let k : Int := (num.log2 : Int) - den.log2
  if den * Nat.pow 2 k.toNat ≤ num * Nat.pow 2 (-k).toNat then k else k - 1

/-- The magnitude nearest to a quotient. The significand is counted in the unit of the quotient's
binade, or in the least unit if that is larger, so a carry out of the significand moves into the
exponent field by itself. -/
def nearest (num den : Nat) : Nat :=
  if num = 0 then 0
  else
    let unit := max (floorLog num den - f.fractionBits) f.leastExponent
    let significand := roundDiv (num * Nat.pow 2 (-unit).toNat) (den * Nat.pow 2 unit.toNat)
    min ((unit - f.leastExponent).toNat * Nat.pow 2 f.fractionBits + significand) f.infinityBits

/-- The magnitude nearest to `significand * 2 ^ exponent`. -/
def scaled (significand : Nat) (exponent : Int) : Nat :=
  f.nearest (significand * Nat.pow 2 exponent.toNat) (Nat.pow 2 (-exponent).toNat)

/-- The product of a number and a positive integer, rounded. -/
def times (x : Datum) (n : Nat) : Datum :=
  match x with
  | .finite negative significand exponent =>
    f.datum (f.signed negative (f.scaled (significand * n) exponent))
  | x => x

end Format

namespace Datum

/-- The integer part of a number within `0` and `limit`: what lies below becomes zero and what
lies above the limit, and a NaN becomes zero. -/
def clamp (limit : Nat) : Datum → Nat
  | .nan => 0
  | .infinite negative => if negative then 0 else limit
  | .finite negative significand exponent =>
    if negative then 0
    else min limit (significand * Nat.pow 2 exponent.toNat / Nat.pow 2 (-exponent).toNat)

end Datum

theorem Datum.clamp_le (limit : Nat) (x : Datum) : x.clamp limit ≤ limit := by
  cases x with
  | nan => exact Nat.zero_le limit
  | infinite negative => cases negative <;> simp [clamp]
  | finite negative significand exponent =>
    cases negative
    · exact Nat.min_le_left limit _
    · exact Nat.zero_le limit

end PlcGateway.Ieee
