import Mathlib.Algebra.Group.Nat.Defs
import PlcGateway.Bytes.LittleEndian

/-!
# Numbers that survive in bytes

A number that fits its width comes back from its bytes (`number_little`). So words and pairs of
bytes stand for one another.
-/

namespace PlcGateway.Bytes

theorem number_lt (bytes : List UInt8) : number bytes < 256 ^ bytes.length := by
  induction bytes with
  | nil => simp [number]
  | cons b rest ih =>
    have := b.toNat_lt
    simp only [number, List.length_cons, Nat.pow_succ]
    omega

/-- A number comes back as far as its width holds it. -/
theorem number_little (width n : Nat) : number (little width n) = n % 256 ^ width := by
  induction width generalizing n with
  | zero => simp [little, number, Nat.mod_one]
  | succ width ih =>
    have h : n % 256 % 2 ^ 8 = n % 256 := Nat.mod_eq_of_lt (by omega)
    rw [little, number, ih, UInt8.toNat_ofNat', h, Nat.pow_succ', Nat.mod_mul]

/-- The two bytes of a word make up the word again. -/
theorem word_ofWord (w : UInt16) :
    ∃ low high, ofWord w = [low, high] ∧ word low high = w := by
  refine ⟨_, _, rfl, ?_⟩
  have h := number_little 2 w.toNat
  have hw := w.toNat_lt
  simp only [little] at h
  rw [word, h, Nat.mod_eq_of_lt (by simpa using hw)]
  simp

/-- A word made of two bytes has those two bytes. -/
theorem ofWord_word (low high : UInt8) : ofWord (word low high) = [low, high] := by
  have h := little_number [low, high]
  have hlt := number_lt [low, high]
  simp only [ofWord, word]
  rw [UInt16.toNat_ofNat', Nat.mod_eq_of_lt (by simpa using hlt)]
  exact h

end PlcGateway.Bytes
