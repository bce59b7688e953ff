import Mathlib.Algebra.Group.Int.Defs
import Mathlib.Tactic.SplitIfs
import PlcGateway.Cbor
import PlcGateway.Proofs.Bytes.LittleEndian
import PlcGateway.Proofs.Text.Utf8

/-!
# Scalars that survive in CBOR

The head of an item says its kind and its number, and where it ends, whatever bytes follow
(`readHead?_head`). So an integer or a text is read back from the front of any bytes
(`readScalar?_bytes`), and of two scalars in front of some bytes each is the other as soon as all of
the bytes are the same (`Scalar.eq_of_append`).
-/

namespace PlcGateway.Cbor

variable {kind n : Nat} {rest rest' : List UInt8}

/-! ## Heads -/

/-- Reads the head of an item: its kind, its number and the bytes that follow. -/
def readHead? : List UInt8 → Option (Nat × Nat × List UInt8)
  | [] => none
  | first :: rest =>
    let low := first.toNat % 32
    if low < 24 then some (first.toNat / 32, low, rest)
    else
      let width := 2 ^ (low - 24)
      some (first.toNat / 32, Bytes.number (rest.take width).reverse, rest.drop width)

theorem toNat_first {low : Nat} (hkind : kind < 8) (hlow : low < 32) :
    (UInt8.ofNat (32 * kind + low)).toNat = 32 * kind + low := by
  rw [UInt8.toNat_ofNat']
  exact Nat.mod_eq_of_lt (by omega)

@[simp] theorem length_big (width n : Nat) : (big width n).length = width := by
  rw [big, List.length_reverse, Bytes.length_little]

theorem number_reverse_big {width : Nat} (hn : n < 256 ^ width) :
    Bytes.number (big width n).reverse = n := by
  rw [big, List.reverse_reverse, Bytes.number_little, Nat.mod_eq_of_lt hn]

/-- A number that stands behind the first byte is read with the width that the first byte says. -/
theorem readHead?_wide (low : Nat) (hkind : kind < 8) (hlow : 24 ≤ low ∧ low < 32)
    (hn : n < 256 ^ 2 ^ (low - 24)) (rest : List UInt8) :
    readHead? (UInt8.ofNat (32 * kind + low) :: big (2 ^ (low - 24)) n ++ rest) =
      some (kind, n, rest) := by
  have hfirst := toNat_first hkind hlow.2
  have hmod : (32 * kind + low) % 32 = low := by omega
  have hdiv : (32 * kind + low) / 32 = kind := by omega
  have hnumber := number_reverse_big hn
  have hlength := length_big (2 ^ (low - 24)) n
  rw [List.cons_append, readHead?]
  simp only [hfirst, hmod, hdiv, if_neg (Nat.not_lt.2 hlow.1)]
  rw [List.take_left' hlength, List.drop_left' hlength, hnumber]

/-- A head is read back from the front of any bytes. -/
theorem readHead?_head (kind : Nat) (hkind : kind < 8) (hn : n < 2 ^ 64) (rest : List UInt8) :
    readHead? (head kind n ++ rest) = some (kind, n, rest) := by
  unfold head
  split_ifs with h0 h1 h2 h4
  · have hfirst := toNat_first hkind (show n < 32 by omega)
    have hmod : (32 * kind + n) % 32 = n := by omega
    have hdiv : (32 * kind + n) / 32 = kind := by omega
    simp only [List.singleton_append, readHead?, hfirst, hmod, hdiv, if_pos h0]
  · exact readHead?_wide 24 hkind (by decide) h1 rest
  · exact readHead?_wide 25 hkind (by decide) h2 rest
  · exact readHead?_wide 26 hkind (by decide) h4 rest
  · exact readHead?_wide 27 hkind (by decide) hn rest

/-! ## Scalars -/

/-- An integer of 64 bits and its sign, or a text with a length of 64 bits. -/
inductive Scalar : Cbor → Prop
  | int {i : Int} (low : -2 ^ 64 ≤ i) (high : i < 2 ^ 64) : Scalar (.int i)
  | text {s : String} (short : (Text.utf8 s.toList).length < 2 ^ 64) : Scalar (.text s)

/-- Reads an integer or a text. -/
def readScalar? (s : List UInt8) : Option (Cbor × List UInt8) := do
  let (kind, n, rest) ← readHead? s
  match kind with
  | 0 => some (.int n, rest)
  | 1 => some (.int (.negSucc n), rest)
  | 3 => do
    let s ← Text.ofUtf8? (rest.take n)
    some (.text s, rest.drop n)
  | _ => none

/-- A scalar is read back from the front of any bytes. -/
theorem readScalar?_bytes {item : Cbor} (scalar : Scalar item) (rest : List UInt8) :
    readScalar? (item.bytes ++ rest) = some (item, rest) := by
  cases scalar with
  | @int i low high =>
    cases i with
    | ofNat n =>
      have hread := readHead?_head 0 (by decide) (Int.ofNat_lt.1 high) rest
      simp [readScalar?, bytes, hread]
    | negSucc n =>
      have hread := readHead?_head 1 (by decide) (show n < 2 ^ 64 by omega) rest
      simp [readScalar?, bytes, hread]
  | @text s short =>
    have hread := readHead?_head 3 (by decide) short (Text.utf8 s.toList ++ rest)
    have htext := Text.ofUtf8?_utf8 s.toList
    rw [bytes, textBytes, List.append_assoc, readScalar?, hread]
    simp [htext]

/-- Scalars in front of bytes can be told apart from the bytes alone. -/
theorem Scalar.eq_of_append {item item' : Cbor} (scalar : Scalar item) (scalar' : Scalar item')
    (h : item.bytes ++ rest = item'.bytes ++ rest') : item = item' ∧ rest = rest' := by
  have hread : some (item, rest) = some (item', rest') := by
    rw [← readScalar?_bytes scalar rest, h, readScalar?_bytes scalar' rest']
  exact Prod.mk.inj (Option.some.inj hread)

end PlcGateway.Cbor
