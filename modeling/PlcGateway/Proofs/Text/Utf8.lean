import Mathlib.Data.List.Lex
import Mathlib.Tactic.SplitIfs
import PlcGateway.Text.Utf8

/-!
# Texts and their bytes in UTF-8

The bytes of a text are read as that text (`ofUtf8?_utf8`), so no bytes are those of two texts. A
text of ASCII characters has one byte for each (`utf8_cons_of_ascii`).

UTF-8 keeps the order of code points: the first byte of a character grows with the number of its
bytes, and among characters of one length the bytes are the digits of the code point. So texts are
ordered by their characters as their bytes are (`utf8_lt_utf8`), byte by byte and a beginning before
what it begins.
-/

namespace PlcGateway.Text

/-- The bytes of a text are read as that text. -/
theorem ofUtf8?_utf8 (s : List Char) : ofUtf8? (utf8 s) = some (String.ofList s) := by
  have hbytes : (⟨(utf8 s).toArray⟩ : ByteArray) = (String.ofList s).toByteArray := by
    rw [String.toByteArray_ofList]
    ext1
    exact List.data_toByteArray.symm
  rw [ofUtf8?, hbytes, String.fromUTF8?, dif_pos (String.ofList s).isValidUTF8]
  rfl

/-! ## ASCII -/

/-- Characters of seven bits. -/
def IsAscii (s : List Char) : Prop := ∀ c ∈ s, c.toNat < 128

instance (s : List Char) : Decidable (IsAscii s) :=
  List.decidableBAll (fun c : Char => c.toNat < 128) s

variable {s : List Char}

theorem utf8_cons_of_ascii {c : Char} (h : c.toNat < 128) (s : List Char) :
    utf8 (c :: s) = UInt8.ofNat c.toNat :: utf8 s := by
  have hchar : String.utf8EncodeChar c = [UInt8.ofNat c.toNat] := by
    unfold String.utf8EncodeChar
    exact if_pos (Nat.le_of_lt_succ h)
  rw [utf8, List.flatMap_cons, hchar]
  rfl

theorem length_utf8_of_ascii (ascii : IsAscii s) : (utf8 s).length = s.length := by
  induction s with
  | nil => rfl
  | cons c s ih =>
    obtain ⟨hc, hs⟩ := List.forall_mem_cons.1 ascii
    rw [utf8_cons_of_ascii hc, List.length_cons, List.length_cons, ih hs]

theorem utf8_replicate_nul (n : Nat) :
    utf8 (List.replicate n '\x00') = List.replicate n 0 := by
  induction n with
  | zero => rfl
  | succ n ih =>
    rw [List.replicate_succ, List.replicate_succ, utf8_cons_of_ascii (by decide), ih]
    rfl

/-! ## The order of bytes -/

open String (utf8EncodeChar)

theorem toNat_byte {n : Nat} (h : n < 256) : (UInt8.ofNat n).toNat = n :=
  UInt8.toNat_ofNat_of_lt' h

/-- Two characters are told apart by their bytes, whatever bytes follow. -/
theorem utf8EncodeChar_append_lt {c d : Char} (h : c < d) (s t : List UInt8) :
    utf8EncodeChar c ++ s < utf8EncodeChar d ++ t := by
  have hlt : c.val.toNat < d.val.toNat := h
  have hlimit : d.val.toNat < 0x110000 := by
    have := d.valid
    unfold UInt32.isValidChar Nat.isValidChar at this
    omega
  unfold utf8EncodeChar
  generalize c.val.toNat = n at *
  generalize d.val.toNat = m at *
  have hthird (k : Nat) : k / 4096 = k / 64 / 64 := (Nat.div_div_eq_div_mul k 64 64).symm
  have hfourth (k : Nat) : k / 262144 = k / 64 / 64 / 64 := by
    rw [Nat.div_div_eq_div_mul, Nat.div_div_eq_div_mul]
  -- each of the two is in one of four ranges, which decides how many bytes it has
  simp only [hthird, hfourth]
  split_ifs <;>
    simp (disch := omega) only [List.cons_append, List.nil_append, List.cons_lt_cons_iff,
      UInt8.lt_iff_toNat_lt, ← UInt8.toNat_inj, toNat_byte] <;> omega

theorem utf8_cons (c : Char) (s : List Char) : utf8 (c :: s) = utf8EncodeChar c ++ utf8 s :=
  List.flatMap_cons

/-- A text before another one has the lesser bytes. -/
theorem utf8_lt_utf8 {s t : List Char} (h : s < t) : utf8 s < utf8 t := by
  induction h with
  | @nil d t =>
    obtain ⟨b, bytes, hbytes⟩ :=
      List.exists_cons_of_ne_nil (String.utf8EncodeChar_ne_nil (c := d))
    rw [utf8_cons, hbytes]
    exact List.Lex.nil
  | @cons c s t _ ih =>
    rw [utf8_cons, utf8_cons]
    exact List.append_left_lt ih
  | @rel c s d t h =>
    rw [utf8_cons, utf8_cons]
    exact utf8EncodeChar_append_lt h (utf8 s) (utf8 t)

end PlcGateway.Text
