import Mathlib.Data.List.Induction
import PlcGateway.Proofs.Text.Blank
import PlcGateway.Proofs.Text.Utf8
import PlcGateway.Register.Codec

/-!
# Characters in registers

A text is written two characters to a register, and the registers are read one by one. Every ASCII
text that fills its registers is read as it was written (`readsAs_utf8`), and NUL characters fill up
what is left. But the blanks around a text are not written, so a text comes back exactly if it
neither begins nor ends with a blank (`ascii_comes_back`).
-/

namespace PlcGateway

/-- The payloads of the registers that bytes fill, two bytes to each. -/
def Bytes.pairs : List UInt8 → List (List UInt8)
  | [] => []
  | [low] => [[low]]
  | low :: high :: rest => [low, high] :: pairs rest

namespace Text

variable {s : List Char}

theorem IsAscii.trim (ascii : IsAscii s) : IsAscii (trim s) := by
  intro c hc
  exact ascii c (mem_of_mem_trim hc)

/-- A text that is filled up with NUL characters. -/
def filled (size : Nat) (s : List Char) : List Char :=
  s ++ List.replicate (size - s.length) '\x00'

/-- NUL characters do not make up for blanks that were taken off. -/
theorem trim_eq_self_of_filled {size : Nat} (h : filled size (trim s) = filled size s) :
    trim s = s := by
  obtain ⟨front, back, hs, hfront, hback⟩ := exists_eq_trim s
  have hnul : ∀ n, (List.replicate n '\x00').countP isBlank = 0 := by
    intro n
    rw [List.countP_replicate, if_neg (by decide)]
  -- the same number of blanks on both sides
  have hcount := congrArg (List.countP isBlank) h
  rw [filled, filled, List.countP_append, List.countP_append, hnul, hnul] at hcount
  have hparts := congrArg (List.countP isBlank) hs
  rw [List.countP_append, List.countP_append, List.countP_eq_length.2 hfront,
    List.countP_eq_length.2 hback] at hparts
  obtain rfl : front = [] := List.length_eq_zero_iff.1 (by omega)
  obtain rfl : back = [] := List.length_eq_zero_iff.1 (by omega)
  rw [List.nil_append, List.append_nil] at hs
  exact hs.symm

end Text

namespace RegisterFormat

open Text (IsAscii utf8)

/-- Bytes are read, register by register, as texts that make up one text together. -/
def ReadsAs (bytes : List UInt8) (text : List Char) : Prop :=
  ∃ texts : List String, (Bytes.pairs bytes).map ascii.decode =
      texts.map (fun t => .ok (.text t)) ∧
    texts.flatMap String.toList = text

variable {s : List Char} {bytes : List UInt8} {text text' : List Char}
  {registers : UInt16}

/-- Bytes are read as no more than one text. -/
theorem ReadsAs.unique (h : ReadsAs bytes text) (h' : ReadsAs bytes text') : text = text' := by
  obtain ⟨texts, hdecode, rfl⟩ := h
  obtain ⟨texts', hdecode', rfl⟩ := h'
  have htexts : texts = texts' := by
    refine (List.map_inj_right fun t t' heq => ?_).1 (hdecode.symm.trans hdecode')
    exact RegisterValue.text.inj (Except.ok.inj heq)
  rw [htexts]

theorem decode_ascii_pair {c d : Char} (hc : c.toNat < 128) (hd : d.toNat < 128) :
    ascii.decode [UInt8.ofNat c.toNat, UInt8.ofNat d.toNat] =
      .ok (.text (String.ofList [c, d])) := by
  have hbyte : ∀ {c : Char}, c.toNat < 128 → (UInt8.ofNat c.toNat).toNat = c.toNat := by
    intro c hc
    exact UInt8.toNat_ofNat_of_lt' (Nat.lt_trans hc (by decide))
  have htext : Text.lossyText [UInt8.ofNat c.toNat, UInt8.ofNat d.toNat] = [c, d] := by
    rw [Text.lossyText_ascii (by rw [hbyte hc]; exact hc),
      Text.lossyText_ascii (by rw [hbyte hd]; exact hd), hbyte hc, hbyte hd, Char.ofNat_toNat,
      Char.ofNat_toNat]
    rfl
  show Except.ok (RegisterValue.text (String.ofList (Text.lossyText _))) = _
  rw [htext]

/-- An ASCII text that fills a whole number of registers is read as it is. -/
theorem readsAs_utf8 (ascii : IsAscii s) (even : s.length % 2 = 0) : ReadsAs (utf8 s) s := by
  induction s using List.twoStepInduction with
  | nil => exact ⟨[], rfl, rfl⟩
  | singleton c => simp at even
  | cons_cons c d s ih _ =>
    obtain ⟨hc, hrest⟩ := List.forall_mem_cons.1 ascii
    obtain ⟨hd, hs⟩ := List.forall_mem_cons.1 hrest
    have heven : s.length % 2 = 0 := by
      simp only [List.length_cons] at even
      omega
    obtain ⟨texts, hdecode, htext⟩ := ih hs heven
    refine ⟨String.ofList [c, d] :: texts, ?_, ?_⟩
    · rw [Text.utf8_cons_of_ascii hc, Text.utf8_cons_of_ascii hd, Bytes.pairs, List.map_cons,
        List.map_cons, decode_ascii_pair hc hd, hdecode]
    · rw [List.flatMap_cons, htext, String.toList_ofList]
      rfl

theorem encode_ascii (text : String) (registers : UInt16) : ascii.encode text registers =
    .ok (resize (2 * registers.toNat) (utf8 (Text.trim text.toList))) := by
  unfold encode Text.trimmed
  simp only [String.toList_ofList]

/-- A text that fits is read as it is, filled up with NUL characters. -/
theorem readsAs_resize {size : Nat} (ascii : IsAscii s) (even : size % 2 = 0)
    (fits : s.length ≤ size) : ReadsAs (resize size (utf8 s)) (Text.filled size s) := by
  have hbytes : resize size (utf8 s) = utf8 (Text.filled size s) := by
    have hlength := Text.length_utf8_of_ascii ascii
    rw [resize, List.take_of_length_le (by omega), hlength, ← Text.utf8_replicate_nul]
    exact List.flatMap_append.symm
  rw [hbytes]
  apply readsAs_utf8
  · intro c hc
    rcases List.mem_append.1 hc with hc | hc
    · exact ascii c hc
    · rw [List.eq_of_mem_replicate hc]
      decide
  · rw [Text.filled, List.length_append, List.length_replicate]
    omega

/-- An ASCII text that fits is written, and read register by register it is the text without the
blanks around it, filled up with NUL characters. So it is the text itself, filled up, exactly if the
text neither begins nor ends with a blank. -/
theorem ascii_comes_back {text : String} (ascii : IsAscii text.toList)
    (fits : text.toList.length ≤ 2 * registers.toNat) :
    ∃ bytes, RegisterFormat.ascii.encode text registers = .ok bytes ∧
      bytes.length = 2 * registers.toNat ∧
      ReadsAs bytes (Text.filled (2 * registers.toNat) (Text.trim text.toList)) ∧
      (ReadsAs bytes (Text.filled (2 * registers.toNat) text.toList) ↔
        (∀ c ∈ text.toList.head?, Text.isBlank c = false) ∧
          ∀ c ∈ text.toList.getLast?, Text.isBlank c = false) := by
  have read : ReadsAs (resize (2 * registers.toNat) (utf8 (Text.trim text.toList)))
      (Text.filled (2 * registers.toNat) (Text.trim text.toList)) := by
    apply readsAs_resize ascii.trim (Nat.mul_mod_right 2 _)
    exact Nat.le_trans (Text.length_trim_le _) fits
  refine ⟨_, encode_ascii text registers, length_resize _ _, read, ?_⟩
  rw [← Text.trim_eq_self_iff]
  constructor
  · intro whole
    exact Text.trim_eq_self_of_filled (read.unique whole)
  · intro same
    rw [same] at read ⊢
    exact read

/-- Blanks inside a text are kept. -/
theorem ascii_comes_back_inside :
    IsAscii "A BC".toList ∧ "A BC".toList.length ≤ 2 * (3 : UInt16).toNat ∧
    ascii.encode "A BC" 3 = .ok [0x41, 0x20, 0x42, 0x43, 0, 0] ∧
    ReadsAs [0x41, 0x20, 0x42, 0x43, 0, 0] ['A', ' ', 'B', 'C', '\x00', '\x00'] := by
  have ascii : IsAscii "A BC".toList := by decide
  have fits : "A BC".toList.length ≤ 2 * (3 : UInt16).toNat := by decide
  have encoded : RegisterFormat.ascii.encode "A BC" 3 = .ok [0x41, 0x20, 0x42, 0x43, 0, 0] := rfl
  obtain ⟨bytes, hbytes, -, -, whole⟩ := ascii_comes_back ascii fits
  obtain rfl := Except.ok.inj (encoded.symm.trans hbytes)
  exact ⟨ascii, fits, encoded, whole.2 (Text.trim_eq_self_iff.1 (by decide))⟩

/-- The blank in front of a letter is gone, and the letter is read where the blank should be. -/
theorem blank_in_front_lost :
    ¬ ∀ (text : String) (registers : UInt16), IsAscii text.toList →
      text.toList.length ≤ 2 * registers.toNat → ∃ bytes, ascii.encode text registers = .ok bytes ∧
        ReadsAs bytes (Text.filled (2 * registers.toNat) text.toList) := by
  intro h
  have ascii : IsAscii " A".toList := by decide
  obtain ⟨bytes, hbytes, whole⟩ := h " A" 1 ascii (by decide)
  have encoded : RegisterFormat.ascii.encode " A" 1 = .ok [0x41, 0] := rfl
  obtain rfl := Except.ok.inj (encoded.symm.trans hbytes)
  have read : ReadsAs [0x41, 0] ['A', '\x00'] := ⟨["A\x00"], rfl, rfl⟩
  exact absurd (read.unique whole) (by decide)

end RegisterFormat

end PlcGateway
