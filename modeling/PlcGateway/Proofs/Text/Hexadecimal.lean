import Mathlib.Data.Nat.Digits.Defs
import PlcGateway.Proofs.Text.Numeral

/-!
# Decimal and hexadecimal numerals

One plus sign may stand in front of a natural number, and `dropPlus` takes it off. What is left is
read in decimal if it is a decimal numeral (`readNat_ten_iff`), and in hexadecimal if it is a
hexadecimal one (`readNat_sixteen_iff`), as long as the number is in the range. A decimal numeral is
a hexadecimal one as well, and as such it is no smaller (`IsDecimal.exists_isHexadecimal`).
-/

namespace PlcGateway.Text

variable {radix limit acc n m : ℕ} {past : NumeralError} {s : List Char} {c : Char}

/-- A text without the plus sign that it begins with, if it does. -/
def dropPlus : List Char → List Char
  | '+' :: rest => rest
  | s => s

/-- No digit is a plus sign. -/
theorem IsDecimal.dropPlus (number : IsDecimal s n) : dropPlus s = s := by
  fun_cases Text.dropPlus s with
  | case1 rest => exact absurd (number.isDigit '+' List.mem_cons_self) (by decide)
  | case2 => rfl

/-- Behind the sign there are digits, one at least. -/
theorem readNat_iff_digits? (positive : 0 < radix) : readNat radix limit s = .ok n ↔
    (dropPlus s ≠ [] ∧ digits? radix 0 (dropPlus s) = some n) ∧ n ≤ limit := by
  have unsigned : ∀ t, readUnsigned radix limit .tooLarge t = .ok n ↔
      (t ≠ [] ∧ digits? radix 0 t = some n) ∧ n ≤ limit := by
    intro t
    unfold readUnsigned
    cases t with
    | nil => simp
    | cons c rest =>
      rw [and_iff_right (List.cons_ne_nil c rest)]
      exact readDigits_eq_ok_iff positive (Nat.zero_le limit)
  fun_cases dropPlus s with
  | case1 rest =>
    show readUnsigned radix limit .tooLarge rest = .ok n ↔ _
    exact unsigned rest
  | case2 s hplus =>
    cases s with
    | nil => simp [readNat]
    | cons c rest =>
      have hread : readNat radix limit (c :: rest) =
          readUnsigned radix limit .tooLarge (c :: rest) := by
        rw [readNat]
        · exact List.cons_ne_nil c rest
        · exact hplus
      rw [hread]
      exact unsigned (c :: rest)

/-- A text is read in decimal exactly if it is a decimal numeral behind its sign. -/
theorem readNat_ten_iff :
    readNat 10 limit s = .ok n ↔ IsDecimal (dropPlus s) n ∧ n ≤ limit := by
  rw [readNat_iff_digits? (by decide), digits?_eq_some_iff]
  constructor
  · rintro ⟨⟨hne, hdigit, hvalue⟩, hle⟩
    exact ⟨⟨hne, hdigit, hvalue⟩, hle⟩
  · rintro ⟨number, hle⟩
    exact ⟨⟨number.ne_nil, number.isDigit, number.value_eq⟩, hle⟩

/-! ## Hexadecimal digits -/

/-- The decimal digits and the letters from A to F, in either case. -/
def IsHexDigit (c : Char) : Prop :=
  c.isDigit = true ∨ ('a' ≤ c ∧ c ≤ 'f') ∨ ('A' ≤ c ∧ c ≤ 'F')

/-- What a hexadecimal digit counts. -/
def hexDigitValue (c : Char) : ℕ :=
  if c.isDigit then c.toNat - '0'.toNat
  else if 'a' ≤ c then c.toNat - 'a'.toNat + 10
  else c.toNat - 'A'.toNat + 10

theorem hexDigitValue_of_isDigit (h : c.isDigit = true) : hexDigitValue c = c.toNat - '0'.toNat :=
  if_pos h

theorem digit?_sixteen_iff {d : ℕ} :
    digit? 16 c = some d ↔ IsHexDigit c ∧ hexDigitValue c = d := by
  have hdigit : c.isDigit = true ↔ 48 ≤ c.toNat ∧ c.toNat ≤ 57 := by
    simp [Char.isDigit, UInt32.le_iff_toNat_le]
  unfold digit? IsHexDigit hexDigitValue
  simp only [hdigit, Char.le_def, UInt32.le_iff_toNat_le, Option.filter_eq_some_iff,
    decide_eq_true_eq]
  show ((if 48 ≤ c.toNat ∧ c.toNat ≤ 57 then some (c.toNat - 48)
      else if 97 ≤ c.toNat ∧ c.toNat ≤ 122 then some (c.toNat - 87)
      else if 65 ≤ c.toNat ∧ c.toNat ≤ 90 then some (c.toNat - 55) else none) = some d ∧ d < 16) ↔
    (48 ≤ c.toNat ∧ c.toNat ≤ 57 ∨ (97 ≤ c.toNat ∧ c.toNat ≤ 102) ∨
      (65 ≤ c.toNat ∧ c.toNat ≤ 70)) ∧
    (if 48 ≤ c.toNat ∧ c.toNat ≤ 57 then c.toNat - 48
      else if 97 ≤ c.toNat then c.toNat - 97 + 10 else c.toNat - 65 + 10) = d
  generalize c.toNat = k
  split
  · simp only [Option.some.injEq]
    omega
  · split
    · rw [if_pos (by omega), Option.some.injEq]
      omega
    · split
      · rw [if_neg (by omega), Option.some.injEq]
        omega
      · simp only [reduceCtorEq, false_and, false_iff]
        omega

/-- Hexadecimal digits, one at least, and the number that they are. -/
structure IsHexadecimal (s : List Char) (n : ℕ) : Prop where
  ne_nil : s ≠ []
  isHexDigit : ∀ c ∈ s, IsHexDigit c
  value_eq : Nat.ofDigits 16 (s.map hexDigitValue).reverse = n

theorem IsHexadecimal.unique (h : IsHexadecimal s n) (h' : IsHexadecimal s m) : n = m := by
  rw [← h.value_eq, h'.value_eq]

theorem digits?_sixteen_iff : digits? 16 acc s = some n ↔ (∀ c ∈ s, IsHexDigit c) ∧
    Nat.ofDigits 16 (s.map hexDigitValue).reverse + 16 ^ s.length * acc = n := by
  induction s generalizing acc with
  | nil => simp [digits?]
  | cons c rest ih =>
    rw [digits?, Option.bind_eq_some_iff, List.forall_mem_cons, List.map_cons,
      Nat.ofDigits_reverse_cons, List.length_map, List.length_cons]
    have hvalue : ∀ d, Nat.ofDigits 16 (rest.map hexDigitValue).reverse + 16 ^ rest.length * d +
        16 ^ (rest.length + 1) * acc = Nat.ofDigits 16 (rest.map hexDigitValue).reverse +
          16 ^ rest.length * (acc * 16 + d) := by
      intro d
      rw [Nat.pow_succ, Nat.mul_add, Nat.mul_assoc, Nat.mul_comm 16 acc]
      omega
    constructor
    · rintro ⟨d, hd, hrest⟩
      obtain ⟨hc, rfl⟩ := digit?_sixteen_iff.1 hd
      obtain ⟨hdigits, hn⟩ := ih.1 hrest
      exact ⟨⟨hc, hdigits⟩, (hvalue _).trans hn⟩
    · rintro ⟨⟨hc, hdigits⟩, hn⟩
      exact ⟨_, digit?_sixteen_iff.2 ⟨hc, rfl⟩, ih.2 ⟨hdigits, (hvalue _).symm.trans hn⟩⟩

/-- A text is read in hexadecimal exactly if it is a hexadecimal numeral behind its sign. -/
theorem readNat_sixteen_iff :
    readNat 16 limit s = .ok n ↔ IsHexadecimal (dropPlus s) n ∧ n ≤ limit := by
  rw [readNat_iff_digits? (by decide), digits?_sixteen_iff, Nat.mul_zero, Nat.add_zero]
  constructor
  · rintro ⟨⟨hne, hdigit, hvalue⟩, hle⟩
    exact ⟨⟨hne, hdigit, hvalue⟩, hle⟩
  · rintro ⟨number, hle⟩
    exact ⟨⟨number.ne_nil, number.isHexDigit, number.value_eq⟩, hle⟩

/-! ## One text read in both ways -/

/-- Decimal digits count the same in both. -/
theorem ofDigitChars_eq_ofDigits (digits : ∀ c ∈ s, c.isDigit = true) :
    Nat.ofDigitChars 10 s 0 = Nat.ofDigits 10 (s.map hexDigitValue).reverse := by
  induction s with
  | nil => rfl
  | cons c rest ih =>
    obtain ⟨hc, hrest⟩ := List.forall_mem_cons.1 digits
    rw [Nat.ofDigitChars_cons, Nat.ofDigitChars_eq_ofDigitChars_zero, ih hrest, List.map_cons,
      Nat.ofDigits_reverse_cons, List.length_map, hexDigitValue_of_isDigit hc, Nat.mul_zero,
      Nat.zero_add, Nat.add_comm]

/-- A decimal numeral read in hexadecimal is no smaller: its digits stay, and the base is
greater. -/
theorem IsDecimal.exists_isHexadecimal (number : IsDecimal s n) :
    ∃ m, n ≤ m ∧ IsHexadecimal s m := by
  refine ⟨_, ?_, number.ne_nil, fun c hc => .inl (number.isDigit c hc), rfl⟩
  calc n = Nat.ofDigits 10 (s.map hexDigitValue).reverse := by
        rw [← number.value_eq, ofDigitChars_eq_ofDigits number.isDigit]
    _ ≤ Nat.ofDigits 16 (s.map hexDigitValue).reverse := Nat.ofDigits_monotone _ (by decide)

end PlcGateway.Text
