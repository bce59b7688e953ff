import Mathlib.Algebra.Group.Nat.Defs
import PlcGateway.Text.Blank
import PlcGateway.Text.Numeral

/-!
# The integer that a text stands for

`readNat` and `readInt` read a text from the left and stop as soon as the number leaves its range.
Apart from the range they agree on one reading, `integer?`: an optional sign, and decimal digits,
one at least. A text is read as `n` exactly if it stands for `n` and `n` is in the range
(`readInt_eq_ok_iff`, `readNat_eq_ok_iff`), so whatever ranges two readers have, they never read
different integers in one text.

A text that stands for an integer has no blanks anywhere (`trim_of_integer?`), and the decimal text
of an integer stands for it (`integer?_decimalInt`). Which texts these are is said without reading
them by `Spells` (`integer?_eq_some_iff`). The first digits of a number are the number divided by a
power of ten (`ofDigitChars_take`, `take_decimal`), and digits of one length with one value are the
same (`eq_of_ofDigitChars_eq`).
-/

namespace PlcGateway.Text

variable {radix limit below acc n : Nat} {past : NumeralError} {s : List Char} {c : Char}

/-! ## Digits -/

/-- The number that digits stand for behind those of `acc`, however great it is. -/
def digits? (radix : Nat) : Nat → List Char → Option Nat
  | acc, [] => some acc
  | acc, c :: rest => (digit? radix c).bind fun d => digits? radix (acc * radix + d) rest

/-- Digits never make a number less. -/
theorem le_of_digits? (positive : 0 < radix) (h : digits? radix acc s = some n) : acc ≤ n := by
  induction s generalizing acc with
  | nil => exact Nat.le_of_eq (Option.some.inj h)
  | cons c rest ih =>
    obtain ⟨d, -, hrest⟩ := Option.bind_eq_some_iff.1 h
    calc acc ≤ acc * radix := Nat.le_mul_of_pos_right acc positive
      _ ≤ acc * radix + d := Nat.le_add_right _ _
      _ ≤ n := ih hrest

/-- Stopping at the limit makes no difference to what is read within it. -/
theorem readDigits_eq_ok_iff (positive : 0 < radix) (start : acc ≤ limit) :
    readDigits radix limit past acc s = .ok n ↔ digits? radix acc s = some n ∧ n ≤ limit := by
  fun_induction readDigits radix limit past acc s with
  | case1 acc =>
    constructor
    · rintro ⟨rfl⟩
      exact ⟨rfl, start⟩
    · rintro ⟨h, -⟩
      rw [Option.some.inj h]
  | case2 acc c rest hd => simp [digits?, hd]
  | case3 acc c rest d hd hle ih => rw [ih hle, digits?, hd, Option.bind_some]
  | case4 acc c rest d hd hgt =>
    constructor
    · intro h
      cases h
    · rintro ⟨h, hn⟩
      rw [digits?, hd, Option.bind_some] at h
      exact absurd (Nat.le_trans (le_of_digits? positive h) hn) hgt

theorem digits?_append (s : List Char) (c : Char) : digits? radix acc (s ++ [c]) =
    (digits? radix acc s).bind fun n => (digit? radix c).map fun d => n * radix + d := by
  induction s generalizing acc with
  | nil => cases h : digit? radix c <;> simp [digits?, h]
  | cons b rest ih =>
    cases h : digit? radix b with
    | none => simp [digits?, h]
    | some d => simp [digits?, h, ih]

/-- A digit is read as the number that it was written for, up to hexadecimal. -/
theorem digit?_digitChar (small : radix ≤ 16) (h : n < radix) :
    digit? radix (Nat.digitChar n) = some n := by
  have hall : ∀ radix < 17, ∀ n < radix, digit? radix (Nat.digitChar n) = some n := by decide
  exact hall radix (Nat.lt_succ_of_le small) n h

theorem digits?_decimal (n : Nat) : digits? 10 0 (decimal n) = some n := by
  unfold decimal
  induction n using Nat.strongRecOn with
  | ind n ih =>
    rw [Nat.toDigits_eq_if (by decide)]
    split
    · next hlt => simp [digits?, digit?_digitChar (by decide) hlt]
    · next hge =>
      rw [digits?_append, ih (n / 10) (by omega), Option.bind_some,
        digit?_digitChar (by decide) (Nat.mod_lt n (by decide)), Option.map_some]
      congr 1
      omega

/-- The digits below ten are the ASCII digits. -/
theorem toNat_of_digit? {d : Nat} (h : digit? 10 c = some d) : 48 ≤ c.toNat ∧ c.toNat ≤ 57 := by
  obtain ⟨hvalue, hlt⟩ := Option.filter_eq_some_iff.1 h
  have hd : d < 10 := by simpa using hlt
  simp only [Char.le_def, UInt32.le_iff_toNat_le] at hvalue
  change (if 48 ≤ c.toNat ∧ c.toNat ≤ 57 then some (c.toNat - 48)
    else if 97 ≤ c.toNat ∧ c.toNat ≤ 122 then some (c.toNat - 87)
    else if 65 ≤ c.toNat ∧ c.toNat ≤ 90 then some (c.toNat - 55) else none) = some d at hvalue
  split at hvalue
  · next hdigit => exact hdigit
  · split at hvalue
    · -- a letter stands for ten or more
      have := Option.some.inj hvalue
      omega
    · split at hvalue
      · have := Option.some.inj hvalue
        omega
      · cases hvalue

theorem toNat_of_digits? (h : digits? 10 acc s = some n) :
    ∀ c ∈ s, 48 ≤ c.toNat ∧ c.toNat ≤ 57 := by
  induction s generalizing acc with
  | nil => exact List.forall_mem_nil _
  | cons c rest ih =>
    obtain ⟨d, hd, hrest⟩ := Option.bind_eq_some_iff.1 h
    exact List.forall_mem_cons.2 ⟨toNat_of_digit? hd, ih hrest⟩

/-! ## Natural numbers and integers -/

/-- The natural number that a text of digits stands for. -/
def natural? (s : List Char) : Option Nat := if s.isEmpty then none else digits? 10 0 s

theorem readUnsigned_eq_ok_iff :
    readUnsigned 10 limit past s = .ok n ↔ natural? s = some n ∧ n ≤ limit := by
  unfold readUnsigned natural?
  cases s with
  | nil => simp
  | cons c rest => exact readDigits_eq_ok_iff (by decide) (Nat.zero_le limit)

theorem natural?_decimal (n : Nat) : natural? (decimal n) = some n := by
  unfold natural?
  rw [if_neg (by simp [decimal]), digits?_decimal]

theorem toNat_of_natural? (h : natural? s = some n) : ∀ c ∈ s, 48 ≤ c.toNat ∧ c.toNat ≤ 57 := by
  unfold natural? at h
  split at h
  · cases h
  · exact toNat_of_digits? h

/-- The integer that a text stands for: digits, with or without a sign in front. -/
def integer? : List Char → Option Int
  | '+' :: rest => (natural? rest).map Int.ofNat
  | '-' :: rest => (natural? rest).map fun n : Nat => -(n : Int)
  | s => (natural? s).map Int.ofNat

theorem integer?_of_natural? (h : natural? s = some n) : integer? s = some (n : Int) := by
  have hdigits := toNat_of_natural? h
  fun_cases integer? s with
  | case1 rest => exact absurd (hdigits '+' List.mem_cons_self).1 (by decide)
  | case2 rest => exact absurd (hdigits '-' List.mem_cons_self).1 (by decide)
  | case3 => simp [h]

theorem integer?_decimalInt (i : Int) : integer? (decimalInt i) = some i := by
  cases i with
  | ofNat n => exact integer?_of_natural? (natural?_decimal n)
  | negSucc n =>
    rw [decimalInt, integer?, natural?_decimal]
    rfl

theorem map_readUnsigned_eq_ok_iff {f : Nat → Int} {i : Int} :
    (readUnsigned 10 limit past s).map f = .ok i ↔ ∃ n, (natural? s = some n ∧ n ≤ limit) ∧
      f n = i := by
  have hread : ∀ n, readUnsigned 10 limit past s = .ok n ↔ natural? s = some n ∧ n ≤ limit :=
    fun n => readUnsigned_eq_ok_iff
  simp only [← hread]
  cases readUnsigned 10 limit past s with
  | error e => simp [Except.map]
  | ok n => simp [Except.map]

theorem readInt_minus (below limit : Nat) (rest : List Char) :
    readInt below limit ('-' :: rest) =
      (readUnsigned 10 below .tooSmall rest).map fun n : Nat => -(n : Int) := by
  rw [readInt]
  cases readUnsigned 10 below .tooSmall rest with
  | error e => rfl
  | ok n => rfl

/-- A text is read as an integer exactly if it stands for it and the integer is in the range. -/
theorem readInt_eq_ok_iff {i : Int} :
    readInt below limit s = .ok i ↔ integer? s = some i ∧ -(below : Int) ≤ i ∧ i ≤ limit := by
  fun_cases integer? s with
  | case1 rest =>
    rw [readInt, map_readUnsigned_eq_ok_iff, Option.map_eq_some_iff]
    grind
  | case2 rest =>
    rw [readInt_minus, map_readUnsigned_eq_ok_iff, Option.map_eq_some_iff]
    grind
  | case3 s hplus hminus =>
    cases s with
    | nil => simp [readInt, natural?]
    | cons c rest =>
      have hread : readInt below limit (c :: rest) =
          (readUnsigned 10 limit .tooLarge (c :: rest)).map Int.ofNat := by
        rw [readInt]
        · exact List.cons_ne_nil c rest
        · exact hplus
        · exact hminus
      rw [hread, map_readUnsigned_eq_ok_iff, Option.map_eq_some_iff]
      grind

theorem map_natural?_eq_some_iff :
    (natural? s).map Int.ofNat = some (n : Int) ↔ natural? s = some n := by
  cases natural? s with
  | none => simp
  | some m =>
    rw [Option.map_some, Option.some.injEq, Option.some.injEq]
    exact Int.ofNat_inj

/-- A natural number is read where the integer is, but not behind a minus. -/
theorem readNat_eq_ok_iff : readNat 10 limit s = .ok n ↔
    integer? s = some (n : Int) ∧ n ≤ limit ∧ s.head? ≠ some '-' := by
  fun_cases integer? s with
  | case1 rest =>
    rw [readNat, readUnsigned_eq_ok_iff, map_natural?_eq_some_iff]
    simp
  | case2 rest =>
    -- a minus is no digit
    have hread : ¬ readNat 10 limit ('-' :: rest) = .ok n := by
      show ¬ readUnsigned 10 limit .tooLarge ('-' :: rest) = .ok n
      rw [readUnsigned_eq_ok_iff]
      rintro ⟨h, -⟩
      exact absurd (toNat_of_natural? h '-' List.mem_cons_self).1 (by decide)
    simp [hread]
  | case3 s hplus hminus =>
    cases s with
    | nil => simp [readNat, natural?]
    | cons c rest =>
      have hread : readNat 10 limit (c :: rest) =
          readUnsigned 10 limit .tooLarge (c :: rest) := by
        rw [readNat]
        · exact List.cons_ne_nil c rest
        · exact hplus
      have hc : c ≠ '-' := by
        rintro rfl
        exact hminus rest rfl
      rw [hread, readUnsigned_eq_ok_iff, map_natural?_eq_some_iff]
      simp [hc]

theorem nonpos_of_minus {i : Int} (minus : s.head? = some '-') (h : integer? s = some i) :
    i ≤ 0 := by
  obtain ⟨rest, rfl⟩ := List.head?_eq_some_iff.1 minus
  rw [integer?] at h
  obtain ⟨n, -, rfl⟩ := Option.map_eq_some_iff.1 h
  exact Int.neg_nonpos_of_nonneg (Int.natCast_nonneg n)

/-! ## Blanks -/

theorem isBlank_of_digit (h : 48 ≤ c.toNat ∧ c.toNat ≤ 57) : isBlank c = false := by
  unfold isBlank
  simp
  omega

/-- There are no blanks in a text that stands for an integer. -/
theorem isBlank_of_integer? {i : Int} (h : integer? s = some i) : ∀ c ∈ s, isBlank c = false := by
  have digits : ∀ {t : List Char} {n : Nat}, natural? t = some n → ∀ c ∈ t, isBlank c = false :=
    fun ht c hc => isBlank_of_digit (toNat_of_natural? ht c hc)
  revert h
  fun_cases integer? s with
  | case1 rest =>
    intro h
    obtain ⟨n, hn, -⟩ := Option.map_eq_some_iff.1 h
    exact List.forall_mem_cons.2 ⟨by decide, digits hn⟩
  | case2 rest =>
    intro h
    obtain ⟨n, hn, -⟩ := Option.map_eq_some_iff.1 h
    exact List.forall_mem_cons.2 ⟨by decide, digits hn⟩
  | case3 =>
    intro h
    obtain ⟨n, hn, -⟩ := Option.map_eq_some_iff.1 h
    exact digits hn

theorem trim_of_integer? {i : Int} (h : integer? s = some i) : trim s = s := by
  have hblank := isBlank_of_integer? h
  refine trim_eq_self ?_ ?_
  · intro c hc
    exact hblank c (List.mem_of_mem_head? hc)
  · intro c hc
    exact hblank c (List.mem_of_mem_getLast? hc)

/-! ## Spelling -/

/-- The digits below ten are the ASCII digits, by their codes. -/
theorem digit?_eq_some_iff {d : Nat} :
    digit? 10 c = some d ↔ c.isDigit = true ∧ c.toNat - '0'.toNat = d := by
  have hdigit : c.isDigit = true ↔ '0' ≤ c ∧ c ≤ '9' := by
    simp [Char.isDigit, Char.le_def]
  rw [hdigit]
  constructor
  · intro h
    obtain ⟨low, high⟩ := toNat_of_digit? h
    have hc : '0' ≤ c ∧ c ≤ '9' := by
      simp only [Char.le_def, UInt32.le_iff_toNat_le]
      exact ⟨low, high⟩
    refine ⟨hc, ?_⟩
    unfold digit? at h
    rw [if_pos hc] at h
    exact Option.some.inj (Option.filter_eq_some_iff.1 h).1
  · rintro ⟨hc, rfl⟩
    unfold digit?
    rw [if_pos hc]
    have hlt : c.toNat - 48 < 10 := by
      simp only [Char.le_def, UInt32.le_iff_toNat_le] at hc
      have high : c.toNat ≤ 57 := hc.2
      omega
    exact Option.filter_eq_some_iff.2 ⟨rfl, decide_eq_true hlt⟩

theorem digits?_eq_some_iff : digits? 10 acc s = some n ↔
    (∀ c ∈ s, c.isDigit = true) ∧ Nat.ofDigitChars 10 s acc = n := by
  induction s generalizing acc with
  | nil => simp [digits?]
  | cons c rest ih =>
    rw [digits?, Option.bind_eq_some_iff, Nat.ofDigitChars_cons, List.forall_mem_cons]
    constructor
    · rintro ⟨d, hd, hrest⟩
      obtain ⟨hdigit, rfl⟩ := digit?_eq_some_iff.1 hd
      rw [ih, Nat.mul_comm] at hrest
      exact ⟨⟨hdigit, hrest.1⟩, hrest.2⟩
    · rintro ⟨⟨hdigit, hdigits⟩, hvalue⟩
      refine ⟨_, digit?_eq_some_iff.2 ⟨hdigit, rfl⟩, ih.2 ⟨hdigits, ?_⟩⟩
      rw [Nat.mul_comm]
      exact hvalue

/-- ASCII digits, one at least, and the number that they are in decimal. -/
structure IsDecimal (s : List Char) (n : Nat) : Prop where
  ne_nil : s ≠ []
  isDigit : ∀ c ∈ s, c.isDigit = true
  value_eq : Nat.ofDigitChars 10 s 0 = n

theorem isDecimal_decimal (n : Nat) : IsDecimal (decimal n) n where
  ne_nil := Nat.toDigits_ne_nil
  isDigit _ hc := Nat.isDigit_of_mem_toDigits (by decide) (by decide) hc
  value_eq := Nat.ofDigitChars_ten_toDigits

theorem lt_pow_length_decimal (n : Nat) : n < 10 ^ (decimal n).length :=
  (Nat.length_toDigits_le_iff (by decide) Nat.length_toDigits_pos).1 Nat.le.refl

theorem pow_length_decimal_le (pos : 0 < n) : 10 ^ ((decimal n).length - 1) ≤ n := by
  have hlength : 0 < (decimal n).length := Nat.length_toDigits_pos
  rcases Nat.eq_or_lt_of_le hlength with hone | hmore
  · rw [← hone]
    exact pos
  · apply Nat.le_of_not_lt
    intro hlt
    have hle := (Nat.length_toDigits_le_iff (by decide) (by omega)).2 hlt
    unfold decimal at hle hlength
    omega

/-- Digits are too few for a number with more digits. -/
theorem ofDigitChars_lt (digits : ∀ c ∈ s, c.isDigit = true) :
    Nat.ofDigitChars 10 s 0 < 10 ^ s.length := by
  induction s with
  | nil => decide
  | cons c rest ih =>
    obtain ⟨hc, hrest⟩ := List.forall_mem_cons.1 digits
    have hdigit := toNat_of_digit? (digit?_eq_some_iff.2 ⟨hc, rfl⟩)
    have hzero : '0'.toNat = 48 := rfl
    have hle : c.toNat - '0'.toNat ≤ 9 := by omega
    rw [Nat.ofDigitChars_cons, Nat.ofDigitChars_eq_ofDigitChars_zero, Nat.mul_zero, Nat.zero_add]
    calc 10 ^ rest.length * (c.toNat - '0'.toNat) + Nat.ofDigitChars 10 rest 0
        < 10 ^ rest.length * 9 + 10 ^ rest.length :=
          Nat.add_lt_add_of_le_of_lt (Nat.mul_le_mul_left _ hle) (ih hrest)
      _ = 10 ^ (c :: rest).length := by rw [List.length_cons, Nat.pow_succ]; omega

/-- The first digits stand for what is left without the last digits. -/
theorem ofDigitChars_take (digits : ∀ c ∈ s, c.isDigit = true) (k : Nat) :
    Nat.ofDigitChars 10 (s.take k) 0 = Nat.ofDigitChars 10 s 0 / 10 ^ (s.length - k) := by
  have hlast : Nat.ofDigitChars 10 (s.drop k) 0 < 10 ^ (s.length - k) := by
    rw [← List.length_drop]
    exact ofDigitChars_lt fun c hc => digits c (List.mem_of_mem_drop hc)
  have hparts : Nat.ofDigitChars 10 s 0 = 10 ^ (s.length - k) *
      Nat.ofDigitChars 10 (s.take k) 0 + Nat.ofDigitChars 10 (s.drop k) 0 := by
    conv => lhs; rw [← List.take_append_drop k s]
    rw [Nat.ofDigitChars_append, Nat.ofDigitChars_eq_ofDigitChars_zero, List.length_drop]
  rw [hparts, Nat.mul_add_div (Nat.pow_pos (by decide)), Nat.div_eq_of_lt hlast, Nat.add_zero]

/-- As many digits with the same number are the same digits. -/
theorem eq_of_ofDigitChars_eq {t : List Char} (hs : ∀ c ∈ s, c.isDigit = true)
    (ht : ∀ c ∈ t, c.isDigit = true) (hlength : s.length = t.length)
    (h : Nat.ofDigitChars 10 s 0 = Nat.ofDigitChars 10 t 0) : s = t := by
  induction s generalizing t with
  | nil => exact (List.length_eq_zero_iff.1 hlength.symm).symm
  | cons c s ih =>
    cases t with
    | nil => cases hlength
    | cons d t =>
      obtain ⟨hc, hs⟩ := List.forall_mem_cons.1 hs
      obtain ⟨hd, ht⟩ := List.forall_mem_cons.1 ht
      have hlength : s.length = t.length := Nat.succ.inj hlength
      rw [Nat.ofDigitChars_cons, Nat.ofDigitChars_eq_ofDigitChars_zero, Nat.ofDigitChars_cons,
        Nat.ofDigitChars_eq_ofDigitChars_zero (l := t), hlength, Nat.mul_zero, Nat.zero_add,
        Nat.zero_add] at h
      have hs' := ofDigitChars_lt hs
      have ht' := ofDigitChars_lt ht
      rw [hlength] at hs'
      have hpos : 0 < 10 ^ t.length := Nat.pow_pos (by decide)
      have hrest : Nat.ofDigitChars 10 s 0 = Nat.ofDigitChars 10 t 0 := by
        have hmod := congrArg (· % 10 ^ t.length) h
        simpa only [Nat.mul_add_mod, Nat.mod_eq_of_lt hs', Nat.mod_eq_of_lt ht'] using hmod
      have hfirst : c.toNat - '0'.toNat = d.toNat - '0'.toNat := by
        rw [hrest] at h
        exact Nat.eq_of_mul_eq_mul_left hpos (Nat.add_right_cancel h)
      have hcode : c.toNat = d.toNat := by
        have hzero : '0'.toNat = 48 := rfl
        have hc' := toNat_of_digit? (digit?_eq_some_iff.2 ⟨hc, rfl⟩)
        have hd' := toNat_of_digit? (digit?_eq_some_iff.2 ⟨hd, rfl⟩)
        omega
      rw [Char.toNat_inj.1 hcode, ih hs ht hlength hrest]

/-- The first digits of a number are those of what is left without the last ones. -/
theorem take_decimal {k : Nat} (pos : 0 < k) (n : Nat) :
    (decimal n).take k = decimal (n / 10 ^ ((decimal n).length - k)) := by
  unfold decimal
  induction n using Nat.strongRecOn with
  | ind n ih =>
    rw [Nat.toDigits_eq_if (by decide)]
    split
    · next hlt =>
      have hzero : 1 - k = 0 := by omega
      rw [List.length_singleton, hzero, Nat.pow_zero, Nat.div_one, List.take_of_length_le pos,
        Nat.toDigits_of_lt_base hlt]
    · next hge =>
      rw [List.length_append, List.length_singleton]
      rcases Nat.lt_or_ge (Nat.toDigits 10 (n / 10)).length k with hgt | hle
      · have hzero : (Nat.toDigits 10 (n / 10)).length + 1 - k = 0 := by omega
        rw [hzero, Nat.pow_zero, Nat.div_one, List.take_of_length_le]
        · rw [← Nat.toDigits_of_base_le (by decide) (Nat.le_of_not_lt hge)]
        · rw [List.length_append, List.length_singleton]
          exact hgt
      · rw [List.take_append_of_le_length hle, ih (n / 10) (by omega), Nat.div_div_eq_div_mul,
          ← Nat.pow_succ', Nat.succ_sub hle]

theorem natural?_eq_some_iff : natural? s = some n ↔ IsDecimal s n := by
  unfold natural?
  split
  · next hnil =>
    rw [List.isEmpty_iff] at hnil
    simp only [reduceCtorEq, false_iff]
    exact fun h => h.ne_nil hnil
  · next hne =>
    rw [List.isEmpty_iff] at hne
    rw [digits?_eq_some_iff]
    exact ⟨fun h => ⟨hne, h.1, h.2⟩, fun h => ⟨h.isDigit, h.value_eq⟩⟩

/-- The spelling of an integer: digits, with or without a sign in front. -/
inductive Spells : List Char → Int → Prop where
  | digits {s : List Char} {n : Nat} (number : IsDecimal s n) : Spells s n
  | plus {s : List Char} {n : Nat} (number : IsDecimal s n) : Spells ('+' :: s) n
  | minus {s : List Char} {n : Nat} (number : IsDecimal s n) : Spells ('-' :: s) (-n)

theorem integer?_eq_some_iff {i : Int} : integer? s = some i ↔ Spells s i := by
  constructor
  · fun_cases integer? s with
    | case1 rest =>
      intro h
      obtain ⟨n, hn, rfl⟩ := Option.map_eq_some_iff.1 h
      exact .plus (natural?_eq_some_iff.1 hn)
    | case2 rest =>
      intro h
      obtain ⟨n, hn, rfl⟩ := Option.map_eq_some_iff.1 h
      exact .minus (natural?_eq_some_iff.1 hn)
    | case3 =>
      intro h
      obtain ⟨n, hn, rfl⟩ := Option.map_eq_some_iff.1 h
      exact .digits (natural?_eq_some_iff.1 hn)
  · intro h
    cases h with
    | digits number => exact integer?_of_natural? (natural?_eq_some_iff.2 number)
    | plus number => rw [integer?, natural?_eq_some_iff.2 number]; rfl
    | minus number => rw [integer?, natural?_eq_some_iff.2 number]; rfl

end PlcGateway.Text
