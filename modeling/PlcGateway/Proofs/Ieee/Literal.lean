import Mathlib.Data.List.TakeWhile
import PlcGateway.Proofs.Ieee.Decimal
import PlcGateway.Proofs.Text.Numeral

/-!
# The number that a text spells

`Spells` says which texts are decimal numbers, without reading them: digits with an optional point
and exponent, and an optional sign in front. Exactly these texts are read as finite, and each as the
number that it spells (`exists_readLiteral_iff`).
-/

namespace PlcGateway.Ieee

variable {s tail : List Char} {i : ℤ} {x : ℚ} {d : Decimal} {negative : Bool}

/-! ## Spelling -/

/-- An exponent behind its mark, or none. -/
inductive IsExponent : List Char → ℤ → Prop where
  | none : IsExponent [] 0
  | mark {c : Char} {s : List Char} {i : ℤ} (letter : c = 'e' ∨ c = 'E')
      (spelt : Text.Spells s i) : IsExponent (c :: s) i

/-- Digits with an optional point and exponent; there is a digit in front of the point or behind
it. -/
inductive IsMagnitude : List Char → ℚ → Prop where
  | whole {front tail : List Char} {n : ℕ} {i : ℤ} (number : Text.IsDecimal front n)
      (power : IsExponent tail i) : IsMagnitude (front ++ tail) (n * 10 ^ i)
  | point {front back tail : List Char} {n : ℕ} {i : ℤ} (number : Text.IsDecimal (front ++ back) n)
      (power : IsExponent tail i) :
      IsMagnitude (front ++ '.' :: (back ++ tail)) (n * 10 ^ (i - back.length))

/-- The spelling of a number, with or without a sign in front. -/
inductive Spells : List Char → ℚ → Prop where
  | plain {s : List Char} {x : ℚ} (magnitude : IsMagnitude s x) : Spells s x
  | plus {s : List Char} {x : ℚ} (magnitude : IsMagnitude s x) : Spells ('+' :: s) x
  | minus {s : List Char} {x : ℚ} (magnitude : IsMagnitude s x) : Spells ('-' :: s) (-x)

/-! ## Exponents -/

/-- Digits behind a sign are read as a natural number is. -/
theorem map_natural? (f : ℕ → ℤ) (digits : List Char) :
    (Text.natural? digits).map f = if digits.isEmpty || !digits.all Char.isDigit then none
      else some (f (ofDigits digits)) := by
  split
  · next other =>
    rw [Option.map_eq_none_iff, Option.eq_none_iff_forall_not_mem]
    intro n hn
    have number := Text.natural?_eq_some_iff.1 hn
    rw [Bool.or_eq_true, Bool.not_eq_true', List.isEmpty_iff] at other
    rcases other with hnil | hother
    · exact number.ne_nil hnil
    · rw [List.all_eq_true.2 number.isDigit] at hother
      cases hother
  · next digit =>
    rw [Bool.not_eq_true, Bool.or_eq_false_iff, Bool.not_eq_false', List.isEmpty_eq_false_iff,
      List.all_eq_true] at digit
    rw [Text.natural?_eq_some_iff.2 ⟨digit.1, digit.2, rfl⟩]
    rfl

/-- Behind the mark, there is an integer of any size. -/
theorem readExponent?_mark {c : Char} (letter : c = 'e' ∨ c = 'E') (s : List Char) :
    readExponent? (c :: s) = Text.integer? s := by
  simp only [readExponent?, if_pos letter]
  fun_cases Text.integer? s with
  | case1 rest => exact (map_natural? Int.ofNat rest).symm
  | case2 rest => exact (map_natural? (fun n : ℕ => -(n : ℤ)) rest).symm
  | case3 s hplus hminus =>
    rw [map_natural?]
    split
    · exact absurd rfl (hminus _)
    · exact absurd rfl (hplus _)
    · rfl

theorem readExponent?_eq_some_iff : readExponent? s = some i ↔ IsExponent s i := by
  constructor
  · intro h
    cases s with
    | nil =>
      obtain rfl := Option.some.inj h
      exact .none
    | cons c rest =>
      by_cases letter : c = 'e' ∨ c = 'E'
      · rw [readExponent?_mark letter] at h
        exact .mark letter (Text.integer?_eq_some_iff.1 h)
      · simp only [readExponent?, if_neg letter, reduceCtorEq] at h
  · intro h
    cases h with
    | none => rfl
    | mark letter spelt =>
      rw [readExponent?_mark letter]
      exact Text.integer?_eq_some_iff.2 spelt

/-- Neither a digit nor a point stands in front of an exponent. -/
theorem IsExponent.head? (power : IsExponent tail i) :
    ∀ c ∈ tail.head?, c.isDigit = false ∧ c ≠ '.' := by
  cases power with
  | none =>
    intro c hc
    cases hc
  | mark letter spelt =>
    intro c hc
    obtain rfl := Option.some.inj hc
    rcases letter with rfl | rfl <;> decide

/-! ## Magnitudes -/

/-- Digits up to the first character that is none. -/
theorem span_digits {front : List Char} (digits : ∀ c ∈ front, c.isDigit = true)
    (other : ∀ c ∈ tail.head?, c.isDigit = false) :
    (front ++ tail).takeWhile Char.isDigit = front ∧
      (front ++ tail).dropWhile Char.isDigit = tail := by
  have htail : tail.takeWhile Char.isDigit = [] ∧ tail.dropWhile Char.isDigit = tail := by
    cases tail with
    | nil => exact ⟨rfl, rfl⟩
    | cons c rest =>
      have hc : ¬ c.isDigit = true := by
        rw [other c rfl]
        exact Bool.false_ne_true
      exact ⟨List.takeWhile_cons_of_neg hc, List.dropWhile_cons_of_neg hc⟩
  constructor
  · rw [List.takeWhile_append_of_pos digits, htail.1, List.append_nil]
  · rw [List.dropWhile_append_of_pos digits, htail.2]

theorem exists_readDecimal? (h : IsMagnitude s x) (negative : Bool) :
    ∃ d, readDecimal? negative s = some d ∧ d.negative = negative ∧ d.magnitude = x := by
  cases h with
  | @whole front tail n i number power =>
    obtain ⟨hfront, htail⟩ := span_digits number.isDigit fun c hc => (power.head? c hc).1
    refine ⟨⟨negative, n, i⟩, ?_, rfl, rfl⟩
    unfold readDecimal?
    simp only [hfront, htail]
    split
    · exact absurd rfl (power.head? '.' rfl).2
    · simp only [List.append_nil, List.length_nil, Nat.cast_zero, sub_zero]
      rw [if_neg (by simp [number.ne_nil]), readExponent?_eq_some_iff.2 power, ofDigits,
        number.value_eq]
      rfl
  | @point front back tail n i number power =>
    have hdigit := number.isDigit
    rw [List.forall_mem_append] at hdigit
    have hother : ∀ c ∈ ('.' :: (back ++ tail)).head?, c.isDigit = false := by
      intro c hc
      obtain rfl := Option.some.inj hc
      decide
    obtain ⟨hfront, hpoint⟩ := span_digits hdigit.1 hother
    obtain ⟨hback, htail⟩ := span_digits hdigit.2 fun c hc => (power.head? c hc).1
    refine ⟨⟨negative, n, i - back.length⟩, ?_, rfl, rfl⟩
    unfold readDecimal?
    simp only [hfront, hpoint, hback, htail]
    have hne : ¬ (front.isEmpty && back.isEmpty) = true := by
      rw [Bool.and_eq_true, List.isEmpty_iff, List.isEmpty_iff]
      rintro ⟨rfl, rfl⟩
      exact number.ne_nil rfl
    rw [if_neg hne, readExponent?_eq_some_iff.2 power, ofDigits, number.value_eq]
    rfl

theorem isMagnitude_of_readDecimal? (h : readDecimal? negative s = some d) :
    d.negative = negative ∧ IsMagnitude s d.magnitude := by
  have hsplit := List.takeWhile_append_dropWhile (p := Char.isDigit) (l := s)
  have hwhole : ∀ c ∈ s.takeWhile Char.isDigit, c.isDigit = true :=
    fun c hc => List.mem_takeWhile_imp hc
  unfold readDecimal? at h
  generalize s.takeWhile Char.isDigit = front at h hsplit hwhole
  generalize s.dropWhile Char.isDigit = rest at h hsplit
  obtain rfl := hsplit
  split at h
  · next part tail hpart =>
    simp only at h
    split at h
    · cases h
    · next hne =>
      obtain ⟨i, hi, rfl⟩ := Option.map_eq_some_iff.1 h
      refine ⟨rfl, ?_⟩
      have power := readExponent?_eq_some_iff.1 hi
      have number : (∀ c ∈ part, c.isDigit = true) →
          Text.IsDecimal (front ++ part) (ofDigits (front ++ part)) := by
        intro hdigit
        refine ⟨?_, List.forall_mem_append.2 ⟨hwhole, hdigit⟩, rfl⟩
        intro hnil
        obtain ⟨rfl, rfl⟩ := List.append_eq_nil_iff.1 hnil
        exact hne rfl
      split at hpart
      · next rest =>
        obtain ⟨rfl, rfl⟩ := Prod.mk.inj hpart
        have hpoint := IsMagnitude.point (number fun c hc => List.mem_takeWhile_imp hc) power
        rw [List.takeWhile_append_dropWhile] at hpoint
        exact hpoint
      · obtain ⟨rfl, rfl⟩ := Prod.mk.inj hpart
        have hfront := IsMagnitude.whole (number (List.forall_mem_nil _)) power
        rw [List.append_nil] at hfront
        show IsMagnitude _ ((ofDigits (front ++ []) : ℕ) * 10 ^ (i - (([] : List Char).length : ℤ)))
        rw [List.append_nil, List.length_nil, Nat.cast_zero, sub_zero]
        exact hfront

/-! ## Literals -/

/-- A number begins with a digit or a point. -/
theorem IsMagnitude.exists_cons (h : IsMagnitude s x) :
    ∃ c rest, s = c :: rest ∧ c ≠ '+' ∧ c ≠ '-' := by
  have hdigit : ∀ {c : Char}, c.isDigit = true → c ≠ '+' ∧ c ≠ '-' := by
    rintro c hc
    constructor
    · rintro rfl
      exact absurd hc (by decide)
    · rintro rfl
      exact absurd hc (by decide)
  cases h with
  | whole number power =>
    obtain ⟨c, front, rfl⟩ := List.exists_cons_of_ne_nil number.ne_nil
    exact ⟨c, _, rfl, hdigit (number.isDigit c List.mem_cons_self)⟩
  | @point front back tail n i number power =>
    cases front with
    | nil => exact ⟨'.', _, rfl, by decide⟩
    | cons c front => exact ⟨c, _, rfl, hdigit (number.isDigit c List.mem_cons_self)⟩

theorem readMagnitude_eq_finite_iff :
    readMagnitude negative s = .ok (.finite d) ↔ readDecimal? negative s = some d := by
  unfold readMagnitude
  cases readDecimal? negative s with
  | some d' => rw [Except.ok.injEq, Literal.finite.injEq, Option.some.injEq]
  | none =>
    -- what is left are the names
    simp only [reduceCtorEq, iff_false]
    split
    · exact fun h => nomatch h
    · split <;> exact fun h => nomatch h

theorem exists_readMagnitude_iff : (∃ d, readMagnitude negative s = .ok (.finite d) ∧
    d.value = x) ↔ ∃ y, IsMagnitude s y ∧ x = if negative then -y else y := by
  constructor
  · rintro ⟨d, hd, rfl⟩
    obtain ⟨rfl, magnitude⟩ := isMagnitude_of_readDecimal? (readMagnitude_eq_finite_iff.1 hd)
    exact ⟨_, magnitude, rfl⟩
  · rintro ⟨y, magnitude, rfl⟩
    obtain ⟨d, hd, rfl, rfl⟩ := exists_readDecimal? magnitude negative
    exact ⟨d, readMagnitude_eq_finite_iff.2 hd, rfl⟩

theorem IsMagnitude.readLiteral_eq (h : IsMagnitude s x) :
    readLiteral s = readMagnitude false s := by
  obtain ⟨c, rest, rfl, hplus, hminus⟩ := h.exists_cons
  rw [readLiteral]
  · exact List.cons_ne_nil c rest
  · intro rest' h
    exact hplus (List.cons.inj h).1
  · intro rest' h
    exact hminus (List.cons.inj h).1

/-- A minus is kept, also in front of a zero. -/
theorem IsMagnitude.exists_readLiteral (h : IsMagnitude s x) (negative : Bool) :
    ∃ d, readLiteral ((if negative then ['-'] else []) ++ s) = .ok (.finite d) ∧
      d.negative = negative ∧ d.magnitude = x := by
  obtain ⟨d, hd, sign, magnitude⟩ := exists_readDecimal? h negative
  refine ⟨d, ?_, sign, magnitude⟩
  have hread := readMagnitude_eq_finite_iff.2 hd
  cases negative with
  | true => exact hread
  | false => exact h.readLiteral_eq.trans hread

/-- Exactly the texts that spell a number are read as finite, and as the number they spell. -/
theorem exists_readLiteral_iff :
    (∃ d, readLiteral s = .ok (.finite d) ∧ d.value = x) ↔ Spells s x := by
  constructor
  · rintro ⟨d, hd, hx⟩
    revert hd
    fun_cases readLiteral s with
    | case1 =>
      intro hd
      cases hd
    | case2 rest =>
      intro hd
      obtain ⟨y, magnitude, rfl⟩ := exists_readMagnitude_iff.1 ⟨d, hd, hx⟩
      exact .plus magnitude
    | case3 rest =>
      intro hd
      obtain ⟨y, magnitude, rfl⟩ := exists_readMagnitude_iff.1 ⟨d, hd, hx⟩
      exact .minus magnitude
    | case4 =>
      intro hd
      obtain ⟨y, magnitude, rfl⟩ := exists_readMagnitude_iff.1 ⟨d, hd, hx⟩
      exact .plain magnitude
  · intro h
    cases h with
    | plain magnitude =>
      rw [magnitude.readLiteral_eq]
      exact exists_readMagnitude_iff.2 ⟨_, magnitude, rfl⟩
    | plus magnitude => exact exists_readMagnitude_iff.2 ⟨_, magnitude, rfl⟩
    | minus magnitude => exact exists_readMagnitude_iff.2 ⟨_, magnitude, rfl⟩

/-- No text spells two numbers. -/
theorem Spells.unique {y : ℚ} (h : Spells s x) (h' : Spells s y) : x = y := by
  obtain ⟨d, hd, rfl⟩ := exists_readLiteral_iff.2 h
  obtain ⟨d', hd', rfl⟩ := exists_readLiteral_iff.2 h'
  rw [Literal.finite.inj (Except.ok.inj (hd.symm.trans hd'))]

end PlcGateway.Ieee
