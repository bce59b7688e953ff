import Mathlib.Algebra.Group.Int.Defs
import Mathlib.Algebra.Group.Nat.Defs
import Mathlib.Tactic.SplitIfs
import PlcGateway.Json.Basic
import PlcGateway.Json.Reader
import PlcGateway.Proofs.Text.Numeral

/-!
# JSON text that was written is read

The text of a value is read as that value (`parse?_text`), if the value is plain: it has no doubles,
its integers have 64 bits, and it is nested no deeper than the reader goes. Nothing is asked of the
strings in it, which may hold any characters.

The reader takes a bound on its steps. Two steps for each character are enough: of two steps in a
row one takes a character off the text, and a string needs one step for each of its characters and
one for its end.
-/

namespace PlcGateway.Json

variable {steps depth : Nat} {rest : List Char}

/-! ## Strings -/

/-- A piece of a quoted text that stands for a character, whatever pieces follow it. -/
def Stands (piece : Text.Piece) (c : Char) : Prop :=
  ∀ code pieces, Text.join? code (piece :: pieces) = (Text.join? code pieces).map (c :: ·)

theorem stands_char (c : Char) : Stands (.char c) c := fun _ _ => rfl

/-- A code unit that is no surrogate stands for the character of that code. -/
theorem stands_unit {c : Char} (low : c.toNat < 0x20) : Stands (.unit c.toNat) c := by
  intro code pieces
  have htrailing : Text.isTrailing c.toNat = false := by
    simp only [Text.isTrailing, Bool.and_eq_false_iff, decide_eq_false_iff_not]
    omega
  have hleading : Text.isLeading c.toNat = false := by
    simp only [Text.isLeading, Bool.and_eq_false_iff, decide_eq_false_iff_not]
    omega
  rw [Text.join?.eq_def]
  simp [htrailing, hleading]

/-- Four hexadecimal digits, of which the first two are zeros, are read as the byte that they are. -/
theorem hexDigits?_byte {n : Nat} (h : n < 256) (rest : List Char) :
    Text.hexDigits? 4 ('0' :: '0' :: Nat.digitChar (n / 16) :: Nat.digitChar (n % 16) :: rest) =
      some (n, rest) := by
  have hhigh := Text.digit?_digitChar (Nat.le_refl 16) (show n / 16 < 16 by omega)
  have hlow := Text.digit?_digitChar (Nat.le_refl 16) (show n % 16 < 16 by omega)
  have hzero : Text.digit? 16 '0' = some 0 := by decide
  have hvalue : 16 * (n / 16) + n % 16 = n := Nat.div_add_mod n 16
  simp [Text.hexDigits?, hhigh, hlow, hzero, hvalue]

theorem readPieces?_letter {e c : Char} (h : escaped? e = some c) (steps : Nat)
    (rest : List Char) : readPieces? (steps + 1) ('\\' :: e :: rest) =
      (readPieces? steps rest).bind fun read => some (.char c :: read.1, read.2) := by
  -- a letter that stands for a character does not begin the number of a code unit
  have unicode : e ≠ 'u' := by
    rintro rfl
    cases h
  rw [readPieces?.eq_def]
  simp [h]

/-- A character of a string is written so that one step of the reader finds it. -/
theorem exists_piece_of_escape (c : Char) :
    ∃ piece, Stands piece c ∧ ∀ steps rest, readPieces? (steps + 1) (escape c ++ rest) =
      (readPieces? steps rest).bind fun read => some (piece :: read.1, read.2) := by
  have hchar : ∀ {n : Nat}, c.toNat = n → c = Char.ofNat n := by
    rintro n rfl
    exact (Char.ofNat_toNat c).symm
  unfold escape
  split_ifs with hquote hslash hb ht hn hf hr hcontrol
  · exact ⟨_, stands_char c, readPieces?_letter (by rw [hquote]; rfl)⟩
  · exact ⟨_, stands_char c, readPieces?_letter (by rw [hslash]; rfl)⟩
  · exact ⟨_, stands_char c, readPieces?_letter (by rw [hchar hb]; rfl)⟩
  · exact ⟨_, stands_char c, readPieces?_letter (by rw [hchar ht]; rfl)⟩
  · exact ⟨_, stands_char c, readPieces?_letter (by rw [hchar hn]; rfl)⟩
  · exact ⟨_, stands_char c, readPieces?_letter (by rw [hchar hf]; rfl)⟩
  · exact ⟨_, stands_char c, readPieces?_letter (by rw [hchar hr]; rfl)⟩
  · refine ⟨_, stands_unit hcontrol, fun steps rest => ?_⟩
    have hdigits := hexDigits?_byte (show c.toNat < 256 by omega) rest
    rw [readPieces?.eq_def]
    simp [hdigits]
  · refine ⟨_, stands_char c, fun steps rest => ?_⟩
    rw [readPieces?.eq_def]
    simp [hquote, hslash, hcontrol]

theorem exists_pieces (chars rest : List Char) (enough : chars.length < steps) :
    ∃ pieces, readPieces? steps (chars.flatMap escape ++ '"' :: rest) = some (pieces, rest) ∧
      ∀ code, Text.join? code pieces = some chars := by
  induction chars generalizing steps with
  | nil =>
    obtain ⟨steps, rfl⟩ := Nat.exists_eq_succ_of_ne_zero (Nat.ne_of_gt enough)
    exact ⟨[], by simp [readPieces?], fun code => rfl⟩
  | cons c chars ih =>
    rw [List.length_cons] at enough
    obtain ⟨steps, rfl⟩ := Nat.exists_eq_succ_of_ne_zero (Nat.ne_of_gt (Nat.zero_lt_of_lt enough))
    obtain ⟨pieces, hread, hjoin⟩ := ih (Nat.lt_of_succ_lt_succ enough)
    obtain ⟨piece, hstands, hstep⟩ := exists_piece_of_escape c
    refine ⟨piece :: pieces, ?_, fun code => ?_⟩
    · rw [List.flatMap_cons, List.append_assoc, hstep, hread]
      rfl
    · rw [hstands, hjoin]
      rfl

/-- A string is read behind its opening quote. -/
theorem readString?_flatMap_escape {s : String} (rest : List Char)
    (enough : s.toList.length < steps) :
    readString? steps (s.toList.flatMap escape ++ '"' :: rest) = some (s, rest) := by
  obtain ⟨pieces, hread, hjoin⟩ := exists_pieces s.toList rest enough
  simp [readString?, hread, hjoin]

theorem length_le_flatMap_escape (chars : List Char) :
    chars.length ≤ (chars.flatMap escape).length := by
  induction chars with
  | nil => exact Nat.le_refl 0
  | cons c chars ih =>
    have hc : 0 < (escape c).length := by
      unfold escape
      split_ifs <;> exact Nat.succ_pos _
    rw [List.flatMap_cons, List.length_append, List.length_cons]
    omega

theorem length_lt_quoted (s : String) : s.toList.length + 2 ≤ (quoted s).length := by
  have h := length_le_flatMap_escape s.toList
  rw [quoted, List.length_append, List.length_cons, List.length_singleton]
  omega

/-! ## Integers -/

/-- What may follow a number: it does not go on with a digit, a point or an exponent. -/
def Stops (rest : List Char) : Prop :=
  ∀ c ∈ rest.head?, c.isDigit = false ∧ c ≠ '.' ∧ c ≠ 'e' ∧ c ≠ 'E'

theorem stops_nil : Stops [] := by
  intro c hc
  cases hc

theorem stops_cons {c : Char} (digit : c.isDigit = false) (point : c ≠ '.') (small : c ≠ 'e')
    (capital : c ≠ 'E') (rest : List Char) : Stops (c :: rest) := by
  intro d hd
  obtain rfl := Option.some.inj hd
  exact ⟨digit, point, small, capital⟩

theorem isDigit_of_mem_decimal {n : Nat} {c : Char} (h : c ∈ Text.decimal n) : c.isDigit = true :=
  Nat.isDigit_of_mem_toDigits (by decide) (by decide) h

theorem exists_decimal_eq_cons (n : Nat) :
    ∃ c digits, Text.decimal n = c :: digits ∧ c.isDigit = true := by
  obtain ⟨c, digits, hdigits⟩ := List.exists_cons_of_ne_nil (Nat.toDigits_ne_nil (n := n) (b := 10))
  refine ⟨c, digits, hdigits, isDigit_of_mem_decimal (n := n) ?_⟩
  rw [Text.decimal, hdigits]
  exact List.mem_cons_self

/-- Digits up to something else are taken off whole. -/
theorem takeWhile_decimal (n : Nat) (stops : Stops rest) :
    (Text.decimal n ++ rest).takeWhile Char.isDigit = Text.decimal n ∧
      (Text.decimal n ++ rest).dropWhile Char.isDigit = rest := by
  have hdigits : ∀ c ∈ Text.decimal n, c.isDigit = true := fun c hc => isDigit_of_mem_decimal hc
  have hnone : rest.takeWhile Char.isDigit = [] ∧ rest.dropWhile Char.isDigit = rest := by
    cases rest with
    | nil => exact ⟨rfl, rfl⟩
    | cons c rest =>
      have hc := (stops c rfl).1
      simp [hc]
  rw [List.takeWhile_append_of_pos hdigits, List.dropWhile_append_of_pos hdigits, hnone.1, hnone.2,
    List.append_nil]
  exact ⟨rfl, rfl⟩

/-- The digits of a number that is not zero do not begin with a zero. -/
theorem head?_decimal_ne_zero {n : Nat} (positive : 0 < n) : (Text.decimal n).head? ≠ some '0' := by
  unfold Text.decimal
  induction n using Nat.strongRecOn with
  | ind n ih =>
    rw [Nat.toDigits_eq_if (by decide)]
    split
    · next hlt =>
      have hdigit : ∀ d < 10, 0 < d → Nat.digitChar d ≠ '0' := by decide
      simpa using hdigit n hlt positive
    · next hge =>
      have hhead := ih (n / 10) (by omega) (by omega)
      obtain ⟨c, digits, hdigits⟩ := List.exists_cons_of_ne_nil
        (Nat.toDigits_ne_nil (n := n / 10) (b := 10))
      rw [hdigits] at hhead ⊢
      exact hhead

theorem readWhole?_decimal (n : Nat) (stops : Stops rest) :
    readWhole? (Text.decimal n ++ rest) = some (Text.decimal n, rest) := by
  obtain ⟨htake, hdrop⟩ := takeWhile_decimal n stops
  unfold readWhole?
  simp only [htake, hdrop]
  split
  · next hnil => exact absurd hnil Nat.toDigits_ne_nil
  · next hzero =>
    -- only the number zero begins with a zero
    rcases Nat.eq_zero_or_pos n with rfl | positive
    · simp [Text.decimal] at hzero
    · exact absurd (congrArg List.head? hzero) (head?_decimal_ne_zero positive)
  · rfl

theorem readPart?_of_stops (stops : Stops rest) : readPart? rest = some ([], rest) := by
  cases rest with
  | nil => rfl
  | cons c rest =>
    have hc := (stops c rfl).2.1
    unfold readPart?
    split
    · next h => exact absurd (List.cons.inj h).1 hc
    · rfl

theorem readExponent?_of_stops (stops : Stops rest) : readExponent? rest = some (none, rest) := by
  cases rest with
  | nil => rfl
  | cons c rest =>
    obtain ⟨-, -, hsmall, hcapital⟩ := stops c rfl
    simp [readExponent?, hsmall, hcapital]

theorem value?_ofNat {n : Nat} (high : n ≤ maxSignificand) :
    NumberText.value? ⟨false, Text.decimal n, [], 0, true⟩ = some (.int n) := by
  have hn : Ieee.ofDigits (Text.decimal n) = n := Nat.ofDigitChars_ten_toDigits
  simp [NumberText.value?, hn, high]

theorem value?_negSucc {n : Nat} (low : n + 1 ≤ 2 ^ 63) :
    NumberText.value? ⟨true, Text.decimal (n + 1), [], 0, true⟩ = some (.int (.negSucc n)) := by
  have hn : Ieee.ofDigits (Text.decimal (n + 1)) = n + 1 := Nat.ofDigitChars_ten_toDigits
  have hlow : n + 1 ≤ Nat.pow 2 63 := low
  simp [NumberText.value?, hn, hlow, Int.negSucc_eq]

/-- An integer of 64 bits, with or without a sign, is read as it is. -/
theorem readNumber?_decimalInt {i : Int} (low : -2 ^ 63 ≤ i) (high : i < 2 ^ 64)
    (stops : Stops rest) : readNumber? (Text.decimalInt i ++ rest) = some (.int i, rest) := by
  have hpart := readPart?_of_stops stops
  have hexponent := readExponent?_of_stops stops
  cases i with
  | ofNat n =>
    have hvalue := value?_ofNat (Nat.le_of_lt_succ (Int.ofNat_lt.1 high))
    have hwhole := readWhole?_decimal n stops
    -- the first character is a digit and no sign
    obtain ⟨c, digits, hdigits, hdigit⟩ := exists_decimal_eq_cons n
    have hminus : c ≠ '-' := by
      rintro rfl
      exact absurd hdigit (by decide)
    have htext : Text.decimal n ++ rest = c :: (digits ++ rest) := by
      rw [hdigits, List.cons_append]
    rw [htext] at hwhole
    rw [Text.decimalInt, htext]
    unfold readNumber?
    split
    next negative s hsign =>
      obtain ⟨rfl, rfl⟩ : negative = false ∧ s = c :: (digits ++ rest) := by
        split at hsign
        · next heq => exact absurd (List.cons.inj heq).1 hminus
        · cases hsign
          exact ⟨rfl, rfl⟩
      simp [hwhole, hpart, hexponent, hvalue]
  | negSucc n =>
    have hvalue := value?_negSucc (show n + 1 ≤ 2 ^ 63 by omega)
    have hwhole := readWhole?_decimal (n + 1) stops
    rw [Text.decimalInt, List.cons_append]
    unfold readNumber?
    simp [hwhole, hpart, hexponent, hvalue]

/-! ## Values -/

theorem skipBlanks_cons {c : Char} (blank : c.isWhitespace = false) (s : List Char) :
    skipBlanks (c :: s) = c :: s := by
  have hc : (c == ' ' || c == '\t' || c == '\n' || c == '\r') = false := by
    simp only [Char.isWhitespace, Bool.or_eq_false_iff, decide_eq_false_iff_not] at blank
    simp only [Bool.or_eq_false_iff, beq_eq_false_iff_ne]
    exact ⟨⟨blank.1.1, blank.2⟩, blank.1.2⟩
  rw [skipBlanks, List.dropWhile_cons, hc]
  rfl

/-- A value that the reader can give back, with `depth` levels of arrays and objects. -/
inductive Plain : Nat → Json → Prop
  | null {depth : Nat} : Plain depth .null
  | bool {depth : Nat} (b : Bool) : Plain depth (.bool b)
  | int {depth : Nat} {i : Int} (low : -2 ^ 63 ≤ i) (high : i < 2 ^ 64) : Plain depth (.int i)
  | string {depth : Nat} (s : String) : Plain depth (.string s)
  | array {depth : Nat} {items : List Json} (plain : ∀ item ∈ items, Plain depth item) :
      Plain (depth + 1) (.array items)
  | object {depth : Nat} {members : List (String × Json)}
      (plain : ∀ member ∈ members, Plain depth member.2) : Plain (depth + 1) (.object members)

/-- The text of a value does not begin with a blank, nor does it end an array, and it is read as
that value. -/
structure ReadsBack (depth : Nat) (j : Json) : Prop where
  opens : ∃ c tail, j.text = c :: tail ∧ c.isWhitespace = false ∧ c ≠ ']'
  reads : ∀ steps rest, 2 * j.text.length ≤ steps → Stops rest →
    readValue? steps depth (j.text ++ rest) = some (j, rest)

theorem ReadsBack.of_text {j : Json} (c : Char) (tail : List Char) (htext : j.text = c :: tail)
    (blank : c.isWhitespace = false) (bracket : c ≠ ']')
    (reads : ∀ steps rest, 2 * (tail.length + 1) ≤ steps + 1 → Stops rest →
      readValue? (steps + 1) depth (c :: (tail ++ rest)) = some (j, rest)) :
    ReadsBack depth j := by
  refine ⟨⟨c, tail, htext, blank, bracket⟩, fun steps rest enough stops => ?_⟩
  rw [htext, List.length_cons] at enough
  obtain ⟨steps, rfl⟩ := Nat.exists_eq_add_of_le' (show 1 ≤ steps by omega)
  rw [htext, List.cons_append]
  exact reads steps rest enough stops

theorem readsBack_null : ReadsBack depth null := by
  apply ReadsBack.of_text 'n' ['u', 'l', 'l'] (by simp [text]) rfl (by decide)
  intro steps rest _ _
  rw [readValue?, skipBlanks_cons rfl]
  rfl

theorem readsBack_bool (b : Bool) : ReadsBack depth (bool b) := by
  cases b with
  | true =>
    apply ReadsBack.of_text 't' ['r', 'u', 'e'] (by simp [text]) rfl (by decide)
    intro steps rest _ _
    rw [readValue?, skipBlanks_cons rfl]
    rfl
  | false =>
    apply ReadsBack.of_text 'f' ['a', 'l', 's', 'e'] (by simp [text]) rfl
      (by decide)
    intro steps rest _ _
    rw [readValue?, skipBlanks_cons rfl]
    rfl

theorem isWhitespace_of_number {c : Char} (number : c.isDigit = true ∨ c = '-') :
    c.isWhitespace = false := by
  rcases number with digit | rfl
  · simp only [Char.isDigit, Bool.and_eq_true, decide_eq_true_eq] at digit
    simp only [Char.isWhitespace, Bool.or_eq_false_iff, decide_eq_false_iff_not]
    refine ⟨⟨⟨?_, ?_⟩, ?_⟩, ?_⟩ <;> rintro rfl <;> exact absurd digit.1 (by decide)
  · rfl

/-- A text that begins with a digit or a minus sign is read as a number. -/
theorem readValue?_number {c : Char} (number : c.isDigit = true ∨ c = '-') (s : List Char) :
    readValue? (steps + 1) depth (c :: s) = readNumber? (c :: s) := by
  rw [readValue?, skipBlanks_cons (isWhitespace_of_number number)]
  split
  -- no other value begins with a digit or a minus sign
  all_goals first
    | rfl
    | next heq =>
      obtain rfl := (List.cons.inj heq).1
      exact absurd number (by decide)

theorem exists_decimalInt_eq_cons (i : Int) :
    ∃ c tail, Text.decimalInt i = c :: tail ∧ (c.isDigit = true ∨ c = '-') := by
  cases i with
  | ofNat n =>
    obtain ⟨c, digits, hdigits, hdigit⟩ := exists_decimal_eq_cons n
    exact ⟨c, digits, hdigits, Or.inl hdigit⟩
  | negSucc n => exact ⟨'-', Text.decimal (n + 1), rfl, Or.inr rfl⟩

theorem readsBack_int {i : Int} (low : -2 ^ 63 ≤ i) (high : i < 2 ^ 64) :
    ReadsBack depth (int i) := by
  obtain ⟨c, tail, hopens, number⟩ := exists_decimalInt_eq_cons i
  apply ReadsBack.of_text c tail (by rw [text, hopens]) (isWhitespace_of_number number)
  · rintro rfl
    exact absurd number (by decide)
  · intro steps rest _ stops
    rw [readValue?_number number, ← List.cons_append, ← hopens]
    exact readNumber?_decimalInt low high stops

theorem readsBack_string (s : String) : ReadsBack depth (string s) := by
  apply ReadsBack.of_text '"' (s.toList.flatMap escape ++ ['"'])
    (by simp [text, quoted]) rfl (by decide)
  intro steps rest enough _
  have hlength := length_le_flatMap_escape s.toList
  rw [List.length_append, List.length_singleton] at enough
  have hread := readString?_flatMap_escape rest (show s.toList.length < steps by omega)
  rw [List.append_assoc, List.singleton_append, readValue?, skipBlanks_cons rfl]
  simp [hread]

/-- The items of an array are read up to its end, each as it was written. -/
theorem readItems?_itemsText {items : List Json} (nonempty : items ≠ [])
    (reads : ∀ item ∈ items, ReadsBack depth item)
    (enough : 2 * (itemsText items).length + 1 ≤ steps) :
    readItems? steps depth (itemsText items ++ ']' :: rest) = some (items, rest) := by
  induction items generalizing steps with
  | nil => exact absurd rfl nonempty
  | cons item items ih =>
    obtain ⟨steps, rfl⟩ := Nat.exists_eq_add_of_le' (Nat.le_of_add_left_le enough)
    have hitem := (reads item List.mem_cons_self).reads
    cases items with
    | nil =>
      rw [itemsText] at enough ⊢
      have hread := hitem steps (']' :: rest) (by omega) (by apply stops_cons <;> decide)
      rw [readItems?, hread]
      rfl
    | cons next items =>
      have htext : itemsText (item :: next :: items) =
          item.text ++ ',' :: itemsText (next :: items) := by simp [itemsText]
      rw [htext, List.length_append, List.length_cons] at enough
      have hread := hitem steps (',' :: (itemsText (next :: items) ++ ']' :: rest)) (by omega)
        (by apply stops_cons <;> decide)
      have htail : readItems? steps depth (itemsText (next :: items) ++ ']' :: rest) =
          some (next :: items, rest) :=
        ih (List.cons_ne_nil next items)
          (fun item hmem => reads item (List.mem_cons_of_mem _ hmem)) (by omega)
      have hcomma := skipBlanks_cons (c := ',') rfl (itemsText (next :: items) ++ ']' :: rest)
      rw [htext, List.append_assoc, List.cons_append, readItems?, hread]
      simp [hcomma, htail]

theorem quoted_member (name : String) (value : Json) (rest : List Char) :
    quoted name ++ ':' :: value.text ++ rest =
      '"' :: (name.toList.flatMap escape ++ '"' :: ':' :: (value.text ++ rest)) := by
  simp [quoted]

/-- The name of a member is read up to the colon, and its value up to what follows. -/
theorem read_member {name : String} {value : Json} (reads : ReadsBack depth value)
    (enough : 2 * (quoted name ++ ':' :: value.text).length ≤ steps) {rest : List Char}
    (stops : Stops rest) :
    readString? steps (name.toList.flatMap escape ++ '"' :: ':' :: (value.text ++ rest)) =
      some (name, ':' :: (value.text ++ rest)) ∧
    readValue? steps depth (value.text ++ rest) = some (value, rest) := by
  have hname := length_lt_quoted name
  rw [List.length_append, List.length_cons] at enough
  constructor
  · exact readString?_flatMap_escape (':' :: (value.text ++ rest)) (by omega)
  · exact reads.reads steps rest (by omega) stops

/-- The members of an object are read up to its end, each as it was written. -/
theorem readMembers?_membersText {members : List (String × Json)} (nonempty : members ≠ [])
    (reads : ∀ member ∈ members, ReadsBack depth member.2)
    (enough : 2 * (membersText members).length + 1 ≤ steps) :
    readMembers? steps depth (membersText members ++ '\x7d' :: rest) = some (members, rest) := by
  induction members generalizing steps with
  | nil => exact absurd rfl nonempty
  | cons member members ih =>
    obtain ⟨name, value⟩ := member
    obtain ⟨steps, rfl⟩ := Nat.exists_eq_add_of_le' (Nat.le_of_add_left_le enough)
    have hvalue : ReadsBack depth value := reads (name, value) List.mem_cons_self
    have hcolon := skipBlanks_cons (c := ':') rfl
    cases members with
    | nil =>
      rw [membersText] at enough ⊢
      have hstops : Stops ('\x7d' :: rest) := by apply stops_cons <;> decide
      obtain ⟨hread, hreadValue⟩ := read_member hvalue (Nat.le_of_succ_le_succ enough) hstops
      have hend := skipBlanks_cons (c := '\x7d') rfl rest
      rw [quoted_member, readMembers?, skipBlanks_cons rfl]
      simp [hread, hcolon, hreadValue, hend]
    | cons next members =>
      have htext : membersText ((name, value) :: next :: members) =
          quoted name ++ ':' :: value.text ++ ',' :: membersText (next :: members) := by
        simp [membersText]
      rw [htext, List.length_append, List.length_cons] at enough
      have htail : readMembers? steps depth (membersText (next :: members) ++ '\x7d' :: rest) =
          some (next :: members, rest) :=
        ih (List.cons_ne_nil next members)
          (fun member hmem => reads member (List.mem_cons_of_mem _ hmem)) (by omega)
      have hstops : Stops (',' :: (membersText (next :: members) ++ '\x7d' :: rest)) := by
        apply stops_cons <;> decide
      have hmember : 2 * (quoted name ++ ':' :: value.text).length ≤ steps := by omega
      obtain ⟨hread, hreadValue⟩ := read_member hvalue hmember hstops
      have hcomma := skipBlanks_cons (c := ',') rfl
        (membersText (next :: members) ++ '\x7d' :: rest)
      rw [htext, List.append_assoc, List.cons_append, quoted_member, readMembers?,
        skipBlanks_cons rfl]
      simp [hread, hcolon, hreadValue, hcomma, htail]

theorem exists_itemsText_eq_cons {items : List Json} (nonempty : items ≠ [])
    (reads : ∀ item ∈ items, ReadsBack depth item) :
    ∃ c tail, itemsText items = c :: tail ∧ c.isWhitespace = false ∧ c ≠ ']' := by
  obtain ⟨item, items, rfl⟩ := List.exists_cons_of_ne_nil nonempty
  obtain ⟨c, tail, hopens, hblank, hbracket⟩ := (reads item List.mem_cons_self).opens
  cases items with
  | nil => exact ⟨c, tail, by rw [itemsText, hopens], hblank, hbracket⟩
  | cons next items =>
    exact ⟨c, tail ++ ',' :: itemsText (next :: items), by simp [itemsText, hopens], hblank,
      hbracket⟩

theorem readsBack_array {items : List Json} (reads : ∀ item ∈ items, ReadsBack depth item) :
    ReadsBack (depth + 1) (array items) := by
  apply ReadsBack.of_text '[' (itemsText items ++ [']']) (by simp [text]) rfl
    (by decide)
  intro steps rest enough _
  rw [List.length_append, List.length_singleton] at enough
  rw [List.append_assoc, List.singleton_append, readValue?, skipBlanks_cons rfl]
  by_cases nonempty : items = []
  · rw [nonempty, itemsText]
    rfl
  · have hread : readItems? steps depth (itemsText items ++ ']' :: rest) = some (items, rest) :=
      readItems?_itemsText nonempty reads (by omega)
    obtain ⟨c, tail, hopens, hblank, hbracket⟩ := exists_itemsText_eq_cons nonempty reads
    rw [hopens, List.cons_append] at hread ⊢
    simp only [skipBlanks_cons hblank]
    simp [hread, hbracket]

theorem exists_membersText_eq_cons {members : List (String × Json)} (nonempty : members ≠ []) :
    ∃ tail, membersText members = '"' :: tail := by
  obtain ⟨⟨name, value⟩, members, rfl⟩ := List.exists_cons_of_ne_nil nonempty
  cases members with
  | nil =>
    refine ⟨name.toList.flatMap escape ++ '"' :: ':' :: value.text, ?_⟩
    simp [membersText, quoted]
  | cons next members =>
    refine ⟨name.toList.flatMap escape ++ '"' :: ':' :: (value.text ++ ',' ::
      membersText (next :: members)), ?_⟩
    simp [membersText, quoted]

theorem readsBack_object {members : List (String × Json)}
    (reads : ∀ member ∈ members, ReadsBack depth member.2) :
    ReadsBack (depth + 1) (object members) := by
  apply ReadsBack.of_text '\x7b' (membersText members ++ ['\x7d']) (by simp [text])
    rfl (by decide)
  intro steps rest enough _
  rw [List.length_append, List.length_singleton] at enough
  rw [List.append_assoc, List.singleton_append, readValue?, skipBlanks_cons rfl]
  by_cases nonempty : members = []
  · rw [nonempty, membersText]
    rfl
  · have hread : readMembers? steps depth (membersText members ++ '\x7d' :: rest) =
        some (members, rest) := readMembers?_membersText nonempty reads (by omega)
    obtain ⟨tail, hopens⟩ := exists_membersText_eq_cons nonempty
    rw [hopens, List.cons_append] at hread ⊢
    have hquote : '"'.isWhitespace = false := rfl
    simp only [skipBlanks_cons hquote]
    simp [hread]

/-- A plain value is read back from its text. -/
theorem Plain.readsBack {j : Json} (plain : Plain depth j) : ReadsBack depth j := by
  induction plain with
  | null => exact readsBack_null
  | bool b => exact readsBack_bool b
  | int low high => exact readsBack_int low high
  | string s => exact readsBack_string s
  | array _ ih => exact readsBack_array ih
  | object _ ih => exact readsBack_object ih

/-- A plain value is read back from its whole text. -/
theorem parse?_text {j : Json} (plain : Plain maxDepth j) :
    parse? (String.ofList j.text) = some j := by
  have hread := plain.readsBack.reads (2 * j.text.length + 2) [] (Nat.le_add_right _ 2) stops_nil
  rw [List.append_nil] at hread
  rw [parse?, String.toList_ofList]
  simp only [hread, Option.bind_eq_bind, Option.bind_some]
  rfl

end PlcGateway.Json
