/-!
# Blank characters

`isBlank` is Unicode's White_Space property, and `trim` takes blanks off both ends of a text. All
the small languages of a configuration (device lists, write targets, rules) and all values to be
encoded are trimmed by this one rule.
-/

namespace PlcGateway.Text

/-- The 25 characters with Unicode's White_Space property. -/
def isBlank (c : Char) : Bool :=
  let n := c.toNat
  (0x09 ≤ n && n ≤ 0x0D) || n == 0x20 || n == 0x85 || n == 0xA0 || n == 0x1680
    || (0x2000 ≤ n && n ≤ 0x200A) || n == 0x2028 || n == 0x2029 || n == 0x202F
    || n == 0x205F || n == 0x3000

/-- A text without the blanks it begins with. -/
def trimStart (s : List Char) : List Char := s.dropWhile isBlank

/-- A text without the blanks at either end. -/
def trim (s : List Char) : List Char := (trimStart (trimStart s).reverse).reverse

/-- Trimming of a string. -/
def trimmed (s : String) : String := String.ofList (trim s.toList)

/-- Whether a text holds nothing but blanks. -/
def allBlank (s : List Char) : Bool := (trim s).isEmpty

/-- The ASCII capital of a small ASCII letter; every other character stays as it is. -/
def upperAscii (c : Char) : Char :=
  if 'a' ≤ c ∧ c ≤ 'z' then Char.ofNat (c.toNat - 32) else c

/-- The small ASCII letter of an ASCII capital; every other character stays as it is. -/
def lowerAscii (c : Char) : Char :=
  if 'A' ≤ c ∧ c ≤ 'Z' then Char.ofNat (c.toNat + 32) else c

/-- Trimming leaves a text alone that neither begins nor ends with a blank. -/
theorem trim_eq_self {s : List Char} (head : ∀ c ∈ s.head?, isBlank c = false)
    (last : ∀ c ∈ s.getLast?, isBlank c = false) : trim s = s := by
  have front : ∀ {t : List Char}, (∀ c ∈ t.head?, isBlank c = false) → trimStart t = t := by
    intro t ht
    cases t with
    | nil => rfl
    | cons c r => simp [trimStart, ht c (by simp)]
  have back : trimStart s.reverse = s.reverse := front (by simpa using last)
  simp [trim, front head, back]

theorem head?_trimStart {s : List Char} : ∀ c ∈ (trimStart s).head?, isBlank c = false := by
  intro c hc
  have h := List.head?_dropWhile_not isBlank s
  rw [Option.mem_def] at hc
  rw [trimStart] at hc
  rw [hc] at h
  simpa using h

/-- A trimmed text does not end with a blank. -/
theorem getLast?_trim {s : List Char} : ∀ c ∈ (trim s).getLast?, isBlank c = false := by
  intro c hc
  rw [trim, List.getLast?_reverse] at hc
  exact head?_trimStart c hc

/-- A trimmed text does not begin with a blank. -/
theorem head?_trim {s : List Char} : ∀ c ∈ (trim s).head?, isBlank c = false := by
  intro c hc
  have pre : trim s <+: trimStart s := by
    have h := List.dropWhile_suffix isBlank (l := (trimStart s).reverse)
    have h' := List.reverse_prefix.2 h
    simpa [trim, trimStart] using h'
  obtain ⟨rest, hrest⟩ := pre
  refine head?_trimStart (s := s) c ?_
  rw [← hrest]
  cases ht : trim s with
  | nil => simp [ht] at hc
  | cons d r => rw [ht] at hc; simpa using hc

/-- Trimming twice is trimming once. -/
theorem trim_trim (s : List Char) : trim (trim s) = trim s :=
  trim_eq_self head?_trim getLast?_trim

theorem trimmed_trimmed (s : String) : trimmed (trimmed s) = trimmed s := by
  simp [trimmed, trim_trim]

end PlcGateway.Text
