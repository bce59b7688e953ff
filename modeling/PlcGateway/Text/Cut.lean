/-!
# Cutting a text at separators

`fields` cuts a text at every occurrence of one character and keeps the empty pieces, so that
joining the pieces with that character gives the text back (`join_fields`). `cut?` cuts once, at
the first occurrence of a separator of any length.
-/

namespace PlcGateway.Text

/-- The pieces of a text between the occurrences of `sep`; a text without `sep` is one piece. -/
def fields (sep : Char) : List Char → List (List Char)
  | [] => [[]]
  | c :: rest =>
    if c = sep then [] :: fields sep rest
    else
      match fields sep rest with
      | [] => [[c]]
      | piece :: pieces => (c :: piece) :: pieces

/-- The pieces in a row with `sep` between them. -/
def join (sep : Char) : List (List Char) → List Char
  | [] => []
  | [piece] => piece
  | piece :: pieces => piece ++ sep :: join sep pieces

/-- The rest of a text that begins with `sep`. -/
def after? : List Char → List Char → Option (List Char)
  | [], text => some text
  | _ :: _, [] => none
  | s :: sep, c :: text => if s = c then after? sep text else none

/-- What stands before and after the first occurrence of `sep`. -/
def cut? (sep : List Char) : List Char → Option (List Char × List Char)
  | [] => (after? sep []).map (([], ·))
  | c :: text =>
    match after? sep (c :: text) with
    | some rest => some ([], rest)
    | none => (cut? sep text).map fun (before, rest) => (c :: before, rest)

/-- Whether `sep` occurs in a text. -/
def occurs (sep text : List Char) : Bool := (cut? sep text).isSome

theorem fields_ne_nil (sep : Char) (s : List Char) : fields sep s ≠ [] := by
  cases s with
  | nil => simp [fields]
  | cons c rest =>
    simp only [fields]
    split
    · simp
    · split <;> simp

/-- Cutting loses nothing: the pieces with the separator between them are the text. -/
theorem join_fields (sep : Char) (s : List Char) : join sep (fields sep s) = s := by
  induction s with
  | nil => rfl
  | cons c rest ih =>
    simp only [fields]
    split
    · next h =>
      subst h
      cases hf : fields c rest with
      | nil => exact absurd hf (fields_ne_nil c rest)
      | cons piece pieces => rw [hf] at ih; simp [join, ih]
    · cases hf : fields sep rest with
      | nil => exact absurd hf (fields_ne_nil sep rest)
      | cons piece pieces =>
        rw [hf] at ih
        cases pieces <;> simp_all [join]

theorem after?_eq_some {sep text rest : List Char} (h : after? sep text = some rest) :
    text = sep ++ rest := by
  fun_induction after? sep text with
  | case1 => simpa using h
  | case2 => simp at h
  | case3 s sep text ih => simp [ih h]
  | case4 => simp at h

/-- The two sides of a cut and the separator between them are the text. -/
theorem cut?_eq_some {sep text before rest : List Char}
    (h : cut? sep text = some (before, rest)) : text = before ++ sep ++ rest := by
  induction text generalizing before with
  | nil =>
    obtain ⟨r, hr, he⟩ := Option.map_eq_some_iff.1 h
    have := after?_eq_some hr
    simp_all
  | cons c text ih =>
    simp only [cut?] at h
    split at h
    · next r hr =>
      have := after?_eq_some hr
      simp_all
    · obtain ⟨⟨b, r⟩, hr, he⟩ := Option.map_eq_some_iff.1 h
      simp only [Prod.mk.injEq] at he
      obtain ⟨rfl, rfl⟩ := he
      simp [ih hr]

end PlcGateway.Text
