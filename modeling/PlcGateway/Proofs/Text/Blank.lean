import Mathlib.Data.List.TakeWhile
import PlcGateway.Text.Blank

/-!
# What trimming takes off

Trimming takes blanks off both ends of a text and nothing else (`exists_eq_trim`), so it leaves
exactly those texts alone that neither begin nor end with a blank (`trim_eq_self_iff`).
-/

namespace PlcGateway.Text

variable {s : List Char}

/-- Trimming takes blanks off both ends and nothing else. -/
theorem exists_eq_trim (s : List Char) : ∃ front back, s = front ++ trim s ++ back ∧
    (∀ c ∈ front, isBlank c = true) ∧ ∀ c ∈ back, isBlank c = true := by
  refine ⟨s.takeWhile isBlank, ((trimStart s).reverse.takeWhile isBlank).reverse, ?_, ?_, ?_⟩
  · have hback : trim s ++ ((trimStart s).reverse.takeWhile isBlank).reverse = trimStart s := by
      unfold trim
      rw [← List.reverse_append]
      show ((trimStart s).reverse.takeWhile isBlank ++
        (trimStart s).reverse.dropWhile isBlank).reverse = _
      rw [List.takeWhile_append_dropWhile, List.reverse_reverse]
    rw [List.append_assoc, hback]
    exact List.takeWhile_append_dropWhile.symm
  · intro c hc
    exact List.mem_takeWhile_imp hc
  · intro c hc
    exact List.mem_takeWhile_imp (List.mem_reverse.1 hc)

theorem trim_isInfix (s : List Char) : trim s <:+: s := by
  obtain ⟨front, back, hs, -, -⟩ := exists_eq_trim s
  exact ⟨front, back, hs.symm⟩

theorem length_trim_le (s : List Char) : (trim s).length ≤ s.length := (trim_isInfix s).length_le

theorem mem_of_mem_trim {c : Char} (h : c ∈ trim s) : c ∈ s := (trim_isInfix s).subset h

theorem trimmed_ofList_trim (s : List Char) :
    trimmed (String.ofList (trim s)) = String.ofList (trim s) := by
  rw [trimmed, String.toList_ofList, trim_trim]

theorem isBlank_of_allBlank (h : allBlank s = true) : ∀ c ∈ s, isBlank c = true := by
  obtain ⟨front, back, hs, hfront, hback⟩ := exists_eq_trim s
  rw [List.isEmpty_iff.1 h, List.append_nil] at hs
  rw [hs]
  exact List.forall_mem_append.2 ⟨hfront, hback⟩

theorem allBlank_iff : allBlank s = true ↔ ∀ c ∈ s, isBlank c = true := by
  refine ⟨isBlank_of_allBlank, fun h => ?_⟩
  unfold allBlank
  cases htrim : trim s with
  | nil => rfl
  | cons c rest =>
    -- a trimmed text does not begin with a blank
    have hblank : isBlank c = true := h c (mem_of_mem_trim (by rw [htrim]; exact List.mem_cons_self))
    rw [head?_trim c (by rw [htrim]; rfl)] at hblank
    cases hblank

theorem trim_eq_self_iff : trim s = s ↔
    (∀ c ∈ s.head?, isBlank c = false) ∧ ∀ c ∈ s.getLast?, isBlank c = false := by
  constructor
  · intro h
    rw [← h]
    exact ⟨head?_trim, getLast?_trim⟩
  · rintro ⟨head, last⟩
    exact trim_eq_self head last

end PlcGateway.Text
