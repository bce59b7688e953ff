import PlcGateway.Proofs.Register.Integer

/-!
# The text of a real number

A single-precision number is read as a text of six places that is cut to six numerals. The text of
a finite number has a point, and cutting keeps it; the texts `inf` and `NaN` have letters. So none
of these texts stands for an integer (`integer?_of_decode_real`).
-/

namespace PlcGateway

/-- Only signs and digits stand in a text that stands for an integer. -/
theorem Text.integer?_eq_none_of_mem {s : List Char} {c : Char} (hc : c ∈ s)
    (other : c.isDigit = false ∧ c ≠ '+' ∧ c ≠ '-') : Text.integer? s = none := by
  obtain ⟨hdigit, hplus, hminus⟩ := other
  have absent : ∀ {digits : List Char} {n : Nat}, Text.IsDecimal digits n → c ∉ digits := by
    intro digits n number hmem
    exact Bool.false_ne_true (hdigit.symm.trans (number.isDigit c hmem))
  rw [Option.eq_none_iff_forall_not_mem]
  intro i hi
  cases Text.integer?_eq_some_iff.1 hi with
  | digits number => exact absent number hc
  | plus number => exact absent number (List.mem_of_ne_of_mem hplus hc)
  | minus number => exact absent number (List.mem_of_ne_of_mem hminus hc)

namespace RegisterFormat

theorem point_mem_keepNumerals {s : List Char} (limit : Nat) (h : '.' ∈ s) :
    '.' ∈ keepNumerals limit s := by
  fun_induction keepNumerals limit s with
  | case1 => exact absurd h List.not_mem_nil
  | case2 limit c rest kept ih =>
    rcases List.mem_cons.1 h with rfl | h
    · exact List.mem_cons_self
    · exact List.mem_cons_of_mem _ (ih h)
  | case3 c rest numeral ih =>
    rcases List.mem_cons.1 h with rfl | h
    · exact absurd (.inr rfl) numeral
    · exact ih h
  | case4 c rest numeral limit ih =>
    rcases List.mem_cons.1 h with rfl | h
    · exact absurd (.inr rfl) numeral
    · exact List.mem_cons_of_mem _ (ih h)

theorem point_mem_fixed (places : Nat) (negative : Bool) (significand : Nat) (exponent : Int) :
    '.' ∈ (Ieee.Datum.finite negative significand exponent).fixed places :=
  List.mem_append_right _ (List.mem_append_right _ List.mem_cons_self)

/-- Whatever the bits, there is a point or a letter in the text. -/
theorem integer?_realText (bits : Nat) : Text.integer? (realText bits).toList = none := by
  unfold realText
  rw [String.toList_ofList]
  cases Ieee.binary32.datum bits with
  | nan => decide
  | infinite negative => cases negative <;> decide
  | finite negative significand exponent =>
    have point := point_mem_keepNumerals 6 (point_mem_fixed 6 negative significand exponent)
    exact Text.integer?_eq_none_of_mem point (by decide)

theorem eq_real_of_decode {payload : List UInt8} {value : RegisterValue}
    (h : decode real payload = .ok value) : ∃ bits, value = .real (realText bits) := by
  rcases payload with _ | ⟨b₀, _ | ⟨b₁, _ | ⟨b₂, _ | ⟨b₃, rest⟩⟩⟩⟩
  · cases h
  · cases h
  · cases h
  · cases h
  · exact ⟨_, (Except.ok.inj h).symm⟩

/-- A real number never stands for an integer, however it is read. -/
theorem integer?_of_decode_real {payload : List UInt8} {value : RegisterValue}
    (h : decode real payload = .ok value) : value.integer? = none := by
  obtain ⟨bits, rfl⟩ := eq_real_of_decode h
  rw [Option.eq_none_iff_forall_not_mem]
  intro n hn
  have hsome := RegisterValue.integer?_display hn
  rw [RegisterValue.display, integer?_realText] at hsome
  cases hsome

end RegisterFormat

end PlcGateway
