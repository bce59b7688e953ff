import Mathlib.Data.List.Infix
import PlcGateway.Text.Cut

/-!
# What the pieces of a text are

The pieces that `fields` cuts a text into are the only ones without the separator that give the text
when they are joined (`fields_join`). `cut?` cuts at the first occurrence of its separator
(`cut?_eq_some_iff`), so at a single character before the first such character
(`cut?_singleton_iff`).
-/

namespace PlcGateway.Text

variable {c : Char} {sep piece text before after : List Char}

theorem fields_of_not_mem (h : c ∉ piece) : fields c piece = [piece] := by
  induction piece with
  | nil => rfl
  | cons d piece ih =>
    rw [List.mem_cons, not_or] at h
    obtain ⟨hne, hrest⟩ := h
    rw [fields, if_neg (Ne.symm hne), ih hrest]

/-- A text is cut at any of its separators by cutting the two sides of it. -/
theorem fields_append (s t : List Char) : fields c (s ++ c :: t) = fields c s ++ fields c t := by
  induction s with
  | nil =>
    show fields c (c :: t) = [[]] ++ fields c t
    rw [fields, if_pos rfl, List.singleton_append]
  | cons d s ih =>
    rw [List.cons_append, fields, fields, ih]
    split
    · rfl
    · obtain ⟨piece, pieces, hpieces⟩ := List.exists_cons_of_ne_nil (fields_ne_nil c s)
      rw [hpieces]
      rfl

theorem fields_append_cons (h : c ∉ piece) (text : List Char) :
    fields c (piece ++ c :: text) = piece :: fields c text := by
  rw [fields_append, fields_of_not_mem h, List.singleton_append]

theorem join_append {pieces others : List (List Char)} (hpieces : pieces ≠ [])
    (hothers : others ≠ []) :
    join c (pieces ++ others) = join c pieces ++ c :: join c others := by
  fun_induction join c pieces with
  | case1 => exact absurd rfl hpieces
  | case2 piece =>
    obtain ⟨other, others, rfl⟩ := List.exists_cons_of_ne_nil hothers
    rfl
  | case3 piece pieces hmore ih =>
    obtain ⟨next, pieces, rfl⟩ := List.exists_cons_of_ne_nil hmore
    show piece ++ c :: join c (next :: pieces ++ others) = _
    rw [ih (List.cons_ne_nil next pieces), List.append_assoc, List.cons_append]

/-- No piece holds the separator. -/
theorem not_mem_of_mem_fields {s : List Char} (hpiece : piece ∈ fields c s) : c ∉ piece := by
  induction s generalizing piece with
  | nil =>
    rw [List.mem_singleton.1 hpiece]
    exact List.not_mem_nil
  | cons d s ih =>
    obtain ⟨first, rest, hfields⟩ := List.exists_cons_of_ne_nil (fields_ne_nil c s)
    rw [hfields] at ih
    rw [fields, hfields] at hpiece
    split at hpiece
    · rcases List.mem_cons.1 hpiece with rfl | hpiece
      · exact List.not_mem_nil
      · exact ih hpiece
    · next hd =>
      rcases List.mem_cons.1 hpiece with rfl | hpiece
      · rw [List.mem_cons, not_or]
        exact ⟨Ne.symm hd, ih List.mem_cons_self⟩
      · exact ih (List.mem_cons_of_mem first hpiece)

/-- Pieces without the separator are found again in the joined text. -/
theorem fields_join {pieces : List (List Char)} (hne : pieces ≠ []) (h : ∀ p ∈ pieces, c ∉ p) :
    fields c (join c pieces) = pieces := by
  fun_induction join c pieces with
  | case1 => exact absurd rfl hne
  | case2 piece => exact fields_of_not_mem (h piece List.mem_cons_self)
  | case3 piece pieces hmore ih =>
    rw [fields_append_cons (h piece List.mem_cons_self)]
    rw [ih (fun hnil => hmore hnil) fun p hp => h p (List.mem_cons_of_mem _ hp)]

/-! ## Cuts -/

theorem after?_append (sep rest : List Char) : after? sep (sep ++ rest) = some rest := by
  induction sep with
  | nil => rfl
  | cons s sep ih => rw [List.cons_append, after?, if_pos rfl, ih]

theorem after?_eq_none_iff : after? sep text = none ↔ ¬ sep <+: text := by
  rw [Option.eq_none_iff_forall_ne_some]
  constructor
  · rintro h ⟨rest, rfl⟩
    exact h rest (after?_append sep rest)
  · intro h rest hrest
    exact h ⟨rest, (after?_eq_some hrest).symm⟩

/-- A cut is made at the first occurrence: none ends before the one that was found does. -/
theorem cut?_eq_some_iff (hsep : sep ≠ []) : cut? sep text = some (before, after) ↔
    text = before ++ sep ++ after ∧ ¬ sep <:+: before ++ sep.dropLast := by
  have hshort : sep.dropLast.length < sep.length := by
    rw [List.length_dropLast]
    exact Nat.sub_lt (List.length_pos_of_ne_nil hsep) Nat.one_pos
  induction text generalizing before with
  | nil =>
    have hnone : after? sep [] = none := after?_eq_none_iff.2 (mt List.prefix_nil.1 hsep)
    rw [cut?, hnone]
    simp [hsep]
  | cons c text ih =>
    rw [cut?]
    cases hafter : after? sep (c :: text) with
    | some rest =>
      -- the text begins with the separator
      have htext := after?_eq_some hafter
      simp only [Option.some.injEq, Prod.mk.injEq]
      constructor
      · rintro ⟨rfl, rfl⟩
        exact ⟨htext, fun h => Nat.not_le.2 hshort h.length_le⟩
      · rintro ⟨hparts, hfirst⟩
        cases before with
        | nil => exact ⟨rfl, List.append_cancel_left (htext.symm.trans hparts)⟩
        | cons d before =>
          apply absurd _ hfirst
          apply List.IsPrefix.isInfix
          have hsep' : sep <+: c :: text := ⟨rest, htext.symm⟩
          have hfront : d :: before ++ sep.dropLast <+: c :: text := by
            rw [hparts, List.append_assoc, List.prefix_append_right_inj]
            exact (List.dropLast_prefix sep).trans (List.prefix_append sep after)
          apply List.prefix_of_prefix_length_le hsep' hfront
          rw [List.length_append, List.length_dropLast, List.length_cons]
          omega
    | none =>
      have hnot := after?_eq_none_iff.1 hafter
      simp only [Option.map_eq_some_iff, Prod.exists, Prod.mk.injEq]
      constructor
      · rintro ⟨b, a, hcut, rfl, rfl⟩
        obtain ⟨rfl, hfirst⟩ := ih.1 hcut
        refine ⟨rfl, ?_⟩
        rw [List.cons_append, List.infix_cons_iff, not_or]
        refine ⟨fun hstart => hnot (hstart.trans ?_), hfirst⟩
        rw [List.append_assoc]
        show c :: b ++ sep.dropLast <+: c :: b ++ (sep ++ a)
        rw [List.prefix_append_right_inj]
        exact (List.dropLast_prefix sep).trans (List.prefix_append sep a)
      · rintro ⟨hparts, hfirst⟩
        cases before with
        | nil => exact absurd ⟨after, hparts.symm⟩ hnot
        | cons d before =>
          rw [List.cons_append, List.cons_append, List.cons.injEq] at hparts
          obtain ⟨rfl, rfl⟩ := hparts
          rw [List.cons_append, List.infix_cons_iff, not_or] at hfirst
          exact ⟨before, after, ih.2 ⟨rfl, hfirst.2⟩, rfl, rfl⟩

theorem occurs_iff (hsep : sep ≠ []) : occurs sep text = true ↔ sep <:+: text := by
  unfold occurs
  constructor
  · intro h
    obtain ⟨⟨before, after⟩, hcut⟩ := Option.isSome_iff_exists.1 h
    exact ⟨before, after, (cut?_eq_some hcut).symm⟩
  · intro h
    induction text with
    | nil => exact absurd (List.infix_nil.1 h) hsep
    | cons c text ih =>
      rw [cut?]
      cases hafter : after? sep (c :: text) with
      | some rest => rfl
      | none =>
        rcases List.infix_cons_iff.1 h with hprefix | hinfix
        · exact absurd hprefix (after?_eq_none_iff.1 hafter)
        · rw [Option.isSome_map]
          exact ih hinfix

/-- A cut at one character is made before its first occurrence. -/
theorem cut?_singleton_iff :
    cut? [c] text = some (before, after) ↔ text = before ++ c :: after ∧ c ∉ before := by
  rw [cut?_eq_some_iff (List.cons_ne_nil c []), List.append_assoc, List.dropLast_singleton,
    List.append_nil, List.singleton_infix_iff]
  rfl

theorem cut?_append_cons (h : c ∉ before) (after : List Char) :
    cut? [c] (before ++ c :: after) = some (before, after) :=
  cut?_singleton_iff.2 ⟨rfl, h⟩

end PlcGateway.Text
