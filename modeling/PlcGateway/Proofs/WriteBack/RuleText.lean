import Mathlib.Data.List.Infix
import PlcGateway.Proofs.Text.Blank
import PlcGateway.Proofs.Text.Cut
import PlcGateway.WriteBack.Rule

/-!
# The text of a rule

A text with one operator is read as the rule that its two sides make up. A text with several is
read too if the first of them to be looked for, `==`, is found once from the left: whatever else
there is of operators goes into the sides (`parse?_reads`). A rule that has been read is read again
from its display text, unless a side has an equals sign next to the operator, which can only come
from a text with blanks between the two.
-/

namespace PlcGateway

variable {c : Char} {s t text before after : List Char} {op : Operator} {rule : Rule}

/-! ## Operators in a text -/

namespace Operator

/-- The character that an operator begins with. -/
def mark : Operator → Char
  | equal => '='
  | notEqual => '!'

theorem symbol_eq (op : Operator) : op.symbol = [op.mark, '='] := by
  cases op <;> rfl

theorem symbol_ne_nil (op : Operator) : op.symbol ≠ [] := by
  cases op <;> exact List.cons_ne_nil _ _

/-- Whether a text begins with an operator. -/
def begins : List Char → Bool
  | c :: d :: _ => (c == '=' || c == '!') && d == '='
  | _ => false

/-- How many operators there are in a text, wherever they begin. -/
def count (text : List Char) : Nat := text.tails.countP begins

theorem begins_iff : begins text = true ↔ ∃ op : Operator, op.symbol <+: text := by
  constructor
  · intro h
    match text, h with
    | c :: d :: rest, h =>
      simp only [begins, Bool.and_eq_true, Bool.or_eq_true, beq_iff_eq] at h
      obtain ⟨rfl | rfl, rfl⟩ := h
      · exact ⟨equal, rest, rfl⟩
      · exact ⟨notEqual, rest, rfl⟩
  · rintro ⟨op, rest, rfl⟩
    cases op <;> rfl

theorem count_eq_zero_iff : count text = 0 ↔ ∀ op : Operator, ¬ op.symbol <:+: text := by
  simp only [count, List.countP_eq_zero, List.mem_tails, begins_iff, not_exists,
    List.infix_iff_prefix_suffix, not_and]
  constructor
  · intro h op rest hprefix hsuffix
    exact h rest hsuffix op hprefix
  · intro h rest hsuffix op hprefix
    exact h op rest hprefix hsuffix

theorem count_cons (c : Char) (s : List Char) :
    count (c :: s) = count s + if begins (c :: s) then 1 else 0 := by
  unfold count
  rw [List.tails_cons, List.countP_cons]

/-- The operators on both sides of a character and those that it is part of. -/
theorem count_append_cons (s : List Char) (c : Char) (t : List Char) :
    count (s ++ c :: t) = count (s ++ [c]) + count (c :: t) := by
  induction s with
  | nil =>
    have hone : count [c] = 0 := rfl
    rw [List.nil_append, List.nil_append, hone, Nat.zero_add]
  | cons d s ih =>
    -- only the next character matters
    have hbegins : begins (d :: (s ++ c :: t)) = begins (d :: (s ++ [c])) := by
      cases s <;> rfl
    rw [List.cons_append, List.cons_append, count_cons, count_cons, ih, hbegins]
    omega

/-- An operator counts once beside those that begin in front of it and behind its first
character. -/
theorem count_symbol (before : List Char) (op : Operator) (after : List Char) :
    count (before ++ op.symbol ++ after) =
      count (before ++ [op.mark]) + 1 + count ('=' :: after) := by
  have hone : begins (op.mark :: '=' :: after) = true := by cases op <;> rfl
  rw [symbol_eq, List.append_assoc]
  show count (before ++ op.mark :: '=' :: after) = _
  rw [count_append_cons, count_cons, if_pos hone]
  omega

theorem count_concat (hc : c ≠ '=') (s : List Char) : count (s ++ [c]) = count s := by
  induction s with
  | nil => rfl
  | cons d s ih =>
    have hbegins : begins (d :: (s ++ [c])) = begins (d :: s) := by
      cases s with
      | nil => simp [begins, hc]
      | cons e s => rfl
    rw [List.cons_append, count_cons, count_cons, ih, hbegins]

theorem count_equals_cons_eq_zero_iff :
    count ('=' :: s) = 0 ↔ count s = 0 ∧ s.head? ≠ some '=' := by
  have hbegins : begins ('=' :: s) = true ↔ s.head? = some '=' := by
    cases s <;> simp [begins]
  rw [count_cons, Ne, ← hbegins]
  split <;> simp_all

theorem infix_append_cons_iff : op.symbol <:+: s ++ c :: t ↔
    op.symbol <:+: s ++ [c] ∨ op.symbol <:+: c :: t := by
  have hshort : ¬ op.symbol <:+: [c] := by
    intro h
    have hlength := h.length_le
    rw [symbol_eq, List.length_cons, List.length_singleton, List.length_singleton] at hlength
    omega
  induction s with
  | nil =>
    rw [List.nil_append, List.nil_append]
    exact (or_iff_right hshort).symm
  | cons d s ih =>
    -- an operator in front lies within the first two characters
    have hfront : op.symbol <+: d :: (s ++ c :: t) ↔ op.symbol <+: d :: (s ++ [c]) := by
      rw [symbol_eq]
      cases s <;> simp [List.cons_prefix_cons]
    rw [List.cons_append, List.cons_append, List.infix_cons_iff, List.infix_cons_iff, hfront,
      or_assoc]
    exact or_congr_right ih

theorem equal_infix_concat_iff : equal.symbol <:+: s ++ ['='] ↔
    equal.symbol <:+: s ∨ s.getLast? = some '=' := by
  have hsuffix : equal.symbol <:+ s ++ ['='] ↔ s.getLast? = some '=' := by
    show ['='] ++ ['='] <:+ s ++ ['='] ↔ _
    rw [List.getLast?_eq_some_iff]
    constructor
    · rintro ⟨front, h⟩
      rw [← List.append_assoc] at h
      exact ⟨front, (List.append_cancel_right h).symm⟩
    · rintro ⟨front, rfl⟩
      exact ⟨front, (List.append_assoc front ['='] ['=']).symm⟩
  rw [List.infix_concat_iff, hsuffix, or_comm]

theorem count_eq_zero_of_infix (h : s <:+: t) (none : count t = 0) : count s = 0 := by
  rw [count_eq_zero_iff] at none ⊢
  exact fun op hop => none op (hop.trans h)

end Operator

/-! ## Reading -/

namespace Rule

open Operator (count)

/-- The text consists of an operator and two sides, which are the bit and the source of a rule with
blanks around them. -/
structure SplitsAt (rule : Rule) (text before after : List Char) : Prop where
  parts : text = before ++ rule.operator.symbol ++ after
  bit_eq : Text.trim before = rule.bit.toList
  bit_ne : rule.bit.toList ≠ []
  source_eq : Text.trim after = rule.source.toList
  source_ne : rule.source.toList ≠ []

theorem operator?_eq_some_iff : operator? text = some op ↔
    op.symbol <:+: text ∧ (op = .notEqual → ¬ Operator.equal.symbol <:+: text) := by
  unfold operator?
  simp only [Text.occurs_iff (Operator.symbol_ne_nil _)]
  cases op <;> split <;> simp_all

/-- A rule is read at the first occurrence of its operator, which must be the last one as well; and
`!=` is looked for only where there is no `==`. -/
theorem parse?_eq_some_iff {text : String} : parse? text = some rule ↔ ∃ before after,
    rule.SplitsAt (Text.trim text.toList) before after ∧
    ¬ rule.operator.symbol <:+: before ++ [rule.operator.mark] ∧
    ¬ rule.operator.symbol <:+: after ∧
    (rule.operator = .notEqual → ¬ Operator.equal.symbol <:+: Text.trim text.toList) := by
  have hcut : ∀ {op : Operator} {t before after : List Char},
      Text.cut? op.symbol t = some (before, after) ↔
        t = before ++ op.symbol ++ after ∧ ¬ op.symbol <:+: before ++ [op.mark] := by
    intro op t before after
    rw [Text.cut?_eq_some_iff op.symbol_ne_nil]
    have hdrop : op.symbol.dropLast = [op.mark] := by cases op <;> rfl
    rw [hdrop]
  unfold parse?
  simp only [Option.bind_eq_bind, Option.bind_eq_some_iff, operator?_eq_some_iff, Prod.exists, hcut]
  constructor
  · rintro ⟨op, ⟨-, hother⟩, before, after, ⟨hparts, hfirst⟩, hrule⟩
    split at hrule
    · cases hrule
    · next hsides =>
      simp only [Bool.or_eq_true, not_or, List.isEmpty_iff,
        Text.occurs_iff (Operator.symbol_ne_nil _)] at hsides
      obtain ⟨⟨hlast, hbit⟩, hsource⟩ := hsides
      obtain rfl := Option.some.inj hrule
      refine ⟨before, after, ⟨hparts, ?_, ?_, ?_, ?_⟩, hfirst, hlast, hother⟩
      · exact String.toList_ofList.symm
      · rwa [String.toList_ofList]
      · exact String.toList_ofList.symm
      · rwa [String.toList_ofList]
  · rintro ⟨before, after, split, hfirst, hlast, hother⟩
    refine ⟨rule.operator, ⟨⟨before, after, split.parts.symm⟩, hother⟩, before, after,
      ⟨split.parts, hfirst⟩, ?_⟩
    rw [split.bit_eq, split.source_eq, if_neg]
    · simp only [String.ofList_toList]
    · simp only [Bool.or_eq_true, not_or, List.isEmpty_iff,
        Text.occurs_iff (Operator.symbol_ne_nil _)]
      exact ⟨⟨hlast, split.bit_ne⟩, split.source_ne⟩

theorem SplitsAt.count_eq_one_iff (split : rule.SplitsAt text before after) :
    count text = 1 ↔ count (before ++ [rule.operator.mark]) = 0 ∧ count ('=' :: after) = 0 := by
  rw [split.parts, Operator.count_symbol]
  omega

/-- At `!=` a text is read exactly if there is no other operator. -/
theorem SplitsAt.notEqual_iff (split : rule.SplitsAt text before after)
    (hop : rule.operator = .notEqual) : count text = 1 ↔
      ¬ Operator.notEqual.symbol <:+: before ++ ['!'] ∧
      ¬ Operator.notEqual.symbol <:+: after ∧ ¬ Operator.equal.symbol <:+: text := by
  have hparts := split.parts
  rw [split.count_eq_one_iff, hop, Operator.count_eq_zero_iff, Operator.count_eq_zero_iff]
  rw [hop, Operator.symbol_eq, List.append_assoc] at hparts
  have htext : Operator.equal.symbol <:+: text ↔
      Operator.equal.symbol <:+: before ++ ['!'] ∨ Operator.equal.symbol <:+: '=' :: after := by
    rw [hparts]
    show _ <:+: before ++ '!' :: '=' :: after ↔ _
    rw [Operator.infix_append_cons_iff, List.infix_cons_iff (a := '!')]
    simp [Operator.symbol, List.cons_prefix_cons]
  have hafter : Operator.notEqual.symbol <:+: '=' :: after ↔
      Operator.notEqual.symbol <:+: after := by
    rw [List.infix_cons_iff]
    simp [Operator.symbol, List.cons_prefix_cons]
  constructor
  · rintro ⟨hbefore, hbehind⟩
    exact ⟨hbefore .notEqual, fun h => hbehind .notEqual (hafter.2 h),
      fun h => (htext.1 h).elim (hbefore .equal) (hbehind .equal)⟩
  · rintro ⟨hbefore, hbehind, hother⟩
    constructor
    · intro op
      cases op
      · exact fun h => hother (htext.2 (Or.inl h))
      · exact hbefore
    · intro op
      cases op
      · exact fun h => hother (htext.2 (Or.inr h))
      · exact fun h => hbehind (hafter.1 h)

/-! ## Sides -/

theorem SplitsAt.bit_infix (split : rule.SplitsAt text before after) :
    rule.bit.toList <:+: before := by
  rw [← split.bit_eq]
  exact Text.trim_isInfix before

theorem SplitsAt.source_infix (split : rule.SplitsAt text before after) :
    rule.source.toList <:+: after := by
  rw [← split.source_eq]
  exact Text.trim_isInfix after

/-- Beside a single operator the sides hold none. -/
theorem SplitsAt.count_sides (split : rule.SplitsAt text before after) (hone : count text = 1) :
    count rule.bit.toList = 0 ∧ count rule.source.toList = 0 := by
  obtain ⟨hbefore, hafter⟩ := split.count_eq_one_iff.1 hone
  constructor
  · apply Operator.count_eq_zero_of_infix _ hbefore
    exact split.bit_infix.trans (List.infix_append [] before [rule.operator.mark])
  · apply Operator.count_eq_zero_of_infix _ hafter
    exact split.source_infix.trans (List.suffix_cons '=' after).isInfix

/-! ## Display -/

theorem toList_display (rule : Rule) : rule.display.toList =
    rule.bit.toList ++ rule.operator.symbol ++ rule.source.toList := by
  unfold display
  rw [String.toList_append, String.toList_append, String.toList_ofList]

/-- The display text of a rule that was read has no blanks at its ends. -/
theorem SplitsAt.trim_display (split : rule.SplitsAt text before after) :
    Text.trim rule.display.toList = rule.display.toList := by
  rw [toList_display]
  apply Text.trim_eq_self
  · rw [List.append_assoc, List.head?_append_of_ne_nil _ split.bit_ne, ← split.bit_eq]
    exact Text.head?_trim
  · rw [List.getLast?_append_of_ne_nil _ split.source_ne, ← split.source_eq]
    exact Text.getLast?_trim

theorem SplitsAt.display (split : rule.SplitsAt text before after) :
    rule.SplitsAt (Text.trim rule.display.toList) rule.bit.toList rule.source.toList where
  parts := split.trim_display.trans (toList_display rule)
  bit_eq := by rw [← split.bit_eq, Text.trim_trim]
  bit_ne := split.bit_ne
  source_eq := by rw [← split.source_eq, Text.trim_trim]
  source_ne := split.source_ne

/-- No side has an equals sign at the end where it would be taken for a part of an operator. -/
def Stands (rule : Rule) : Prop :=
  match rule.operator with
  | .equal => rule.bit.toList.getLast? ≠ some '='
  | .notEqual => rule.source.toList.head? ≠ some '='

theorem stands_of_parse?_display {rule : Rule} (h : parse? rule.display = some rule) :
    rule.Stands := by
  obtain ⟨before, after, split, hfirst, -, hother⟩ := parse?_eq_some_iff.1 h
  have hbefore := split.bit_infix.length_le
  have hparts := split.trim_display.symm.trans split.parts
  rw [split.trim_display] at hother
  have hdisplay := toList_display rule
  unfold Stands
  cases hop : rule.operator with
  | equal =>
    -- an operator would begin with the end of the bit, in front of the one that was found
    intro hlast
    obtain ⟨front, hbit⟩ := List.getLast?_eq_some_iff.1 hlast
    rw [hop] at hparts hfirst hdisplay
    rw [hbit, List.length_append, List.length_singleton] at hbefore
    have hsooner : front ++ ['=', '='] <+: rule.display.toList := by
      rw [hdisplay, hbit]
      exact ⟨'=' :: rule.source.toList, by simp [Operator.symbol]⟩
    have hfound : before ++ ['='] <+: rule.display.toList := by
      rw [hparts]
      exact ⟨'=' :: after, by simp [Operator.symbol]⟩
    have hwithin : front ++ ['=', '='] <+: before ++ ['='] := by
      apply List.prefix_of_prefix_length_le hsooner hfound
      rw [List.length_append, List.length_append, List.length_cons, List.length_singleton]
      omega
    exact hfirst ((List.suffix_append front _).isInfix.trans hwithin.isInfix)
  | notEqual =>
    intro hhead
    obtain ⟨rest, hsource⟩ := List.head?_eq_some_iff.1 hhead
    apply hother hop
    rw [hdisplay, hop, hsource]
    exact ⟨rule.bit.toList ++ ['!'], rest, by simp [Operator.symbol]⟩

/-- A rule that was read is read again from its display text, unless an equals sign beside its
operator is in the way. -/
theorem parse?_display_iff {text : String} (h : parse? text = some rule) :
    parse? rule.display = some rule ↔ rule.Stands := by
  refine ⟨stands_of_parse?_display, fun hstands => ?_⟩
  obtain ⟨before, after, split, hfirst, hlast, hother⟩ := parse?_eq_some_iff.1 h
  apply parse?_eq_some_iff.2
  refine ⟨rule.bit.toList, rule.source.toList, split.display, ?_⟩
  unfold Stands at hstands
  cases hop : rule.operator with
  | equal =>
    rw [hop] at hstands hfirst hlast
    have hbit : ¬ Operator.equal.symbol <:+: rule.bit.toList := fun hin =>
      hfirst ((hin.trans split.bit_infix).trans (List.infix_append [] before ['=']))
    refine ⟨?_, fun hin => hlast (hin.trans split.source_infix), fun hne => by cases hne⟩
    show ¬ _ <:+: _ ++ ['=']
    rw [Operator.equal_infix_concat_iff]
    exact not_or.2 ⟨hbit, hstands⟩
  | notEqual =>
    rw [hop] at hstands hfirst hlast
    have hone := (split.notEqual_iff hop).2 ⟨hfirst, hlast, hother hop⟩
    obtain ⟨hbit, hsource⟩ := split.count_sides hone
    have hagain : count (Text.trim rule.display.toList) = 1 := by
      rw [split.display.count_eq_one_iff, hop, Operator.count_equals_cons_eq_zero_iff]
      refine ⟨?_, hsource, hstands⟩
      exact (Operator.count_concat (by decide) _).trans hbit
    obtain ⟨hbefore, hbehind, hnone⟩ := (split.display.notEqual_iff hop).1 hagain
    exact ⟨hbefore, hbehind, fun _ => hnone⟩

/-! ## The whole -/

/-- A text is read as a rule exactly if an operator stands between two sides that are not blank and
it is the only operator, or it is `==`, found once from the left. Beside a single operator the sides
hold no other. A rule that was read is read again from its display text exactly if none of its sides
has an equals sign that would join the operator. -/
theorem parse?_reads (text : String) (rule : Rule) :
    (parse? text = some rule ↔ ∃ before after,
      rule.SplitsAt (Text.trim text.toList) before after ∧
      (count (Text.trim text.toList) = 1 ∨ rule.operator = .equal ∧
        ¬ Operator.equal.symbol <:+: before ++ ['='] ∧ ¬ Operator.equal.symbol <:+: after)) ∧
    (parse? text = some rule →
      (count (Text.trim text.toList) = 1 →
        count rule.bit.toList = 0 ∧ count rule.source.toList = 0) ∧
      (parse? rule.display = some rule ↔ rule.Stands)) := by
  refine ⟨?_, fun h => ⟨fun hone => ?_, parse?_display_iff h⟩⟩
  · rw [parse?_eq_some_iff]
    apply exists_congr
    intro before
    apply exists_congr
    intro after
    apply and_congr_right
    intro split
    cases hop : rule.operator with
    | notEqual =>
      rw [split.notEqual_iff hop]
      simp only [Operator.mark, true_implies, reduceCtorEq, false_and, or_false]
    | equal =>
      have honly : count (Text.trim text.toList) = 1 →
          ¬ Operator.equal.symbol <:+: before ++ ['='] ∧
          ¬ Operator.equal.symbol <:+: after := by
        rw [split.count_eq_one_iff, hop, Operator.count_eq_zero_iff, Operator.count_eq_zero_iff]
        rintro ⟨hbefore, hafter⟩
        exact ⟨hbefore .equal, fun h => hafter .equal (h.trans (List.suffix_cons _ _).isInfix)⟩
      simp only [Operator.mark, true_and, reduceCtorEq, false_implies, and_true]
      exact (or_iff_right_of_imp honly).symm
  · obtain ⟨before, after, split, -⟩ := parse?_eq_some_iff.1 h
    exact split.count_sides hone

theorem parse?_reads_spaced :
    parse? " M64 == D71 " = some ⟨"M64", .equal, "D71"⟩ ∧
    count "M64".toList = 0 ∧ count "D71".toList = 0 ∧
    parse? "M64==D71" = some ⟨"M64", .equal, "D71"⟩ := by
  have hrule : parse? " M64 == D71 " = some ⟨"M64", .equal, "D71"⟩ := by decide
  obtain ⟨hsides, hagain⟩ := (parse?_reads " M64 == D71 " ⟨"M64", .equal, "D71"⟩).2 hrule
  obtain ⟨hbit, hsource⟩ := hsides (by decide)
  have hstands : Stands ⟨"M64", .equal, "D71"⟩ := by
    show "M64".toList.getLast? ≠ some '='
    decide
  exact ⟨hrule, hbit, hsource, hagain.2 hstands⟩

/-- Two operators are read, one of them as part of the bit; and with a blank behind `!=` an equals
sign gets into the source, so that the display text is another rule. -/
theorem parse?_mixed :
    (parse? "M1!=D2==D3" = some ⟨"M1!=D2", .equal, "D3"⟩ ∧
      count (Text.trim "M1!=D2==D3".toList) = 2) ∧
    (parse? "M1!= =D2" = some ⟨"M1", .notEqual, "=D2"⟩ ∧
      parse? (display ⟨"M1", .notEqual, "=D2"⟩) = some ⟨"M1!", .equal, "D2"⟩) := by
  decide

end Rule

end PlcGateway
