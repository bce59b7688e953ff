import Mathlib.Data.List.Induction
import Mathlib.Logic.Function.Basic

/-!
# Storing words in cells

A row of words is stored word by word, each at the address that its place in the row leads to. If no
two places lead to one address, every word is found where it was stored, whatever the order
(`store_ofWords`), and no other cell has changed (`store_ofWords_of_ne`). Addresses are of any type,
so that the same holds of natural numbers and of offsets that go round.
-/

namespace PlcGateway.Cells

variable {α β : Type}

/-- Words with the addresses that their places lead to. -/
def ofWords (address : Nat → α) (words : List UInt16) : List (α × UInt16) :=
  words.zipIdx.map fun word => (address word.2, word.1)

/-- A memory after words were stored one after the other. -/
def store [DecidableEq α] (memory : α → UInt16) (cells : List (α × UInt16)) : α → UInt16 :=
  cells.foldl (fun memory cell => Function.update memory cell.1 cell.2) memory

theorem ofWords_append (address : Nat → α) (front back : List UInt16) :
    ofWords address (front ++ back) =
      ofWords address front ++ ofWords (fun i => address (front.length + i)) back := by
  unfold ofWords
  rw [List.zipIdx_append, List.map_append, Nat.zero_add,
    List.zipIdx_eq_map_add (i := front.length), List.map_map]
  rfl

theorem ofWords_congr {a b : Nat → α} {words : List UInt16}
    (h : ∀ i < words.length, a i = b i) : ofWords a words = ofWords b words := by
  refine List.map_congr_left fun word hword => ?_
  have hlt := List.snd_lt_of_mem_zipIdx hword
  rw [h word.2 (by omega)]

/-- Words keep their places where their addresses are translated. -/
theorem map_ofWords (f : α → β) (address : Nat → α) (words : List UInt16) :
    (ofWords address words).map (Prod.map f id) = ofWords (fun i => f (address i)) words := by
  unfold ofWords
  rw [List.map_map]
  rfl

variable [DecidableEq α] {memory : α → UInt16} {address : Nat → α} {words : List UInt16}

theorem store_append (memory : α → UInt16) (front back : List (α × UInt16)) :
    store memory (front ++ back) = store (store memory front) back :=
  List.foldl_append

theorem store_ofWords_concat (memory : α → UInt16) (address : Nat → α) (words : List UInt16)
    (word : UInt16) :
    store memory (ofWords address (words ++ [word])) =
      Function.update (store memory (ofWords address words)) (address words.length) word := by
  rw [ofWords_append, store_append]
  rfl

/-- Every word is where it was stored. -/
theorem store_ofWords {i : Nat} {word : UInt16}
    (distinct : ∀ i < words.length, ∀ j < words.length, address i = address j → i = j)
    (found : words[i]? = some word) :
    store memory (ofWords address words) (address i) = word := by
  -- from the back, since the word that was stored last is the one that is seen
  induction words using List.reverseRecOn with
  | nil => simp at found
  | append_singleton words last ih =>
    rw [store_ofWords_concat]
    simp only [List.length_append, List.length_singleton] at distinct
    rcases Nat.lt_trichotomy i words.length with hlt | heq | hgt
    · -- the last word goes elsewhere
      have hne : address i ≠ address words.length := by
        intro h
        have := distinct i (by omega) words.length (by omega) h
        omega
      rw [Function.update_of_ne hne]
      rw [List.getElem?_append_left hlt] at found
      exact ih (fun i hi j hj => distinct i (by omega) j (by omega)) found
    · rw [heq, Function.update_self]
      rw [heq, List.getElem?_concat_length] at found
      exact Option.some.inj found
    · rw [List.getElem?_eq_none (by simp; omega)] at found
      exact absurd found (by simp)

/-- A cell where nothing was stored is as it was. -/
theorem store_ofWords_of_ne {a : α} (h : ∀ i < words.length, address i ≠ a) :
    store memory (ofWords address words) a = memory a := by
  induction words using List.reverseRecOn with
  | nil => rfl
  | append_singleton words last ih =>
    simp only [List.length_append, List.length_singleton] at h
    have hne : a ≠ address words.length := (h words.length (by omega)).symm
    rw [store_ofWords_concat, Function.update_of_ne hne]
    exact ih fun i hi => h i (by omega)

end PlcGateway.Cells
