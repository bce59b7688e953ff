import PlcGateway.Frame.Request
import PlcGateway.WritePlan

/-!
# Words of bytes

Registers hold words, and payloads are bytes. `words` reads bytes as words; a payload that is cut
behind a whole number of words is cut between words (`words_take_append_words_drop`), and the zeros
that fill up the data of a request do not change its words (`words_wordData`).
-/

namespace PlcGateway.Bytes

/-- The words that bytes hold, the low byte first. A last byte without a partner is the low one of
its word. -/
def words : List UInt8 → List UInt16
  | [] => []
  | [low] => [word low 0]
  | low :: high :: rest => word low high :: words rest

theorem length_words (bytes : List UInt8) :
    (words bytes).length = WritePlan.registersFor bytes.length := by
  fun_induction words bytes with
  | case1 => rfl
  | case2 low => simp [WritePlan.registersFor]
  | case3 low high rest ih =>
    simp only [List.length_cons, ih, WritePlan.registersFor]
    omega

theorem words_append {front : List UInt8} (back : List UInt8) (even : front.length % 2 = 0) :
    words (front ++ back) = words front ++ words back := by
  fun_induction words front with
  | case1 => rfl
  | case2 low => simp at even
  | case3 low high rest ih =>
    have hrest : rest.length % 2 = 0 := by
      simp only [List.length_cons] at even
      omega
    show word low high :: words (rest ++ back) = word low high :: (words rest ++ words back)
    rw [ih hrest]

/-- A cut behind `count` words is a cut between words. -/
theorem words_take_append_words_drop (count : Nat) (bytes : List UInt8) :
    words (bytes.take (2 * count)) ++ words (bytes.drop (2 * count)) = words bytes := by
  rcases Nat.le_total (2 * count) bytes.length with hle | hle
  · have even : (bytes.take (2 * count)).length % 2 = 0 := by
      rw [List.length_take, Nat.min_eq_left hle]
      omega
    rw [← words_append _ even, List.take_append_drop]
  · rw [List.take_of_length_le hle, List.drop_of_length_le hle]
    exact List.append_nil _

/-- The partner of a last byte may be written out. -/
theorem words_append_zero {bytes : List UInt8} (odd : bytes.length % 2 = 1) :
    words (bytes ++ [0]) = words bytes := by
  fun_induction words bytes with
  | case1 => simp at odd
  | case2 low => rfl
  | case3 low high rest ih =>
    have hrest : rest.length % 2 = 1 := by
      simp only [List.length_cons] at odd
      omega
    show word low high :: words (rest ++ [0]) = word low high :: words rest
    rw [ih hrest]

/-- A request for as many points as the data has words brings just these words. -/
theorem words_wordData {points : UInt16} {data : List UInt8}
    (fits : WritePlan.registersFor data.length = points.toNat) :
    words (wordData points data) = words data := by
  rw [WritePlan.registersFor] at fits
  have htake : data.take (2 * points.toNat) = data := List.take_of_length_le (by omega)
  simp only [wordData, htake]
  rcases Nat.mod_two_eq_zero_or_one data.length with even | odd
  · have hnone : 2 * points.toNat - data.length = 0 := by omega
    rw [hnone, List.replicate_zero, List.append_nil]
  · have hone : 2 * points.toNat - data.length = 1 := by omega
    rw [hone]
    exact words_append_zero odd

/-- Word `i` of some bytes is made of the bytes at `2 * i` and behind it. -/
theorem getElem?_words {bytes : List UInt8} {i : Nat}
    (hi : i < WritePlan.registersFor bytes.length) :
    (words bytes)[i]? = some (word (bytes.getD (2 * i) 0) (bytes.getD (2 * i + 1) 0)) := by
  fun_induction words bytes generalizing i with
  | case1 => simp [WritePlan.registersFor] at hi
  | case2 low =>
    obtain rfl : i = 0 := by
      simp only [WritePlan.registersFor, List.length_singleton] at hi
      omega
    rfl
  | case3 low high rest ih =>
    cases i with
    | zero => rfl
    | succ i =>
      rw [List.getElem?_cons_succ, ih (by
        simp only [WritePlan.registersFor, List.length_cons] at hi ⊢
        omega)]
      rfl

/-- Data that is shorter than its points goes on with zeros. -/
theorem getElem?_wordData {points : UInt16} {i : Nat} (data : List UInt8)
    (hi : i < 2 * points.toNat) : (wordData points data)[i]? = some (data.getD i 0) := by
  rw [wordData, List.getD_eq_getElem?_getD]
  rcases Nat.lt_or_ge i data.length with hlt | hge
  · have hfront : i < (data.take (2 * points.toNat)).length := by
      rw [List.length_take]
      omega
    rw [List.getElem?_append_left hfront, List.getElem?_take_of_lt hi, List.getElem?_eq_getElem hlt]
    rfl
  · -- behind the data there are zeros
    have hfront : (data.take (2 * points.toNat)).length ≤ i := by
      rw [List.length_take]
      omega
    have hback : i - (data.take (2 * points.toNat)).length < 2 * points.toNat - data.length := by
      rw [List.length_take]
      omega
    rw [List.getElem?_append_right hfront, List.getElem?_replicate_of_lt hback,
      List.getElem?_eq_none hge]
    rfl

end PlcGateway.Bytes
