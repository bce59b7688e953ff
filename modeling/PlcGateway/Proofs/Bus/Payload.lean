import PlcGateway.Bus.Publisher
import PlcGateway.Proofs.Cbor.Reader
import PlcGateway.Proofs.Json.Reader
import PlcGateway.Register.Value
import PlcGateway.Service.Basic

/-!
# What a payload tells

A payload in JSON is read back as the address of its message and a value; written to a device, that
value has the texts that the value of the message has (`strings_over_bus`). In either format two
payloads are the same bytes just if their messages have the same address and values that say the
same (`payload_eq_iff`): the same integer, or the same text. Which kind of integer or of text it is
gets lost, and so does the name of the PLC.
-/

namespace PlcGateway

namespace RegisterValue

/-- The integer that a number on the bus is. -/
def number? : RegisterValue → Option Int
  | .unsigned n => some n.toNat
  | .signed n => some n.toInt
  | .bit n => some n.toNat
  | .text _ => none
  | .real _ => none

/-- The text that goes onto the bus as it is. -/
def words? : RegisterValue → Option String
  | .unsigned _ => none
  | .signed _ => none
  | .bit _ => none
  | .text s => some s
  | .real s => some s

/-- A value is a number of few bits or a text, and never both. -/
theorem number_or_words (v : RegisterValue) :
    (∃ i : Int, v.number? = some i ∧ v.words? = none ∧ v.json = .int i ∧
      -2 ^ 63 ≤ i ∧ i < 2 ^ 63) ∨
    ∃ s, v.number? = none ∧ v.words? = some s ∧ v.json = .string s := by
  cases v with
  | unsigned n =>
    have hn := n.toNat_lt
    exact Or.inl ⟨n.toNat, rfl, rfl, rfl, by omega, by omega⟩
  | signed n =>
    have hlow := n.le_toInt
    have hhigh := n.toInt_lt
    exact Or.inl ⟨n.toInt, rfl, rfl, rfl, by omega, by omega⟩
  | bit n =>
    have hn := n.toNat_lt
    exact Or.inl ⟨n.toNat, rfl, rfl, rfl, by omega, by omega⟩
  | text s => exact Or.inr ⟨s, rfl, rfl, rfl⟩
  | real s => exact Or.inr ⟨s, rfl, rfl, rfl⟩

theorem plain_json (v : RegisterValue) (depth : Nat) : Json.Plain depth v.json := by
  rcases v.number_or_words with ⟨i, -, -, hjson, hlow, hhigh⟩ | ⟨s, -, -, hjson⟩
  · rw [hjson]
    exact .int hlow (by omega)
  · rw [hjson]
    exact .string s

/-- Two values are the same on the bus just if they are the same integer or the same text. -/
theorem json_eq_iff (v v' : RegisterValue) : v.json = v'.json ↔
    (∃ i, v.number? = some i ∧ v'.number? = some i) ∨
      ∃ s, v.words? = some s ∧ v'.words? = some s := by
  rcases v.number_or_words with ⟨i, hi, hni, hjson, -⟩ | ⟨s, hi, hni, hjson⟩ <;>
    rcases v'.number_or_words with ⟨i', hi', hni', hjson', -⟩ | ⟨s', hi', hni', hjson'⟩ <;>
      simp [hi, hni, hjson, hi', hni', hjson', eq_comm]

end RegisterValue

/-- An integer that came over the bus is written as its decimal numeral. -/
theorem WriteValue.strings_ofJson_int {i : Int} (low : -2 ^ 63 ≤ i) (high : i < 2 ^ 64) :
    ∃ w, ofJson (.int i) = .ok w ∧ w.strings = [String.ofList (Text.decimalInt i)] := by
  cases i with
  | ofNat n =>
    refine ⟨.uint (UInt64.ofNat n), rfl, ?_⟩
    rw [strings, UInt64.toNat_ofNat', Nat.mod_eq_of_lt (Int.ofNat_lt.1 high)]
    rfl
  | negSucc n =>
    refine ⟨.int (Int64.ofInt (.negSucc n)), rfl, ?_⟩
    rw [strings, Int64.toInt_ofInt_of_le low (by omega)]

namespace RegisterValue

theorem display_of_number? {v : RegisterValue} {i : Int} (h : v.number? = some i) :
    v.display = String.ofList (Text.decimalInt i) := by
  cases v <;> cases h <;> rfl

theorem display_of_words? {v : RegisterValue} {s : String} (h : v.words? = some s) :
    v.display = s := by
  cases v <;> cases h <;> rfl

/-- The value of a message is written with the same texts when it has come over the bus. -/
theorem strings_ofJson_json (v : RegisterValue) :
    ∃ w, WriteValue.ofJson v.json = .ok w ∧ w.strings = v.toWrite.strings := by
  rcases v.number_or_words with ⟨i, hnumber, -, hjson, hlow, hhigh⟩ | ⟨s, -, hwords, hjson⟩
  · obtain ⟨w, hw, hstrings⟩ := WriteValue.strings_ofJson_int hlow (by omega)
    refine ⟨w, by rw [hjson, hw], ?_⟩
    rw [hstrings, strings_toWrite, display_of_number? hnumber]
  · refine ⟨.text s, by rw [hjson]; rfl, ?_⟩
    rw [strings_toWrite, display_of_words? hwords]
    rfl

end RegisterValue

namespace Message

variable {message message' : Message}

/-! ## JSON -/

theorem plain_members (message : Message) :
    Json.Plain Json.maxDepth (.object message.members) := by
  show Json.Plain (126 + 1) (.object message.members)
  apply Json.Plain.object
  intro member hmem
  simp only [members, List.mem_cons, List.not_mem_nil, or_false] at hmem
  rcases hmem with rfl | rfl
  · exact .string message.address
  · exact message.value.plain_json 126

/-- A payload in JSON is a text, and it is read back as the members of its message. -/
theorem parse?_payload (message : Message) :
    ∃ text, Text.ofUtf8? (message.payload .json) = some text ∧
      Json.parse? text = some (.object message.members) :=
  ⟨String.ofList (Json.object message.members).text, Text.ofUtf8?_utf8 _,
    Json.parse?_text message.plain_members⟩

/-- A value that has come over the bus is written as the one that was read: its JSON is read back,
alone or within its payload, as a value with the same texts, so a device gets the same frames and
the writer the same answer. -/
theorem strings_over_bus (message : Message) :
    ∃ text json value, Text.ofUtf8? (message.payload .json) = some text ∧
      Json.parse? text = some (.object [("address", .string message.address), ("value", json)]) ∧
      Json.parse? (String.ofList message.value.json.text) = some json ∧
      WriteValue.ofJson json = .ok value ∧
      value.strings = message.value.toWrite.strings ∧
      ∀ {ν : Type} (network : Network ν) name device state,
        Service.writeDevice network name device value state =
          Service.writeDevice network name device message.value.toWrite state := by
  obtain ⟨text, htext, hparse⟩ := message.parse?_payload
  obtain ⟨value, hvalue, hstrings⟩ := message.value.strings_ofJson_json
  refine ⟨text, message.value.json, value, htext, hparse,
    Json.parse?_text (message.value.plain_json _), hvalue, hstrings, ?_⟩
  intro ν network name device state
  rw [Service.writeDevice, Service.writeDevice, hstrings]

/-- Payloads in JSON are the same just if the members of their messages are. -/
theorem payload_json_eq_iff (message message' : Message) :
    message.payload .json = message'.payload .json ↔ message.members = message'.members := by
  constructor
  · intro h
    obtain ⟨text, htext, hparse⟩ := message.parse?_payload
    obtain ⟨text', htext', hparse'⟩ := message'.parse?_payload
    rw [h, htext', Option.some.injEq] at htext
    rw [← htext, hparse', Option.some.injEq] at hparse
    exact (Json.object.inj hparse).symm
  · intro h
    rw [payload, payload, h]

/-! ## CBOR -/

/-- Whether the length in bytes of every text of a message fits 64 bits, as it does in memory. -/
structure Fits (message : Message) : Prop where
  address : (Text.utf8 message.address.toList).length < 2 ^ 64
  value : ∀ s ∈ message.value.words?, (Text.utf8 s.toList).length < 2 ^ 64

theorem Fits.scalar (fits : message.Fits) : Cbor.Scalar (Cbor.ofJson message.value.json) := by
  rcases message.value.number_or_words with ⟨i, -, -, hjson, hlow, hhigh⟩ | ⟨s, -, hwords, hjson⟩
  · rw [hjson, Cbor.ofJson]
    exact .int (by omega) (by omega)
  · rw [hjson, Cbor.ofJson]
    exact .text (fits.value s hwords)

/-- The bytes of a payload in CBOR: two members, each with its name in front. -/
theorem payload_cbor (message : Message) :
    message.payload .cbor = Cbor.head 5 2 ++ (Cbor.textBytes "address" ++
      ((Cbor.text message.address).bytes ++ (Cbor.textBytes "value" ++
        (Cbor.ofJson message.value.json).bytes))) := by
  simp [payload, members, Cbor.ofMembers, Cbor.ofJson, Cbor.bytes, Cbor.membersBytes]

theorem ofJson_json_injective {v v' : RegisterValue}
    (h : Cbor.ofJson v.json = Cbor.ofJson v'.json) : v.json = v'.json := by
  rcases v.number_or_words with ⟨i, -, -, hjson, -⟩ | ⟨s, -, -, hjson⟩ <;>
    rcases v'.number_or_words with ⟨i', -, -, hjson', -⟩ | ⟨s', -, -, hjson'⟩ <;>
      rw [hjson, hjson', Cbor.ofJson, Cbor.ofJson] at h <;> cases h <;> rw [hjson, hjson']

/-- Payloads in CBOR are the same just if the members of their messages are. -/
theorem payload_cbor_eq_iff (fits : message.Fits) (fits' : message'.Fits) :
    message.payload .cbor = message'.payload .cbor ↔ message.members = message'.members := by
  constructor
  · intro h
    rw [payload_cbor, payload_cbor, List.append_cancel_left_eq, List.append_cancel_left_eq] at h
    -- the address says where it ends
    obtain ⟨haddress, hrest⟩ := Cbor.Scalar.eq_of_append (.text fits.address)
      (.text fits'.address) h
    have hvalue : (Cbor.ofJson message.value.json).bytes ++ [] =
        (Cbor.ofJson message'.value.json).bytes ++ [] := by
      rw [List.append_nil, List.append_nil]
      exact List.append_cancel_left hrest
    have hjson := ofJson_json_injective (fits.scalar.eq_of_append fits'.scalar hvalue).1
    rw [members, members, Cbor.text.inj haddress, hjson]
  · intro h
    rw [payload, payload, h]

/-! ## Either format -/

theorem members_eq_iff (message message' : Message) : message.members = message'.members ↔
    message.address = message'.address ∧ message.value.json = message'.value.json := by
  simp [members]

/-- Two payloads of one format are the same bytes just if their messages have the same address and
values that are the same integer or the same text, whatever characters the texts hold. So no text
passes for a number, and no address runs into the value. CBOR counts the bytes of a text in 64
bits. -/
theorem payload_eq_iff (message message' : Message) (format : PayloadFormat)
    (fits : format = .cbor → message.Fits ∧ message'.Fits) :
    message.payload format = message'.payload format ↔
      message.address = message'.address ∧
        ((∃ i, message.value.number? = some i ∧ message'.value.number? = some i) ∨
          ∃ s, message.value.words? = some s ∧ message'.value.words? = some s) := by
  have hmembers : message.payload format = message'.payload format ↔
      message.members = message'.members := by
    cases format with
    | json => exact payload_json_eq_iff message message'
    | cbor => exact payload_cbor_eq_iff (fits rfl).1 (fits rfl).2
  rw [hmembers, members_eq_iff, RegisterValue.json_eq_iff]

/-- The text `1` is not the number one, under the same address. -/
theorem payload_eq_iff_text_one :
    (⟨"D1", .text "1", "line"⟩ : Message).payload .cbor ≠
      (⟨"D1", .bit 1, "line"⟩ : Message).payload .cbor := by
  intro h
  have hsame := (payload_eq_iff ⟨"D1", .text "1", "line"⟩ ⟨"D1", .bit 1, "line"⟩ .cbor fun _ =>
    ⟨⟨by decide, by decide⟩, ⟨by decide, by decide⟩⟩).1 h
  rcases hsame.2 with ⟨i, hnumber, -⟩ | ⟨s, -, hwords⟩
  · cases hnumber
  · cases hwords

end Message

end PlcGateway
