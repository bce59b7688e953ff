import PlcGateway.Bytes.LittleEndian
import PlcGateway.Json.Basic
import PlcGateway.Text.Utf8

/-!
# CBOR

The binary form of a value. Each item begins with a head: three bits for its kind and a number in
the shortest form that holds it. A map either gives the number of its members or is open and ends
with a mark of its own.
-/

namespace PlcGateway

/-- A CBOR item. -/
inductive Cbor where
  | null
  | bool (b : Bool)
  | int (n : Int)
  | double (bits : UInt64)
  | text (s : String)
  | array (items : List Cbor)
  /-- A map that gives the number of its members. -/
  | map (members : List (String × Cbor))
  /-- A map that ends with a mark. -/
  | openMap (members : List (String × Cbor))
  deriving Repr, Inhabited

namespace Cbor

/-- The `width` lowest bytes of a number, the most significant first. -/
def big (width n : Nat) : List UInt8 := (Bytes.little width n).reverse

/-- The head of an item: its kind and a number. -/
def head (kind n : Nat) : List UInt8 :=
  let first (low : Nat) : UInt8 := UInt8.ofNat (32 * kind + low)
  if n < 24 then [first n]
  else if n < UInt8.size then first 24 :: big 1 n
  else if n < UInt16.size then first 25 :: big 2 n
  else if n < UInt32.size then first 26 :: big 4 n
  else first 27 :: big 8 n

/-- A text with its length in bytes in front. -/
def textBytes (s : String) : List UInt8 :=
  let bytes := Text.utf8 s.toList
  head 3 bytes.length ++ bytes

mutual

/-- The bytes of an item. -/
def bytes : Cbor → List UInt8
  | null => [0xF6]
  | bool b => [if b then 0xF5 else 0xF4]
  | int (.ofNat n) => head 0 n
  | int (.negSucc n) => head 1 n
  | double bits => 0xFB :: big 8 bits.toNat
  | text s => textBytes s
  | array items => head 4 items.length ++ itemsBytes items
  | map members => head 5 members.length ++ membersBytes members
  | openMap members => 0xBF :: membersBytes members ++ [0xFF]

/-- The bytes of items in a row. -/
def itemsBytes : List Cbor → List UInt8
  | [] => []
  | item :: items => item.bytes ++ itemsBytes items

/-- The bytes of members in a row. -/
def membersBytes : List (String × Cbor) → List UInt8
  | [] => []
  | (name, value) :: members => textBytes name ++ value.bytes ++ membersBytes members

end

mutual

/-- A JSON value as a CBOR item. -/
def ofJson : Json → Cbor
  | .null => null
  | .bool b => bool b
  | .int n => int n
  | .double bits => double bits
  | .string s => text s
  | .array items => array (ofItems items)
  | .object members => map (ofMembers members)

/-- JSON values as CBOR items. -/
def ofItems : List Json → List Cbor
  | [] => []
  | item :: items => ofJson item :: ofItems items

/-- JSON members as CBOR members. -/
def ofMembers : List (String × Json) → List (String × Cbor)
  | [] => []
  | (name, value) :: members => (name, ofJson value) :: ofMembers members

end

end Cbor

end PlcGateway
