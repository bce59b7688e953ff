import PlcGateway.Device.Basic
import PlcGateway.Register.Codec
import PlcGateway.Text.Cut

/-!
# Device lists and write targets

A device list is written `code,number,format,code,number,format,…`. A list that is no row of
triples is empty as a whole; a triple that names no device is left out. A write target is written
`code,number,format,count`, where a format or count that is missing or no number counts as one.
-/

namespace PlcGateway

/-- The pieces of a text between commas, without the blanks around them. -/
def commaFields (text : String) : List String :=
  (Text.fields ',' text.toList).map fun piece => String.ofList (Text.trim piece)

/-- A list in groups of three, if it can be divided so. -/
def triples? {α : Type} : List α → Option (List (α × α × α))
  | [] => some []
  | a :: b :: c :: rest => (triples? rest).map ((a, b, c) :: ·)
  | _ => none

/-- Why a text is no write target. -/
inductive TargetError where
  | incomplete (target : String)
  | format (e : CodecError)
  | device (e : DeviceError)
  deriving DecidableEq, Repr

/-- The wording of a refusal. -/
def TargetError.message : TargetError → String
  | .incomplete target => s!"destination '{target}' needs at least type,number"
  | .format e => e.message
  | .device e => e.message

namespace Device

/-- The device of a triple, if there is one. -/
def ofTriple? : String × String × String → Option Device
  | (code, number, format) => do
    let n ← (Text.readNat 10 255 format.toList).toOption
    let format ← RegisterFormat.ofCode? n
    (ofFormat code number format).toOption

/-- The devices of a list. -/
def parseList (list : String) : List Device :=
  if Text.allBlank list.toList then []
  else
    match triples? (commaFields list) with
    | none => []
    | some triples => triples.filterMap ofTriple?

/-- The number in a field, or one if the field is missing or holds no number up to `limit`. -/
def numberOrOne (limit : Nat) (field : Option String) : Nat :=
  match field with
  | none => 1
  | some text => ((Text.readNat 10 limit text.toList).toOption).getD 1

/-- The device that a write target names. -/
def parseTarget (target : String) : Except TargetError Device :=
  match commaFields target with
  | code :: number :: rest =>
    if code.isEmpty || number.isEmpty then .error (.incomplete target)
    else
      match RegisterFormat.ofCode (numberOrOne 255 rest[0]?) with
      | .error e => .error (.format e)
      | .ok format =>
        match make code number format (UInt16.ofNat (numberOrOne 65535 rest[1]?)) with
        | .error e => .error (.device e)
        | .ok device => .ok device
  | _ => .error (.incomplete target)

/-- A device as a triple of a device list. -/
def tripleText (device : Device) : String :=
  s!"{device.code.mnemonic},{device.number},{device.format.code}"

/-- Devices as a device list. -/
def listText (devices : List Device) : String :=
  String.intercalate "," (devices.map tripleText)

/-- A device as a write target. -/
def targetText (device : Device) : String :=
  s!"{device.tripleText},{device.registers.toNat}"

end Device

end PlcGateway
