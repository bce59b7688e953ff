import PlcGateway.Device.Code
import PlcGateway.Register.Format

/-!
# Devices

A device is a run of registers in one area, with the format of its value. It keeps its number as
it was written, since that is part of its address; `number_offset` says that this text and the
offset on the wire agree.
-/

namespace PlcGateway

/-- A run of registers of a PLC. -/
structure Device where
  code : DeviceCode
  /-- The number as written, without blanks around it. -/
  number : String
  offset : UInt32
  format : RegisterFormat
  registers : UInt16
  number_trimmed : Text.trimmed number = number
  number_offset : code.offset? number.toList = some offset
  registers_pos : 0 < registers
  deriving DecidableEq

namespace Device

/-- Makes a device from its code and number; a count of zero registers counts as one. -/
def make (code number : String) (format : RegisterFormat) (registers : UInt16) :
    Except DeviceError Device :=
  match DeviceCode.parse? code with
  | none => .error (.unknownCode (Text.trimmed code))
  | some code =>
    match h : code.offset? (Text.trimmed number).toList with
    | none => .error (.invalidNumber code (Text.trimmed number))
    | some offset =>
      .ok {
        code, number := Text.trimmed number, offset, format
        registers := if registers = 0 then 1 else registers
        number_trimmed := Text.trimmed_trimmed number
        number_offset := h
        registers_pos := by
          split
          · decide
          · next h => exact UInt16.pos_iff_ne_zero.2 h }

/-- Makes a device with as many registers as its format has. -/
def ofFormat (code number : String) (format : RegisterFormat) : Except DeviceError Device :=
  make code number format format.registers

/-- The name of a device in messages, in the cache and on the bus. -/
def address (device : Device) : String := device.code.mnemonic ++ device.number

end Device

end PlcGateway
