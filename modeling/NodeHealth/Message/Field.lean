import NodeHealth.Wire.Varint

/-!
# Message fields

The tags that open a field, and the one reader that several messages share.
-/

namespace NodeHealth

/-- The byte before a field: its number and how its value is written. -/
inductive FieldTag
  | number1
  | bytes1
  | bytes2
  | number3
  deriving DecidableEq, Repr

namespace FieldTag

/-- All tags that messages use. -/
def all : List FieldTag := [number1, bytes1, bytes2, number3]

/-- The byte of a tag: eight times the field number, plus two for a byte string. -/
def byte : FieldTag → UInt8
  | number1 => 0x08
  | bytes1 => 0x0A
  | bytes2 => 0x12
  | number3 => 0x18

end FieldTag

/-- The value of field 1 of a payload that begins with it as a number. -/
def leadingNumber? : Bytes → Option UInt64
  | tag :: byte :: rest =>
      if tag = FieldTag.number1.byte then
        match Varint.decode (byte :: rest) with
        | .ok (some (value, _)) => some value
        | _ => none
      else none
  | _ => none

end NodeHealth
