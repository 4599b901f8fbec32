import NodeHealth.Bytes
import NodeHealth.Wire.Error

/-!
# Base-128 numbers

An unsigned 64-bit number is written in groups of seven bits, the low group first; every
byte but the last has its high bit set. `write` appends the shortest form to a bounded
buffer, `decode` reads any form of at most ten bytes, and `accept` is the step that
`decode` shares with reading from a stream.
-/

namespace NodeHealth

/-- A destination that holds some bytes and, unless `room` is `none`, takes only so many
more. -/
structure Buffer where
  content : Bytes := []
  room : Option Nat := none
  deriving DecidableEq, Repr

/-- Append bytes to a buffer that has room for them. -/
def Buffer.append (buffer : Buffer) (bytes : Bytes) : Buffer :=
  ⟨buffer.content ++ bytes, buffer.room.map (· - bytes.length)⟩

namespace Varint

/-- No 64-bit number takes more bytes than this. -/
def maxLength : Nat := 10

/-- Number of significant bits of a word. -/
def bitLength (value : UInt64) : Nat :=
  if value = 0 then 0 else value.toNat.log2 + 1

/-- Number of bytes of the shortest form: one for every seven significant bits, and at
least one. -/
def length (value : UInt64) : Nat :=
  (max (bitLength value) 1 + 6) / 7

/-- The groups of `value`, low group first, or `none` if it has more than `limit`. -/
def groups? : (limit : Nat) → (value : UInt64) → Option Bytes
  | 0, _ => none
  | limit + 1, value =>
      let low := (value &&& 0x7F).toUInt8
      let high := value >>> 7
      if high = 0 then some [low] else (groups? limit high).map ((low ||| 0x80) :: ·)

/-- Append the shortest form of `value` and return its length. A buffer without room for
all of it stays as it is. -/
def write (value : UInt64) (buffer : Buffer) : Except WireError Nat × Buffer :=
  match groups? maxLength value with
  | none => (.error (.varintOverflow maxLength), buffer)
  | some bytes =>
      match buffer.room with
      | some room =>
          if room < bytes.length then (.error (.varintOverflow room), buffer)
          else (.ok bytes.length, buffer.append bytes)
      | none => (.ok bytes.length, buffer.append bytes)

/-- The shortest form of `value`. -/
def encode (value : UInt64) : Except WireError Bytes :=
  match write value {} with
  | (.ok _, buffer) => .ok buffer.content
  | (.error error, _) => .error error

/-- Add the byte at position `index` to what the earlier bytes gave. The tenth byte has
room for the top bit of a word only. Returns the new value and whether it is complete. -/
def accept (value : UInt64) (index : Nat) (byte : UInt8) : Except WireError (UInt64 × Bool) :=
  let bits := byte &&& 0x7F
  let more := byte &&& 0x80 != 0
  if index + 1 = maxLength ∧ (more ∨ 1 < bits) then .error .malformedVarint
  else .ok (value ||| (bits.toUInt64 <<< UInt64.ofNat (7 * index)), !more)

/-- Continue at position `index` with at most `limit` more bytes. -/
def decodeFrom (value : UInt64) (index : Nat) :
    (limit : Nat) → Bytes → Except WireError (Option (UInt64 × Nat))
  | limit + 1, byte :: rest =>
      match accept value index byte with
      | .error error => .error error
      | .ok (value, true) => .ok (some (value, index + 1))
      | .ok (value, false) => decodeFrom value (index + 1) limit rest
  | _, _ => .ok none

/-- The number at the front of `bytes` and the bytes it takes, or `none` if they end
before it does. -/
def decode (bytes : Bytes) : Except WireError (Option (UInt64 × Nat)) :=
  decodeFrom 0 0 maxLength bytes

end Varint

end NodeHealth
