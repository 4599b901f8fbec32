import NodeHealth.Wire.Varint

/-!
# Frames

A frame is a payload behind its length. The length is a varint or four little-endian
bytes, and one connection uses one of the two throughout. `Frame.encode` is a frame,
`Frame.write` appends one to a buffer, and `Frame.parse` says what a reader makes of a byte
sequence that then ends, and how many of its bytes it takes.
-/

namespace NodeHealth

/-- How the length of a payload is written. -/
inductive Framing
  | varint
  | fixed32
  deriving DecidableEq, Repr

/-- The name of a framing. -/
def Framing.name : Framing → String
  | varint => "varint"
  | fixed32 => "fixed32"

/-- The four bytes of a word, lowest first. -/
def littleEndian (word : UInt32) : Bytes :=
  [word.toUInt8, (word >>> 8).toUInt8, (word >>> 16).toUInt8, (word >>> 24).toUInt8]

/-- The number whose bytes are given, lowest first. -/
def ofLittleEndian : Bytes → Nat
  | [] => 0
  | byte :: rest => byte.toNat + 256 * ofLittleEndian rest

/-- Four bytes hold a word. -/
theorem ofLittleEndian_littleEndian (word : UInt32) :
    ofLittleEndian (littleEndian word) = word.toNat := by
  have h := word.toNat_lt
  simp [littleEndian, ofLittleEndian, UInt32.toNat_shiftRight, Nat.shiftRight_eq_div_pow]
  omega

namespace Frame

/-- Number of bytes of a fixed length prefix. -/
def fixedPrefixLength : Nat := 4

/-- The largest length that a fixed prefix can hold. -/
def maxFixedLength : Nat := 4294967295

/-- The prefix and the payload. -/
def encode : Framing → Bytes → Except WireError Bytes
  | .varint, payload => do
      let length ← Varint.encode (UInt64.ofNat payload.length)
      return length ++ payload
  | .fixed32, payload =>
      if maxFixedLength < payload.length then
        .error (.frameTooLarge (UInt64.ofNat payload.length) maxFixedLength)
      else
        .ok (littleEndian (UInt32.ofNat payload.length) ++ payload)

/-- Append the frame of a payload to what a buffer holds. -/
def write : Framing → Bytes → Buffer → Except WireError Unit × Buffer
  | .varint, payload, buffer =>
      match Varint.write (UInt64.ofNat payload.length) buffer with
      | (.error error, buffer) => (.error error, buffer)
      | (.ok _, buffer) => (.ok (), buffer.append payload)
  | .fixed32, payload, buffer =>
      if maxFixedLength < payload.length then
        (.error (.frameTooLarge (UInt64.ofNat payload.length) maxFixedLength), buffer)
      else
        (.ok (), (buffer.append (littleEndian (UInt32.ofNat payload.length))).append payload)

/-- A buffer that always has room gets the whole frame. -/
theorem write_of_encode {framing : Framing} {payload frame : Bytes}
    (h : encode framing payload = .ok frame) (content : Bytes) :
    write framing payload ⟨content, none⟩ = (.ok (), ⟨content ++ frame, none⟩) := by
  cases framing with
  | varint =>
      simp only [encode, Varint.encode, Varint.write] at h
      simp only [write, Varint.write]
      cases hgroups : Varint.groups? Varint.maxLength (UInt64.ofNat payload.length) with
      | none => simp [hgroups, bind, Except.bind] at h
      | some digits =>
          simp only [hgroups, Buffer.append, bind, Except.bind, pure, Except.pure,
            List.nil_append, Except.ok.injEq] at h
          simp [Buffer.append, ← h]
  | fixed32 =>
      simp only [encode] at h
      split at h
      · cases h
      · rename_i hshort
        cases h
        simp [write, hshort, Buffer.append]

/-- A payload that has no frame leaves a buffer as it is. -/
theorem write_of_error {framing : Framing} {payload : Bytes} {error : WireError}
    (h : encode framing payload = .error error) (content : Bytes) :
    write framing payload ⟨content, none⟩ = (.error error, ⟨content, none⟩) := by
  cases framing with
  | varint =>
      simp only [encode, Varint.encode, Varint.write] at h
      simp only [write, Varint.write]
      cases hgroups : Varint.groups? Varint.maxLength (UInt64.ofNat payload.length) with
      | none =>
          simp only [hgroups, bind, Except.bind, Except.error.injEq] at h
          simp [h]
      | some digits => simp [hgroups, bind, Except.bind, pure, Except.pure] at h
  | fixed32 =>
      simp only [encode] at h
      split at h
      · rename_i hlong
        cases h
        simp [write, hlong]
      · cases h

/-- What a reader makes of a byte sequence: its result, and the number of bytes taken. -/
structure Reading where
  result : Except WireError Bytes
  taken : Nat

/-- Read the payload that a prefix of `used` bytes announces from the bytes behind it. -/
def parseBody (limit : Nat) (length : UInt64) (used : Nat) (rest : Bytes) : Reading :=
  if length = 0 then ⟨.ok [], used⟩
  else if limit < length.toNat then ⟨.error (.frameTooLarge length limit), used⟩
  else if rest.length < length.toNat then ⟨.error .closed, used + rest.length⟩
  else ⟨.ok (rest.take length.toNat), used + length.toNat⟩

/-- Read one frame from `bytes`, behind which the stream ends. Nothing beyond the frame,
and no payload that is not wanted, is taken. -/
def parse (framing : Framing) (limit : Nat) (bytes : Bytes) : Reading :=
  match framing with
  | .varint =>
      match Varint.decode bytes with
      | .error error => ⟨.error error, Varint.maxLength⟩
      | .ok none => ⟨.error .closed, bytes.length⟩
      | .ok (some (length, used)) => parseBody limit length used (bytes.drop used)
  | .fixed32 =>
      if bytes.length < fixedPrefixLength then ⟨.error .closed, bytes.length⟩
      else
        parseBody limit (UInt64.ofNat (ofLittleEndian (bytes.take fixedPrefixLength)))
          fixedPrefixLength (bytes.drop fixedPrefixLength)

end Frame

end NodeHealth
