import NodeHealth.Wire.Frame

/-!
# Reading a frame as its bytes arrive

A `Frame.Reader` is where a reader stands inside a frame. Fed with the bytes at hand it
takes those that belong to the frame and no more: it either wants further bytes or has its
result and hands back the rest. Scripted streams and sessions read through it.
-/

namespace NodeHealth.Frame

/-- The outcome of feeding a reader: it wants more, or it is done and leaves `rest`. -/
inductive Progress (state value : Type)
  | more (reader : state)
  | done (result : Except WireError value) (rest : Bytes)
  deriving Repr

/-- A varint of which `index` bytes, worth `value` so far, have been read. -/
structure VarintReader where
  value : UInt64 := 0
  index : Nat := 0
  deriving DecidableEq, Repr

/-- Take bytes up to the end of the number. -/
def VarintReader.feed (reader : VarintReader) : Bytes → Progress VarintReader UInt64
  | [] => .more reader
  | byte :: rest =>
      match Varint.accept reader.value reader.index byte with
      | .error error => .done (.error error) rest
      | .ok (value, true) => .done (.ok value) rest
      | .ok (value, false) => VarintReader.feed ⟨value, reader.index + 1⟩ rest

/-- Where a reader stands inside a frame. -/
inductive Reader
  /-- Inside a varint length prefix. -/
  | varintPrefix (limit : Nat) (number : VarintReader)
  /-- Inside a fixed length prefix of which `got` has been read. -/
  | fixedPrefix (limit : Nat) (got : Bytes)
  /-- Inside a payload of which `got` has been read and `missing` bytes are to come. -/
  | body (missing : Nat) (got : Bytes)
  deriving DecidableEq, Repr

namespace Reader

/-- A reader at the start of a frame of at most `limit` payload bytes. -/
def start (framing : Framing) (limit : Nat) : Reader :=
  match framing with
  | .varint => .varintPrefix limit {}
  | .fixed32 => .fixedPrefix limit []

/-- Whether a reader stands inside a length prefix. -/
def inLength : Reader → Bool
  | varintPrefix _ _ => true
  | fixedPrefix _ _ => true
  | body _ _ => false

/-- Take up to `missing` bytes of a payload. -/
def feedBody (missing : Nat) (got : Bytes) (bytes : Bytes) : Progress Reader Bytes :=
  if bytes.length < missing then .more (.body (missing - bytes.length) (got ++ bytes))
  else .done (.ok (got ++ bytes.take missing)) (bytes.drop missing)

/-- Go on behind a length prefix: an empty payload is complete whatever the limit is, and
one that is too long is refused unread. -/
def feedLength (limit : Nat) (length : UInt64) (bytes : Bytes) : Progress Reader Bytes :=
  if length = 0 then .done (.ok []) bytes
  else if limit < length.toNat then .done (.error (.frameTooLarge length limit)) bytes
  else feedBody length.toNat [] bytes

/-- Take the bytes that belong to the frame. -/
def feed : Reader → Bytes → Progress Reader Bytes
  | varintPrefix limit number, bytes =>
      match number.feed bytes with
      | .more number => .more (.varintPrefix limit number)
      | .done (.error error) rest => .done (.error error) rest
      | .done (.ok length) rest => feedLength limit length rest
  | fixedPrefix limit got, bytes =>
      let wanted := fixedPrefixLength - got.length
      if bytes.length < wanted then .more (.fixedPrefix limit (got ++ bytes))
      else
        feedLength limit (UInt64.ofNat (ofLittleEndian (got ++ bytes.take wanted)))
          (bytes.drop wanted)
  | body missing got, bytes => feedBody missing got bytes

end Reader

end NodeHealth.Frame
