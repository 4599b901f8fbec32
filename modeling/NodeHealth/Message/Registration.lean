import NodeHealth.Message.NodeType
import NodeHealth.Text.Utf8

/-!
# Registration messages

A request announces a node type and the address of the node; a response accepts or refuses
it, possibly with a message.
-/

namespace NodeHealth

/-- The registration of a node. -/
structure RegisterRequest where
  nodeType : UInt64
  ip : String
  port : UInt16
  deriving DecidableEq, Repr

namespace RegisterRequest

/-- No request takes more bytes than this. -/
def maxLength : Nat := 256

/-- The registration of the node that this program stands beside. -/
def amf (ip : String) (port : UInt16) : RegisterRequest :=
  ⟨NodeType.amf, ip, port⟩

/-- Number of bytes of a request, of whatever size. -/
def encodedLength (request : RegisterRequest) : Nat :=
  let ip := (Utf8.encode request.ip).length
  1 + Varint.length request.nodeType + 1 + Varint.length (UInt64.ofNat ip) + ip + 1 +
    Varint.length request.port.toUInt64

/-- The three fields one after the other, if they fit into `maxLength` bytes. -/
def encode (request : RegisterRequest) : Except WireError Bytes :=
  if maxLength < request.encodedLength then
    .error (.messageTooLarge request.encodedLength maxLength)
  else do
    let ip := Utf8.encode request.ip
    let nodeType ← Varint.encode request.nodeType
    let ipLength ← Varint.encode (UInt64.ofNat ip.length)
    let port ← Varint.encode request.port.toUInt64
    return FieldTag.number1.byte :: nodeType ++ FieldTag.bytes2.byte :: ipLength ++ ip ++
      FieldTag.number3.byte :: port

end RegisterRequest

/-- The answer of a registration server. -/
structure RegisterResponse where
  success : Bool
  message : Option String
  deriving DecidableEq, Repr

namespace RegisterResponse

/-- The text behind a length, if all of it is there. What follows it is of no interest. -/
def message? (bytes : Bytes) : Option String :=
  match Varint.decode bytes with
  | .ok (some (length, used)) =>
      let rest := bytes.drop used
      if rest.length < length.toNat then none
      else some (Utf8.decodeLossy (rest.take length.toNat))
  | _ => none

/-- Recognise a response by its first field. The message counts only where it follows at
once and is complete. -/
def decode? : Bytes → Option RegisterResponse
  | tag :: success :: rest =>
      if tag = FieldTag.number1.byte then
        let message := match rest with
          | tag :: rest => if tag = FieldTag.bytes2.byte then message? rest else none
          | [] => none
        some ⟨success = 1, message⟩
      else none
  | _ => none

end RegisterResponse

end NodeHealth
