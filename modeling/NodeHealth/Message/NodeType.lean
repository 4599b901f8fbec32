import NodeHealth.Message.Field

/-!
# Node types

A node announces what it is by a number.
-/

namespace NodeHealth

namespace NodeType

/-- The type of the node that this program stands beside. -/
def amf : UInt64 := 13

/-- The names of the node types from 0 on. -/
def names : List String :=
  ["INVALID", "HWA", "MME", "SGW", "PGW", "MSC", "SGSN", "GGSN_C", "GGSN_U", "HNBGW", "HLR",
    "NMUSER", "GSM_CNE", "AMF"]

/-- The name of a node type. -/
def name (nodeType : UInt64) : String :=
  names[nodeType.toNat]?.getD "UNKNOWN"

end NodeType

/-- The announcement of a node type. -/
structure Identity where
  nodeType : UInt64
  deriving DecidableEq, Repr

namespace Identity

/-- The announcement that this program makes. -/
def amf : Identity := ⟨NodeType.amf⟩

/-- The type as field 1. -/
def encode (identity : Identity) : Except WireError Bytes := do
  let number ← Varint.encode identity.nodeType
  return FieldTag.number1.byte :: number

/-- The announcement with which a payload begins. -/
def decode? (payload : Bytes) : Option Identity :=
  (leadingNumber? payload).map Identity.mk

end Identity

end NodeHealth
