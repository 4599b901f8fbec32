import NodeHealth.Message.Field
import NodeHealth.Text.Utf8

/-!
# Health check messages

A request names a service, a response carries a status.
-/

namespace NodeHealth

/-- Whether a node serves. -/
inductive ServingStatus
  | serving
  | notServing
  deriving DecidableEq, Repr

namespace ServingStatus

/-- The number that stands for a status. -/
def toByte : ServingStatus → UInt8
  | serving => 1
  | notServing => 2

/-- The status for which a number stands, if any. -/
def ofNumber? (number : UInt64) : Option ServingStatus :=
  if number = 1 then some serving
  else if number = 2 then some notServing
  else none

/-- The name of a status. -/
def name : ServingStatus → String
  | serving => "SERVING"
  | notServing => "NOT_SERVING"

end ServingStatus

/-- The reply to a health check. -/
structure HealthResponse where
  status : ServingStatus
  deriving DecidableEq, Repr

namespace HealthResponse

/-- The reply of a node that serves. -/
def serving : HealthResponse := ⟨.serving⟩

/-- A reply is two bytes, since both statuses fit into one byte. -/
def encode (response : HealthResponse) : Bytes :=
  [FieldTag.number1.byte, response.status.toByte]

/-- The status number of a payload, whether or not it stands for a status. -/
def statusNumber? (payload : Bytes) : Option UInt64 :=
  leadingNumber? payload

end HealthResponse

/-- A health check of a service; the empty name asks about the node as a whole. -/
structure HealthRequest where
  service : String := ""
  deriving DecidableEq, Repr

/-- The service is written even if its name is empty. -/
def HealthRequest.encode (request : HealthRequest) : Except WireError Bytes := do
  let service := Utf8.encode request.service
  let length ← Varint.encode (UInt64.ofNat service.length)
  return FieldTag.bytes1.byte :: (length ++ service)

end NodeHealth
