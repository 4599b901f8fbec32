import NodeHealth.IoFailure

/-!
# Errors of the wire format

One cause per way in which encoding or decoding can fail, and their wording.
-/

namespace NodeHealth

/-- Why a varint, a frame or a message could not be written or read. -/
inductive WireError
  /-- An encoding needs more than the `room` bytes there are. -/
  | varintOverflow (room : Nat)
  /-- A length prefix is no varint of 64 bits. -/
  | malformedVarint
  /-- A frame declares `length` bytes where at most `limit` are accepted. -/
  | frameTooLarge (length : UInt64) (limit : Nat)
  /-- A message takes `length` bytes where at most `limit` are allowed. -/
  | messageTooLarge (length limit : Nat)
  /-- The stream ended. -/
  | closed
  /-- The stream failed. -/
  | io (failure : IoFailure)
  deriving DecidableEq, Repr

/-- The wording of a wire error. -/
def WireError.message : WireError → String
  | varintOverflow room => "Varint overflow: encoding exceeds " ++ toString room ++ " bytes"
  | malformedVarint => "Malformed varint length prefix"
  | frameTooLarge length limit =>
      "Frame too large: " ++ toString length.toNat ++ " bytes (max: " ++ toString limit ++ ")"
  | messageTooLarge length limit =>
      "Message too large: " ++ toString length ++ " bytes (max: " ++ toString limit ++ ")"
  | closed => "Connection closed"
  | io failure => "IO error: " ++ failure.text

end NodeHealth
