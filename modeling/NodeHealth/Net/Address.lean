import NodeHealth.Text.Numeral

/-!
# Internet addresses

Addresses of both families, their one written form, and the forms that are read. Decimal
parts have no leading zeros, a long address may be shortened once with `::` and may end in
a short one, and scope names are not part of it. The written form shortens the first of the
longest runs of at least two zero groups, and ends in a short address exactly for the
addresses that stand for one.
-/

namespace NodeHealth

/-- An internet address: four bytes, or eight groups of two bytes. -/
inductive IpAddress
  | v4 (first second third fourth : UInt8)
  | v6 (groups : Vector UInt16 8)
  deriving DecidableEq, Repr

namespace IpAddress

/-! ## Reading -/

/-- The number at the front of a text, in at most `width` digits and not above `bound`. A
decimal number has no leading zero. -/
def readNumber (base width bound : Nat) (text : List Char) : Option (Nat × List Char) :=
  let (digits, rest) := Text.digitRun base text
  let value := Text.numeralValue base digits
  if digits = [] ∨ width < digits.length ∨ bound < value then none
  else if base = 10 ∧ digits.head? = some '0' ∧ 1 < digits.length then none
  else some (value, rest)

/-- The four parts of a short address. -/
def readQuad (text : List Char) : Option ((Nat × Nat × Nat × Nat) × List Char) := do
  let (a, text) ← readNumber 10 3 255 text
  let (b, text) ← readNumber 10 3 255 (← Text.expect '.' text)
  let (c, text) ← readNumber 10 3 255 (← Text.expect '.' text)
  let (d, text) ← readNumber 10 3 255 (← Text.expect '.' text)
  return ((a, b, c, d), text)

/-- At most `limit` groups, separated by colons; with `first` no colon comes before the
first one. A short address may stand in place of the last two groups. -/
def readGroups (first : Bool) : (limit : Nat) → List Char → List Nat × Bool × List Char
  | 0, text => ([], false, text)
  | limit + 1, text =>
      match if first then some text else Text.expect ':' text with
      | none => ([], false, text)
      | some body =>
          match if limit = 0 then none else readQuad body with
          | some ((a, b, c, d), rest) => ([256 * a + b, 256 * c + d], true, rest)
          | none =>
              match readNumber 16 4 65535 body with
              | none => ([], false, text)
              | some (group, rest) =>
                  let (groups, quad, rest) := readGroups false limit rest
                  (group :: groups, quad, rest)

/-- A long address of eight groups. -/
def ofGroups? (groups : List Nat) : Option IpAddress :=
  if h : groups.length = 8 then
    some (.v6 ⟨(groups.map UInt16.ofNat).toArray, by simp [h]⟩)
  else none

/-- A long address. Where the groups do not reach eight, `::` stands for one zero group or
more. -/
def readLong (text : List Char) : Option (IpAddress × List Char) := do
  let (head, quad, rest) := readGroups true 8 text
  if head.length = 8 then
    return (← ofGroups? head, rest)
  if quad then none
  let rest ← Text.expect ':' (← Text.expect ':' rest)
  let (tail, _, rest) := readGroups true (7 - head.length) rest
  let zeros := List.replicate (8 - head.length - tail.length) 0
  return (← ofGroups? (head ++ zeros ++ tail), rest)

/-- The address that a whole text stands for. -/
def parse? (text : String) : Option IpAddress :=
  let quad := readQuad text.toList
  match quad with
  | some ((a, b, c, d), []) =>
      some (.v4 (UInt8.ofNat a) (UInt8.ofNat b) (UInt8.ofNat c) (UInt8.ofNat d))
  | some _ => none
  | none =>
      match readLong text.toList with
      | some (address, []) => some address
      | _ => none

/-! ## Writing -/

/-- The digits of a group, without leading zeros. -/
def groupText (group : UInt16) : String :=
  String.ofList (Nat.toDigits 16 group.toNat)

/-- Groups between colons. -/
def groupsText (groups : List UInt16) : String :=
  ":".intercalate (groups.map groupText)

/-- Number of zero groups at the front. -/
def leadingZeros : List UInt16 → Nat
  | group :: rest => if group = 0 then leadingZeros rest + 1 else 0
  | [] => 0

/-- Where the first of the longest runs of zero groups begins, and its length; `start` is
the position of the first group in the whole address. -/
def longestZeros (start : Nat) : List UInt16 → Nat × Nat
  | [] => (start, 0)
  | group :: rest =>
      let here := leadingZeros (group :: rest)
      let (position, length) := longestZeros (start + 1) rest
      if here ≠ 0 ∧ length ≤ here then (start, here) else (position, length)

/-- A short address between dots. -/
def quadText (a b c d : Nat) : String :=
  ".".intercalate [toString a, toString b, toString c, toString d]

/-- The written form of eight groups. -/
def longText (groups : List UInt16) : String :=
  match groups with
  | [0, 0, 0, 0, 0, 0xFFFF, high, low] =>
      "::ffff:" ++
        quadText (high.toNat / 256) (high.toNat % 256) (low.toNat / 256) (low.toNat % 256)
  | _ =>
      let (position, length) := longestZeros 0 groups
      if 1 < length then
        groupsText (groups.take position) ++ "::" ++ groupsText (groups.drop (position + length))
      else groupsText groups

/-- The written form of an address. -/
def toText : IpAddress → String
  | v4 a b c d => quadText a.toNat b.toNat c.toNat d.toNat
  | v6 groups => longText groups.toList

/-- The address that reaches the same machine. -/
def loopback : IpAddress := .v4 127 0 0 1

/-- The address that stands for all addresses of the machine. -/
def unspecified : IpAddress := .v4 0 0 0 0

end IpAddress

/-- An address and a port on it. -/
structure SocketAddress where
  ip : IpAddress
  port : UInt16
  deriving DecidableEq, Repr

/-- The written form of a socket address. -/
def SocketAddress.toText (address : SocketAddress) : String :=
  match address.ip with
  | .v4 .. => address.ip.toText ++ ":" ++ toString address.port.toNat
  | .v6 _ => "[" ++ address.ip.toText ++ "]:" ++ toString address.port.toNat

end NodeHealth
