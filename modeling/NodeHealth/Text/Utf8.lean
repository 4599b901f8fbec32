import NodeHealth.Bytes

/-!
# UTF-8

Bytes are read one at a time by a machine whose state says which continuation bytes it
waits for. `Utf8.decode?` refuses ill-formed bytes; `Utf8.decodeLossy` puts one replacement
character for each longest run that begins a well-formed sequence but is cut short, and for
each byte that begins none.
-/

namespace NodeHealth.Utf8

/-- The bytes of a text. -/
def encode (text : String) : Bytes :=
  text.toList.flatMap String.utf8EncodeChar

/-- A sequence that has begun: its next byte has to lie between `lower` and `upper`, and
`further` continuation bytes follow that one. `value` is what the bytes so far amount to. -/
structure Partial where
  lower : UInt8
  upper : UInt8
  further : Nat
  value : Nat
  deriving DecidableEq, Repr

/-- What the bytes read so far leave open. -/
abbrev State := Option Partial

/-- Begin a sequence with a byte. The bounds on the second byte keep out longer forms than
needed, surrogates and numbers above the last code point. -/
def start (byte : UInt8) : List (Option Char) × State :=
  let value := byte.toNat
  if byte < 0x80 then ([some (Char.ofNat value)], none)
  else if 0xC2 ≤ byte ∧ byte ≤ 0xDF then ([], some ⟨0x80, 0xBF, 0, value - 0xC0⟩)
  else if byte = 0xE0 then ([], some ⟨0xA0, 0xBF, 1, value - 0xE0⟩)
  else if byte = 0xED then ([], some ⟨0x80, 0x9F, 1, value - 0xE0⟩)
  else if 0xE1 ≤ byte ∧ byte ≤ 0xEF then ([], some ⟨0x80, 0xBF, 1, value - 0xE0⟩)
  else if byte = 0xF0 then ([], some ⟨0x90, 0xBF, 2, value - 0xF0⟩)
  else if byte = 0xF4 then ([], some ⟨0x80, 0x8F, 2, value - 0xF0⟩)
  else if 0xF1 ≤ byte ∧ byte ≤ 0xF3 then ([], some ⟨0x80, 0xBF, 2, value - 0xF0⟩)
  else ([none], none)

/-- Read one byte. Where it does not continue the open sequence, that one is ill-formed and
the byte begins another. -/
def step (state : State) (byte : UInt8) : List (Option Char) × State :=
  match state with
  | none => start byte
  | some begun =>
      if begun.lower ≤ byte ∧ byte ≤ begun.upper then
        let value := 64 * begun.value + (byte.toNat - 0x80)
        match begun.further with
        | 0 => ([some (Char.ofNat value)], none)
        | further + 1 => ([], some ⟨0x80, 0xBF, further, value⟩)
      else
        let (read, state) := start byte
        (none :: read, state)

/-- The characters of a byte sequence, with `none` for each ill-formed part. -/
def scan (state : State) : Bytes → List (Option Char)
  | [] => if state.isSome then [none] else []
  | byte :: rest =>
      let (read, state) := step state byte
      read ++ scan state rest

/-- The text of well-formed bytes. -/
def decode? (bytes : Bytes) : Option String :=
  let read := scan none bytes
  if read.all Option.isSome then some (String.ofList (read.filterMap id)) else none

/-- The character that stands for what cannot be read. -/
def replacement : Char := '\uFFFD'

/-- The text of any bytes. -/
def decodeLossy (bytes : Bytes) : String :=
  String.ofList ((scan none bytes).map (·.getD replacement))

end NodeHealth.Utf8
