import NodeHealth.Text.Numeral

/-!
# Numbers

Integers of 64 bits in four bases, and floats. Digits may be grouped by single underscores
between them, and a decimal number has no leading zeros. A float so large that it would
round to positive infinity is refused.
-/

namespace NodeHealth.Toml.Number

/-- The digits that go on behind a digit, each possibly after an underscore. -/
def moreDigits (base : Nat) : List Char → List Char × List Char
  | '_' :: c :: rest =>
      if Text.isDigitIn base c then
        let (digits, rest) := moreDigits base rest
        (c :: digits, rest)
      else ([], '_' :: c :: rest)
  | c :: rest =>
      if Text.isDigitIn base c then
        let (digits, rest) := moreDigits base rest
        (c :: digits, rest)
      else ([], c :: rest)
  | [] => ([], [])

/-- At least one digit, with underscores between digits left out. -/
def digits? (base : Nat) : List Char → Option (List Char × List Char)
  | c :: rest =>
      if Text.isDigitIn base c then
        let (digits, rest) := moreDigits base rest
        some (c :: digits, rest)
      else none
  | [] => none

/-- The digits of a decimal number, which begin with a zero only if it is the only one. -/
def decimalDigits? : List Char → Option (List Char × List Char)
  | '0' :: rest => some (['0'], rest)
  | text => digits? 10 text

/-- An optional sign: whether it is a minus, and the rest. -/
def sign : List Char → Bool × List Char
  | '+' :: rest => (false, rest)
  | '-' :: rest => (true, rest)
  | text => (false, text)

/-- The largest integer. -/
def maxInteger : Nat := 9223372036854775807

/-- The integer of a sign and decimal digits, if it fits into 64 bits. -/
def signed? (negative : Bool) (magnitude : Nat) : Option Int :=
  if negative then if magnitude ≤ maxInteger + 1 then some (-(magnitude : Int)) else none
  else if magnitude ≤ maxInteger then some magnitude else none

/-- An optional exponent: its value. -/
def exponent? : List Char → Option (Int × List Char)
  | e :: rest =>
      if e = 'e' ∨ e = 'E' then do
        let (negative, rest) := sign rest
        let (digits, rest) ← digits? 10 rest
        let value : Int := Text.numeralValue 10 digits
        return (if negative then -value else value, rest)
      else some (0, e :: rest)
  | [] => some (0, [])

/-- Whether a positive number, given by its digits and the power of ten of the last of
them, rounds to infinity: it lies halfway or more between the largest finite number and the
next power of two. -/
def overflows (digits : List Char) (exponent : Int) : Bool :=
  let value := Text.numeralValue 10 digits
  let least := Nat.pow 2 1024 - Nat.pow 2 970
  if value = 0 then false
  else if exponent < 0 then
    -- A number below one in every digit group cannot be large.
    let places := exponent.natAbs
    if digits.length ≤ places then false else least * Nat.pow 10 places ≤ value
  else
    let places := exponent.natAbs
    if 400 < places then true else least ≤ value * Nat.pow 10 places

/-- A number as it is read: a float keeps the digits it was written with. -/
inductive Reading
  | integer (value : Int)
  | float (literal : List Char)
  deriving DecidableEq, Repr

/-- The fraction and the exponent behind the whole part `whole`. -/
def float? (negative : Bool) (whole text : List Char) : Option (Reading × List Char) := do
  let (fraction, text) ← match text with
    | '.' :: rest => digits? 10 rest
    | text => some ([], text)
  let (exponent, text) ← exponent? text
  if ¬negative ∧ overflows (whole ++ fraction) (exponent - fraction.length) then none
  let literal := (if negative then ['-'] else []) ++ whole ++
    (if fraction = [] then [] else '.' :: fraction) ++ 'e' :: (toString exponent).toList
  return (.float literal, text)

/-- The names of the floats that are not finite numbers. -/
def special? : List Char → Option (List Char × List Char)
  | 'i' :: 'n' :: 'f' :: rest => some (['i', 'n', 'f'], rest)
  | 'n' :: 'a' :: 'n' :: rest => some (['n', 'a', 'n'], rest)
  | _ => none

/-- A number at the front of a text. Only numbers without a sign are written in another
base than ten. -/
def read? (text : List Char) : Option (Reading × List Char) :=
  match text with
  | '0' :: 'x' :: rest => based? 16 rest
  | '0' :: 'o' :: rest => based? 8 rest
  | '0' :: 'b' :: rest => based? 2 rest
  | text => do
      let (negative, body) := sign text
      match special? body with
      | some (name, rest) => return (.float ((if negative then ['-'] else []) ++ name), rest)
      | none =>
          let (whole, rest) ← decimalDigits? body
          match rest with
          | c :: _ =>
              if c = '.' ∨ c = 'e' ∨ c = 'E' then float? negative whole rest
              else integer? negative whole rest
          | [] => integer? negative whole rest
where
  /-- An integer in another base. -/
  based? (base : Nat) (text : List Char) : Option (Reading × List Char) := do
    let (digits, rest) ← digits? base text
    let value ← signed? false (Text.numeralValue base digits)
    return (.integer value, rest)
  /-- A decimal integer. -/
  integer? (negative : Bool) (digits rest : List Char) : Option (Reading × List Char) := do
    let value ← signed? negative (Text.numeralValue 10 digits)
    return (.integer value, rest)

end NodeHealth.Toml.Number
