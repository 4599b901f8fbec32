/-!
# Numerals

Reading fixed characters, digits and unsigned numbers from the front of a text, in any base
up to sixteen.
-/

namespace NodeHealth.Text

/-- Go on behind one particular character. -/
def expect (c : Char) : List Char → Option (List Char)
  | d :: rest => if d = c then some rest else none
  | [] => none

/-- The value of a digit; letters count from ten on. -/
def digitValue? (c : Char) : Option Nat :=
  if '0' ≤ c ∧ c ≤ '9' then some (c.toNat - '0'.toNat)
  else if 'a' ≤ c ∧ c ≤ 'f' then some (c.toNat - 'a'.toNat + 10)
  else if 'A' ≤ c ∧ c ≤ 'F' then some (c.toNat - 'A'.toNat + 10)
  else none

/-- Whether a character is a digit in a base. -/
def isDigitIn (base : Nat) (c : Char) : Bool :=
  match digitValue? c with
  | some value => value < base
  | none => false

/-- The number that digits stand for, first digit first. -/
def numeralValue (base : Nat) (digits : List Char) : Nat :=
  digits.foldl (fun value c => base * value + (digitValue? c).getD 0) 0

/-- The longest run of digits at the front, and what follows it. -/
def digitRun (base : Nat) (text : List Char) : List Char × List Char :=
  (text.takeWhile (isDigitIn base), text.dropWhile (isDigitIn base))

/-- The number that a whole text of decimal digits stands for. -/
def decimal? (text : List Char) : Option Nat :=
  if text ≠ [] ∧ text.all (isDigitIn 10) then some (numeralValue 10 text) else none

end NodeHealth.Text
