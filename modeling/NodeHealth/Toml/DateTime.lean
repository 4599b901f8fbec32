import NodeHealth.Text.Numeral

/-!
# Dates and times

A day, a time of day, or both, with an offset from universal time if both are given. Every
part is checked against the calendar and the clock; a date and time is kept as written.
-/

namespace NodeHealth.Toml.DateTime

/-- A number of exactly `width` decimal digits between two bounds. -/
def field? (width low high : Nat) (text : List Char) : Option (Nat × List Char) :=
  let digits := text.take width
  let value := Text.numeralValue 10 digits
  if digits.length = width ∧ digits.all (Text.isDigitIn 10) ∧ low ≤ value ∧ value ≤ high then
    some (value, text.drop width)
  else none

/-- Number of days of a month. -/
def daysIn (year month : Nat) : Nat :=
  if month = 2 then
    if year % 4 = 0 ∧ (year % 100 ≠ 0 ∨ year % 400 = 0) then 29 else 28
  else if month = 4 ∨ month = 6 ∨ month = 9 ∨ month = 11 then 30
  else 31

/-- A day; what follows it is returned. -/
def date? (text : List Char) : Option (List Char) := do
  let (year, text) ← field? 4 0 9999 text
  let (month, text) ← field? 2 1 12 (← Text.expect '-' text)
  let (_, text) ← field? 2 1 (daysIn year month) (← Text.expect '-' text)
  return text

/-- A fraction of a second, if there is one. -/
def fraction? : List Char → Option (List Char)
  | '.' :: text =>
      let (digits, rest) := Text.digitRun 10 text
      if digits = [] then none else some rest
  | text => some text

/-- A time of day, in which a leap second may be the sixtieth. -/
def time? (text : List Char) : Option (List Char) := do
  let (_, text) ← field? 2 0 23 text
  let (_, text) ← field? 2 0 59 (← Text.expect ':' text)
  let (_, text) ← field? 2 0 60 (← Text.expect ':' text)
  fraction? text

/-- An offset, if there is one. -/
def offset? : List Char → Option (List Char)
  | 'Z' :: text => some text
  | 'z' :: text => some text
  | c :: text =>
      if c = '+' ∨ c = '-' then do
        let (_, text) ← field? 2 0 23 text
        let (_, text) ← field? 2 0 59 (← Text.expect ':' text)
        return text
      else some (c :: text)
  | [] => some []

/-- A time of day behind a date, if there is one; a blank in between counts only if a time
follows it. -/
def timeAfterDate? (text : List Char) : Option (List Char) :=
  match text with
  | c :: rest =>
      if c = 'T' ∨ c = 't' ∨ (c = ' ' ∧ begins rest) then time? rest >>= offset?
      else some text
  | [] => some []
where
  /-- Whether a time of day begins here. -/
  begins (text : List Char) : Bool :=
    (text.take 2).length = 2 && (text.take 2).all (Text.isDigitIn 10) &&
      text[2]? == some ':'

/-- The part of a text before what is left of it. -/
def upTo (text rest : List Char) : List Char :=
  text.take (text.length - rest.length)

/-- Whether a text begins as a date does. -/
def beginsDate (text : List Char) : Bool :=
  (text.take 4).length = 4 && (text.take 4).all (Text.isDigitIn 10) && text[4]? == some '-'

/-- A date, a time or both at the front: the part that it takes, and the rest. The outer
option says whether the text begins as one of them does, the inner one whether it is one. -/
def read? (text : List Char) : Option (Option (List Char × List Char)) :=
  if beginsDate text then
    some ((date? text >>= timeAfterDate?).map fun rest => (upTo text rest, rest))
  else if timeAfterDate?.begins text then
    some ((time? text).map fun rest => (upTo text rest, rest))
  else none

end NodeHealth.Toml.DateTime
