/-!
# TOML values

A document is a table. What may be added to a table depends on how it came about, so that
every table remembers its form, and two rules cover all additions: `descend` says which
tables a path may lead through, and `enter` what may be put at its end.
-/

namespace NodeHealth.Toml

/-- How a table came about. -/
inductive TableForm
  /-- It has a header of its own, or is the document itself. -/
  | headed
  /-- A longer header leads through it. -/
  | implied
  /-- A dotted key leads through it. -/
  | dotted
  /-- It is written in braces. -/
  | inline
  deriving DecidableEq, Repr

/-- A value of a document. -/
inductive Value
  | string (text : String)
  | integer (value : Int)
  | float (literal : String)
  | boolean (value : Bool)
  | dateTime (literal : String)
  | array (elements : List Value)
  | table (form : TableForm) (entries : List (String × Value))
  /-- The tables of repeated headers in double brackets. -/
  | tables (elements : List (List (String × Value)))

/-- The entries of a table, in the order in which they were added. -/
abbrev Entries := List (String × Value)

namespace Entries

/-- The value of a key. -/
def find? (entries : Entries) (key : String) : Option Value :=
  List.lookup key entries

/-- Give a key a value, in its old place if it has one. -/
def assign (key : String) (value : Value) : Entries → Entries
  | [] => [(key, value)]
  | entry :: rest =>
      if entry.1 = key then (key, value) :: rest else entry :: assign key value rest

end Entries

/-- Which tables a path may lead through, and the form of those that it creates. -/
structure Passage where
  created : TableForm
  passes : TableForm → Bool

namespace Passage

/-- A header leads through every table that is not written in braces. -/
def header : Passage := ⟨.implied, (· ≠ .inline)⟩

/-- A dotted key leads through tables that have no header of their own. -/
def dottedKey : Passage := ⟨.dotted, fun form => form = .implied ∨ form = .dotted⟩

/-- Within braces a dotted key leads only through tables that dotted keys created. -/
def inlineKey : Passage := ⟨.dotted, (· = .dotted)⟩

end Passage

/-- Change the last element of a list, if there is one. -/
def changeLast? {α : Type} (change : α → Option α) : List α → Option (List α)
  | [] => none
  | [last] => (change last).map ([·])
  | first :: rest => (changeLast? change rest).map (first :: ·)

/-- Change the table to which a path leads, given its form and entries. Tables on the way
that do not exist yet are created; of the tables of repeated headers the last is meant. -/
def descend (passage : Passage) (change : TableForm → Entries → Option Entries) :
    (path : List String) → TableForm → Entries → Option Entries
  | [], form, entries => change form entries
  | key :: path, _, entries =>
      match entries.find? key with
      | none => do
          let inner ← descend passage change path passage.created []
          return entries.assign key (.table passage.created inner)
      | some (.table form inner) =>
          if passage.passes form then do
            let inner ← descend passage change path form inner
            return entries.assign key (.table form inner)
          else none
      | some (.tables elements) => do
          let elements ← changeLast? (descend passage change path .headed) elements
          return entries.assign key (.tables elements)
      | some _ => none

/-- Put a value behind the last part of a key into the table to which the other parts,
`leading` or none, have led. Only dotted keys add to tables that dotted keys created, and no
key is given twice. -/
def enter (leading : Bool) (key : String) (value : Value) (form : TableForm)
    (entries : Entries) : Option Entries :=
  if leading ≠ decide (form = .dotted) then none
  else if (entries.find? key).isSome then none
  else some (entries.assign key value)

/-- Begin the table of a header whose last part is `key`: a table that only longer headers
led through so far, or a new one. -/
def openTable (key : String) (_ : TableForm) (entries : Entries) : Option Entries :=
  match entries.find? key with
  | none => some (entries.assign key (.table .headed []))
  | some (.table .implied inner) => some (entries.assign key (.table .headed inner))
  | some _ => none

/-- Begin another table of a header in double brackets whose last part is `key`. -/
def openElement (key : String) (_ : TableForm) (entries : Entries) : Option Entries :=
  match entries.find? key with
  | none => some (entries.assign key (.tables [[]]))
  | some (.tables elements) => some (entries.assign key (.tables (elements ++ [[]])))
  | some _ => none

end NodeHealth.Toml
