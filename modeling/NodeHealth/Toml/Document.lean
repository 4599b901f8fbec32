import NodeHealth.Toml.Value
import NodeHealth.Toml.Quoted
import NodeHealth.Toml.Number
import NodeHealth.Toml.DateTime

/-!
# TOML documents

A text is first read as a list of expressions, which are headers and keys with values; the
expressions then build the document one after the other. `parse?` does both, and refuses a
text that is not well-formed as well as one whose expressions contradict each other.
-/

namespace NodeHealth.Toml

/-- A part of a document that stands on lines of its own. -/
inductive Expression
  /-- A key of one or more parts and its value. -/
  | pair (path : List String) (key : String) (value : Value)
  /-- A header in single brackets. -/
  | header (path : List String) (key : String)
  /-- A header in double brackets. -/
  | elementHeader (path : List String) (key : String)

namespace Scan

/-! ## Blanks, comments and line ends -/

/-- Leave out blanks. -/
def blanks : List Char → List Char
  | ' ' :: rest => blanks rest
  | '\t' :: rest => blanks rest
  | text => text

/-- Leave out the text of a comment. -/
def comment : List Char → List Char
  | c :: rest => if Quoted.isPlain c then comment rest else c :: rest
  | [] => []

/-- Go on behind the end of a line, or at the end of the text. -/
def lineEnd? : List Char → Option (List Char)
  | '\n' :: rest => some rest
  | '\r' :: '\n' :: rest => some rest
  | [] => some []
  | _ => none

/-- Go on behind the rest of a line on which only blanks and a comment follow. -/
def lineRest? (text : List Char) : Option (List Char) :=
  match blanks text with
  | '#' :: rest => lineEnd? (comment rest)
  | rest => lineEnd? rest

/-- Leave out blanks, comments and line ends, as between the elements of an array;
`commented` says whether a comment has begun. -/
def trivia (commented : Bool) : List Char → List Char
  | '\n' :: rest => trivia false rest
  | '\r' :: '\n' :: rest => trivia false rest
  | '#' :: rest => trivia true rest
  | c :: rest =>
      if if commented then Quoted.isPlain c else c = ' ' || c = '\t' then trivia commented rest
      else c :: rest
  | [] => []

/-! ## Keys -/

/-- Whether a character may stand in a key without quotes. -/
def isBare (c : Char) : Bool :=
  ('a' ≤ c && c ≤ 'z') || ('A' ≤ c && c ≤ 'Z') || ('0' ≤ c && c ≤ '9') || c = '-' || c = '_'

/-- One part of a key. -/
def keyPart? (text : List Char) : Option (String × List Char) :=
  match text.takeWhile isBare with
  | [] => (Quoted.readShort? text).map fun (part, rest) => (String.ofList part, rest)
  | part => some (String.ofList part, text.dropWhile isBare)

/-- How deep keys, arrays and braces may be nested. -/
def maxDepth : Nat := 80

/-- At most `limit` parts of a key between dots, with blanks around them. The last part is
returned apart. -/
def keyParts? : (limit : Nat) → List Char → Option ((List String × String) × List Char)
  | 0, _ => none
  | limit + 1, text => do
      let (part, rest) ← keyPart? (blanks text)
      match blanks rest with
      | '.' :: rest => do
          let ((path, key), rest) ← keyParts? limit rest
          return ((part :: path, key), rest)
      | rest => return (([], part), rest)

/-- A key, with the blanks around it. -/
def key? (text : List Char) : Option ((List String × String) × List Char) :=
  keyParts? (maxDepth - 1) text

/-! ## Values -/

/-- A number, a date or a time. -/
def numeric? (text : List Char) : Option (Value × List Char) :=
  match DateTime.read? text with
  | some read => read.map fun (literal, rest) => (.dateTime (String.ofList literal), rest)
  | none =>
      match Number.read? text with
      | some (.integer value, rest) => some (.integer value, rest)
      | some (.float literal, rest) => some (.float (String.ofList literal), rest)
      | none => none

/-- A value that holds no others. -/
def simple? (text : List Char) : Option (Value × List Char) :=
  match text with
  | 't' :: 'r' :: 'u' :: 'e' :: rest => some (.boolean true, rest)
  | 'f' :: 'a' :: 'l' :: 's' :: 'e' :: rest => some (.boolean false, rest)
  | '"' :: _ => quoted? text
  | '\'' :: _ => quoted? text
  | _ => numeric? text
where
  /-- A quoted text. -/
  quoted? (text : List Char) : Option (Value × List Char) :=
    (Quoted.read? text).map fun (read, rest) => (.string (String.ofList read), rest)

/-- The elements of an array up to its closing bracket, at most `limit` of them; `item`
reads one. -/
def elements? (item : List Char → Option (Value × List Char)) :
    (limit : Nat) → List Char → Option (List Value × List Char)
  | 0, _ => none
  | limit + 1, text =>
      match trivia false text with
      | ']' :: rest => some ([], rest)
      | text => do
          let (value, rest) ← item text
          match trivia false rest with
          | ',' :: rest => do
              let (values, rest) ← elements? item limit rest
              return (value :: values, rest)
          | ']' :: rest => return ([value], rest)
          | _ => none

/-- The pairs between braces, at least one and at most `limit` of them. -/
def pairs? (item : List Char → Option (Value × List Char)) :
    (limit : Nat) → Entries → List Char → Option (Entries × List Char)
  | 0, _, _ => none
  | limit + 1, entries, text => do
      let ((path, key), rest) ← key? text
      let (value, rest) ← item (blanks (← Text.expect '=' rest))
      let entries ←
        descend .inlineKey (enter (!path.isEmpty) key value) path .inline entries
      match blanks rest with
      | ',' :: rest => pairs? item limit entries rest
      | '}' :: rest => return (entries, rest)
      | _ => none

/-- A value in which arrays and braces are nested at most `depth` deep. -/
def value? : (depth : Nat) → List Char → Option (Value × List Char)
  | 0, text =>
      match text with
      | '[' :: _ => none
      | '{' :: _ => none
      | _ => simple? text
  | depth + 1, text =>
      match text with
      | '[' :: rest =>
          (elements? (value? depth) text.length rest).map fun (values, rest) =>
            (.array values, rest)
      | '{' :: rest =>
          match blanks rest with
          | '}' :: rest => some (.table .inline [], rest)
          | rest =>
              (pairs? (value? depth) text.length [] rest).map fun (entries, rest) =>
                (.table .inline entries, rest)
      | _ => simple? text

/-! ## Expressions -/

/-- The expression at the front of a text that is no comment and not blank. -/
def expression? (text : List Char) : Option (Expression × List Char) :=
  match text with
  | '[' :: '[' :: rest => do
      let ((path, key), rest) ← key? rest
      let rest ← Text.expect ']' (← Text.expect ']' rest)
      return (.elementHeader path key, rest)
  | '[' :: rest => do
      let ((path, key), rest) ← key? rest
      return (.header path key, ← Text.expect ']' rest)
  | text => do
      let ((path, key), rest) ← key? text
      let (value, rest) ← value? (maxDepth - 1) (blanks (← Text.expect '=' rest))
      return (.pair path key value, rest)

/-- The expressions of a text of at most `limit` lines. -/
def expressions? : (limit : Nat) → List Char → Option (List Expression)
  | 0, _ => none
  | limit + 1, text =>
      match blanks text with
      | [] => some []
      | '#' :: rest => lineEnd? (comment rest) >>= expressions? limit
      | '\n' :: rest => expressions? limit rest
      | '\r' :: '\n' :: rest => expressions? limit rest
      | text => do
          let (expression, rest) ← expression? text
          let others ← expressions? limit (← lineRest? rest)
          return expression :: others

end Scan

/-- A document that is being built: its entries so far, and the path of the last header. -/
structure Draft where
  entries : Entries := []
  current : List String := []

/-- Add an expression to a document. -/
def Draft.add (draft : Draft) : Expression → Option Draft
  | .pair path key value => do
      let change := descend .dottedKey (enter (!path.isEmpty) key value) path
      let entries ← descend .header change draft.current .headed draft.entries
      return { draft with entries }
  | .header path key => do
      let entries ← descend .header (openTable key) path .headed draft.entries
      return ⟨entries, path ++ [key]⟩
  | .elementHeader path key => do
      let entries ← descend .header (openElement key) path .headed draft.entries
      return ⟨entries, path ++ [key]⟩

/-- The document that expressions build. -/
def build? (expressions : List Expression) : Option Entries :=
  (expressions.foldlM Draft.add {}).map Draft.entries

/-- A mark that may stand before a text and is not part of it. -/
def byteOrderMark : Char := '\uFEFF'

/-- The document that a text stands for. -/
def parse? (text : String) : Option Entries :=
  let text := match text.toList with
    | c :: rest => if c = byteOrderMark then rest else c :: rest
    | [] => []
  Scan.expressions? (text.length + 1) text >>= build?

end NodeHealth.Toml
