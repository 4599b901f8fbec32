import NodeHealth.Toml.Value
import NodeHealth.Toml.Quoted

/-!
# Writing documents

A document without arrays is a list of sections: a header, and below it keys with simple
values. Each section but the first follows a blank line.
-/

namespace NodeHealth.Toml

/-- A value that holds no others. -/
inductive Scalar
  | string (text : String)
  | integer (value : Int)
  | boolean (value : Bool)
  deriving DecidableEq, Repr

namespace Scalar

/-- The value of a document that a scalar is. -/
def toValue : Scalar → Value
  | string text => .string text
  | integer value => .integer value
  | boolean value => .boolean value

/-- The written form of a scalar. -/
def write : Scalar → List Char
  | string text => Quoted.write text.toList
  | integer value => (toString value).toList
  | boolean true => "true".toList
  | boolean false => "false".toList

end Scalar

/-- A header and what stands below it. -/
structure Section where
  header : List String
  entries : List (String × Scalar)
  deriving DecidableEq, Repr

namespace Section

/-- One line with a key and its value. The key needs no quotes. -/
def writeEntry (entry : String × Scalar) : List Char :=
  entry.1.toList ++ " = ".toList ++ entry.2.write ++ ['\n']

/-- The lines of a section. -/
def write (content : Section) : List Char :=
  '[' :: (".".intercalate content.header).toList ++ [']', '\n'] ++
    content.entries.flatMap writeEntry

/-- The lines of a document. -/
def writeAll : List Section → List Char
  | [] => []
  | [last] => last.write
  | first :: rest => first.write ++ '\n' :: writeAll rest

end Section

end NodeHealth.Toml
