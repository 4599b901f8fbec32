import NodeHealth.Text.Numeral

/-!
# Quoted texts

The four ways to quote a text: between single or triple quotes, with escapes between double
quotes and without between single ones. `Quoted.read?` reads any of them; `Quoted.write`
chooses the plainest that can hold a text and writes it.
-/

namespace NodeHealth.Toml.Quoted

/-! ## Reading -/

/-- Whether a character may stand for itself in a comment, or between quotes of any kind
if it is not the quote: tabs, and everything but control characters. -/
def isPlain (c : Char) : Bool :=
  c = '\t' || (0x20 ≤ c.toNat && c.toNat ≠ 0x7F)

/-- The character that a letter after a backslash stands for. -/
def escaped? (c : Char) : Option Char :=
  match c with
  | 'b' => some '\x08'
  | 't' => some '\t'
  | 'n' => some '\n'
  | 'f' => some '\x0C'
  | 'r' => some '\r'
  | '"' => some '"'
  | '\\' => some '\\'
  | _ => none

/-- The character with a given hexadecimal code point, which must not be a surrogate. -/
def codePoint? (digits : List Char) : Option Char :=
  let value := Text.numeralValue 16 digits
  if digits.all (Text.isDigitIn 16) ∧ value.isValidChar then some (Char.ofNat value) else none

/-- Put a character in front of a text that has been read. -/
def cons? (c : Option Char) (read : Option (List Char × List Char)) :
    Option (List Char × List Char) :=
  match c, read with
  | some c, some (text, rest) => some (c :: text, rest)
  | _, _ => none

/-- The text up to a double quote, behind which the rest follows. -/
def readBasic : List Char → Option (List Char × List Char)
  | [] => none
  | '"' :: rest => some ([], rest)
  | '\\' :: 'u' :: a :: b :: c :: d :: rest => cons? (codePoint? [a, b, c, d]) (readBasic rest)
  | '\\' :: 'U' :: a :: b :: c :: d :: e :: f :: g :: h :: rest =>
      cons? (codePoint? [a, b, c, d, e, f, g, h]) (readBasic rest)
  | '\\' :: c :: rest => cons? (escaped? c) (readBasic rest)
  | c :: rest => if isPlain c ∧ c ≠ '\\' then cons? (some c) (readBasic rest) else none

/-- The text up to a single quote, behind which the rest follows. -/
def readLiteral : List Char → Option (List Char × List Char)
  | [] => none
  | '\'' :: rest => some ([], rest)
  | c :: rest => if isPlain c then cons? (some c) (readLiteral rest) else none

/-- Whether a backslash before `text` ends its line: nothing but blanks follows on it. -/
def endsLine : List Char → Bool
  | '\n' :: _ => true
  | '\r' :: '\n' :: _ => true
  | ' ' :: rest => endsLine rest
  | '\t' :: rest => endsLine rest
  | _ => false

/-- The text up to three double quotes; up to two more that follow at once belong to it.
While `skipping`, blanks and line ends are left out, as they are after a backslash at the
end of a line. -/
def readLongBasic (skipping : Bool) : List Char → Option (List Char × List Char)
  | [] => none
  | '"' :: '"' :: '"' :: '"' :: '"' :: rest => some (['"', '"'], rest)
  | '"' :: '"' :: '"' :: '"' :: rest => some (['"'], rest)
  | '"' :: '"' :: '"' :: rest => some ([], rest)
  | '\r' :: '\n' :: rest =>
      if skipping then readLongBasic true rest else cons? (some '\n') (readLongBasic false rest)
  | '\\' :: 'u' :: a :: b :: c :: d :: rest =>
      cons? (codePoint? [a, b, c, d]) (readLongBasic false rest)
  | '\\' :: 'U' :: a :: b :: c :: d :: e :: f :: g :: h :: rest =>
      cons? (codePoint? [a, b, c, d, e, f, g, h]) (readLongBasic false rest)
  | '\\' :: c :: rest =>
      if endsLine (c :: rest) then readLongBasic true rest
      else cons? (escaped? c) (readLongBasic false rest)
  | c :: rest =>
      if skipping ∧ (c = ' ' ∨ c = '\t' ∨ c = '\n') then readLongBasic true rest
      else if (isPlain c ∨ c = '\n') ∧ c ≠ '\\' then cons? (some c) (readLongBasic false rest)
      else none

/-- The text up to three single quotes; up to two more that follow at once belong to it. -/
def readLongLiteral : List Char → Option (List Char × List Char)
  | [] => none
  | '\'' :: '\'' :: '\'' :: '\'' :: '\'' :: rest => some (['\'', '\''], rest)
  | '\'' :: '\'' :: '\'' :: '\'' :: rest => some (['\''], rest)
  | '\'' :: '\'' :: '\'' :: rest => some ([], rest)
  | '\r' :: '\n' :: rest => cons? (some '\n') (readLongLiteral rest)
  | c :: rest => if isPlain c ∨ c = '\n' then cons? (some c) (readLongLiteral rest) else none

/-- A line end right behind three quotes is not part of the text. -/
def skipLineEnd : List Char → List Char
  | '\n' :: rest => rest
  | '\r' :: '\n' :: rest => rest
  | text => text

/-- A quoted text on one line. -/
def readShort? : List Char → Option (List Char × List Char)
  | '"' :: rest => readBasic rest
  | '\'' :: rest => readLiteral rest
  | _ => none

/-- A quoted text at the front, and the rest. -/
def read? : List Char → Option (List Char × List Char)
  | '"' :: '"' :: '"' :: rest => readLongBasic false (skipLineEnd rest)
  | '\'' :: '\'' :: '\'' :: rest => readLongLiteral (skipLineEnd rest)
  | text => readShort? text

/-! ## Writing -/

/-- Whether a character can be written in no other way than by an escape. -/
def needsEscape (c : Char) : Bool :=
  !(isPlain c || c = '\n')

/-- Length of the longest run of a character, given that `run` of it came right before. -/
def longestRun (c : Char) (run : Nat) : List Char → Nat
  | [] => run
  | d :: rest =>
      if d = c then longestRun c (run + 1) rest else max run (longestRun c 0 rest)

/-- How a text is quoted. -/
inductive Style
  | basic
  | literal
  | longBasic
  | longLiteral
  deriving DecidableEq, Repr

/-- The first style that can hold a text without escapes, single lines before several and
double quotes before single ones; else the one with escapes that suits its lines. -/
def Style.of (text : List Char) : Style :=
  let escape := text.any needsEscape
  let backslash := text.contains '\\'
  let lines := text.contains '\n'
  let doubles := longestRun '"' 0 text
  let singles := longestRun '\'' 0 text
  if !escape ∧ !backslash ∧ doubles = 0 ∧ !lines then .basic
  else if !escape ∧ singles = 0 ∧ !lines then .literal
  else if !escape ∧ !backslash ∧ doubles ≤ 2 then .longBasic
  else if !escape ∧ singles ≤ 2 then .longLiteral
  else if lines then .longBasic
  else .basic

/-- The four hexadecimal digits of a number below 65536. -/
def hexDigits (value : Nat) : List Char :=
  [value / 4096 % 16, value / 256 % 16, value / 16 % 16, value % 16].map fun digit =>
    (Nat.digitChar digit).toUpper

/-- The escape of a character that has one. -/
def escape? (c : Char) : Option (List Char) :=
  match c with
  | '\x08' => some ['\\', 'b']
  | '\t' => some ['\\', 't']
  | '\n' => some ['\\', 'n']
  | '\x0C' => some ['\\', 'f']
  | '\r' => some ['\\', 'r']
  | '"' => some ['\\', '"']
  | '\\' => some ['\\', '\\']
  | c => if isPlain c then none else some ('\\' :: 'u' :: hexDigits c.toNat)

/-- Write a text between double quotes. -/
def writeBasic (text : List Char) : List Char :=
  text.flatMap fun c => (escape? c).getD [c]

/-- Write a text between three double quotes: of a run of quotes every third is escaped, and
`run` counts those right before. -/
def writeLongBasic (run : Nat) : List Char → List Char
  | [] => []
  | c :: rest =>
      if c = '\n' then c :: writeLongBasic 0 rest
      else if c = '"' ∧ run < 2 then c :: writeLongBasic (run + 1) rest
      else (escape? c).getD [c] ++ writeLongBasic 0 rest

/-- The line end that follows three quotes before a text of several lines. -/
def lineStart (text : List Char) : List Char :=
  if text.contains '\n' then ['\n'] else []

/-- A text with its quotes. -/
def write (text : List Char) : List Char :=
  match Style.of text with
  | .basic => '"' :: writeBasic text ++ ['"']
  | .literal => '\'' :: text ++ ['\'']
  | .longBasic => ['"', '"', '"'] ++ lineStart text ++ writeLongBasic 0 text ++ ['"', '"', '"']
  | .longLiteral => ['\'', '\'', '\''] ++ lineStart text ++ text ++ ['\'', '\'', '\'']

end NodeHealth.Toml.Quoted
