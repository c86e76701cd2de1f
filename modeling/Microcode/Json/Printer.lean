import Microcode.Json.Basic
/-!
# JSON Printing

A value as JSON text, on one line without blanks or laid out with two spaces per level.

Strings keep every character except the quotation mark, the backslash and the control
characters. Of these the five with a name take their short escape and the others four lower-case
hexadecimal digits.

## Main definitions

* `Json.escape`: The text of a character inside a string.
* `Json.quote`: A string with its quotation marks.
* `Json.compact`: A value on one line.
* `Json.pretty`: A value with one item or member per line.
-/

namespace Microcode

namespace Json

/-- The characters that stand for one character inside a string. -/
def escape (c : Char) : List Char :=
  if c = '"' then ['\\', '"']
  else if c = '\\' then ['\\', '\\']
  else if c.toNat = 0x08 then ['\\', 'b']
  else if c.toNat = 0x09 then ['\\', 't']
  else if c.toNat = 0x0A then ['\\', 'n']
  else if c.toNat = 0x0C then ['\\', 'f']
  else if c.toNat = 0x0D then ['\\', 'r']
  else if c.toNat < 0x10 then ['\\', 'u', '0', '0', '0', Nat.digitChar c.toNat]
  else if c.toNat < 0x20 then ['\\', 'u', '0', '0', '1', Nat.digitChar (c.toNat - 0x10)]
  else [c]

/-- A string with its quotation marks. -/
def quote (s : String) : List Char :=
  '"' :: (s.toList.flatMap escape ++ ['"'])

/-- A key: one that denotes no text is written as one half of a surrogate pair. -/
def key : Option String → List Char
  | some s => quote s
  | none => "\"\\ud800\"".toList

/-- A value that is neither an array nor an object. -/
def scalar : Json → List Char
  | .null => "null".toList
  | .bool true => "true".toList
  | .bool false => "false".toList
  | .natural n => Nat.toDigits 10 n
  | .otherNumber => "-1".toList
  | .string s => quote s
  | .otherString => key none
  | .array _ => []
  | .object _ => []

mutual

/-- The characters of a value on one line. -/
def compactChars : Json → List Char
  | .array items => '[' :: (compactItems items ++ [']'])
  | .object members => '\x7b' :: (compactMembers members ++ ['\x7d'])
  | j => scalar j

/-- Items on one line, with commas between them. -/
def compactItems : List Json → List Char
  | [] => []
  | [j] => compactChars j
  | j :: rest => compactChars j ++ ',' :: compactItems rest

/-- Members on one line, with commas between them. -/
def compactMembers : List (Option String × Json) → List Char
  | [] => []
  | [(k, j)] => key k ++ ':' :: compactChars j
  | (k, j) :: rest => key k ++ ':' :: (compactChars j ++ ',' :: compactMembers rest)

end

/-- A value on one line. -/
def compact (j : Json) : String :=
  String.ofList (compactChars j)

/-- A line feed and the blanks in front of a line at the given level. -/
def newLine (level : Nat) : List Char :=
  '\n' :: List.replicate (2 * level) ' '

mutual

/-- The characters of a value that begins at the given level. -/
def prettyChars (level : Nat) : Json → List Char
  | .array [] => ['[', ']']
  | .array items => '[' :: (prettyItems (level + 1) items ++ newLine level ++ [']'])
  | .object [] => ['\x7b', '\x7d']
  | .object members => '\x7b' :: (prettyMembers (level + 1) members ++ newLine level ++ ['\x7d'])
  | j => scalar j

/-- Items at the given level, each on a line of its own. -/
def prettyItems (level : Nat) : List Json → List Char
  | [] => []
  | [j] => newLine level ++ prettyChars level j
  | j :: rest => newLine level ++ prettyChars level j ++ ',' :: prettyItems level rest

/-- Members at the given level, each on a line of its own. -/
def prettyMembers (level : Nat) : List (Option String × Json) → List Char
  | [] => []
  | [(k, j)] => newLine level ++ key k ++ ':' :: ' ' :: prettyChars level j
  | (k, j) :: rest =>
    newLine level ++ key k ++ ':' :: ' ' :: (prettyChars level j ++ ',' :: prettyMembers level rest)

end

/-- A value laid out with one item or member per line and two spaces per level. -/
def pretty (j : Json) : String :=
  String.ofList (prettyChars 0 j)

end Json

end Microcode
