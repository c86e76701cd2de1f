import Microcode.Json.Basic
import Microcode.Text.Hex
/-!
# JSON Reading

The value of a JSON text.

The grammar is that of RFC 8259 and nothing besides: no comments, no byte-order mark, no commas
before a closing bracket, no leading zeros, no control characters inside strings, and nothing but
blanks around the value.

Every reader takes characters and gives back what is left of them. The readers of arrays and
objects call the reader of values, which calls them, so they share an amount of fuel. Each call
either reads a character or follows one that did, so twice the length of the text is enough.

## Main definitions

* `Json.skipBlanks`: What follows the blanks of JSON.
* `Json.readString`: A string, from behind its opening quotation mark.
* `Json.readNumber`: A number.
* `Json.readValue`: A value.
* `Json.parse?`: The value of a whole text.
-/

namespace Microcode

namespace Json

/-- Whether a character is a blank of JSON. -/
def isJsonBlank (c : Char) : Bool :=
  c == ' ' || c == '\t' || c == '\n' || c == '\r'

/-- What follows the blanks at the front. -/
def skipBlanks (cs : List Char) : List Char :=
  cs.dropWhile isJsonBlank

/-- One element of a string: a character, or the code unit of a four-digit escape that is half of
    a surrogate pair. -/
inductive Element where
  | char (c : Char)
  | half (unit : Nat)

/-- The element that a code unit of an escape is. -/
def Element.ofUnit (unit : Nat) : Element :=
  if 0xD800 ≤ unit ∧ unit ≤ 0xDFFF then .half unit else .char (Char.ofNat unit)

/-- The number that four hexadecimal digits spell. -/
def readUnit? (a b c d : Char) : Option Nat :=
  Text.readHex? [a, b, c, d]

/-- The character of an escape with a single letter. -/
def escaped? (c : Char) : Option Char :=
  if c = '"' ∨ c = '\\' ∨ c = '/' then some c
  else if c = 'b' then some '\x08'
  else if c = 'f' then some '\x0c'
  else if c = 'n' then some '\n'
  else if c = 'r' then some '\r'
  else if c = 't' then some '\t'
  else none

/-- The elements of a string up to its closing quotation mark, in reverse, in front of those in
    `done`. -/
def readElements (done : List Element) : List Char → Option (List Element × List Char)
  | [] => none
  | '"' :: rest => some (done, rest)
  | '\\' :: 'u' :: a :: b :: c :: d :: rest =>
    match readUnit? a b c d with
    | some unit => readElements (Element.ofUnit unit :: done) rest
    | none => none
  | '\\' :: c :: rest =>
    match escaped? c with
    | some c => readElements (.char c :: done) rest
    | none => none
  | c :: rest => if c.toNat < 0x20 then none else readElements (.char c :: done) rest

/-- The characters that elements in reverse denote, in front of those in `tail`. Two halves that
    form a pair are one character; any other half denotes nothing. -/
def joinElements (tail : List Char) : List Element → Option (List Char)
  | [] => some tail
  | .char c :: rest => joinElements (c :: tail) rest
  | .half low :: .half high :: rest =>
    if 0xDC00 ≤ low ∧ high < 0xDC00 then
      joinElements (Char.ofNat (0x10000 + (high - 0xD800) * 0x400 + (low - 0xDC00)) :: tail) rest
    else none
  | .half _ :: _ => none

/-- A string from behind its opening quotation mark: its text, if it denotes one. -/
def readString (cs : List Char) : Option (Option String × List Char) :=
  match readElements [] cs with
  | some (elements, rest) => some ((joinElements [] elements).map String.ofList, rest)
  | none => none

/-- The digits at the front. -/
def spanDigits (cs : List Char) : List Char × List Char :=
  (cs.takeWhile Char.isDigit, cs.dropWhile Char.isDigit)

/-- What follows a fraction, if there is one; a point needs a digit behind it. -/
def skipFraction : List Char → Option (List Char)
  | '.' :: rest => match spanDigits rest with
    | ([], _) => none
    | (_, rest) => some rest
  | cs => some cs

/-- What follows an exponent, if there is one; its letter needs a digit behind its sign. -/
def skipExponent (cs : List Char) : Option (List Char) :=
  match cs with
  | c :: rest =>
    if c = 'e' ∨ c = 'E' then
      let unsigned := match rest with
        | '+' :: rest => rest
        | '-' :: rest => rest
        | rest => rest
      match spanDigits unsigned with
      | ([], _) => none
      | (_, rest) => some rest
    else some cs
  | [] => some cs

/-- A number without its sign: its value, if it is written as plain digits. -/
def readUnsigned (cs : List Char) : Option (Option Nat × List Char) :=
  match spanDigits cs with
  | ([], _) => none
  | (digits, rest) =>
    if digits.head? = some '0' ∧ digits.length ≠ 1 then none
    else match skipFraction rest with
      | none => none
      | some afterFraction => match skipExponent afterFraction with
        | none => none
        | some afterExponent =>
          if afterExponent.length = rest.length
          then some (some (Nat.ofDigitChars 10 digits 0), rest)
          else some (none, afterExponent)

/-- A number. -/
def readNumber : List Char → Option (Json × List Char)
  | '-' :: cs => (readUnsigned cs).map (fun read => (.otherNumber, read.2))
  | cs => (readUnsigned cs).map fun
    | (some n, rest) => (.natural n, rest)
    | (none, rest) => (.otherNumber, rest)

/-- A string, from behind its opening quotation mark. -/
def readText (cs : List Char) : Option (Json × List Char) :=
  (readString cs).map fun
    | (some s, rest) => (.string s, rest)
    | (none, rest) => (.otherString, rest)

mutual

/-- A value at the front, without blanks before it. -/
def readValue : Nat → List Char → Option (Json × List Char)
  | 0, _ => none
  | fuel + 1, cs => match cs with
    | 'n' :: 'u' :: 'l' :: 'l' :: rest => some (.null, rest)
    | 't' :: 'r' :: 'u' :: 'e' :: rest => some (.bool true, rest)
    | 'f' :: 'a' :: 'l' :: 's' :: 'e' :: rest => some (.bool false, rest)
    | '"' :: rest => readText rest
    | '[' :: rest => match skipBlanks rest with
      | ']' :: rest => some (.array [], rest)
      | rest => readItems fuel [] rest
    | '\x7b' :: rest => match skipBlanks rest with
      | '\x7d' :: rest => some (.object [], rest)
      | rest => readMembers fuel [] rest
    | cs => readNumber cs

/-- The items up to the end of an array, behind those in `done`, which are in reverse. -/
def readItems : Nat → List Json → List Char → Option (Json × List Char)
  | 0, _, _ => none
  | fuel + 1, done, cs => match readValue fuel cs with
    | none => none
    | some (item, rest) => match skipBlanks rest with
      | ',' :: rest => readItems fuel (item :: done) (skipBlanks rest)
      | ']' :: rest => some (.array (item :: done).reverse, rest)
      | _ => none

/-- The members up to the end of an object, behind those in `done`, which are in reverse. -/
def readMembers : Nat → List (Option String × Json) → List Char → Option (Json × List Char)
  | 0, _, _ => none
  | fuel + 1, done, cs => match cs with
    | '"' :: rest => match readString rest with
      | none => none
      | some (key, rest) => match skipBlanks rest with
        | ':' :: rest => match readValue fuel (skipBlanks rest) with
          | none => none
          | some (value, rest) => match skipBlanks rest with
            | ',' :: rest => readMembers fuel ((key, value) :: done) (skipBlanks rest)
            | '\x7d' :: rest => some (.object ((key, value) :: done).reverse, rest)
            | _ => none
        | _ => none
    | _ => none

end

/-- The value of a whole text. -/
def parse? (text : String) : Option Json :=
  match readValue (2 * text.toList.length + 1) (skipBlanks text.toList) with
  | some (value, rest) => if skipBlanks rest = [] then some value else none
  | none => none

end Json

end Microcode
