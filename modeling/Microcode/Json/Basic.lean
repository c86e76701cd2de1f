/-!
# JSON Values

The values that a JSON text denotes, as far as this library can tell them apart, and the ways to
read typed data out of them.

Table files, snapshots and saved machines are JSON. All numbers in them are natural numbers, so
a number written in any other way (with a sign, a fraction or an exponent) is only known to be
one: no reader accepts it, but it may stand where a value is skipped, however large it is. In
the same way a string with an escape for half of a surrogate pair is a string that denotes no
text.

A record is written as an object with its members in order. It is read from such an object, in
any order and with unknown members skipped, or from an array that holds exactly its members in
order. A choice between named alternatives is written as the name, or as an object with the name
as its only key if the alternative carries a value.

## Main definitions

* `Json`: The values.
* `Json.record`: An object with text keys.
* `Json.text?`, `Json.natural?`, `Json.byte?`, `Json.count?`, `Json.flag?`: Readers of plain
  values.
* `Json.items?`, `Json.pair?`, `Json.nullable?`: Readers of lists, pairs and optional values.
* `Json.members?`: The members of a record, by name.
* `Json.name?`, `Json.tagged?`: Alternatives without and with a value.
-/

namespace Microcode

/-- A JSON value. -/
inductive Json where
  | null
  | bool (b : Bool)
  /-- A number that is written as plain decimal digits. -/
  | natural (n : Nat)
  /-- A number that is written in any other way. -/
  | otherNumber
  | string (s : String)
  /-- A string that denotes no text: an escape in it names half of a surrogate pair. -/
  | otherString
  | array (items : List Json)
  /-- An object with its members in the order of the text. A key is `none` if it is a string
      that denotes no text. -/
  | object (members : List (Option String × Json))
  deriving Inhabited

namespace Json

/-- An object with text keys. -/
def record (members : List (String × Json)) : Json :=
  .object (members.map (fun member => (some member.1, member.2)))

/-- A byte as a number. -/
def byte (b : UInt8) : Json :=
  .natural b.toNat

/-- An optional value, with `null` for its absence. -/
def nullable {α : Type} (f : α → Json) : Option α → Json
  | some a => f a
  | none => .null

/-- The text of a string. -/
def text? : Json → Option String
  | .string s => some s
  | _ => none

/-- The value of a natural number. -/
def natural? : Json → Option Nat
  | .natural n => some n
  | _ => none

/-- A natural number below 256. -/
def byte? (j : Json) : Option UInt8 :=
  j.natural?.bind fun n => if n < 256 then some (UInt8.ofNat n) else none

/-- A natural number of at most 64 bits. -/
def count? (j : Json) : Option UInt64 :=
  j.natural?.bind fun n => if n < 18446744073709551616 then some (UInt64.ofNat n) else none

/-- The value of a boolean. -/
def flag? : Json → Option Bool
  | .bool b => some b
  | _ => none

/-- The items of an array, each read by `f`. -/
def items? {α : Type} (f : Json → Option α) : Json → Option (List α)
  | .array items => items.mapM f
  | _ => none

/-- An array of two items. -/
def pair? {α β : Type} (f : Json → Option α) (g : Json → Option β) : Json → Option (α × β)
  | .array [a, b] => do return (← f a, ← g b)
  | _ => none

/-- A value that may be `null`. -/
def nullable? {α : Type} (f : Json → Option α) : Json → Option (Option α)
  | .null => some none
  | j => (f j).map some

/-- The values that an object gives for a key. -/
def valuesOf (name : String) (members : List (Option String × Json)) : List Json :=
  (members.filter (fun member => member.1 == some name)).map Prod.snd

/-- The members of a record with the given member names, in that order. An object may give them
    in any order, may leave members out and may have other members, but its keys are texts and
    it gives no member twice. An array gives each member once, in order. -/
def members? (names : List String) : Json → Option (List (Option Json))
  | .object members =>
    if members.all (fun member => member.1.isSome) then
      names.mapM fun name => match valuesOf name members with
        | [] => some none
        | [value] => some (some value)
        | _ => none
    else none
  | .array items => if items.length = names.length then some (items.map some) else none
  | _ => none

/-- A member that has to be there. -/
def required {α : Type} (f : Json → Option α) (member : Option Json) : Option α :=
  member.bind f

/-- A member that may be absent or `null`. -/
def optional {α : Type} (f : Json → Option α) : Option Json → Option (Option α)
  | some j => nullable? f j
  | none => some none

/-- The name of an alternative that carries no value. -/
def name? : Json → Option String
  | .string s => some s
  | .object [(some s, .null)] => some s
  | _ => none

/-- The name and the value of an alternative that carries one. -/
def tagged? : Json → Option (String × Json)
  | .object [(some s, value)] => some (s, value)
  | _ => none

end Json

end Microcode
