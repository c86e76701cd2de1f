/-!
# Character Sets

Sets of characters, as the standards give them: by ranges of code points.

## Main definitions

* `CharSet`: The ranges of a set, each with its first and its last code point.
* `CharSet.contains`: Whether a character is in a set.
-/

namespace Microcode

namespace Text

/-- A set of characters by ranges of code points, each with its first and its last one. -/
abbrev CharSet := List (Nat × Nat)

/-- Whether a character is in one of the ranges. -/
def CharSet.contains (set : CharSet) (c : Char) : Bool :=
  List.any set (fun range => range.1 ≤ c.toNat && c.toNat ≤ range.2)

end Text

end Microcode
