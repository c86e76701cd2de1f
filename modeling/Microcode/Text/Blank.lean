/-!
# Blanks, Lines and Words

How text is cut into lines, and lines into words.

A listing may be typed with tabs, with the wide space of a Japanese keyboard or with a carriage
return before each line feed. All of these are blanks: the twenty-five characters that the
Unicode property `White_Space` names. Since a carriage return is one of them, a line may be cut
at its line feed alone; what is left of `\r\n` disappears with the other blanks.

## Main definitions

* `isBlank`: The characters of the property `White_Space`.
* `pieces`: A text cut at every separator, empty pieces included.
* `words`: The runs of characters between blanks.
* `lines`: The text between line feeds.
* `shownLines`: The lines as they are shown, without the carriage returns before line feeds.
-/

namespace Microcode

namespace Text

/-- Whether a character has the Unicode property `White_Space`. -/
def isBlank (c : Char) : Bool :=
  let n := c.toNat
  (0x09 ≤ n && n ≤ 0x0D) || n == 0x20 || n == 0x85 || n == 0xA0 || n == 0x1680 ||
    (0x2000 ≤ n && n ≤ 0x200A) || n == 0x2028 || n == 0x2029 || n == 0x202F || n == 0x205F ||
    n == 0x3000

/-- A text cut at every separator. There is one piece more than there are separators, and
    pieces may be empty. -/
def pieces (isSeparator : Char → Bool) : List Char → List (List Char)
  | [] => [[]]
  | c :: cs =>
    if isSeparator c then [] :: pieces isSeparator cs
    else match pieces isSeparator cs with
      | [] => [[c]]
      | piece :: rest => (c :: piece) :: rest

/-- The maximal runs of characters between blanks. -/
def words (cs : List Char) : List (List Char) :=
  (pieces isBlank cs).filter (fun piece => !piece.isEmpty)

/-- The text between line feeds. A final line feed leaves an empty last line. -/
def lines (cs : List Char) : List (List Char) :=
  pieces (· == '\n') cs

/-- A line without the carriage return at its end. -/
def dropReturn (line : List Char) : List Char :=
  if line.getLast? = some '\r' then line.dropLast else line

/-- The text between line ends, where a line may end in a carriage return and a line feed. -/
def shownLines (cs : List Char) : List (List Char) :=
  (lines cs).dropLast.map dropReturn ++ (lines cs).getLast?.toList

/-- A text without its blanks. -/
def squeeze (cs : List Char) : List Char :=
  cs.filter (fun c => !isBlank c)

/-- A text padded with spaces on the right to at least the given number of characters. -/
def padRight (width : Nat) (s : String) : String :=
  s ++ String.ofList (List.replicate (width - s.length) ' ')

end Text

end Microcode
