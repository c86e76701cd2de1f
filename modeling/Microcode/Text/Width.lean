import Microcode.Text.Emoji
import Microcode.Text.Mark
/-!
# Cell Width

How many cells of a terminal a text takes.

Most characters take one cell. The characters of East Asian scripts and the emoji take two, and
marks without a place of their own take none. In a sequence a character may take more or less
room than by itself: a selector makes a sign an emoji, the second letter of a flag completes it,
and pictographs behind a joiner are drawn within the first one. What counts is what follows a
character, so the width is summed up from the end of the text.

## Main definitions

* `hiddenCharacters`, `wideCharacters`: Characters that take no cell besides the marks, and those
  that take two.
* `characterWidth`: The number of cells of a character by itself.
* `Following`: What the width of a character may depend on.
* `widthBefore`: The width of a character, and what it is for the character before it.
* `width`: The number of cells of a text.
-/

namespace Microcode

namespace Text

/-- The characters besides the marks that take no cell. -/
def hiddenCharacters : CharSet := [
  (0xAD, 0xAD), (0x605, 0x605), (0x61C, 0x61C), (0x70F, 0x70F), (0x890, 0x891), (0x8E2, 0x8E2),
  (0xCC0, 0xCC0), (0xCC7, 0xCC8), (0xCCA, 0xCCB), (0xD4E, 0xD4E), (0x1160, 0x11FF),
  (0x180E, 0x180E), (0x1B3B, 0x1B3B), (0x1B3D, 0x1B3D), (0x1B43, 0x1B43), (0x200B, 0x200B),
  (0x200D, 0x200F), (0x202A, 0x202E), (0x2060, 0x206F), (0x3164, 0x3164), (0xA8FA, 0xA8FA),
  (0xD7B0, 0xD7C6), (0xD7CB, 0xD7FB), (0xFEFF, 0xFEFF), (0xFFA0, 0xFFA0), (0xFFF0, 0xFFF8),
  (0x111C2, 0x111C3), (0x1171E, 0x1171E), (0x1193F, 0x1193F), (0x11941, 0x11941),
  (0x11A3A, 0x11A3A), (0x11A84, 0x11A89), (0x11D46, 0x11D46), (0x11F02, 0x11F02),
  (0x1BCA0, 0x1BCA3), (0x1D173, 0x1D17A), (0xE0000, 0xE001F), (0xE0080, 0xE00FF),
  (0xE01F0, 0xE0FFF)]

/-- The characters that take two cells. -/
def wideCharacters : CharSet := [
  (0x1100, 0x115F), (0x17A4, 0x17A4), (0x231A, 0x231B), (0x2329, 0x232A), (0x23E9, 0x23EC),
  (0x23F0, 0x23F0), (0x23F3, 0x23F3), (0x25FD, 0x25FE), (0x2614, 0x2615), (0x2648, 0x2653),
  (0x267F, 0x267F), (0x2693, 0x2693), (0x26A1, 0x26A1), (0x26AA, 0x26AB), (0x26BD, 0x26BE),
  (0x26C4, 0x26C5), (0x26CE, 0x26CE), (0x26D4, 0x26D4), (0x26EA, 0x26EA), (0x26F2, 0x26F3),
  (0x26F5, 0x26F5), (0x26FA, 0x26FA), (0x26FD, 0x26FD), (0x2705, 0x2705), (0x270A, 0x270B),
  (0x2728, 0x2728), (0x274C, 0x274C), (0x274E, 0x274E), (0x2753, 0x2755), (0x2757, 0x2757),
  (0x2795, 0x2797), (0x27B0, 0x27B0), (0x27BF, 0x27BF), (0x2B1B, 0x2B1C), (0x2B50, 0x2B50),
  (0x2B55, 0x2B55), (0x2E80, 0x2E99), (0x2E9B, 0x2EF3), (0x2F00, 0x2FD5), (0x2FF0, 0x3029),
  (0x3030, 0x303E), (0x3041, 0x3096), (0x309B, 0x30FF), (0x3105, 0x312F), (0x3131, 0x3163),
  (0x3165, 0x318E), (0x3190, 0x31E3), (0x31EF, 0x321E), (0x3220, 0x3247), (0x3250, 0x4DBF),
  (0x4E00, 0xA48C), (0xA490, 0xA4C6), (0xA960, 0xA97C), (0xAC00, 0xD7A3), (0xF900, 0xFAFF),
  (0xFE10, 0xFE19), (0xFE30, 0xFE52), (0xFE54, 0xFE66), (0xFE68, 0xFE6B), (0xFF01, 0xFF60),
  (0xFFE0, 0xFFE6), (0x16FE0, 0x16FE3), (0x16FF0, 0x16FF1), (0x17000, 0x187F7), (0x18800, 0x18CD5),
  (0x18D00, 0x18D08), (0x1AFF0, 0x1AFF3), (0x1AFF5, 0x1AFFB), (0x1AFFD, 0x1AFFE),
  (0x1B000, 0x1B122), (0x1B132, 0x1B132), (0x1B150, 0x1B152), (0x1B155, 0x1B155),
  (0x1B164, 0x1B167), (0x1B170, 0x1B2FB), (0x1F004, 0x1F004), (0x1F0CF, 0x1F0CF),
  (0x1F18E, 0x1F18E), (0x1F191, 0x1F19A), (0x1F200, 0x1F202), (0x1F210, 0x1F23B),
  (0x1F240, 0x1F248), (0x1F250, 0x1F251), (0x1F260, 0x1F265), (0x1F300, 0x1F320),
  (0x1F32D, 0x1F335), (0x1F337, 0x1F37C), (0x1F37E, 0x1F393), (0x1F3A0, 0x1F3CA),
  (0x1F3CF, 0x1F3D3), (0x1F3E0, 0x1F3F0), (0x1F3F4, 0x1F3F4), (0x1F3F8, 0x1F43E),
  (0x1F440, 0x1F440), (0x1F442, 0x1F4FC), (0x1F4FF, 0x1F53D), (0x1F54B, 0x1F54E),
  (0x1F550, 0x1F567), (0x1F57A, 0x1F57A), (0x1F595, 0x1F596), (0x1F5A4, 0x1F5A4),
  (0x1F5FB, 0x1F64F), (0x1F680, 0x1F6C5), (0x1F6CC, 0x1F6CC), (0x1F6D0, 0x1F6D2),
  (0x1F6D5, 0x1F6D7), (0x1F6DC, 0x1F6DF), (0x1F6EB, 0x1F6EC), (0x1F6F4, 0x1F6FC),
  (0x1F7E0, 0x1F7EB), (0x1F7F0, 0x1F7F0), (0x1F90C, 0x1F93A), (0x1F93C, 0x1F945),
  (0x1F947, 0x1F9FF), (0x1FA70, 0x1FA7C), (0x1FA80, 0x1FA88), (0x1FA90, 0x1FABD),
  (0x1FABF, 0x1FAC5), (0x1FACE, 0x1FADB), (0x1FAE0, 0x1FAE8), (0x1FAF0, 0x1FAF8),
  (0x20000, 0x2FFFD), (0x30000, 0x3FFFD)]

/-- The number of cells of a character by itself. The sign for "and so on" of Khmer is written
    with three letters, and the mark that joins letters of Tifinagh stays visible between them. -/
def characterWidth (c : Char) : Nat :=
  if c.toNat ≤ 0xA0 then 1
  else if c.toNat = 0x17D8 then 3
  else if c.toNat = 0x2D7F then 1
  else if marks.contains c || hiddenCharacters.contains c then 0
  else if wideCharacters.contains c then 2
  else 1

/-- The letters of Khmer that a coeng before them puts below the letter before it. -/
def subscriptLetters : CharSet := [
  (0x1780, 0x1782), (0x1784, 0x1787), (0x1789, 0x178C), (0x178E, 0x1793), (0x1795, 0x1798),
  (0x179B, 0x179D), (0x17A0, 0x17A0), (0x17A2, 0x17A2), (0x17A7, 0x17A7), (0x17AB, 0x17AC),
  (0x17AF, 0x17AF)]

/-- Whether a coeng reaches a letter across the character. -/
def isTransparent (c : Char) : Bool :=
  CharSet.contains [(0x34F, 0x34F), (0x17B4, 0x17B5), (0x180B, 0x180D), (0x180F, 0x180F),
    (0x200D, 0x200D), (0xFE00, 0xFE0F), (0xE0100, 0xE01EF)] c

/-- What follows a character, as far as its width depends on it. -/
inductive Following where
  | nothing
  | textSelector
  | emojiSelector
  | emoji
  | skinTone
  | flagLetter
  /-- Several letters of flags. -/
  | flagLetters
  /-- A joiner with an emoji behind it. -/
  | joined
  /-- The selector for emoji, and a joined emoji. -/
  | joinedSelector
  /-- The mark of a key, and a joined emoji. -/
  | joinedKeycap
  /-- The selector, the mark of a key and a joined emoji. -/
  | joinedKeycapSelector
  /-- One letter of a flag, and a joined emoji. -/
  | joinedFlagLetter
  /-- Pairs of letters of flags, and a joined emoji. -/
  | joinedFlags
  /-- Pairs of letters of flags with one letter before them, and a joined emoji. -/
  | joinedFlagsLetter
  /-- The end of a flag's tag behind so many letters of it, and a joined emoji. -/
  | joinedTagLetters (count : Nat)
  /-- The same behind so many digits. -/
  | joinedTagDigits (count : Nat)
  | subscriptLetter
  deriving DecidableEq, Repr

/-- The width of a character whatever follows, and what it is for the character before it. -/
def ownWidth (c : Char) : Int × Following :=
  if c = textSelector then (0, .textSelector)
  else if c = emojiSelector then (0, .emojiSelector)
  else if isFlagLetter c then (1, .flagLetter)
  else if isSkinTone c then (2, .skinTone)
  else if emojiByDefault.contains c then (2, .emoji)
  else if subscriptLetters.contains c then (1, .subscriptLetter)
  else (characterWidth c, .nothing)

/-- Whether a character is a letter in the tag of a flag. -/
def isTagLetter (c : Char) : Bool :=
  0xE0061 ≤ c.toNat && c.toNat ≤ 0xE007A

/-- Whether a character is a digit in the tag of a flag. -/
def isTagDigit (c : Char) : Bool :=
  0xE0030 ≤ c.toNat && c.toNat ≤ 0xE0039

/-- The black flag, which a tag makes the flag of a region. -/
def blackFlag : Char := Char.ofNat 0x1F3F4

/-- Whether the selector for text narrows a sign. -/
def isNarrowable (c : Char) : Bool :=
  selectableSigns.contains c && emojiByDefault.contains c &&
    !(0x1F200 ≤ c.toNat && c.toNat ≤ 0x1F2FF)

namespace Following

/-- The width of a character that makes a sequence with what follows. A selector for emoji ends
    what it stands before. -/
def sequenceWidth? (c : Char) : Following → Option (Int × Following)
  | textSelector => if isNarrowable c then some (1, nothing) else none
  | emoji => if c = joiner then some (0, joined) else none
  | skinTone =>
    if tonedSigns.contains c then some (0, emoji)
    else if c = joiner then some (0, joined)
    else none
  | flagLetter => if isFlagLetter c then some (1, flagLetters) else none
  | flagLetters =>
    if isFlagLetter c then some (1, flagLetters)
    else if c = joiner then some (0, joined)
    else none
  | joined =>
    if c = Text.emojiSelector then some (0, joinedSelector)
    else if c = keycap then some (0, joinedKeycap)
    else if isFlagLetter c then some (1, joinedFlagLetter)
    else if isSkinTone c then some (0, skinTone)
    else if c = Char.ofNat 0xE007F then some (0, joinedTagLetters 0)
    else if emojiByDefault.contains c then some (0, emoji)
    else none
  | joinedKeycap => if c = Text.emojiSelector then some (0, joinedKeycapSelector) else none
  | joinedFlagLetter => if isFlagLetter c then some (-1, joinedFlags) else none
  | joinedFlags =>
    if isFlagLetter c then some (3, joinedFlagsLetter)
    else if c = joiner then some (0, joined)
    else none
  | joinedFlagsLetter =>
    if isFlagLetter c then some (-1, joinedFlags)
    else if c = joiner then some (0, joined)
    else none
  | joinedTagLetters count =>
    if isTagLetter c ∧ count < 6 then some (0, joinedTagLetters (count + 1))
    else if isTagDigit c ∧ count < 5 then some (0, joinedTagDigits 1)
    else if c = blackFlag ∧ 3 ≤ count then some (0, emoji)
    else none
  | joinedTagDigits count =>
    if isTagDigit c ∧ count < 3 then some (0, joinedTagDigits (count + 1))
    else if c = blackFlag ∧ count = 3 then some (0, emoji)
    else none
  | subscriptLetter =>
    if isTransparent c then some (0, subscriptLetter)
    else if c.toNat = 0x17D2 then some (-1, nothing)
    else none
  | nothing | emojiSelector | joinedSelector | joinedKeycapSelector => none

/-- The width of a character before the selector for emoji, if it is a sign with such a form. -/
def selectedWidth? (c : Char) (next : Following) : Option (Int × Following) :=
  if selectableSigns.contains c then
    match next with
    | emojiSelector => some (2, emoji)
    | joinedSelector | joinedKeycapSelector => some (0, emoji)
    | _ => none
  else none

/-- The width of a character, and what it is for the character before it. -/
def widthBefore (c : Char) (next : Following) : Int × Following :=
  match next.selectedWidth? c with
  | some result => result
  | none =>
    if c.toNat ≤ 0xA0 then (1, nothing)
    else (next.sequenceWidth? c).getD (ownWidth c)

end Following

/-- The number of cells of a text. -/
def width (cs : List Char) : Nat :=
  (cs.foldr (fun c (sum, next) =>
    let (own, before) := Following.widthBefore c next
    (sum + own, before)) ((0 : Int), Following.nothing)).1.toNat

end Text

end Microcode
