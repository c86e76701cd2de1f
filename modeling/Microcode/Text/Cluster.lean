import Microcode.Text.Emoji
import Microcode.Text.Mark
/-!
# Clusters

How a text is cut into what a reader takes for one character.

A letter with its marks is one cluster, and so are a syllable of Hangul, a pair of letters for a
flag, the pictographs of an emoji and the consonants of an Indian conjunct. The boundaries are
those of Unicode's extended grapheme clusters. Whether a character joins the cluster before it
depends on the characters of that cluster alone, so a text is cut in one pass.

## Main definitions

* `BreakClass`, `breakClass`: What a character does to the boundaries next to it.
* `joins`: Whether a character joins the cluster before it.
* `clusters`: The clusters of a text.

## Theorems

* `flatten_clusters`: Clusters are cut out of the text and nothing is lost.
-/

namespace Microcode

namespace Text

/-- What a character does to the boundaries next to it. -/
inductive BreakClass where
  | carriageReturn
  | lineFeed
  | control
  | extending
  | joiner
  | spacing
  | prepended
  | flagLetter
  | leadingConsonant
  | vowel
  | trailingConsonant
  | openSyllable
  | closedSyllable
  | pictograph
  | other
  deriving DecidableEq, Repr

/-- The characters that stand alone: controls and formats, and the places kept for such. -/
def controls : CharSet := [
  (0x0, 0x9), (0xB, 0xC), (0xE, 0x1F), (0x7F, 0x9F), (0xAD, 0xAD), (0x61C, 0x61C), (0x180E, 0x180E),
  (0x200B, 0x200B), (0x200E, 0x200F), (0x2028, 0x202E), (0x2060, 0x206F), (0xFEFF, 0xFEFF),
  (0xFFF0, 0xFFFB), (0x13430, 0x1343F), (0x1BCA0, 0x1BCA3), (0x1D173, 0x1D17A), (0xE0000, 0xE001F),
  (0xE0080, 0xE00FF), (0xE01F0, 0xE0FFF)]

/-- The vowels of syllables that are written letter by letter. -/
def vowels : CharSet := [
  (0x1160, 0x11A7), (0xD7B0, 0xD7C6), (0x16D63, 0x16D63), (0x16D67, 0x16D6A)]

/-- The class of a character beyond ASCII. -/
def breakClassBeyond (c : Char) : BreakClass :=
  let n := c.toNat
  if 0xAC00 ≤ n ∧ n ≤ 0xD7A3 then if (n - 0xAC00) % 28 = 0 then .openSyllable else .closedSyllable
  else if (0x1100 ≤ n ∧ n ≤ 0x115F) ∨ (0xA960 ≤ n ∧ n ≤ 0xA97C) then .leadingConsonant
  else if vowels.contains c then .vowel
  else if (0x11A8 ≤ n ∧ n ≤ 0x11FF) ∨ (0xD7CB ≤ n ∧ n ≤ 0xD7FB) then .trailingConsonant
  else if c = Text.joiner then .joiner
  else if isFlagLetter c then .flagLetter
  else if isSkinTone c || marks.contains c || placedMarks.contains c then .extending
  else if spacingMarks.contains c then .spacing
  else if prependedMarks.contains c then .prepended
  else if controls.contains c then .control
  else if pictographs.contains c then .pictograph
  else .other

/-- The class of a character. -/
def breakClass (c : Char) : BreakClass :=
  if c = '\n' then .lineFeed
  else if c = '\r' then .carriageReturn
  else if c.toNat < 0x20 ∨ c.toNat = 0x7F then .control
  else if c.toNat < 0x80 then .other
  else breakClassBeyond c

namespace BreakClass

/-- Whether there is a boundary on either side. -/
def isAlone : BreakClass → Bool
  | carriageReturn | lineFeed | control => true
  | _ => false

/-- Whether a character of the class attaches to whatever is before it. -/
def attaches : BreakClass → Bool
  | extending | joiner | spacing => true
  | _ => false

/-- Whether two letters are of one syllable. -/
def sameSyllable : BreakClass → BreakClass → Bool
  | leadingConsonant, leadingConsonant | leadingConsonant, vowel
  | leadingConsonant, openSyllable | leadingConsonant, closedSyllable => true
  | openSyllable, vowel | vowel, vowel => true
  | openSyllable, trailingConsonant | vowel, trailingConsonant => true
  | closedSyllable, trailingConsonant | trailingConsonant, trailingConsonant => true
  | _, _ => false

end BreakClass

/-- The marks that link the consonants on either side of them. -/
def linkers : CharSet := [
  (0x94D, 0x94D), (0x9CD, 0x9CD), (0xACD, 0xACD), (0xB4D, 0xB4D), (0xC4D, 0xC4D), (0xD4D, 0xD4D),
  (0x1039, 0x1039), (0x17D2, 0x17D2), (0x1A60, 0x1A60), (0x1B44, 0x1B44), (0x1BAB, 0x1BAB),
  (0xA9C0, 0xA9C0), (0xAAF6, 0xAAF6), (0x10A3F, 0x10A3F), (0x11133, 0x11133), (0x113D0, 0x113D0),
  (0x1193E, 0x1193E), (0x11A47, 0x11A47), (0x11A99, 0x11A99), (0x11F42, 0x11F42)]

/-- The consonants that links form conjuncts of. -/
def linkedConsonants : CharSet := [
  (0x915, 0x939), (0x958, 0x95F), (0x978, 0x97F), (0x995, 0x9A8), (0x9AA, 0x9B0), (0x9B2, 0x9B2),
  (0x9B6, 0x9B9), (0x9DC, 0x9DD), (0x9DF, 0x9DF), (0x9F0, 0x9F1), (0xA95, 0xAA8), (0xAAA, 0xAB0),
  (0xAB2, 0xAB3), (0xAB5, 0xAB9), (0xAF9, 0xAF9), (0xB15, 0xB28), (0xB2A, 0xB30), (0xB32, 0xB33),
  (0xB35, 0xB39), (0xB5C, 0xB5D), (0xB5F, 0xB5F), (0xB71, 0xB71), (0xC15, 0xC28), (0xC2A, 0xC39),
  (0xC58, 0xC5A), (0xD15, 0xD3A), (0x1000, 0x102A), (0x103F, 0x103F), (0x1050, 0x1055),
  (0x105A, 0x105D), (0x1061, 0x1061), (0x1065, 0x1066), (0x106E, 0x1070), (0x1075, 0x1081),
  (0x108E, 0x108E), (0x1780, 0x17B3), (0x1A20, 0x1A54), (0x1B0B, 0x1B0C), (0x1B13, 0x1B33),
  (0x1B45, 0x1B4C), (0x1B83, 0x1BA0), (0x1BAE, 0x1BAF), (0x1BBB, 0x1BBD), (0xA989, 0xA98B),
  (0xA98F, 0xA9B2), (0xA9E0, 0xA9E4), (0xA9E7, 0xA9EF), (0xA9FA, 0xA9FE), (0xAA60, 0xAA6F),
  (0xAA71, 0xAA73), (0xAA7A, 0xAA7A), (0xAA7E, 0xAA7F), (0xAAE0, 0xAAEA), (0xABC0, 0xABDA),
  (0x10A00, 0x10A00), (0x10A10, 0x10A13), (0x10A15, 0x10A17), (0x10A19, 0x10A35),
  (0x11103, 0x11126), (0x11144, 0x11144), (0x11147, 0x11147), (0x11380, 0x11389),
  (0x1138B, 0x1138B), (0x1138E, 0x1138E), (0x11390, 0x113B5), (0x11900, 0x11906),
  (0x11909, 0x11909), (0x1190C, 0x11913), (0x11915, 0x11916), (0x11918, 0x1192F),
  (0x11A00, 0x11A00), (0x11A0B, 0x11A32), (0x11A50, 0x11A50), (0x11A5C, 0x11A83),
  (0x11F04, 0x11F10), (0x11F12, 0x11F33)]

/-- Whether marks between two consonants leave a link between them in force. -/
def keepsLink (c : Char) : Bool :=
  c != '\u200c' && (breakClass c == .extending || breakClass c == .joiner)

/-- Whether a consonant is linked to the characters before it, which are given nearest first:
    marks with a link among them, and a consonant. -/
def formsConjunct (before : List Char) (c : Char) : Bool :=
  linkedConsonants.contains c && (before.takeWhile keepsLink).any linkers.contains &&
    (before.dropWhile keepsLink).head?.any linkedConsonants.contains

/-- Whether a letter makes a flag with the characters before it, nearest first: the letter
    before it is not taken by a flag. -/
def formsFlag (before : List Char) (c : Char) : Bool :=
  isFlagLetter c && (before.takeWhile isFlagLetter).length % 2 == 1

/-- Whether a pictograph is tied to the characters before it, nearest first: a joiner, marks and
    a pictograph. -/
def isTied (before : List Char) (c : Char) : Bool :=
  breakClass c == .pictograph && match before with
    | [] => false
    | last :: rest => last == joiner &&
      (rest.dropWhile (breakClass · == .extending)).head?.any (breakClass · == .pictograph)

/-- Whether a character joins the cluster of the characters before it, which are given nearest
    first. -/
def joins : List Char → Char → Bool
  | [], _ => true
  | last :: before, c =>
    let left := breakClass last
    let right := breakClass c
    if left.isAlone || right.isAlone then left == .carriageReturn && right == .lineFeed
    else right.attaches || left == .prepended || left.sameSyllable right ||
      formsConjunct (last :: before) c || formsFlag (last :: before) c ||
      isTied (last :: before) c

/-- The clusters of a text behind the beginning of a cluster, which is given nearest first. -/
def clustersAfter : List Char → List Char → List (List Char)
  | before, [] => if before.isEmpty then [] else [before.reverse]
  | before, c :: cs =>
    if joins before c then clustersAfter (c :: before) cs
    else before.reverse :: clustersAfter [c] cs

/-- The clusters of a text. -/
def clusters (cs : List Char) : List (List Char) :=
  clustersAfter [] cs

theorem flatten_clustersAfter (before cs : List Char) :
    (clustersAfter before cs).flatten = before.reverse ++ cs := by
  induction cs generalizing before with
  | nil => cases before <;> simp [clustersAfter]
  | cons c cs ih =>
    rw [clustersAfter]
    split <;> simp [ih]

/-- Clusters are cut out of the text and nothing is lost. -/
theorem flatten_clusters (cs : List Char) : (clusters cs).flatten = cs := by
  simp [clusters, flatten_clustersAfter]

end Text

end Microcode
