/-
  The characters of YAML texts.

  * `isAllowed` says which characters a text may contain;
  * `isBlank`, `isBreak` and `isWordCharacter` are the classes that tokens are
    told by;
  * `Cursor.readBreak?` goes past a line break, which counts as a line feed
    unless it is one of the two separators of the universal character set.
-/
import ValueGraph.Text.Cursor
import ValueGraph.Text.Numeral

namespace ValueGraph

namespace Yaml

/-- Whether a text may contain a character: control characters are excluded,
    apart from tabs and line breaks. -/
def isAllowed (c : Char) : Bool :=
  let n := c.toNat
  n = 0x09 || n = 0x0A || n = 0x0D || (0x20 ≤ n && n ≤ 0x7E) || n = 0x85 ||
    (0xA0 ≤ n && n ≤ 0xD7FF) || (0xE000 ≤ n && n ≤ 0xFFFD) || 0x10000 ≤ n

/-- Spaces and tabs. -/
def isBlank (c : Char) : Bool := c == ' ' || c == '\t'

/-- Characters that end a line. -/
def isBreak (c : Char) : Bool :=
  c == '\n' || c == '\r' || c == '\u0085' || c == '\u2028' || c == '\u2029'

/-- Letters, digits, underscores and hyphens. -/
def isWordCharacter (c : Char) : Bool := c.isAlphanum || c == '_' || c == '-'

end Yaml

namespace Cursor

open Yaml

/-- Whether the character `i` places ahead is a blank or ends a line, or the
    text ends there. -/
def isGapAt (c : Cursor) (i : Nat) : Bool := (c.ahead? i).all fun c => isBlank c || isBreak c

/-- Whether the next character is a given one. -/
def isNext (c : Cursor) (char : Char) : Bool := c.next? == some char

/-- Whether the line or the text ends here. -/
def atLineEnd (c : Cursor) : Bool := c.next?.all isBreak

/-- Goes past a line break, if there is one; also gives what it counts as. -/
def readBreak? (c : Cursor) : Option (Char × Cursor) :=
  match c.rest with
  | '\r' :: '\n' :: _ => some ('\n', c.skipLine 2)
  | char :: _ =>
    if char == '\u2028' || char == '\u2029' then some (char, c.skipLine 1)
    else if isBreak char then some ('\n', c.skipLine 1)
    else none
  | [] => none

/-- Goes past a comment, up to the end of the line. -/
def skipComment (c : Cursor) : Cursor :=
  if c.isNext '#' then c.dropWhile fun char => !isBreak char else c

/-- Goes to the next line; only blanks and a comment may be left on this one. -/
def finishLine? (c : Cursor) : Option Cursor :=
  let c := (c.dropWhile isBlank).skipComment
  if c.atLineEnd then some ((c.readBreak?.map Prod.snd).getD c) else none

/-- Whether a line starts here with three times `mark`, alone. -/
def isMarker (c : Cursor) (mark : Char) : Bool :=
  c.column == 0 && c.ahead? 0 == some mark && c.ahead? 1 == some mark && c.ahead? 2 == some mark &&
    c.isGapAt 3

/-- Whether a document starts or ends here. -/
def isDocumentMarker (c : Cursor) : Bool := c.isMarker '-' || c.isMarker '.'

end Cursor

end ValueGraph
