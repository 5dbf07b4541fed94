/-
  The parts of regular expressions that stand for one character or one
  condition: blanks and comments in verbose mode, escapes, and the named sets
  of characters.

  * `Mode` is what flags have set at one place of an expression;
  * `Escape.read?` reads what follows a backslash.
-/
import ValueGraph.Regex
import ValueGraph.Text.Numeral

namespace ValueGraph.Regex

open Unicode (Property)

/-! ## Modes -/

/-- What flags have set at one place of an expression. -/
structure Mode where
  ignoreCase : Bool
  multiLine : Bool
  dotAll : Bool
  crlf : Bool
  unicode : Bool
  /-- Whether blanks and comments in the expression do not count. -/
  verbose : Bool

namespace Mode

/-- What counts as a word. -/
def wordRule (m : Mode) : WordRule := if m.unicode then .unicode else .ascii

/-- A set with the case variants that the mode adds. -/
def fold (m : Mode) (set : CharSet) : CharSet :=
  if !m.ignoreCase then set else if m.unicode then .folded set else .foldedAscii set

/-- A set, negated if need be, with case variants added before.  Without
    Unicode, a negated set would hold parts of characters and is refused. -/
def close? (m : Mode) (negated : Bool) (set : CharSet) : Option CharSet :=
  if !negated then some (m.fold set)
  else if m.unicode then some (.compl (m.fold set)) else none

/-- The set of one character.  Without Unicode only ASCII can be written. -/
def literal? (m : Mode) (c : Char) : Option CharSet :=
  if m.unicode ∨ c.toNat < 128 then some (m.fold (.singleton c)) else none

end Mode

/-! ## Blanks and comments -/

/-- Whether a character is a blank. -/
def isBlank (c : Char) : Bool := Property.whiteSpace.has c

/-- What follows blanks and comments; a comment runs from a number sign to the
    end of the line. -/
def dropComments (inComment : Bool) : List Char → List Char
  | [] => []
  | c :: cs =>
    if inComment then dropComments (c != '\n') cs
    else if isBlank c then dropComments false cs
    else if c = '#' then dropComments true cs
    else c :: cs

/-- What follows blanks and comments in verbose mode. -/
def Mode.skip (m : Mode) (cs : List Char) : List Char :=
  if m.verbose then dropComments false cs else cs

theorem length_dropComments (inComment : Bool) (cs : List Char) :
    (dropComments inComment cs).length ≤ cs.length := by
  fun_induction dropComments inComment cs <;> simp_all <;> omega

theorem Mode.length_skip (m : Mode) (cs : List Char) : (m.skip cs).length ≤ cs.length := by
  unfold skip
  split
  · exact length_dropComments false cs
  · exact Nat.le_refl _

/-! ## Named sets -/

/-- The set that a letter in lower case names, such as digits. -/
def shorthand (unicode : Bool) (c : Char) : CharSet :=
  if unicode then
    match c with
    | 'd' => .property .decimalDigit
    | 's' => .property .whiteSpace
    | _ => .unions [.property (.binary Unicode.Binary.alphabetic),
        .property (.binary Unicode.Binary.joinControl),
        .property (.category [.nonspacingMark, .spacingMark, .enclosingMark, .decimalNumber,
          .connectorPunctuation])]
  else
    match c with
    | 'd' => .range '0' '9'
    | 's' => .ofRanges [('\t', '\r'), (' ', ' ')]
    | _ => .ofRanges [('0', '9'), ('A', 'Z'), ('_', '_'), ('a', 'z')]

/-- The ASCII set with this name. -/
def asciiNamed? (name : String) : Option CharSet :=
  match name with
  | "alnum" => some (.ofRanges [('0', '9'), ('A', 'Z'), ('a', 'z')])
  | "alpha" => some (.ofRanges [('A', 'Z'), ('a', 'z')])
  | "ascii" => some (.range '\x00' '\x7f')
  | "blank" => some (.ofRanges [('\t', '\t'), (' ', ' ')])
  | "cntrl" => some (.ofRanges [('\x00', '\x1f'), ('\x7f', '\x7f')])
  | "digit" => some (.range '0' '9')
  | "graph" => some (.range '!' '~')
  | "lower" => some (.range 'a' 'z')
  | "print" => some (.range ' ' '~')
  | "punct" => some (.ofRanges [('!', '/'), (':', '@'), ('[', '\x60'), ('\x7b', '~')])
  | "space" => some (.ofRanges [('\t', '\r'), (' ', ' ')])
  | "upper" => some (.range 'A' 'Z')
  | "word" => some (.ofRanges [('0', '9'), ('A', 'Z'), ('_', '_'), ('a', 'z')])
  | "xdigit" => some (.ofRanges [('0', '9'), ('A', 'F'), ('a', 'f')])
  | _ => none

/-! ## Escapes -/

/-- What an escape stands for. -/
inductive Escape where
  | literal (c : Char)
  | set (set : CharSet)
  | look (look : Look)

namespace Escape

/-- Characters that have a meaning of their own. -/
def metaCharacters : List Char := "\\.+*?()|[]\x7b\x7d^$#&-~".toList

/-- Whether a character stands for itself after a backslash: all ASCII
    characters but letters, digits and angle brackets do. -/
def isEscapable (c : Char) : Bool :=
  metaCharacters.contains c || (c.toNat < 128 && !c.isAlphanum && c != '<' && c != '>')

/-- The character with this code point, unless it is a surrogate or none. -/
def charOf? (code : Nat) : Option Char :=
  if code.isValidChar then some (Char.ofNat code) else none

/-- A character code of `n + 1` digits, after the digits of `code`. -/
def readDigits? (m : Mode) (code : Nat) : (n : Nat) → List Char → Option (Char × List Char)
  | _, [] => none
  | n, c :: cs => do
    let code := 16 * code + (← Numeral.digit? 16 c)
    let cs := m.skip cs
    match n with
    | 0 => return (← charOf? code, cs)
    | n + 1 => readDigits? m code n cs

/-- What stands before a closing brace, without blanks in verbose mode, and
    what follows the brace. -/
def readBraces? (m : Mode) (cs : List Char) : Option (List Char × List Char) :=
  if m.verbose then
    match strip false cs with
    | (text, _ :: rest) => some (text, rest)
    | (_, []) => none
  else
    match cs.dropWhile (· ≠ '\x7d') with
    | _ :: rest => some (cs.takeWhile (· ≠ '\x7d'), rest)
    | [] => none
where
  /-- The text up to a brace without blanks and comments, and the rest from
      the brace on. -/
  strip (inComment : Bool) : List Char → List Char × List Char
    | [] => ([], [])
    | c :: cs =>
      if inComment then strip (c != '\n') cs
      else if isBlank c then strip false cs
      else if c = '#' then strip true cs
      else if c = '\x7d' then ([], c :: cs)
      else
        let (text, rest) := strip false cs
        (c :: text, rest)

/-- A character code, with `digits` digits or in braces. -/
def readCode? (m : Mode) (digits : Nat) (cs : List Char) : Option (Char × List Char) := do
  match m.skip cs with
  | '\x7b' :: cs =>
    let (text, rest) ← readBraces? m cs
    if text.isEmpty then none
    else return (← charOf? (← Numeral.value? 16 text), m.skip rest)
  | cs => readDigits? m 0 (digits - 1) cs

/-- The two sides of a mark in a text. -/
def splitAt? (mark : List Char) : List Char → Option (List Char × List Char)
  | [] => none
  | c :: cs =>
    if mark.isPrefixOf (c :: cs) then some ([], (c :: cs).drop mark.length)
    else (splitAt? mark cs).map fun (before, after) => (c :: before, after)

/-- The property that a text in braces names, and whether it is negated. -/
def propertyOf? (text : List Char) : Option (Property × Bool) :=
  let named (parts : List Char × List Char) : Option Property :=
    Property.withValue? (String.ofList parts.1) (String.ofList parts.2)
  match splitAt? ['!', '='] text, splitAt? [':'] text, splitAt? ['='] text with
  | some parts, _, _ => (named parts).map (·, true)
  | none, some parts, _ => (named parts).map (·, false)
  | none, none, some parts => (named parts).map (·, false)
  | none, none, none => (Property.named? (String.ofList text)).map (·, false)

/-- A property, by one letter or in braces. -/
def readProperty? (m : Mode) (negated : Bool) (cs : List Char) :
    Option (Escape × List Char) := do
  let ((property, inverted), rest) ← match m.skip cs with
    | [] => none
    | '\x7b' :: cs => do
      let (text, rest) ← readBraces? m cs
      some (← propertyOf? text, rest)
    | c :: cs =>
      if c = '\\' then none
      else do some ((← Property.named? c.toString, false), m.skip cs)
  if !m.unicode then none
  else return (set (← m.close? (negated != inverted) (.property property)), rest)

/-- A word boundary, which may be qualified in braces.  Braces that hold no
    word are left for a repetition. -/
def readBoundary? (m : Mode) (cs : List Char) : Option (Escape × List Char) :=
  let plain : Option (Escape × List Char) := some (look (.wordBoundary m.wordRule), cs)
  let isWord (c : Char) : Bool := c.isAlpha || c == '-'
  match cs with
  | '\x7b' :: inner =>
    match m.skip inner with
    | [] => none
    | c :: _ =>
      if !isWord c then plain
      else do
        let (text, rest) ← readBraces? m inner
        let kind ← match String.ofList text with
          | "start" => some (Look.wordStart m.wordRule)
          | "end" => some (Look.wordEnd m.wordRule)
          | "start-half" => some (Look.wordStartHalf m.wordRule)
          | "end-half" => some (Look.wordEndHalf m.wordRule)
          | _ => none
        return (look kind, rest)
  | _ => plain

/-- A shorthand set; without Unicode its complement is refused. -/
def shorthand? (m : Mode) (c : Char) : Option Escape :=
  let named := shorthand m.unicode c.toLower
  if c.isLower then some (set named) else if m.unicode then some (set (.compl named)) else none

/-- What follows a backslash, and the rest. -/
def read? (m : Mode) : List Char → Option (Escape × List Char)
  | [] => none
  | c :: cs =>
    if ['x', 'u', 'U'].contains c then
      let digits := if c = 'x' then 2 else if c = 'u' then 4 else 8
      (readCode? m digits cs).map fun (c, rest) => (literal c, rest)
    else if c = 'p' ∨ c = 'P' then readProperty? m (c = 'P') cs
    else if ['d', 's', 'w', 'D', 'S', 'W'].contains c then (shorthand? m c).map (·, cs)
    else if isEscapable c then some (literal c, cs)
    else match c with
      | 'a' => some (literal '\x07', cs)
      | 'f' => some (literal '\x0c', cs)
      | 't' => some (literal '\t', cs)
      | 'n' => some (literal '\n', cs)
      | 'r' => some (literal '\r', cs)
      | 'v' => some (literal '\x0b', cs)
      | 'A' => some (look .textStart, cs)
      | 'z' => some (look .textEnd, cs)
      | 'b' => readBoundary? m cs
      | 'B' => some (look (.noWordBoundary m.wordRule), cs)
      | '<' => some (look (.wordStart m.wordRule), cs)
      | '>' => some (look (.wordEnd m.wordRule), cs)
      | _ => none

end Escape

end ValueGraph.Regex
