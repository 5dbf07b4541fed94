/-
  The block text of YAML documents.

  Every entry of a sequence or a mapping starts a line.  Sequences inside
  mappings are not indented further, all other collections by two spaces.
  Texts are plain unless they could be taken for something else; texts of
  several lines are literal blocks.  The separators of the universal character
  set end a line too, but unlike a line feed they are written as they are.

  * `Yaml.textLines` are the lines of a text, and `Yaml.joinLines` joins lines;
  * `Yaml.tagText` is a tag as it is written;
  * `Yaml.layout?` lays a document out, and `Yaml.blockText?` is its text;
  * `Yaml.keyText` is what stands for a document that is a mapping key, where
    collections may be written in any way.
-/
import ValueGraph.Yaml.Scalar
import ValueGraph.Yaml.Character
import ValueGraph.Decimal.Notation
import ValueGraph.Unicode.Binary

namespace ValueGraph.Yaml

/-! ## Scalars -/

/-- Floating-point numbers are positional up to sixteen digits before the point
    and four zeros after it. -/
def numberStyle : Decimal.Notation := ⟨-5, 15, false, ".nan", ".inf", "-.inf"⟩

/-- The text of a number. -/
def numberText : YamlNumber → String
  | .integer i => integerText i
  | .float x => numberStyle.write x

/-- Words that were booleans in earlier versions of the format. -/
def oldBooleans : List String :=
  ["y", "Y", "yes", "Yes", "YES", "n", "N", "no", "No", "NO", "true", "True", "TRUE", "false",
    "False", "FALSE", "on", "On", "ON", "off", "Off", "OFF"]

/-- Whether a text needs quotes because it would be taken for something else. -/
def isAmbiguous (text : String) : Bool :=
  oldBooleans.contains text || PlainScalar.hasLeadingZero text.toList ||
    match PlainScalar.read? text with
    | some (.string _) => false
    | _ => true

/-- Whether a character may be written as it is. -/
def isPrintable (c : Char) : Bool :=
  let n := c.toNat
  n = 0x0A || (0x20 ≤ n && n ≤ 0x7E) || (0xA0 ≤ n && n ≤ 0xFFFD && n ≠ 0xFEFF) || 0x10000 ≤ n

/-- Whether nothing or white space comes first. -/
def startsWithGap (cs : List Char) : Bool :=
  cs.head?.all fun c => isBlank c || isBreak c || c == '\x00'

/-- Whether a colon before white space or a number sign after it occurs past
    the first character, where `afterGap` says whether that is white space. -/
def hasInnerMark (afterGap : Bool) : List Char → Bool
  | [] => false
  | c :: cs =>
    (c == ':' && startsWithGap cs) || (c == '#' && afterGap) ||
      hasInnerMark (isBlank c || isBreak c || c == '\x00') cs

/-- Whether a text starts like something other than a plain scalar, or contains
    a mark that ends one. -/
def hasMark (cs : List Char) : Bool :=
  match cs with
  | [] => false
  | c :: rest =>
    "---".toList.isPrefixOf cs || "...".toList.isPrefixOf cs ||
      "#,[]\x7b\x7d&*!|>'\"%@\x60".toList.contains c ||
      ((c == '?' || c == ':' || c == '-') && startsWithGap rest) ||
      hasInnerMark (isBlank c || isBreak c || c == '\x00') rest

/-- Whether a character that passes `p` stands directly before one that passes
    `q`. -/
def hasPair (p q : Char → Bool) : List Char → Bool
  | c :: d :: cs => (p c && q d) || hasPair p q (d :: cs)
  | _ => false

/-- Whether a text may be written plain. -/
def allowsPlain (cs : List Char) : Bool :=
  cs.all (fun c => isPrintable c && !isBreak c) && cs.head? != some ' '
    && cs.getLast? != some ' ' && !hasMark cs

/-- Whether a text may be written in single quotes. -/
def allowsSingle (cs : List Char) : Bool :=
  cs.all isPrintable && !hasPair isBreak (· == ' ') cs && !hasPair (· == ' ') isBreak cs

/-- Whether a text may be written as a literal block. -/
def allowsLiteral (cs : List Char) : Bool :=
  cs.all isPrintable && !hasPair (· == ' ') isBreak cs && cs.getLast? != some ' '

/-- A text in single quotes. -/
def singleQuoted (cs : List Char) : String :=
  String.ofList ('\'' :: cs.flatMap (fun c => if c = '\'' then ['\'', '\''] else [c]) ++ ['\''])

/-- A character inside double quotes. -/
def escape (c : Char) : List Char :=
  match c with
  | '\x00' => ['\\', '0']
  | '\x07' => ['\\', 'a']
  | '\x08' => ['\\', 'b']
  | '\t' => ['\\', 't']
  | '\n' => ['\\', 'n']
  | '\x0b' => ['\\', 'v']
  | '\x0c' => ['\\', 'f']
  | '\r' => ['\\', 'r']
  | '\x1b' => ['\\', 'e']
  | '"' => ['\\', '"']
  | '\\' => ['\\', '\\']
  | '\u0085' => ['\\', 'N']
  | '\u2028' => ['\\', 'L']
  | '\u2029' => ['\\', 'P']
  | c =>
    if isPrintable c then [c]
    else if c.toNat < 0x100 then '\\' :: 'x' :: Numeral.hexadecimal 2 c.toNat
    else if c.toNat < 0x10000 then '\\' :: 'u' :: Numeral.hexadecimal 4 c.toNat
    else '\\' :: 'U' :: Numeral.hexadecimal 8 c.toNat

/-- A text in double quotes. -/
def doubleQuoted (cs : List Char) : String := String.ofList ('"' :: cs.flatMap escape ++ ['"'])

/-! ## Tags -/

/-- Whether a character of a tag is written as it is. -/
def isTagCharacter (c : Char) : Bool :=
  isWordCharacter c || ";/?:@&=+$,.~*'()[]".toList.contains c

/-- A byte of a character that is not written as it is. -/
def escapedByte (b : UInt8) : List Char := '%' :: Numeral.hexadecimal 2 b.toNat

/-- A tag with this name, after its exclamation mark. -/
def tagText (name : String) : String :=
  String.ofList ('!' :: name.toList.flatMap fun c =>
    if isTagCharacter c then [c] else c.toString.toUTF8.toList.flatMap escapedByte)

-- a second exclamation mark is escaped, and so are all bytes of a letter beyond ASCII
example : tagText "a!é" = "!a%21%C3%A9" := by decide +kernel

/-! ## Lines -/

/-- The lines of a text, of which `line` has been read, the latest character
    first.  A line feed is left out; other breaks stay with their lines. -/
def textLines (line : List Char) : List Char → List String
  | [] => [String.ofList line.reverse]
  | c :: cs =>
    if c = '\n' then String.ofList line.reverse :: textLines [] cs
    else if isBreak c then String.ofList (c :: line).reverse :: textLines [] cs
    else textLines (c :: line) cs

/-- Lines as one text, with a line feed after each line that does not end in a
    break of its own. -/
def joinLines : List String → String
  | [] => ""
  | [line] => line
  | line :: lines =>
    line ++ (if line.toList.getLast?.any isBreak then "" else "\n") ++ joinLines lines

/-- A line two spaces to the right; lines without text stay as they are. -/
def indentLine (line : String) : String := if line.toList.all isBreak then line else "  " ++ line

/-- The lines of a text behind something else; all but the first one are two
    spaces to the right. -/
def linesBehind (start text : String) : List String :=
  match textLines [] text.toList with
  | [] => [start]
  | line :: lines => (start ++ line) :: lines.map indentLine

/-! ## Layouts -/

/-- How a document is laid out. -/
inductive Layout where
  /-- Text that goes on where it starts; `short` says whether it can be a key
      there. -/
  | inline (text : String) (short : Bool)
  /-- A literal block: its header and its lines. -/
  | literal (header : String) (lines : List String)
  /-- A collection that is not empty: the name of its tag and its lines. -/
  | collection (tag : Option String) (isSequence : Bool) (lines : List String)

namespace Layout

/-- What is in front of something behind a tag. -/
def leadingTag (tag : Option String) : String := (tag.map (tagText · ++ " ")).getD ""

/-- A scalar behind a tag, whose own length is `length`.  The length of a tag
    includes its exclamation mark and counts no escapes. -/
def scalar (tag : Option String) (text : String) (length : Nat) (oneLine : Bool) : Layout :=
  let tagLength := (tag.map fun name => name.utf8ByteSize + 1).getD 0
  .inline (leadingTag tag ++ text) (oneLine && length + tagLength ≤ 128)

/-- The header of a literal block: a mark if the first line starts with a
    space or is empty, and a mark for the line breaks at the end. -/
def literalHeader (cs : List Char) : String :=
  let indentation := if startsWithGap (cs.take 1) then "2" else ""
  let chomping := match cs.reverse with
    | [] => "-"
    | c :: rest =>
      if !isBreak c then "-" else if rest.head?.all isBreak then "+" else ""
  "|" ++ indentation ++ chomping

/-- The lines of a literal block. -/
def literalLines (cs : List Char) : List String :=
  let lines := textLines [] cs
  if lines.getLast? = some "" then lines.dropLast else lines

/-- A text. -/
def ofString (tag : Option String) (text : String) : Layout :=
  let cs := text.toList
  let length := text.utf8ByteSize
  let oneLine := !cs.any isBreak
  if cs.contains '\n' && !oldBooleans.contains text then
    if allowsLiteral cs then
      .literal (leadingTag tag ++ literalHeader cs) (literalLines cs)
    else scalar tag (doubleQuoted cs) length oneLine
  else if !isAmbiguous text && allowsPlain cs then scalar tag text length oneLine
  else if allowsSingle cs then scalar tag (singleQuoted cs) length oneLine
  else scalar tag (doubleQuoted cs) length oneLine

/-- The lines of an entry behind a mark of its own. -/
def afterMark (mark : String) (isItem : Bool) : Layout → List String
  | .inline text _ => linesBehind (mark ++ " ") text
  | .literal header lines => (mark ++ " " ++ header) :: lines.map indentLine
  | .collection none _ lines =>
    match lines with
    | [] => [mark]
    | l :: ls => (mark ++ " " ++ l) :: ls.map indentLine
  | .collection (some tag) isSequence lines =>
    (mark ++ " " ++ tagText tag) :: (if isSequence && !isItem then lines else lines.map indentLine)

/-- The lines of a value behind a key that is short. -/
def afterKey (key : String) : Layout → List String
  | .inline text _ => linesBehind (key ++ ": ") text
  | .literal header lines => (key ++ ": " ++ header) :: lines.map indentLine
  | .collection tag isSequence lines =>
    (key ++ ":" ++ (tag.map (" " ++ tagText ·)).getD "") ::
      (if isSequence then lines else lines.map indentLine)

/-- The lines of an entry of a mapping. -/
def entry (key value : Layout) : List String :=
  match key with
  | .inline text true => value.afterKey text
  | key => key.afterMark "?" false ++ value.afterMark ":" false

/-- The lines of a whole document. -/
def lines : Layout → List String
  | .inline text _ => linesBehind "" text
  | .literal header lines => header :: lines.map indentLine
  | .collection tag _ lines => (tag.map tagText).toList ++ lines

end Layout

/-! ## Documents -/

mutual

/-- The layout of a document behind a tag.  A tag behind a tag cannot be
    written. -/
def layout? (tag : Option String) : Yaml → Option Layout
  | null => some (.scalar tag "null" 4 true)
  | bool b => some (if b then .scalar tag "true" 4 true else .scalar tag "false" 5 true)
  | number n =>
    let text := numberText n
    some (.scalar tag text text.utf8ByteSize true)
  | string text => some (.ofString tag text)
  | sequence items =>
    match items with
    | [] => some (.scalar tag "[]" 0 true)
    | items => do return .collection tag true (← itemLines? items)
  | mapping entries =>
    match entries with
    | [] => some (.scalar tag "\x7b\x7d" 0 true)
    | entries => do return .collection tag false (← entryLines? entries)
  | tagged own value => if tag.isSome then none else layout? (some own) value

/-- The lines of items. -/
def itemLines? : List Yaml → Option (List String)
  | [] => some []
  | y :: ys => do
    let l ← layout? none y
    return l.afterMark "-" true ++ (← itemLines? ys)

/-- The lines of entries. -/
def entryLines? : List (Yaml × Yaml) → Option (List String)
  | [] => some []
  | (key, value) :: es => do
    let k ← layout? none key
    let v ← layout? none value
    return k.entry v ++ (← entryLines? es)

end

/-- The block text of a document. -/
def blockText? (y : Yaml) : Option String :=
  (y.layout? none).map fun l => joinLines l.lines

/-- Drops white space of all kinds at the end. -/
def trimEnd (text : String) : String :=
  String.ofList (text.toList.reverse.dropWhile Unicode.Binary.whiteSpace.contains).reverse

/-- What stands for a document that is a mapping key: a text itself, a scalar
    its plain text, a collection what `write?` makes of it, if anything. -/
def keyText (write? : Yaml → Option String) : Yaml → String
  | string text => text
  | null => "null"
  | bool b => if b then "true" else "false"
  | number n => numberText n
  | tagged _ value => keyText write? value
  | sequence items => trimEnd ((write? (sequence items)).getD "")
  | mapping entries => trimEnd ((write? (mapping entries)).getD "")

end ValueGraph.Yaml
