/-
  Block scalars: the indented lines after a vertical bar or an angle bracket.

  Literal scalars keep their line breaks.  Folded ones join neighbouring lines
  that do not start with a blank.  The header tells what becomes of the line
  breaks at the end and, if it is not to be found out, how deep the lines are
  indented.

  * `BlockHeader.scan?` reads a header;
  * `scanBlock?` reads a whole scalar.
-/
import ValueGraph.Yaml.Character

namespace ValueGraph.Yaml

/-- What becomes of the line breaks at the end of a block scalar: all but the
    first are dropped, all are kept, or all are dropped. -/
inductive Chomping where
  | clip | keep | strip
deriving DecidableEq, Repr

/-- The first line of a block scalar: what it does with line breaks, and how
    much deeper than its parent it is indented, if it says so. -/
structure BlockHeader where
  chomping : Chomping
  increment : Option Nat

namespace BlockHeader

/-- A chomping mark. -/
def chompingOf? : Char → Option Chomping
  | '+' => some .keep
  | '-' => some .strip
  | _ => none

/-- An indentation digit, which is not zero. -/
def scanIncrement? (c : Cursor) : Option (Option Nat × Cursor) :=
  match c.next? with
  | some d =>
    if d = '0' then none
    else if d.isDigit then some (some (d.toNat - '0'.toNat), c.skip 1)
    else some (none, c)
  | none => some (none, c)

/-- The marks after the indicator, in either order. -/
def scan? (c : Cursor) : Option (BlockHeader × Cursor) := do
  match c.next?.bind chompingOf? with
  | some chomping =>
    let (increment, c) ← scanIncrement? (c.skip 1)
    return (⟨chomping, increment⟩, c)
  | none =>
    let (increment, c) ← scanIncrement? c
    match increment.bind fun _ => c.next?.bind chompingOf? with
    | some chomping => return (⟨chomping, increment⟩, c.skip 1)
    | none => return (⟨.clip, increment⟩, c)

end BlockHeader

/-! ## Line breaks and indentation -/

/-- Empty lines: the line breaks, the latest first, and the deepest indentation
    so far. -/
structure EmptyLines where
  breaks : List Char
  deepest : Nat

/-- Takes one empty line in, or stops at a line that is not empty.  A tab may
    not stand where indentation is looked for. -/
def stepEmptyLine? (indent : Option Nat) (l : EmptyLines) (c : Cursor) :
    Option (Cursor.Step EmptyLines EmptyLines) := do
  let spaces := (c.takeWhile (· == ' ')).1.length
  let c := c.skip (match indent with
    | some n => min spaces (n - c.column)
    | none => spaces)
  let l := { l with deepest := max l.deepest c.column }
  if c.isNext '\t' && indent.all (c.column < ·) then none
  else match c.readBreak? with
    | some (char, next) => return .more { l with breaks := char :: l.breaks } next
    | none => return .done l c

/-- Empty lines and the indentation of the line after them: the line breaks,
    and the indentation of the scalar, which is found out here if it is not
    known. -/
def scanEmptyLines? (parent : Int) (indent : Option Nat) (c : Cursor) :
    Option ((List Char × Nat) × Cursor) := do
  let (l, c) ← c.loop? (stepEmptyLine? indent) ⟨[], 0⟩
  return ((l.breaks.reverse, indent.getD (max l.deepest (max (parent + 1) 1).toNat)), c)

/-! ## Content -/

/-- A block scalar that has been read in part. -/
structure BlockText where
  /-- The text so far, the latest character first. -/
  text : List Char
  /-- The line break after the latest line. -/
  lineBreak : Option Char
  /-- The line breaks of empty lines after that. -/
  empty : List Char
  /-- Whether the latest line starts with a blank. -/
  blank : Bool

namespace BlockText

/-- The text with the line breaks after it, where the next line starts with a
    blank or not. -/
def joined (folded nextBlank : Bool) (t : BlockText) : List Char :=
  let lineBreak :=
    if folded && t.lineBreak == some '\n' && !t.blank && !nextBlank then
      if t.empty.isEmpty then [' '] else []
    else t.lineBreak.toList
  t.empty.reverse ++ lineBreak ++ t.text

/-- Takes one line in, with the empty lines after it. -/
def step? (folded : Bool) (parent : Int) (indent : Nat) (t : BlockText) (c : Cursor) :
    Option (Cursor.Step BlockText BlockText) := do
  if c.column ≠ indent ∨ c.atEnd then return .done t c
  else
    let blank := c.next?.any isBlank
    let (line, c) := c.takeWhile fun char => !isBreak char
    let (lineBreak, c) := match c.readBreak? with
      | some (char, c) => (some char, c)
      | none => (none, c)
    let ((empty, _), c) ← scanEmptyLines? parent (some indent) c
    return .more ⟨line.reverse ++ t.joined folded blank, lineBreak, empty, blank⟩ c

/-- The whole text, with the line breaks at its end that are not dropped. -/
def finish (chomping : Chomping) (t : BlockText) : String :=
  String.ofList (t.text.reverse ++ match chomping with
    | .strip => []
    | .clip => t.lineBreak.toList
    | .keep => t.lineBreak.toList ++ t.empty)

end BlockText

/-- The content of a block scalar that starts with its indicator here, inside a
    collection that is indented to `parent`. -/
def scanBlock? (folded : Bool) (parent : Int) (c : Cursor) : Option (String × Cursor) := do
  let (header, c) ← BlockHeader.scan? (c.skip 1)
  let c ← c.finishLine?
  let indent := header.increment.map fun n => (max parent 0).toNat + n
  let ((empty, indent), c) ← scanEmptyLines? parent indent c
  let (t, c) ← c.loop? (BlockText.step? folded parent indent) ⟨[], none, empty, false⟩
  return (t.finish header.chomping, c)

end ValueGraph.Yaml
