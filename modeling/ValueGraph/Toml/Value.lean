/-
  Keys and values of TOML documents.

  * `key?` takes off a key, dotted or not;
  * `value?` takes off a value.  Arrays and tables nest less than `depthLimit`
    deep; arrays may have line breaks and comments between their items, tables
    inside a line may not.
-/
import ValueGraph.Toml.Table
import ValueGraph.Toml.Text
import ValueGraph.Toml.Scalar

namespace ValueGraph.Toml

open Cursor (Step loop?)

/-- How deep arrays, tables and dotted keys may not go. -/
def depthLimit : Nat := 80

/-! ## Comments -/

/-- The place after blanks and a comment. -/
def comment (c : Cursor) : Cursor :=
  let c := c.dropWhile isBlank
  if c.next? = some '#' then (c.skip 1).dropWhile isPlain else c

/-- The place after blanks, a comment and the end of the line. -/
def lineEnd? (c : Cursor) : Option Cursor :=
  let c := comment c
  if c.atEnd then some c else lineBreak? c

/-- Goes past one line of blanks and comments. -/
def fillerStep (_ : Unit) (c : Cursor) : Option (Step Unit Unit) :=
  let c := c.dropWhile isBlank
  match lineBreak? (comment c) with
  | some c => some (.more () c)
  | none => if c.next? = some '#' then none else some (.done () c)

/-- The place after blanks, comments and line breaks. -/
def filler? (c : Cursor) : Option Cursor := (loop? fillerStep () c).map Prod.snd

/-! ## Keys -/

/-- Characters of keys without quotes. -/
def isBare (c : Char) : Bool := c.isAlphanum || c = '_' || c = '-'

/-- One part of a key. -/
def keyPart? (c : Cursor) : Option (String × Cursor) :=
  match c.next? with
  | some '"' => Text.line? '"' (c.skip 1)
  | some '\'' => Text.line? '\'' (c.skip 1)
  | _ =>
    let (part, c) := c.takeWhile isBare
    if part.isEmpty then none else some (String.ofList part, c)

/-- Takes off a part of a key, with the point after it. -/
def keyStep (parts : List String) (c : Cursor) :
    Option (Step (List String) (List String × String)) := do
  let (part, c) ← keyPart? (c.dropWhile isBlank)
  let c := c.dropWhile isBlank
  if c.next? = some '.' then return .more (part :: parts) (c.skip 1)
  else if parts.length + 1 < depthLimit then return .done (parts.reverse, part) c
  else none

/-- A key: the path that its parts before the last one make, and the last
    one. -/
def key? (c : Cursor) : Option ((List String × String) × Cursor) := loop? keyStep [] c

/-! ## Values -/

/-- Characters of words. -/
def isWordChar (c : Char) : Bool :=
  c.isAlphanum || c = '_' || c = '-' || c = '+' || c = '.' || c = ':'

/-- A word at the front.  A date may be followed by a blank and a time. -/
def word (c : Cursor) : List Char × Cursor :=
  let (cs, after) := c.takeWhile isWordChar
  if Scalar.isDate cs && after.next? = some ' ' && (after.ahead? 1).any Char.isDigit then
    let (time, after) := (after.skip 1).takeWhile isWordChar
    (cs ++ ' ' :: time, after)
  else (cs, after)

/-- Takes off an item of an array, with the comma after it, or the closing
    bracket. -/
def itemStep (value? : Cursor → Option (Toml × Cursor)) (items : List Toml) (c : Cursor) :
    Option (Step (List Toml) Toml) := do
  let c ← filler? c
  if c.next? = some ']' then return .done (.array items.reverse) (c.skip 1)
  let (v, c) ← value? c
  let c ← filler? c
  match c.next? with
  | some ',' => return .more (v :: items) (c.skip 1)
  | some ']' => return .done (.array (v :: items).reverse) (c.skip 1)
  | _ => none

/-- Takes off an entry of a table inside a line, with the comma or the closing
    brace after it. -/
def entryStep (value? : Cursor → Option (Toml × Cursor)) (entries : Entries) (c : Cursor) :
    Option (Step Entries Toml) := do
  let ((path, key), c) ← key? c
  if c.next? ≠ some '=' then none
  let (v, c) ← value? ((c.skip 1).dropWhile isBlank)
  let entries ← entries.assign? [] path key v
  let c := c.dropWhile isBlank
  match c.next? with
  | some ',' => return .more entries (c.skip 1)
  | some '\x7d' => return .done (.table entries.toToml) (c.skip 1)
  | _ => none

/-- A value with at most `depth` levels of arrays and tables. -/
def value? (depth : Nat) (c : Cursor) : Option (Toml × Cursor) :=
  match depth, c.next? with
  | _, some '"' => (Text.read? '"' c).map fun (text, c) => (.string text, c)
  | _, some '\'' => (Text.read? '\'' c).map fun (text, c) => (.string text, c)
  | 0, some '[' | 0, some '\x7b' => none
  | depth + 1, some '[' => loop? (itemStep (value? depth)) [] (c.skip 1)
  | depth + 1, some '\x7b' =>
    let c := (c.skip 1).dropWhile isBlank
    if c.next? = some '\x7d' then some (.table [], c.skip 1)
    else loop? (entryStep (value? depth)) [] c
  | _, _ =>
    let (cs, c) := word c
    (Scalar.read? cs).map fun v => (v, c)
termination_by structural depth

end ValueGraph.Toml
