/-
  Reading TOML texts.

  * `Statement` is a line of a document: a header or an entry;
  * `Statement.scan?` divides a text into statements;
  * `Toml.read?` reads a text: it gives the entries of its table.
-/
import ValueGraph.Toml.Value

namespace ValueGraph.Toml

open Cursor (Step loop?)

/-- A line of a document.  Its key is in parts, the last one apart. -/
inductive Statement where
  | openTable (path : List String) (key : String)
  | addRow (path : List String) (key : String)
  | assign (path : List String) (key : String) (v : Toml)

namespace Statement

/-- The closing brackets of a header. -/
def closed? (brackets : List Char) (c : Cursor) : Option Cursor :=
  if c.rest.take brackets.length = brackets then some (c.skip brackets.length) else none

/-- The statement at the front. -/
def one? (c : Cursor) : Option (Statement × Cursor) := do
  if c.rest.take 2 = ['[', '['] then
    let ((path, key), c) ← key? (c.skip 2)
    return (addRow path key, ← closed? [']', ']'] c)
  else if c.next? = some '[' then
    let ((path, key), c) ← key? (c.skip 1)
    return (openTable path key, ← closed? [']'] c)
  else
    let ((path, key), c) ← key? c
    if c.next? ≠ some '=' then none
    let (v, c) ← value? (depthLimit - 1) ((c.skip 1).dropWhile isBlank)
    return (assign path key v, c)

/-- Takes off one line. -/
def step (statements : List Statement) (c : Cursor) :
    Option (Step (List Statement) (List Statement)) := do
  let c := c.dropWhile isBlank
  if c.atEnd then return .done statements.reverse c
  match lineEnd? c with
  | some c => return .more statements c
  | none =>
    let (statement, c) ← one? c
    return .more (statement :: statements) (← lineEnd? c)

/-- The statements of a text.  A byte order mark in front does not count. -/
def scan? (text : String) : Option (List Statement) :=
  let c := Cursor.ofString text
  (loop? step [] (if c.next? = some '\uFEFF' then c.skip 1 else c)).map Prod.fst

end Statement

/-- A document that has been read in part: its entries, and the path to the
    table opened last. -/
structure Draft where
  entries : Entries
  current : List String

/-- What a statement makes of a document. -/
def Draft.next? (d : Draft) : Statement → Option Draft
  | .openTable path key => (d.entries.openTable? path key).map (⟨·, path ++ [key]⟩)
  | .addRow path key => (d.entries.addRow? path key).map (⟨·, path ++ [key]⟩)
  | .assign path key v => (d.entries.assign? d.current path key v).map (⟨·, d.current⟩)

/-- The entries of the table that a text denotes. -/
def read? (text : String) : Option (List (String × Toml)) := do
  let d ← (← Statement.scan? text).foldlM Draft.next? ⟨[], []⟩
  return d.entries.toToml

end ValueGraph.Toml
