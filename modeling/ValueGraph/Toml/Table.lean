/-
  Tables while a document is being read.

  A header opens a table, or adds a row to an array of tables.  Entries go
  into the table opened last, those with dotted keys into tables inside it.
  How a table has come about decides whether it may be opened or grow.

  * `Item` is what a key stands for, and `Entries` are those of a table;
  * `Entries.within?` changes the table at a path and makes the tables on the
    way there;
  * `Entries.assign?`, `Entries.openTable?` and `Entries.addRow?` are the three
    ways in which entries grow;
  * `Item.toToml` and `Entries.toToml` forget how tables have come about.
-/
import ValueGraph.Toml

namespace ValueGraph.Toml

/-- How a table has come about: by a header of its own, on the way to the
    table of another header, or on the way to an entry with a dotted key. -/
inductive Origin where
  | header
  | passage
  | dotted
deriving DecidableEq, Repr

/-- What a key stands for.  The rows of an array of tables are listed from the
    last one on. -/
inductive Item where
  | value (v : Toml)
  | table (origin : Origin) (entries : List (String × Item))
  | rows (tables : List (List (String × Item)))

/-- The entries of a table. -/
abbrev Entries := List (String × Item)

namespace Entries

/-- Changes what a key stands for.  A new key goes to the end. -/
def alter? (key : String) (f : Option Item → Option Item) : Entries → Option Entries
  | [] => (f none).map fun i => [(key, i)]
  | e :: es =>
    if e.1 = key then (f (some e.2)).map fun i => (key, i) :: es
    else (alter? key f es).map (e :: ·)

/-- Changes the table at a path.  In an array of tables the path leads through
    the last row; tables that are missing are made, and come about as `way`
    says.  A dotted key does not lead into a table that has a header. -/
def within? (way : Origin) (f : Origin → Entries → Option Entries) :
    List String → Origin → Entries → Option Entries
  | [], origin, es => f origin es
  | key :: path, _, es => es.alter? key fun
    | none => (within? way f path way []).map (.table way)
    | some (.value _) | some (.rows []) => none
    | some (.rows (last :: others)) =>
      (within? way f path .header last).map fun last => .rows (last :: others)
    | some (.table origin inner) =>
      if way = .dotted ∧ origin = .header then none
      else (within? way f path origin inner).map (.table origin)

/-- Adds an entry with a dotted key, below the table that `current` leads to.
    The key must be new, and its table must have come about by dotted keys
    unless it is the current one. -/
def assign? (current path : List String) (key : String) (v : Toml) (es : Entries) :
    Option Entries :=
  es.within? .passage
    (fun origin es => es.within? .dotted
      (fun origin es =>
        if path.isEmpty = (origin = .dotted) then none
        else es.alter? key fun
          | none => some (.value v)
          | some _ => none)
      path origin)
    current .header

/-- Opens the table under a key of the table at a path: a new one, or one that
    other headers have passed through. -/
def openTable? (path : List String) (key : String) (es : Entries) : Option Entries :=
  es.within? .passage
    (fun _ es => es.alter? key fun
      | none => some (.table .header [])
      | some (.table .passage inner) => some (.table .header inner)
      | some _ => none)
    path .header

/-- Adds a row to the array of tables under a key of the table at a path. -/
def addRow? (path : List String) (key : String) (es : Entries) : Option Entries :=
  es.within? .passage
    (fun _ es => es.alter? key fun
      | none => some (.rows [[]])
      | some (.rows tables) => some (.rows ([] :: tables))
      | some _ => none)
    path .header

end Entries

mutual

/-- The value of an item. -/
def Item.toToml : Item → Toml
  | .value v => v
  | .table _ entries => .table (Entries.toToml entries)
  | .rows tables => .array (rowsToToml tables).reverse

/-- The entries of a table as values. -/
def Entries.toToml : Entries → List (String × Toml)
  | [] => []
  | (key, i) :: es => (key, i.toToml) :: Entries.toToml es

/-- Rows as values. -/
def rowsToToml : List Entries → List Toml
  | [] => []
  | es :: rows => .table (Entries.toToml es) :: rowsToToml rows

end

end ValueGraph.Toml
