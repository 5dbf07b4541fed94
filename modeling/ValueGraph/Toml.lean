/-
  TOML values.

  A document is a table; its entries are in the order of the text, each key
  once.
-/
import ValueGraph.Binary64.Rounding

namespace ValueGraph

/-- A value of a TOML document. -/
inductive Toml where
  | string (text : String)
  | integer (i : Int)
  | float (x : Binary64)
  | bool (b : Bool)
  /-- A date, a time of day, or both, as it is written. -/
  | moment (text : String)
  | array (items : List Toml)
  | table (entries : List (String × Toml))

namespace Toml

/-- What a key stands for among entries. -/
def entry? (entries : List (String × Toml)) (key : String) : Option Toml :=
  (entries.find? (·.1 == key)).map Prod.snd

/-- The text that a value is. -/
def string? : Toml → Option String
  | string text => some text
  | _ => none

/-- The items of an array. -/
def items? : Toml → Option (List Toml)
  | array items => some items
  | _ => none

end Toml

end ValueGraph
