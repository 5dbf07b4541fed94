/-
  JSON documents and their texts.

  * `Json` is a document, an object with its members in the order in which they
    are written; `Json.ofMembers` lists members in the order of their keys,
    each key once, as documents that are read have them;
  * `Json.compact` is the text without spaces, and `Json.pretty` the text with
    one element or member per line, two spaces deeper than its container.
-/
import ValueGraph.Decimal.Notation

namespace ValueGraph

/-! ## Documents -/

/-- A number of a document: integers are told from other numbers. -/
inductive JsonNumber where
  | integer (i : Int)
  | float (x : Binary64)
deriving DecidableEq

/-- The nearest 64-bit number. -/
def JsonNumber.value : JsonNumber → Binary64
  | integer i => Binary64.ofInt i
  | float x => x

/-- A document. -/
inductive Json where
  | null
  | bool (b : Bool)
  | number (n : JsonNumber)
  | string (text : String)
  | array (items : List Json)
  | object (members : List (String × Json))

namespace Json

/-- Sets a member among members that are in the order of their keys. -/
def insertMember (key : String) (value : Json) : List (String × Json) → List (String × Json)
  | [] => [(key, value)]
  | m :: ms =>
    if key < m.1 then (key, value) :: m :: ms
    else if key = m.1 then (key, value) :: ms
    else m :: insertMember key value ms

/-- The object with these members; of two with the same key the later one
    counts. -/
def ofMembers (members : List (String × Json)) : Json :=
  .object (members.foldl (fun ms m => insertMember m.1 m.2 ms) [])

/-! ## Texts -/

/-- The digit `n`, below sixteen, in lower case. -/
def hexDigit (n : Nat) : Char := Nat.digitChar n

/-- A character inside a quoted text.  Quotes, backslashes and control
    characters are escaped. -/
def escape (c : Char) : List Char :=
  match c with
  | '"' => ['\\', '"']
  | '\\' => ['\\', '\\']
  | '\x08' => ['\\', 'b']
  | '\x0c' => ['\\', 'f']
  | '\n' => ['\\', 'n']
  | '\r' => ['\\', 'r']
  | '\t' => ['\\', 't']
  | c =>
    if c.toNat < 32 then ['\\', 'u', '0', '0', hexDigit (c.toNat / 16), hexDigit (c.toNat % 16)]
    else [c]

/-- A text in quotes. -/
def quote (text : String) : String :=
  String.ofList ('"' :: text.toList.flatMap escape ++ ['"'])

/-- Floating-point numbers are positional up to sixteen digits before the point
    and four zeros after it, and positive exponents have a sign. -/
def numberStyle : Decimal.Notation := ⟨-5, 15, true, "null", "null", "null"⟩

/-- The text of a number. -/
def numberText : JsonNumber → String
  | .integer i => integerText i
  | .float x => numberStyle.write x

mutual

/-- The text of a document without spaces. -/
def compact : Json → String
  | null => "null"
  | bool b => if b then "true" else "false"
  | number n => numberText n
  | string text => quote text
  | array items => "[" ++ ",".intercalate (compactItems items) ++ "]"
  | object members => "\x7b" ++ ",".intercalate (compactMembers members) ++ "\x7d"

/-- The texts of elements. -/
def compactItems : List Json → List String
  | [] => []
  | j :: js => compact j :: compactItems js

/-- The texts of members. -/
def compactMembers : List (String × Json) → List String
  | [] => []
  | (key, j) :: ms => (quote key ++ ":" ++ compact j) :: compactMembers ms

end

/-- Lines between brackets, the closing one indented by `depth` steps. -/
def bracketed (opening closing : String) (depth : Nat) (lines : List String) : String :=
  if lines.isEmpty then opening ++ closing
  else
    let indent (n : Nat) : String := "\n" ++ String.ofList (List.replicate (2 * n) ' ')
    opening ++ ",".intercalate (lines.map fun line => indent (depth + 1) ++ line)
      ++ indent depth ++ closing

mutual

/-- The text of a document with one element or member per line, inside `depth`
    containers. -/
def prettyAt (depth : Nat) : Json → String
  | null => "null"
  | bool b => if b then "true" else "false"
  | number n => numberText n
  | string text => quote text
  | array items => bracketed "[" "]" depth (prettyItems (depth + 1) items)
  | object members => bracketed "\x7b" "\x7d" depth (prettyMembers (depth + 1) members)

/-- The texts of elements inside `depth` containers. -/
def prettyItems (depth : Nat) : List Json → List String
  | [] => []
  | j :: js => prettyAt depth j :: prettyItems depth js

/-- The texts of members inside `depth` containers. -/
def prettyMembers (depth : Nat) : List (String × Json) → List String
  | [] => []
  | (key, j) :: ms => (quote key ++ ": " ++ prettyAt depth j) :: prettyMembers depth ms

end

/-- The text of a document with one element or member per line. -/
def pretty (j : Json) : String := j.prettyAt 0

end Json

end ValueGraph
