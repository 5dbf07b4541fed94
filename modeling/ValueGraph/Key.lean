/-
  Property keys and the paths they form.

  A symbol is a key without a text of its own: two symbols are the same only
  if they have the same identity, whatever their descriptions say.  A path
  leads from the root of a graph to a node, one segment per step.

  * `Symbol.text`, `Key.text` and `Segment.text` are what a dotted path shows;
  * `KeyPath.text` is the dotted path, and `KeyPath.textWith` the dotted path
    of a property of the node at the path.
-/
import ValueGraph.Decimal

namespace ValueGraph

/-! ## Keys -/

/-- A symbol: an identity with an optional description. -/
structure Symbol where
  id : Nat
  description : Option String
deriving DecidableEq, Repr

/-- The symbol with its description, if any, in brackets. -/
def Symbol.text (s : Symbol) : String := "Symbol(" ++ s.description.getD "" ++ ")"

/-- A property key. -/
inductive Key where
  | name (text : String)
  | symbol (symbol : Symbol)
deriving DecidableEq, Repr

namespace Key

/-- Whether the key is a symbol. -/
def isSymbol : Key → Bool
  | name _ => false
  | symbol _ => true

/-- The text of a string key. -/
def name? : Key → Option String
  | name text => some text
  | symbol _ => none

/-- What a dotted path shows for the key. -/
def text : Key → String
  | name text => text
  | symbol s => s.text

end Key

/-! ## Paths -/

/-- One step of a path: a property of an object or an element of an array. -/
inductive Segment where
  | key (key : Key)
  | index (i : Nat)
deriving DecidableEq, Repr

namespace Segment

/-- What a dotted path shows for the step. -/
def text : Segment → String
  | key k => k.text
  | index i => integerText i

/-- Whether the step is the property with this string key. -/
def isName (name : String) : Segment → Bool
  | key k => k == .name name
  | index _ => false

/-- The position of an array element. -/
def index? : Segment → Option Nat
  | key _ => none
  | index i => some i

end Segment

/-- The way from the root of a graph to a node. -/
inductive KeyPath where
  | root
  | step (parent : KeyPath) (segment : Segment)
deriving DecidableEq, Repr

namespace KeyPath

/-- The steps of a path, from the root on. -/
def segments : KeyPath → List Segment
  | root => []
  | step parent segment => parent.segments ++ [segment]

/-- The path with these steps. -/
def ofSegments (segments : List Segment) : KeyPath := segments.foldl step root

/-- The number of steps. -/
def length : KeyPath → Nat
  | root => 0
  | step parent _ => parent.length + 1

/-- Whether the path stays at the root. -/
def isRoot : KeyPath → Bool
  | root => true
  | step _ _ => false

/-- The last step. -/
def last? : KeyPath → Option Segment
  | root => none
  | step _ segment => some segment

/-- The path without its last step. -/
def parent : KeyPath → KeyPath
  | root => root
  | step parent _ => parent

/-- The dotted path: the texts of the steps with a point between two. -/
def text (path : KeyPath) : String := ".".intercalate (path.segments.map Segment.text)

/-- The dotted path of a property of the node at `path`.  A path that shows
    nothing gets no point. -/
def textWith (path : KeyPath) (key : Key) : String :=
  let shown := path.text
  (if shown.isEmpty then "" else shown ++ ".") ++ key.text

end KeyPath

end ValueGraph
