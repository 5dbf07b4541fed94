/-
  Reading JSON texts.

  * `Json.State` is a document that has been read in part: the containers that
    are open, and what may follow;
  * `Json.State.next?` takes the next token in;
  * `Json.read?` reads a whole text.  Containers nest less than
    `Json.depthLimit` deep, and of two members with the same key the later one
    counts.
-/
import ValueGraph.Json.Token

namespace ValueGraph.Json

/-- How many containers may not be open at once. -/
def depthLimit : Nat := 128

/-- A container that is open: what it holds so far, the latest first.  In an
    object, `key` is that of the member being read. -/
inductive Open where
  | array (items : List Json)
  | object (members : List (String × Json)) (key : String)

/-- What may follow. -/
inductive Focus where
  /-- A value; right after an opening bracket, also the closing one. -/
  | value (orClose : Bool)
  /-- A key; right after an opening brace, also the closing one. -/
  | key (orClose : Bool)
  /-- A colon. -/
  | colon
  /-- A comma or the end of the container. -/
  | more
  /-- Nothing: the document is complete. -/
  | done (document : Json)

/-- A document that has been read in part: the containers that are open, the
    innermost first, and what may follow. -/
structure State where
  containers : List Open
  focus : Focus

namespace State

/-- Nothing has been read. -/
def start : State := ⟨[], .value false⟩

/-- A value is complete. -/
def complete (j : Json) : List Open → State
  | [] => ⟨[], .done j⟩
  | .array items :: outer => ⟨.array (j :: items) :: outer, .more⟩
  | .object members key :: outer => ⟨.object ((key, j) :: members) key :: outer, .more⟩

/-- A container opens, unless too many are open. -/
def enter? (container : Open) (focus : Focus) (outer : List Open) : Option State :=
  if outer.length + 1 < depthLimit then some ⟨container :: outer, focus⟩ else none

/-- The innermost container is an array and closes. -/
def closeArray? : List Open → Option State
  | .array items :: outer => some (complete (.array items.reverse) outer)
  | _ => none

/-- The innermost container is an object and closes. -/
def closeObject? : List Open → Option State
  | .object members _ :: outer => some (complete (ofMembers members.reverse) outer)
  | _ => none

/-- A value starts or is there. -/
def value? (containers : List Open) : Token → Option State
  | .openArray => enter? (.array []) (.value true) containers
  | .openObject => enter? (.object [] "") (.key true) containers
  | .null => some (complete .null containers)
  | .bool b => some (complete (.bool b) containers)
  | .number n => some (complete (.number n) containers)
  | .string text => some (complete (.string text) containers)
  | _ => none

/-- Takes the next token in. -/
def next? (s : State) (token : Token) : Option State :=
  match s.focus, token, s.containers with
  | .value true, .closeArray, containers => closeArray? containers
  | .value _, token, containers => value? containers token
  | .key true, .closeObject, containers => closeObject? containers
  | .key _, .string key, .object members _ :: outer => some ⟨.object members key :: outer, .colon⟩
  | .colon, .colon, containers => some ⟨containers, .value false⟩
  | .more, .comma, .array items :: outer => some ⟨.array items :: outer, .value false⟩
  | .more, .comma, .object members key :: outer => some ⟨.object members key :: outer, .key false⟩
  | .more, .closeArray, containers => closeArray? containers
  | .more, .closeObject, containers => closeObject? containers
  | _, _, _ => none

end State

/-- The document that a text denotes. -/
def read? (text : String) : Option Json := do
  let tokens ← Token.scan? text.toList
  match (← tokens.foldlM State.next? State.start).focus with
  | .done document => some document
  | _ => none

end ValueGraph.Json
