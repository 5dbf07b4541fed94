/-
  Reading YAML texts.

  An alias stands for a copy of the node that its anchor is on.  Collections
  nest at most `depthLimit` deep, the copies included, and the number of
  aliases that are followed is limited too.

  * `Node.link?` resolves the names of anchors, and `Node.anchored` lists the
    nodes that they are on;
  * `Node.build?` makes the document of a node;
  * `Yaml.read?` reads a text.
-/
import ValueGraph.Yaml.Scanning
import ValueGraph.Yaml.Node
import ValueGraph.Yaml.Scalar

namespace ValueGraph.Yaml

/-- How deep collections may nest. -/
def depthLimit : Nat := 128

/-! ## Anchors -/

/-- The numbers of the anchors so far. -/
abbrev Anchors := List (String × Nat)

namespace Anchors

/-- Gives an anchor its number: how many names there are.  A name that is used
    again gets a new number, but is still one name. -/
def define (anchors : Anchors) (name : String) : Nat × Anchors :=
  (anchors.length, (name, anchors.length) :: anchors.filter (·.1 != name))

/-- The number of an anchor. -/
def find? (anchors : Anchors) (name : String) : Option Nat :=
  (List.find? (·.1 == name) anchors).map Prod.snd

/-- The properties of a node with the number of its anchor. -/
def link (anchors : Anchors) (p : Properties String) : Properties Nat × Anchors :=
  match p.anchor with
  | none => (⟨none, p.tag⟩, anchors)
  | some name =>
    let (id, anchors) := anchors.define name
    (⟨some id, p.tag⟩, anchors)

end Anchors

namespace Node

mutual

/-- The node with numbers for anchors.  Every alias has to come after its
    anchor. -/
def link? (anchors : Anchors) : Node String → Option (Node Nat × Anchors)
  | .alias name => do return (.alias (← anchors.find? name), anchors)
  | .scalar p text plain =>
    let (p, anchors) := anchors.link p
    some (.scalar p text plain, anchors)
  | .sequence p items => do
    let (p, anchors) := anchors.link p
    let (items, anchors) ← linkItems? anchors items
    return (.sequence p items, anchors)
  | .mapping p entries => do
    let (p, anchors) := anchors.link p
    let (entries, anchors) ← linkEntries? anchors entries
    return (.mapping p entries, anchors)

/-- The items with numbers for anchors. -/
def linkItems? (anchors : Anchors) : List (Node String) → Option (List (Node Nat) × Anchors)
  | [] => some ([], anchors)
  | n :: ns => do
    let (n, anchors) ← link? anchors n
    let (ns, anchors) ← linkItems? anchors ns
    return (n :: ns, anchors)

/-- The entries with numbers for anchors. -/
def linkEntries? (anchors : Anchors) :
    List (Node String × Node String) → Option (List (Node Nat × Node Nat) × Anchors)
  | [] => some ([], anchors)
  | (key, value) :: es => do
    let (key, anchors) ← link? anchors key
    let (value, anchors) ← link? anchors value
    let (es, anchors) ← linkEntries? anchors es
    return ((key, value) :: es, anchors)

end

/-- The node itself, if there is an anchor on it. -/
def onAnchor (p : Properties Nat) (n : Node Nat) : List (Nat × Node Nat) :=
  match p.anchor with
  | some id => [(id, n)]
  | none => []

mutual

/-- The nodes with an anchor, in the order of the text. -/
def anchored : Node Nat → List (Nat × Node Nat)
  | .alias _ => []
  | .scalar p text plain => onAnchor p (.scalar p text plain)
  | .sequence p items => onAnchor p (.sequence p items) ++ anchoredItems items
  | .mapping p entries => onAnchor p (.mapping p entries) ++ anchoredEntries entries

/-- The items with an anchor. -/
def anchoredItems : List (Node Nat) → List (Nat × Node Nat)
  | [] => []
  | n :: ns => anchored n ++ anchoredItems ns

/-- The keys and values with an anchor. -/
def anchoredEntries : List (Node Nat × Node Nat) → List (Nat × Node Nat)
  | [] => []
  | (key, value) :: es => anchored key ++ anchored value ++ anchoredEntries es

end

mutual

/-- The number of marks that a node consists of: one for a scalar or an alias,
    and one for each end of a collection. -/
def size {α : Type} : Node α → Nat
  | .alias _ | .scalar _ _ _ => 1
  | .sequence _ items => 2 + sizeItems items
  | .mapping _ entries => 2 + sizeEntries entries

/-- The size of items together. -/
def sizeItems {α : Type} : List (Node α) → Nat
  | [] => 0
  | n :: ns => size n + sizeItems ns

/-- The size of entries together. -/
def sizeEntries {α : Type} : List (Node α × Node α) → Nat
  | [] => 0
  | (key, value) :: es => size key + size value + sizeEntries es

end

/-! ## Documents -/

/-- The tag that the document keeps: one of its own, without the exclamation
    mark in front.  One more exclamation mark in front of a name makes no other
    tag. -/
def ownTag? (p : Properties Nat) : Option String :=
  match p.tag.map String.toList with
  | some ('!' :: '!' :: c :: name) => some (String.ofList (c :: name))
  | some ('!' :: name) => some (String.ofList name)
  | _ => none

/-- A document under a tag of its own, which is not empty. -/
def underTag? (p : Properties Nat) (y : Yaml) : Option Yaml :=
  match ownTag? p with
  | none => some y
  | some tag => if tag.isEmpty then none else some (.tagged tag y)

/-- The document of a scalar. -/
def scalar? (p : Properties Nat) (text : String) (plain : Bool) : Option Yaml :=
  match ownTag? p, p.tag with
  | none, some tag => PlainScalar.readAs? tag text
  | _, _ => do underTag? p (← if plain then PlainScalar.read? text else some (.string text))

/-- A computation that counts the aliases that may still be followed. -/
abbrev Build := StateT Nat Option

/-- The node itself, or the one that it is an alias for. -/
def follow (targets : List (Nat × Node Nat)) : Node Nat → Build (Node Nat)
  | .alias id => do
    let left ← get
    match left, targets.find? (·.1 == id) with
    | left + 1, some (_, target) =>
      set left
      return target
    | _, _ => failure
  | n => return n

/-- The mapping of entries without a repeated key. -/
def mapping? (entries : List (Yaml × Yaml)) : Option Yaml :=
  if entries.Pairwise fun a b => a.1.same b.1 = false then some (.mapping entries) else none

/-- The document of a node with at most `depth` levels of collections. -/
def build (targets : List (Nat × Node Nat)) (depth : Nat) (n : Node Nat) : Build Yaml := do
  match depth, ← follow targets n with
  | _, .alias _ => failure
  | _, .scalar p text plain => liftM (scalar? p text plain)
  | 0, _ => failure
  | depth + 1, .sequence p items =>
    let items ← items.mapM (build targets depth)
    liftM (underTag? p (.sequence items))
  | depth + 1, .mapping p entries =>
    let entries ← entries.mapM fun e => do
      let key ← build targets depth e.1
      let value ← build targets depth e.2
      return (key, value)
    liftM (do underTag? p (← mapping? entries))
termination_by structural depth

/-- The document of a node.  Of anchors with the same number the last one
    counts; at most a hundred aliases for each mark are followed. -/
def build? (n : Node String) : Option Yaml := do
  let (n, _) ← link? [] n
  let (y, _) ← (build n.anchored.reverse depthLimit n).run (100 * n.size)
  return y

end Node

/-- The document that a text denotes. -/
def read? (text : String) : Option Yaml := do
  (← Node.ofTokens? (← Token.scan? text)).build?

end ValueGraph.Yaml
