/-
  Documents as value graphs.

  Arrays and sequences become arrays, objects and mappings become plain
  objects, each a new object of the heap that is added after its parts; the
  graph of a document is a tree.  Tags leave no trace, and of keys with the
  same text the later one counts.

  * `Heap.addJson` adds the graph of a JSON document, `Heap.addYaml` the graph
    of a YAML document, and `Heap.addDocument` that of either;
  * `Heap.addYamlBy` takes the writer of collections as a parameter; only keys
    need it.
-/
import ValueGraph.Heap
import ValueGraph.Json
import ValueGraph.Yaml.BlockText

namespace ValueGraph

/-- A document of either kind. -/
inductive Document where
  | json (j : Json)
  | yaml (y : Yaml)

namespace Heap

mutual

/-- Adds the graph of a document; also gives the value that stands for it. -/
def addJson (h : Heap) : Json → Heap × Value
  | .null => (h, .null)
  | .bool b => (h, .bool b)
  | .number n => (h, .number n.value)
  | .string text => (h, .string text)
  | .array items =>
    let (h, values) := addItems h items
    (h.alloc (.array values), .object h.next)
  | .object members =>
    let (h, entries) := addMembers h members
    (h.alloc (.plain (.ofEntries .object entries)), .object h.next)

/-- Adds the graphs of elements, in order. -/
def addItems (h : Heap) : List Json → Heap × List Value
  | [] => (h, [])
  | j :: js =>
    let (h, v) := addJson h j
    let (h, vs) := addItems h js
    (h, v :: vs)

/-- Adds the graphs of members, in order. -/
def addMembers (h : Heap) : List (String × Json) → Heap × List (Key × Value)
  | [] => (h, [])
  | (key, j) :: ms =>
    let (h, v) := addJson h j
    let (h, es) := addMembers h ms
    (h, (.name key, v) :: es)

end

section
variable (write? : Yaml → Option String)

mutual

/-- Adds the graph of a document, whose collections are written by `write?`
    where they are keys; also gives the value that stands for it. -/
def addYamlBy (h : Heap) : Yaml → Heap × Value
  | .null => (h, .null)
  | .bool b => (h, .bool b)
  | .number n => (h, .number n.value)
  | .string text => (h, .string text)
  | .sequence items =>
    let (h, values) := addYamlItems h items
    (h.alloc (.array values), .object h.next)
  | .mapping entries =>
    let (h, entries) := addYamlEntries h entries
    (h.alloc (.plain (.ofEntries .object entries)), .object h.next)
  | .tagged _ value => addYamlBy h value

/-- Adds the graphs of items, in order. -/
def addYamlItems (h : Heap) : List Yaml → Heap × List Value
  | [] => (h, [])
  | y :: ys =>
    let (h, v) := addYamlBy h y
    let (h, vs) := addYamlItems h ys
    (h, v :: vs)

/-- Adds the graphs of the values of entries, in order. -/
def addYamlEntries (h : Heap) : List (Yaml × Yaml) → Heap × List (Key × Value)
  | [] => (h, [])
  | (key, y) :: es =>
    let (h, v) := addYamlBy h y
    let (h, vs) := addYamlEntries h es
    (h, (.name (key.keyText write?), v) :: vs)

end

end

/-- Adds the graph of a document; also gives the value that stands for it. -/
def addYaml (h : Heap) (y : Yaml) : Heap × Value := h.addYamlBy Yaml.blockText? y

/-- Adds the graph of a document of either kind. -/
def addDocument (h : Heap) : Document → Heap × Value
  | .json j => h.addJson j
  | .yaml y => h.addYaml y

end Heap

end ValueGraph
