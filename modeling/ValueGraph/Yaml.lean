/-
  YAML documents.

  * `Yaml` is a document; the entries of a mapping are in the order of the
    text, and its keys are documents themselves;
  * `Yaml.same` says which documents are the same as keys: integers and other
    numbers are never the same, any two not-a-numbers are, and the order of
    entries does not count;
  * `Yaml.mappingOf` is the mapping that inserting entries in order gives.
-/
import ValueGraph.Binary64.Rounding

namespace ValueGraph

/-- A number of a YAML document. -/
inductive YamlNumber where
  | integer (i : Int)
  | float (x : Binary64)
deriving DecidableEq

namespace YamlNumber

/-- The nearest 64-bit number. -/
def value : YamlNumber → Binary64
  | integer i => Binary64.ofInt i
  | float x => x

/-- Sameness of numbers. -/
def same : YamlNumber → YamlNumber → Bool
  | integer i, integer j => i == j
  | float x, float y => x.eq y || (x.isNaN && y.isNaN)
  | _, _ => false

end YamlNumber

/-- A YAML document. -/
inductive Yaml where
  | null
  | bool (b : Bool)
  | number (n : YamlNumber)
  | string (text : String)
  | sequence (items : List Yaml)
  | mapping (entries : List (Yaml × Yaml))
  | tagged (tag : String) (value : Yaml)
deriving Inhabited

namespace Yaml

mutual

/-- Sameness of documents. -/
def same (a b : Yaml) : Bool :=
  match a, b with
  | null, null => true
  | bool a, bool b => a == b
  | number a, number b => a.same b
  | string a, string b => a == b
  | sequence as, sequence bs => sameItems as bs
  | mapping as, mapping bs => as.length == bs.length && sameEntries as bs
  | tagged s a, tagged t b => s == t && same a b
  | _, _ => false
termination_by structural a

/-- Sameness item by item. -/
def sameItems (as bs : List Yaml) : Bool :=
  match as, bs with
  | [], [] => true
  | a :: as, b :: bs => same a b && sameItems as bs
  | _, _ => false
termination_by structural as

/-- Whether the same entries are found among others. -/
def sameEntries (as bs : List (Yaml × Yaml)) : Bool :=
  match as with
  | [] => true
  | (key, value) :: as => (bs.any fun b => same key b.1 && same value b.2) && sameEntries as bs
termination_by structural as

end

/-- Sets the value under a key: in place of the one under the same key, or at
    the end. -/
def insertEntry (key value : Yaml) : List (Yaml × Yaml) → List (Yaml × Yaml)
  | [] => [(key, value)]
  | e :: es => if e.1.same key then (e.1, value) :: es else e :: insertEntry key value es

/-- The mapping that inserting entries in order gives. -/
def mappingOf (entries : List (Yaml × Yaml)) : Yaml :=
  .mapping (entries.foldl (fun es e => insertEntry e.1 e.2 es) [])

end Yaml

end ValueGraph
