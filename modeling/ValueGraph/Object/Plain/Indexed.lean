/-
  Plain objects with an index.

  Beside the properties, in insertion order, stands a table from each key to
  the place of its property.  What is read or changed under a key is found
  through the table, and whoever changes the properties has to change the table
  with them.  `PlainObject` looks for the keys among the properties themselves.
  Here an access to a place that no property has can be seen.

  * `find?`, `get?`, `getName?`, `hasEnumerable`: reads through the table;
  * `entries`, `nameCount`, `symbolCount`, `length`: reads of the properties
    alone;
  * `define`, `insert`, `remove`, `clear`, `withPrototype`: changes of both;
  * `PlainObject.Change`, `Change.history`, `IndexedObject.history`: any changes,
    one after another.
-/
import Mathlib.Data.List.Induction
import ValueGraph.Object.Plain

namespace ValueGraph

/-! ## Histories -/

namespace PlainObject

/-- A change of a plain object. -/
inductive Change where
  | insert (k : Key) (v : Value)
  | define (k : Key) (v : Value) (enumerable : Bool)
  | remove (k : Key)
  | clear
  | setPrototype (prototype : Prototype)
deriving DecidableEq

/-- Makes a change; also gives the value that it replaces or takes out. -/
def change (o : PlainObject) : Change → Option Value × PlainObject
  | .insert k v => o.insert k v
  | .define k v enumerable => o.define k v enumerable
  | .remove k => o.remove k
  | .clear => (none, o.clear)
  | .setPrototype prototype => (none, o.withPrototype prototype)

/-- Makes changes one after another, each by `change`; also gives what each of
    them replaces or takes out. -/
def Change.history {σ : Type} (change : σ → Change → Option Value × σ) :
    σ → List Change → List (Option Value) × σ
  | s, [] => ([], s)
  | s, c :: cs =>
    let (previous, s) := change s c
    let (later, s) := history change s cs
    (previous :: later, s)

end PlainObject

/-! ## Objects with an index -/

/-- An access to a place that no property has. -/
structure OutOfRange where
  place : Nat
deriving DecidableEq, Repr

instance : Hashable Key where
  hash
    | .name text => hash text
    | .symbol s => hash s.id

/-- A bag of own properties, in insertion order, with the place of each key. -/
structure IndexedObject where
  prototype : Prototype
  properties : List Property
  index : Std.HashMap Key Nat

namespace IndexedObject

/-- An object without properties. -/
def empty (prototype : Prototype) : IndexedObject := ⟨prototype, [], ∅⟩

/-- The own keys, in order. -/
def keys (o : IndexedObject) : List Key := o.properties.map Property.key

/-! ## Reads -/

/-- The property in a place. -/
def property (o : IndexedObject) (i : Nat) : Except OutOfRange Property :=
  match o.properties[i]? with
  | some p => .ok p
  | none => .error ⟨i⟩

/-- The own property with this key. -/
def find? (o : IndexedObject) (k : Key) : Except OutOfRange (Option Property) :=
  match o.index[k]? with
  | some i => (o.property i).map some
  | none => .ok none

/-- The value of an own property, enumerable or not. -/
def get? (o : IndexedObject) (k : Key) : Except OutOfRange (Option Value) :=
  (o.find? k).map fun p => p.map Property.value

/-- The value of the own property with this string key. -/
def getName? (o : IndexedObject) (text : String) : Except OutOfRange (Option Value) :=
  o.get? (.name text)

/-- Whether `k` is an own enumerable property. -/
def hasEnumerable (o : IndexedObject) (k : Key) : Except OutOfRange Bool :=
  (o.find? k).map fun p => p.any Property.enumerable

/-- The own enumerable properties with a string key. -/
def names (o : IndexedObject) : List Property :=
  o.properties.filter fun p => p.enumerable && !p.key.isSymbol

/-- The own enumerable properties with a symbol key. -/
def symbols (o : IndexedObject) : List Property :=
  o.properties.filter fun p => p.enumerable && p.key.isSymbol

/-- The own enumerable properties: string keys before symbol keys, each in
    insertion order. -/
def entries (o : IndexedObject) : List (Key × Value) :=
  (o.names ++ o.symbols).map fun p => (p.key, p.value)

/-- The number of own enumerable properties with a string key. -/
def nameCount (o : IndexedObject) : Nat := o.names.length

/-- The number of own enumerable properties with a symbol key. -/
def symbolCount (o : IndexedObject) : Nat := o.symbols.length

/-- The number of own properties, enumerable or not. -/
def length (o : IndexedObject) : Nat := o.properties.length

/-! ## Changes -/

/-- Defines a property; also gives the value it replaces. -/
def define (o : IndexedObject) (k : Key) (v : Value) (enumerable : Bool) :
    Except OutOfRange (Option Value × IndexedObject) :=
  match o.index[k]? with
  | some i => (o.property i).map fun p =>
      (some p.value, { o with properties := o.properties.set i { p with value := v, enumerable } })
  | none => .ok (none, { o with
      properties := o.properties ++ [⟨k, v, enumerable⟩]
      index := o.index.insert k o.properties.length })

/-- Defines an enumerable property; also gives the value it replaces. -/
def insert (o : IndexedObject) (k : Key) (v : Value) :
    Except OutOfRange (Option Value × IndexedObject) :=
  o.define k v true

/-- Where the property in place `j` is when the one in place `i` has gone. -/
def moveUp (i j : Nat) : Nat := if i < j then j - 1 else j

/-- Takes a property out; also gives its value.  Later ones move up. -/
def remove (o : IndexedObject) (k : Key) : Except OutOfRange (Option Value × IndexedObject) :=
  match o.index[k]? with
  | some i => (o.property i).map fun p =>
      (some p.value, { o with
        properties := o.properties.eraseIdx i
        index := (o.index.erase k).map fun _ j => moveUp i j })
  | none => .ok (none, o)

/-- Takes all properties out and keeps the prototype. -/
def clear (o : IndexedObject) : IndexedObject := { o with properties := [], index := ∅ }

/-- The same properties under another prototype. -/
def withPrototype (o : IndexedObject) (prototype : Prototype) : IndexedObject :=
  { o with prototype }

/-- Makes a change; also gives the value that it replaces or takes out. -/
def change (o : IndexedObject) :
    PlainObject.Change → Except OutOfRange (Option Value × IndexedObject)
  | .insert k v => o.insert k v
  | .define k v enumerable => o.define k v enumerable
  | .remove k => o.remove k
  | .clear => .ok (none, o.clear)
  | .setPrototype prototype => .ok (none, o.withPrototype prototype)

/-- Makes changes one after another; also gives what each of them replaces or
    takes out.  An access out of range ends it. -/
def history (o : IndexedObject) :
    List PlainObject.Change → Except OutOfRange (List (Option Value) × IndexedObject)
  | [] => .ok ([], o)
  | c :: cs => do
    let (previous, o) ← o.change c
    let (later, o) ← o.history cs
    return (previous :: later, o)

end IndexedObject

end ValueGraph
