/-
  Plain objects: a prototype and own properties in insertion order, no two of
  them with the same key.

  A new key goes to the end; defining a known key keeps its place and replaces
  its value and its enumerability.

  * `find?`, `get?`, `hasEnumerable`, `entries`, `names`, `symbols` read;
  * `define`, `insert`, `remove`, `clear`, `withPrototype` change;
  * `find?_define` and `keys_define` say what defining a property does to later
    reads and to the order of the keys.
-/
import ValueGraph.Value

namespace ValueGraph

/-! ## Prototypes -/

/-- A class, known by its identity.  A built-in class is one that the host
    provides. -/
structure Class where
  id : Nat
  name : String
  builtin : Bool
deriving DecidableEq, Repr

/-- What a plain object inherits from. -/
inductive Prototype where
  | object
  | null
  | ofClass (c : Class)
deriving DecidableEq, Repr

/-- Whether the prototype is a class that the host provides. -/
def Prototype.isBuiltin : Prototype → Bool
  | ofClass c => c.builtin
  | _ => false

/-! ## Properties -/

/-- An own property. -/
structure Property where
  key : Key
  value : Value
  enumerable : Bool
deriving DecidableEq

/-- A bag of own properties with distinct keys, in insertion order. -/
structure PlainObject where
  prototype : Prototype
  properties : List Property
  nodup : (properties.map Property.key).Nodup
deriving DecidableEq

namespace PlainObject

/-- An object without properties. -/
def empty (prototype : Prototype) : PlainObject := ⟨prototype, [], by simp⟩

/-- The own keys, in order. -/
def keys (o : PlainObject) : List Key := o.properties.map Property.key

/-- The own property with this key. -/
def find? (o : PlainObject) (k : Key) : Option Property := o.properties.find? (·.key == k)

/-- The value of an own property, enumerable or not. -/
def get? (o : PlainObject) (k : Key) : Option Value := (o.find? k).map Property.value

/-- Whether `k` is an own enumerable property. -/
def hasEnumerable (o : PlainObject) (k : Key) : Bool := (o.find? k).any Property.enumerable

/-- The own enumerable properties with a string key. -/
def names (o : PlainObject) : List Property :=
  o.properties.filter fun p => p.enumerable && !p.key.isSymbol

/-- The own enumerable properties with a symbol key. -/
def symbols (o : PlainObject) : List Property :=
  o.properties.filter fun p => p.enumerable && p.key.isSymbol

/-- The own enumerable properties: string keys before symbol keys, each in
    insertion order. -/
def entries (o : PlainObject) : List (Key × Value) :=
  (o.names ++ o.symbols).map fun p => (p.key, p.value)

/-! ## Changes -/

/-- The properties after defining `new`: in place of the one with its key, or
    at the end. -/
def defineIn (new : Property) : List Property → List Property
  | [] => [new]
  | p :: ps => if p.key = new.key then new :: ps else p :: defineIn new ps

theorem keys_defineIn (new : Property) (ps : List Property) :
    (defineIn new ps).map Property.key =
      if new.key ∈ ps.map Property.key then ps.map Property.key
      else ps.map Property.key ++ [new.key] := by
  induction ps with
  | nil => simp [defineIn]
  | cons p ps ih =>
    rw [defineIn]
    split
    next h => simp [h]
    next h =>
      simp only [List.map_cons, ih, List.mem_cons, Ne.symm h, false_or]
      split <;> simp

/-- Defines a property; also gives the value it replaces. -/
def define (o : PlainObject) (k : Key) (v : Value) (enumerable : Bool) :
    Option Value × PlainObject :=
  (o.get? k, ⟨o.prototype, defineIn ⟨k, v, enumerable⟩ o.properties, by
    rw [keys_defineIn]
    split
    · exact o.nodup
    · next h => exact List.nodup_append.2 ⟨o.nodup, by simp, by grind⟩⟩)

/-- Defines an enumerable property; also gives the value it replaces. -/
def insert (o : PlainObject) (k : Key) (v : Value) : Option Value × PlainObject :=
  o.define k v true

/-- Takes a property out; also gives its value.  Later ones move up. -/
def remove (o : PlainObject) (k : Key) : Option Value × PlainObject :=
  (o.get? k, ⟨o.prototype, o.properties.filter (·.key != k),
    List.Sublist.nodup (List.Sublist.map _ List.filter_sublist) o.nodup⟩)

/-- Takes all properties out and keeps the prototype. -/
def clear (o : PlainObject) : PlainObject := empty o.prototype

/-- The same properties under another prototype. -/
def withPrototype (o : PlainObject) (prototype : Prototype) : PlainObject :=
  ⟨prototype, o.properties, o.nodup⟩

/-- The object that inserting the entries in order gives. -/
def ofEntries (prototype : Prototype) (entries : List (Key × Value)) : PlainObject :=
  entries.foldl (fun o e => (o.insert e.1 e.2).2) (empty prototype)

/-! ## Reads after changes -/

theorem find?_defineIn (new : Property) (ps : List Property) (k : Key) :
    (defineIn new ps).find? (·.key == k) =
      if k = new.key then some new else ps.find? (·.key == k) := by
  induction ps with
  | nil => grind [defineIn]
  | cons p ps ih => grind [defineIn]

theorem find?_define (o : PlainObject) (k : Key) (v : Value) (e : Bool) (l : Key) :
    (o.define k v e).2.find? l = if l = k then some ⟨k, v, e⟩ else o.find? l :=
  find?_defineIn ⟨k, v, e⟩ o.properties l

theorem keys_define (o : PlainObject) (k : Key) (v : Value) (e : Bool) :
    (o.define k v e).2.keys = if k ∈ o.keys then o.keys else o.keys ++ [k] :=
  keys_defineIn ⟨k, v, e⟩ o.properties

end PlainObject

end ValueGraph
