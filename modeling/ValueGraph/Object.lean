/-
  Objects: what a reference can lead to.

  * `Object` has one constructor per kind of object;
  * `Object.tag` is the type tag that the host reports; only host objects
    choose their own;
  * `Object.kind` sorts objects by structure, and `Object.isAtomic` says which
    are units that nothing looks into;
  * `isStructural_iff`: the others are the arrays and the plain objects whose
    class the host does not provide.
-/
import ValueGraph.Object.Plain
import ValueGraph.Object.OrderedMap
import ValueGraph.Object.TypedArray
import ValueGraph.Object.Pattern

namespace ValueGraph

/-! ## Objects -/

/-- A primitive wrapped into an object. -/
inductive Boxed where
  | bool (b : Bool)
  | number (x : Binary64)
  | string (text : String)
deriving DecidableEq

namespace Boxed

/-- The wrapped primitive. -/
def primitive : Boxed → Value
  | bool b => .bool b
  | number x => .number x
  | string text => .string text

/-- The tag of the wrapper. -/
def tag : Boxed → String
  | bool _ => "Boolean"
  | number _ => "Number"
  | string _ => "String"

end Boxed

/-- An object of a value graph.  A date without an instant is invalid. -/
inductive Object where
  | array (items : List Value)
  | plain (object : PlainObject)
  | map (map : OrderedMap)
  | set (set : OrderedSet)
  | date (millis : Option Int)
  | pattern (pattern : Pattern)
  | boxed (boxed : Boxed)
  | buffer (bytes : List UInt8) (shared : Bool)
  | typedArray (array : TypedArray)
  | dataView (bytes : List UInt8)
  | weakMap
  | weakSet
  | promise
  | error (name message : String)
  | host (tag : String)
deriving DecidableEq

namespace Object

/-- The type tag of an object. -/
def tag : Object → String
  | array _ => "Array"
  | plain _ => "Object"
  | map _ => "Map"
  | set _ => "Set"
  | date _ => "Date"
  | pattern _ => "RegExp"
  | boxed b => b.tag
  | buffer _ shared => if shared then "SharedArrayBuffer" else "ArrayBuffer"
  | typedArray a => a.tag
  | dataView _ => "DataView"
  | weakMap => "WeakMap"
  | weakSet => "WeakSet"
  | promise => "Promise"
  | error _ _ => "Error"
  | host tag => tag

/-- Takes out what a container holds; other objects stay as they are. -/
def clear : Object → Object
  | array _ => array []
  | plain p => plain p.clear
  | map _ => map .empty
  | set _ => set .empty
  | o => o

/-! ## Classification -/

/-- The structural kinds of objects. -/
inductive Kind where
  | array | orderedMap | set | date | pattern | boxedPrimitive | byteView | plain | otherAtomic
deriving DecidableEq, Repr

/-- The name of a kind. -/
def Kind.name : Kind → String
  | array => "Array"
  | orderedMap => "OrderedMap"
  | set => "Set"
  | date => "Date"
  | pattern => "Pattern"
  | boxedPrimitive => "BoxedPrimitive"
  | byteView => "ByteView"
  | plain => "Plain"
  | otherAtomic => "OtherAtomic"

/-- All kinds. -/
def Kind.all : List Kind :=
  [.array, .orderedMap, .set, .date, .pattern, .boxedPrimitive, .byteView, .plain, .otherAtomic]

/-- The kind of an object. -/
def kind : Object → Kind
  | array _ => .array
  | plain _ => .plain
  | map _ => .orderedMap
  | set _ => .set
  | date _ => .date
  | pattern _ => .pattern
  | boxed _ => .boxedPrimitive
  | typedArray _ | dataView _ => .byteView
  | buffer _ _ | weakMap | weakSet | promise | error _ _ | host _ => .otherAtomic

/-- The tags of objects that are always units. -/
def atomicTags : List String :=
  ["Date", "RegExp", "Map", "Set", "WeakMap", "WeakSet", "Promise", "Error", "Boolean", "Number",
    "String"]

/-- Whether an object, taken for one of the given kind, is a unit: raw memory
    and views of it, whatever the host provides, and the objects with a tag
    that is always a unit, unless taken for an array or a plain object. -/
def isAtomic (o : Object) (kind : Kind) : Bool :=
  kind == .byteView || match o with
    | buffer _ _ | host _ => true
    | plain p =>
      p.prototype.isBuiltin || (kind != .array && kind != .plain && atomicTags.contains o.tag)
    | o => kind != .array && kind != .plain && atomicTags.contains o.tag

/-- Whether traversals look into the object and rebuild it. -/
def isStructural (o : Object) : Bool := !o.isAtomic o.kind

/-- The arrays and the plain objects that are not instances of a class of the
    host are structural, and nothing else. -/
theorem isStructural_iff (o : Object) :
    o.isStructural = true ↔
      (∃ items, o = array items) ∨ ∃ p, o = plain p ∧ p.prototype.isBuiltin = false := by
  cases o with
  | boxed b => cases b <;> simp [isStructural, isAtomic, kind, tag, Boxed.tag, atomicTags]
  | _ => simp [isStructural, isAtomic, kind, tag, atomicTags]

end Object

end ValueGraph
