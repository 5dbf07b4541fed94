/-
  Values: primitives, and references to the objects of a heap.

  Symbols, functions, classes and objects have an identity; everything else is
  its content.

  * `strictEq` compares content with content and identity with identity, and
    numbers as the floating-point standard does;
  * `sameValueZero` also takes a not-a-number for equal to any other one; it
    is the identity of map keys and set elements and an equivalence relation
    (`sameValueZero_refl`, `sameValueZero_comm`, `sameValueZero_trans`).
-/
import ValueGraph.Binary64
import ValueGraph.Key

namespace ValueGraph

/-- A reference to an object, the same for every holder of that object. -/
structure Ref where
  index : Nat
deriving DecidableEq, Repr, Inhabited

/-- A callable, known by its identity only. -/
structure Function where
  id : Nat
  name : String
deriving DecidableEq, Repr

/-- A datum of a value graph. -/
inductive Value where
  | undefined
  | null
  | bool (b : Bool)
  | number (x : Binary64)
  | bigInt (n : Int)
  | string (text : String)
  | symbol (s : Symbol)
  | function (f : Function)
  | object (ref : Ref)
deriving DecidableEq, Inhabited

namespace Value

/-- The object that the value refers to. -/
def ref? : Value → Option Ref
  | object r => some r
  | _ => none

/-- Whether the value refers to an object. -/
def isObject : Value → Bool
  | object _ => true
  | _ => false

/-- Whether the value is a number that is not a number. -/
def isNaN : Value → Bool
  | number x => x.isNaN
  | _ => false

/-- The name of the value's type. -/
def typeName : Value → String
  | undefined => "undefined"
  | null => "null"
  | bool _ => "boolean"
  | number _ => "number"
  | bigInt _ => "bigint"
  | string _ => "string"
  | symbol _ => "symbol"
  | function _ => "function"
  | object _ => "object"

/-! ## Equality of values -/

/-- Equality without looking into objects: numbers by the floating-point
    standard, symbols, functions and objects by identity, the rest by
    content. -/
def strictEq : Value → Value → Bool
  | number x, number y => x.eq y
  | v, w => v == w

/-- Strict equality, except that any two not-a-numbers are the same. -/
def sameValueZero (v w : Value) : Bool := (v.isNaN && w.isNaN) || v.strictEq w

theorem strictEq_comm (v w : Value) : v.strictEq w = w.strictEq v := by
  cases v <;> cases w <;> simp [strictEq, Binary64.eq_comm, BEq.comm]

theorem strictEq_trans {u v w : Value} (huv : u.strictEq v = true) (hvw : v.strictEq w = true) :
    u.strictEq w = true := by
  cases u <;> cases v <;> cases w <;> simp_all [strictEq] <;> exact Binary64.eq_trans huv hvw

theorem sameValueZero_refl (v : Value) : v.sameValueZero v = true := by
  cases v <;> simp [sameValueZero, strictEq, isNaN, Binary64.eq]

theorem sameValueZero_comm (v w : Value) : v.sameValueZero w = w.sameValueZero v := by
  simp [sameValueZero, strictEq_comm v w, Bool.and_comm]

theorem sameValueZero_trans {u v w : Value} (huv : u.sameValueZero v = true)
    (hvw : v.sameValueZero w = true) : u.sameValueZero w = true := by
  cases u <;> cases v <;> cases w <;>
    simp_all [sameValueZero, strictEq, isNaN, Binary64.eq] <;> grind

end Value

end ValueGraph
