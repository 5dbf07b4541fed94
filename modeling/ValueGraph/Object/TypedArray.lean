/-
  Typed arrays: sequences of numbers of one fixed width.

  * `IntegerElement` and `FloatElement` are the element types, each with its
    array's tag;
  * `TypedArray.widen` gives the elements as values: the 64-bit integers as
    big integers, the others as numbers;
  * `TypedArray.eq` compares element type and elements, floating-point
    elements as the standard does.
-/
import ValueGraph.Binary64.Rounding
import ValueGraph.Value

namespace ValueGraph

/-- The integer element types. -/
inductive IntegerElement where
  | int8 | uint8 | uint8Clamped | int16 | uint16 | int32 | uint32 | bigInt64 | bigUint64
deriving DecidableEq, Repr

/-- The floating-point element types. -/
inductive FloatElement where
  | float32 | float64
deriving DecidableEq, Repr

/-- The tag of an array with elements of this type. -/
def IntegerElement.tag : IntegerElement → String
  | int8 => "Int8Array"
  | uint8 => "Uint8Array"
  | uint8Clamped => "Uint8ClampedArray"
  | int16 => "Int16Array"
  | uint16 => "Uint16Array"
  | int32 => "Int32Array"
  | uint32 => "Uint32Array"
  | bigInt64 => "BigInt64Array"
  | bigUint64 => "BigUint64Array"

/-- Whether an element is a big integer and no number. -/
def IntegerElement.isBig : IntegerElement → Bool
  | bigInt64 | bigUint64 => true
  | _ => false

/-- The tag of an array with elements of this type. -/
def FloatElement.tag : FloatElement → String
  | float32 => "Float32Array"
  | float64 => "Float64Array"

/-- An array of fixed-width numbers.  A 32-bit floating-point element is held
    as the equal 64-bit number. -/
inductive TypedArray where
  | integers (element : IntegerElement) (items : List Int)
  | floats (element : FloatElement) (items : List Binary64)
deriving DecidableEq

namespace TypedArray

/-- The array's tag, which names its element type. -/
def tag : TypedArray → String
  | integers element _ => element.tag
  | floats element _ => element.tag

/-- The number of elements. -/
def length : TypedArray → Nat
  | integers _ items => items.length
  | floats _ items => items.length

/-- The elements as values. -/
def widen : TypedArray → List Value
  | integers element items =>
    items.map fun i => if element.isBig then .bigInt i else .number (Binary64.ofInt i)
  | floats _ items => items.map .number

/-- Floating-point sequences with equal elements at equal places. -/
def floatsEq : List Binary64 → List Binary64 → Bool
  | [], [] => true
  | x :: xs, y :: ys => x.eq y && floatsEq xs ys
  | _, _ => false

/-- Equality of element type, length and elements. -/
def eq : TypedArray → TypedArray → Bool
  | integers e xs, integers f ys => e == f && xs == ys
  | floats e xs, floats f ys => e == f && floatsEq xs ys
  | _, _ => false

end TypedArray

end ValueGraph
