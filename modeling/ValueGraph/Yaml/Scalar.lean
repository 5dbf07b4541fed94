/-
  What scalars stand for.

  Without a tag, a plain scalar is a null, a boolean or a number if it is
  written like one, and a text otherwise; other scalars are texts.  Numbers
  are integers of 64 bits or floating-point numbers.  An integer that fits 128
  bits but not 64 is refused.

  * `PlainScalar.read?` resolves a plain scalar without a tag;
  * `PlainScalar.readAs?` resolves a scalar under a tag of the core schema.
-/
import ValueGraph.Yaml
import ValueGraph.Decimal
import ValueGraph.Text.Numeral

namespace ValueGraph.Yaml.PlainScalar

/-! ## Words -/

/-- Whether a text is a spelling of null. -/
def isNull (text : String) : Bool := ["null", "Null", "NULL", "~"].contains text

/-- The boolean that a text spells. -/
def bool? (text : String) : Option Bool :=
  if ["true", "True", "TRUE"].contains text then some true
  else if ["false", "False", "FALSE"].contains text then some false
  else none

/-! ## Integers -/

/-- The number that digits denote; there is at least one. -/
def digits? (base : Nat) (cs : List Char) : Option Nat :=
  if cs.isEmpty then none else Numeral.value? base cs

/-- Whether a text is a number with a leading zero, which is a text. -/
def hasLeadingZero (cs : List Char) : Bool :=
  match (Decimal.readSign cs).2 with
  | '0' :: d :: ds => (d :: ds).all Char.isDigit
  | _ => false

/-- The magnitude of an integer, in base ten or behind a mark for the base. -/
def magnitude? (cs : List Char) : Option Nat :=
  match cs with
  | '0' :: 'x' :: ds => digits? 16 ds
  | '0' :: 'o' :: ds => digits? 8 ds
  | '0' :: 'b' :: ds => digits? 2 ds
  | ds => if hasLeadingZero ds then none else digits? 10 ds

/-- The integer that a text spells, of any size. -/
def integer? (cs : List Char) : Option Int :=
  match cs with
  | '-' :: ds => (magnitude? ds).map fun n => -(n : Int)
  | '+' :: ds => (magnitude? ds).map Int.ofNat
  | ds => (magnitude? ds).map Int.ofNat

/-- The integers of 64 bits, signed or not. -/
def fits64 (i : Int) : Bool := -0x8000000000000000 ≤ i && i < 0x10000000000000000

/-- The integers of 128 bits, signed or not. -/
def fits128 (i : Int) : Bool :=
  -0x80000000000000000000000000000000 ≤ i && i < 0x100000000000000000000000000000000

/-! ## Floating-point numbers -/

/-- The floating-point number that a text spells.  Numbers that would be
    rounded to infinity are none. -/
def float? (cs : List Char) : Option Binary64 :=
  let text := String.ofList cs
  if [".inf", ".Inf", ".INF", "+.inf", "+.Inf", "+.INF"].contains text then
    some (Binary64.infinity false)
  else if ["-.inf", "-.Inf", "-.INF"].contains text then some (Binary64.infinity true)
  else if [".nan", ".NaN", ".NAN"].contains text then some Binary64.nan
  else do
    let x := Binary64.ofDecimal (← Decimal.read? cs)
    if x.isFinite then some x else none

/-! ## Scalars -/

/-- What a plain scalar without a tag stands for. -/
def read? (text : String) : Option Yaml :=
  let cs := text.toList
  if text.isEmpty || isNull text then some .null
  else match bool? text with
    | some b => some (.bool b)
    | none =>
      match integer? cs with
      | some i =>
        if fits64 i then some (.number (.integer i))
        else if fits128 i then none
        else some (((float? cs).map fun x => Yaml.number (.float x)).getD (.string text))
      | none =>
        if hasLeadingZero cs then some (.string text)
        else some (((float? cs).map fun x => Yaml.number (.float x)).getD (.string text))

/-- What a scalar stands for under a tag.  The tags of the core schema for
    nulls, booleans and numbers want a text that spells one; under other tags
    the scalar is a text. -/
def readAs? (tag text : String) : Option Yaml :=
  match tag with
  | "tag:yaml.org,2002:bool" => (bool? text).map .bool
  | "tag:yaml.org,2002:int" => do
    let i ← integer? text.toList
    if fits64 i then some (.number (.integer i)) else none
  | "tag:yaml.org,2002:float" => (float? text.toList).map fun x => .number (.float x)
  | "tag:yaml.org,2002:null" => if isNull text then some .null else none
  | _ => some (.string text)

end ValueGraph.Yaml.PlainScalar
