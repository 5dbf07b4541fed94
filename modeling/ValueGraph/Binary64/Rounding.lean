/-
  Rounding to nearest, ties to even, from exact fractions.

  * `Precision` is a binary format without its encoding: how many bits a
    significand has and the least and greatest exponent;
  * `Precision.round` gives the significand and exponent nearest to a positive
    fraction, or nothing when that is beyond the largest finite number;
  * `ofRatio`, `ofInt`, `mul` and `div` are the nearest numbers to an exact
    fraction, integer, product and quotient;
  * `integer?` is the value of a number without a fractional part below
    `2 ^ 53` in size.
-/
import ValueGraph.Binary64

namespace ValueGraph

/-! ## Exact halves -/

/-- The quotient rounded to nearest, with a half going to the even neighbour. -/
def roundHalfEven (num den : Nat) : Nat :=
  let q := num / den
  let r := num % den
  if 2 * r < den ∨ (2 * r = den ∧ q % 2 = 0) then q else q + 1

theorem roundHalfEven_mul (q : Nat) {den : Nat} (h : 0 < den) :
    roundHalfEven (q * den) den = q := by
  simp [roundHalfEven, h]

/-- The largest `k` with `2 ^ k ≤ num / den`. -/
def floorLog2 (num den : Nat) : Int :=
  let k : Int := (Nat.log2 num : Int) - Nat.log2 den
  let fits := if 0 ≤ k then den * Nat.pow 2 k.toNat ≤ num else den ≤ num * Nat.pow 2 (-k).toNat
  if fits then k else k - 1

/-! ## Formats -/

/-- A binary floating-point format: the bits of a significand and the least
    and greatest exponent it is scaled by. -/
structure Precision where
  bits : Nat
  least : Int
  greatest : Int

namespace Precision

/-- 64-bit numbers. -/
def double : Precision := ⟨53, -1074, 971⟩

/-- 32-bit numbers. -/
def single : Precision := ⟨24, -149, 104⟩

/-- The significand and exponent nearest to `num / den`, which is positive;
    nothing when that overflows. -/
def round (p : Precision) (num den : Nat) : Option (Nat × Int) :=
  let e := max p.least (floorLog2 num den - (p.bits - 1 : Nat))
  let m := if 0 ≤ e then roundHalfEven num (den * Nat.pow 2 e.toNat)
    else roundHalfEven (num * Nat.pow 2 (-e).toNat) den
  let (m, e) := if m = Nat.pow 2 p.bits then (Nat.pow 2 (p.bits - 1), e + 1) else (m, e)
  if e ≤ p.greatest then some (m, e) else none

end Precision

namespace Binary64

/-! ## Exact values -/

/-- The numerator of a finite number's magnitude. -/
def numerator (x : Binary64) : Nat :=
  if 0 ≤ x.exponent then x.significand * Nat.pow 2 x.exponent.toNat else x.significand

/-- The denominator of a finite number's magnitude, a power of two. -/
def denominator (x : Binary64) : Nat :=
  if 0 ≤ x.exponent then 1 else Nat.pow 2 (-x.exponent).toNat

/-- The number nearest to `± num / den`; beyond the largest one, infinity. -/
def ofRatio (negative : Bool) (num den : Nat) : Binary64 :=
  if num = 0 then zero negative
  else match Precision.double.round num den with
    | some (m, e) => compose negative m e
    | none => infinity negative

/-- The 32-bit number nearest to `± num / den`, as the equal 64-bit number. -/
def singleOfRatio (negative : Bool) (num den : Nat) : Binary64 :=
  if num = 0 then zero negative
  else match Precision.single.round num den with
    | some (m, e) =>
      if 0 ≤ e then ofRatio negative (m * Nat.pow 2 e.toNat) 1
      else ofRatio negative m (Nat.pow 2 (-e).toNat)
    | none => infinity negative

/-- The number nearest to an integer. -/
def ofInt (i : Int) : Binary64 := ofRatio (i < 0) i.natAbs 1

/-- The rounded product of two finite numbers. -/
def mul (x y : Binary64) : Binary64 :=
  ofRatio (x.negative != y.negative) (x.numerator * y.numerator) (x.denominator * y.denominator)

/-- The rounded quotient of two finite numbers, the second not zero. -/
def div (x y : Binary64) : Binary64 :=
  ofRatio (x.negative != y.negative) (x.numerator * y.denominator) (x.denominator * y.numerator)

/-- The same magnitude with the other sign. -/
def neg (x : Binary64) : Binary64 := ⟨x.bits ^^^ 0x8000000000000000⟩

/-- The value of a finite number that is an integer below `2 ^ 53` in size;
    both zeros give `0`. -/
def integer? (x : Binary64) : Option Int :=
  if x.isFinite && x.numerator % x.denominator == 0 &&
      x.numerator / x.denominator < 0x20000000000000 then
    let n : Int := x.numerator / x.denominator
    some (if x.negative then -n else n)
  else none

end Binary64

end ValueGraph
