/-
  Number notations: how the shortest digits of a number are laid out.

  A notation says from which to which decimal exponent a number is written
  positionally, how an exponent is marked, and what stands for the values
  without digits.  `Notation.write` lays out the digits of
  `Decimal.shortest?`.
-/
import ValueGraph.Decimal.Shortest

namespace ValueGraph.Decimal

/-- A layout of digits. -/
structure Notation where
  /-- The least decimal exponent that is written positionally. -/
  least : Int
  /-- The greatest decimal exponent that is written positionally. -/
  greatest : Int
  /-- Whether a positive exponent has a sign. -/
  plus : Bool
  nan : String
  infinity : String
  minusInfinity : String

namespace Notation

/-- Digits with the point after the first `point` of them, and at least one
    digit on each side. -/
def positional (digits : List Char) (point : Int) : String :=
  if point ≤ 0 then
    "0." ++ String.ofList (List.replicate (-point).toNat '0' ++ digits)
  else
    let whole := digits.take point.toNat
    let fraction := digits.drop point.toNat
    let zeros := List.replicate (point.toNat - digits.length) '0'
    String.ofList (whole ++ zeros) ++ "."
      ++ (if fraction.isEmpty then "0" else String.ofList fraction)

/-- Digits with a point after the first, and an exponent. -/
def scientific (digits : List Char) (e : Int) (plus : Bool) : String :=
  let fraction := digits.drop 1
  String.ofList (digits.take 1) ++ (if fraction.isEmpty then "" else "." ++ String.ofList fraction)
    ++ "e" ++ (if plus && 0 ≤ e then "+" else "") ++ integerText e

/-- The text of a number in this notation. -/
def write (style : Notation) (x : Binary64) : String :=
  if x.isNaN then style.nan
  else if !x.isFinite then if x.negative then style.minusInfinity else style.infinity
  else
    let sign := if x.negative then "-" else ""
    if x.isZero then sign ++ positional ['0'] 1
    else match shortest? x with
      | none => style.nan
      | some (n, scale) =>
        let digits := digitsOf n
        let e : Int := scale + (digits.length - 1 : Nat)
        sign ++ (if style.least ≤ e && e ≤ style.greatest then positional digits (e + 1)
          else scientific digits e style.plus)

end Notation

end ValueGraph.Decimal
