/-
  Numerals in bases of at most sixteen.

  * `Numeral.digit?` is the value of one digit, in either case;
  * `Numeral.value?` reads digits of a base;
  * `Numeral.hexadecimal` writes a number in base sixteen, in upper case and
    padded with zeros.
-/

namespace ValueGraph.Numeral

/-- The value of a digit of a base. -/
def digit? (base : Nat) (c : Char) : Option Nat :=
  let n :=
    if c.isDigit then c.toNat - '0'.toNat
    else if 'a' ≤ c ∧ c ≤ 'f' then c.toNat - 'a'.toNat + 10
    else if 'A' ≤ c ∧ c ≤ 'F' then c.toNat - 'A'.toNat + 10
    else base
  if n < base then some n else none

/-- The number that digits of a base denote, the highest digit first. -/
def value? (base : Nat) (cs : List Char) : Option Nat :=
  (cs.mapM (digit? base)).map fun values => values.foldl (fun n d => base * n + d) 0

/-- A number in at least `width` hexadecimal digits. -/
def hexadecimal (width n : Nat) : List Char :=
  let digits := (Nat.toDigits 16 n).map Char.toUpper
  List.replicate (width - digits.length) '0' ++ digits

end ValueGraph.Numeral
