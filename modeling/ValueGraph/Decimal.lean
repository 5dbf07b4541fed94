/-
  Decimal numerals: an exact value `± digits · 10 ^ exponent` and the texts
  that denote it.

  * `Decimal.read?` reads a sign, digits, an optional fraction and an optional
    exponent;
  * `Binary64.ofDecimal` and `Binary64.singleOfDecimal` round the value to the
    nearest number;
  * `Binary64.read?` also knows the words for infinities and not-a-number.
-/
import ValueGraph.Binary64.Rounding

namespace ValueGraph

/-- The value `± digits · 10 ^ exponent`. -/
structure Decimal where
  negative : Bool
  digits : Nat
  exponent : Int
deriving DecidableEq, Repr

/-! ## Digits -/

/-- The value of a digit below ten. -/
def digitValue (c : Char) : Nat := c.toNat - '0'.toNat

/-- The number that decimal digits denote, most significant first, after the
    digits of `start`. -/
def ofDigits (start : Nat) (cs : List Char) : Nat :=
  cs.foldl (fun n c => 10 * n + digitValue c) start

/-- The longest run of decimal digits at the front, and the rest. -/
def spanDigits (cs : List Char) : List Char × List Char :=
  (cs.takeWhile Char.isDigit, cs.dropWhile Char.isDigit)

/-- The decimal digits of a natural number. -/
def digitsOf (n : Nat) : List Char := Nat.toDigits 10 n

/-- The decimal text of an integer. -/
def integerText (i : Int) : String :=
  let digits := String.ofList (digitsOf i.natAbs)
  if i < 0 then "-" ++ digits else digits

namespace Decimal

/-! ## Reading -/

/-- An optional sign: whether it is a minus, and the rest. -/
def readSign : List Char → Bool × List Char
  | '-' :: cs => (true, cs)
  | '+' :: cs => (false, cs)
  | cs => (false, cs)

/-- An exponent mark with its digits, or nothing: the exponent and the rest.
    A mark without digits is no numeral. -/
def readExponent? : List Char → Option (Int × List Char)
  | c :: cs =>
    if c = 'e' ∨ c = 'E' then
      let (negative, cs) := readSign cs
      let (digits, rest) := spanDigits cs
      if digits.isEmpty then none
      else
        let n : Int := ofDigits 0 digits
        some (if negative then -n else n, rest)
    else some (0, c :: cs)
  | [] => some (0, [])

/-- A whole text as a numeral: a sign, digits on at least one side of an
    optional point, and an optional exponent. -/
def read? (cs : List Char) : Option Decimal :=
  let (negative, cs) := readSign cs
  let (whole, cs) := spanDigits cs
  let (fraction, cs) := match cs with
    | '.' :: cs => spanDigits cs
    | cs => ([], cs)
  if whole.isEmpty && fraction.isEmpty then none
  else match readExponent? cs with
    | some (exponent, []) =>
      some ⟨negative, ofDigits (ofDigits 0 whole) fraction, exponent - fraction.length⟩
    | _ => none

/-- The power of ten above the value: the value is below `10 ^ reach`. -/
def reach (d : Decimal) : Int := d.exponent + (digitsOf d.digits).length

/-- The value as a fraction, in a binary format that `ofRatio` rounds to.
    A value far outside every format is replaced by one that rounds alike, so
    that no huge power is computed. -/
def round (d : Decimal) (ofRatio : Bool → Nat → Nat → Binary64) : Binary64 :=
  if d.digits = 0 ∨ d.reach < -400 then ofRatio d.negative 0 1
  else if 400 < d.reach then Binary64.infinity d.negative
  else if 0 ≤ d.exponent then ofRatio d.negative (d.digits * Nat.pow 10 d.exponent.toNat) 1
  else ofRatio d.negative d.digits (Nat.pow 10 (-d.exponent).toNat)

end Decimal

namespace Binary64

/-- The number nearest to a decimal value. -/
def ofDecimal (d : Decimal) : Binary64 := d.round ofRatio

/-- The 32-bit number nearest to a decimal value. -/
def singleOfDecimal (d : Decimal) : Binary64 := d.round singleOfRatio

/-- The words for numbers without digits. -/
def readWord? (cs : List Char) : Option Binary64 :=
  let (negative, rest) := Decimal.readSign cs
  let word := String.ofList (rest.map Char.toLower)
  if word = "inf" ∨ word = "infinity" then some (infinity negative)
  else if word = "nan" then some nan
  else none

/-- A number written as a decimal numeral or as a word, in any case of its
    letters, rounded by `ofDecimal`. -/
def read? (text : String) (round : Decimal → Binary64) : Option Binary64 :=
  match Decimal.read? text.toList with
  | some d => some (round d)
  | none => readWord? text.toList

end Binary64

end ValueGraph
