/-
  The shortest decimal that reads back as a given number.

  A finite positive number `m · 2 ^ q` is read back from every real that lies
  between the midpoints to its neighbours, the midpoints included exactly when
  `m` is even.  `Interval` is that set in exact arithmetic.  `shortest?` tries
  the grids of `1, 2, …, 17` digits; on each, only the two grid points around
  the number can lie nearest, and the first grid with a point in the interval
  wins.  Of two such points the nearer one is taken, and the even one if both
  are as near.
-/
import ValueGraph.Decimal

namespace ValueGraph.Decimal

/-! ## The interval of a number -/

/-- The reals that round to a number: from `low / den` to `high / den` around
    the number itself, `value / den`. -/
structure Interval where
  low : Nat
  value : Nat
  high : Nat
  den : Nat
  closed : Bool

/-- The interval of a finite positive number.  Just above a power of two the
    lower neighbour is only half as far away. -/
def Interval.of (x : Binary64) : Interval :=
  let m := x.significand
  let q := x.exponent - 2
  let below := if m = 0x10000000000000 ∧ x.exponent ≠ -1074 then 1 else 2
  let num := if 0 ≤ q then Nat.pow 2 q.toNat else 1
  let den := if 0 ≤ q then 1 else Nat.pow 2 (-q).toNat
  ⟨(4 * m - below) * num, 4 * m * num, (4 * m + 2) * num, den, m % 2 = 0⟩

/-- Membership of `num / den`. -/
def Interval.contains (i : Interval) (num den : Nat) : Bool :=
  let x := num * i.den
  if i.closed then i.low * den ≤ x && x ≤ i.high * den
  else i.low * den < x && x < i.high * den

/-! ## Grids -/

/-- The largest `e` with `10 ^ e ≤ num / den`, found from an estimate that is
    at most a few steps too small. -/
def floorLog10 (num den : Nat) : Int :=
  let atLeast (e : Int) : Bool :=
    if 0 ≤ e then den * Nat.pow 10 e.toNat ≤ num else den ≤ num * Nat.pow 10 (-e).toNat
  let start : Int := Int.fdiv (floorLog2 num den * 30103) 100000 - 1
  ((List.range 4).map fun (k : Nat) => start + (k : Int)).foldl
    (fun best e => if atLeast e then e else best) start

/-- The point of the grid `10 ^ e` at `n`, as a fraction. -/
def gridPoint (n : Nat) (e : Int) : Nat × Nat :=
  if 0 ≤ e then (n * Nat.pow 10 e.toNat, 1) else (n, Nat.pow 10 (-e).toNat)

/-- The better of the two neighbours of the number on the grid `10 ^ e`, if
    one of them reads back as the number. -/
def nearest? (i : Interval) (e : Int) : Option Nat :=
  let (num, den) :=
    if 0 ≤ e then (i.value, i.den * Nat.pow 10 e.toNat)
    else (i.value * Nat.pow 10 (-e).toNat, i.den)
  let below := num / den
  let inside (n : Nat) : Bool := let (a, b) := gridPoint n e; i.contains a b
  match inside below, inside (below + 1) with
  | true, true => some (roundHalfEven num den)
  | true, false => some below
  | false, true => some (below + 1)
  | false, false => none

/-- The fewest digits that read back as a finite positive number, as an
    integer without trailing zeros and the power of ten that scales it. -/
def shortest? (x : Binary64) : Option (Nat × Int) :=
  let i := Interval.of x
  let top := floorLog10 i.value i.den
  ((List.range 17).findSome? fun (k : Nat) =>
    let e := top - (k : Int)
    (nearest? i e).map fun n => (n, e)).map strip
where
  /-- Drops one trailing zero: the next point above `9` is `10`. -/
  strip : Nat × Int → Nat × Int
    | (n, e) => if n % 10 = 0 then (n / 10, e + 1) else (n, e)

end ValueGraph.Decimal
