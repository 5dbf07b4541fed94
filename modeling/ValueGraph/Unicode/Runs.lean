/-
  Tables over all code points.

  A table is a function that is constant on runs of consecutive code points.
  It is written as text: numbers in base 32, most significant digit first,
  where the last digit of each number is taken from the second half of
  `Runs.alphabet` and the others from the first.

  * `Runs.lookup` is the number of a character;
  * `Runs.ofPairs` reads the length and the number of each run,
    `Runs.alternating` the lengths of runs that are out and in by turns.
-/

namespace ValueGraph.Unicode

/-- A table: for each run the first code point after it, and its number. -/
structure Runs where
  ends : Array Nat
  tags : Array Nat

namespace Runs

/-! ## Reading -/

/-- The digits of table texts: thirty-two that go on, then thirty-two that end
    a number. -/
def alphabet : String := "ABCDEFGHIJKLMNOPQRSTUVWXYZabcdefghijklmnopqrstuvwxyz0123456789+-"

/-- The place of a character in the alphabet. -/
def digit (c : Char) : Nat :=
  if 'A' ≤ c ∧ c ≤ 'Z' then c.toNat - 'A'.toNat
  else if 'a' ≤ c ∧ c ≤ 'z' then c.toNat - 'a'.toNat + 26
  else if c.isDigit then c.toNat - '0'.toNat + 52
  else if c = '+' then 62 else 63

/-- The numbers of a text, the first one after the digits of `start`. -/
def numbers (start : Nat) : List Char → List Nat
  | [] => []
  | c :: cs =>
    let d := digit c
    if d < 32 then numbers (32 * start + d) cs
    else (32 * start + (d - 32)) :: numbers 0 cs

/-- The table with these runs of lengths and numbers, from `start` on. -/
def build (start : Nat) (t : Runs) : List Nat → Runs
  | length :: tag :: rest =>
    build (start + length) ⟨t.ends.push (start + length), t.tags.push tag⟩ rest
  | _ => t

/-- The table that lists the length and the number of each run.  The lines of
    the text are read as one. -/
def ofPairs (lines : List String) : Runs :=
  build 0 ⟨#[], #[]⟩ (numbers 0 (lines.flatMap String.toList))

/-- The table that lists the lengths of runs with the numbers `0` and `1` by
    turns. -/
def alternating (lines : List String) : Runs :=
  let lengths := numbers 0 (lines.flatMap String.toList)
  build 0 ⟨#[], #[]⟩ (lengths.zipIdx.flatMap fun run => [run.1, run.2 % 2])

/-! ## Look-up -/

/-- The first place from `low` on, below `high`, whose run ends after `code`. -/
def search (t : Runs) (code low high : Nat) : Nat :=
  if low < high then
    let middle := (low + high) / 2
    if t.ends.getD middle 0 ≤ code then t.search code (middle + 1) high
    else t.search code low middle
  else low
termination_by high - low

/-- The number of a character; zero after the last run. -/
def lookup (t : Runs) (c : Char) : Nat := t.tags.getD (t.search c.toNat 0 t.ends.size) 0

/-- Whether the number of a character is not zero. -/
def contains (t : Runs) (c : Char) : Bool := t.lookup c != 0

end Runs

end ValueGraph.Unicode
