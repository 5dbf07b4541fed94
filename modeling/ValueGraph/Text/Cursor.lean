/-
  Places in a text that is being read.

  * `Cursor` is a place: what follows it, and its line and column;
  * `Cursor.skip`, `Cursor.skipLine` and `Cursor.takeWhile` go on from a place;
  * `Cursor.loop?` repeats a step that takes characters off.
-/

namespace ValueGraph

/-- A place in a text: what follows, how many characters that are, and the
    line and the column, both counted from zero. -/
structure Cursor where
  rest : List Char
  left : Nat
  line : Nat
  column : Nat

namespace Cursor

/-- The start of a text. -/
def ofString (text : String) : Cursor :=
  let cs := text.toList
  ⟨cs, cs.length, 0, 0⟩

/-- The character that is `i` places ahead. -/
def ahead? (c : Cursor) (i : Nat) : Option Char := c.rest[i]?

/-- The next character. -/
def next? (c : Cursor) : Option Char := c.rest.head?

/-- Whether nothing follows. -/
def atEnd (c : Cursor) : Bool := c.rest.isEmpty

/-- Goes past `n` characters of a line. -/
def skip (c : Cursor) (n : Nat) : Cursor :=
  let n := min n c.left
  ⟨c.rest.drop n, c.left - n, c.line, c.column + n⟩

/-- Goes past a line break of `n` characters. -/
def skipLine (c : Cursor) (n : Nat) : Cursor :=
  ⟨c.rest.drop n, c.left - min n c.left, c.line + 1, 0⟩

/-- The characters up to the first one that fails the test, and the place after
    them. -/
def takeWhile (c : Cursor) (p : Char → Bool) : List Char × Cursor :=
  let taken := c.rest.takeWhile p
  (taken, c.skip taken.length)

/-- Goes past the characters that pass the test. -/
def dropWhile (c : Cursor) (p : Char → Bool) : Cursor := (c.takeWhile p).2

/-- What one step of reading leads to: a result, or a state to go on from. -/
inductive Step (σ α : Type) where
  | done (result : α) (c : Cursor)
  | more (state : σ) (c : Cursor)

/-- Repeats a step until it is done.  It fails when a step fails or takes
    nothing off. -/
def loop? {σ α : Type} (step : σ → Cursor → Option (Step σ α)) (s : σ) (c : Cursor) :
    Option (α × Cursor) :=
  match step s c with
  | none => none
  | some (.done result c) => some (result, c)
  | some (.more s next) => if next.left < c.left then loop? step s next else none
termination_by c.left

end Cursor

end ValueGraph
