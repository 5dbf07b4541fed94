/-
  Bracket expressions: sets of characters written between brackets.

  Sets nest, and `&&`, `--` and `~~` between them are intersection, difference
  and symmetric difference, all of one rank and taken from left to right.

  * `Bracket.Level` is one bracket expression that has been read in part;
  * `Bracket.read?` reads a whole one, after its opening bracket.
-/
import ValueGraph.Regex.Escape

namespace ValueGraph.Regex.Bracket

/-- A set, and how deep the expression nests that it comes from. -/
structure Item where
  set : CharSet
  height : Nat

/-- The operations between sets. -/
inductive Op where
  | inter | diff | symmDiff

/-- The operation on sets. -/
def Op.apply : Op → CharSet → CharSet → CharSet
  | inter => .inter
  | diff => .diff
  | symmDiff => .symmDiff

/-- A bracket expression that has been read in part: whether it is negated,
    what stands before the last operator, and the items after it, the latest
    first. -/
structure Level where
  negated : Bool
  left : Option (Item × Op)
  items : List Item

namespace Level

/-- The union of the items since the last operator. -/
def operand (l : Level) : Item :=
  match l.items with
  | [] => ⟨.none, 0⟩
  | [item] => item
  | items => ⟨.unions (items.map Item.set), 1 + (items.map Item.height).foldl max 0⟩

/-- Everything so far, under the case rules of the mode. -/
def value (m : Mode) (l : Level) : Item :=
  match l.left with
  | none => l.operand
  | some (left, op) =>
    ⟨op.apply (m.fold left.set) (m.fold l.operand.set), 1 + max left.height l.operand.height⟩

/-- The level with one more item. -/
def push (l : Level) (item : Item) : Level := { l with items := item :: l.items }

/-- The level after an operator. -/
def operate (m : Mode) (l : Level) (op : Op) : Level := ⟨l.negated, some (l.value m, op), []⟩

/-- The set of a level that is complete. -/
def close? (m : Mode) (l : Level) : Option Item := do
  let inner := l.value m
  return ⟨← m.close? l.negated inner.set, 1 + inner.height⟩

end Level

/-- Hyphens in front of a bracket expression, which stand for themselves. -/
def leadingHyphens (m : Mode) (items : List Item) (cs : List Char) : List Item × List Char :=
  match cs with
  | '-' :: cs => leadingHyphens m (⟨.singleton '-', 0⟩ :: items) (m.skip cs)
  | cs => (items, cs)
termination_by cs.length
decreasing_by exact Nat.lt_succ_of_le (m.length_skip cs)

/-- A new level, after its opening bracket.  A closing bracket in front stands
    for itself. -/
def enter (m : Mode) (cs : List Char) : Level × List Char :=
  let cs := m.skip cs
  let (negated, cs) := match cs with
    | '^' :: cs => (true, m.skip cs)
    | cs => (false, cs)
  let (items, cs) := leadingHyphens m [] cs
  match items, cs with
  | [], ']' :: cs => (⟨negated, none, [⟨.singleton ']', 0⟩]⟩, m.skip cs)
  | items, cs => (⟨negated, none, items⟩, cs)

/-- A named ASCII set after an opening bracket, such as `:alpha:]`, and what
    follows it. -/
def readNamed? (m : Mode) (cs : List Char) : Option (Option CharSet × List Char) :=
  match cs with
  | ':' :: cs =>
    let (negated, cs) := match cs with
      | '^' :: cs => (true, cs)
      | cs => (false, cs)
    match cs.dropWhile (· ≠ ':') with
    | ':' :: ']' :: rest =>
      (asciiNamed? (String.ofList (cs.takeWhile (· ≠ ':')))).map fun set =>
        (m.close? negated set, rest)
    | _ => none
  | _ => none

/-- One element: a character, or a set that an escape stands for. -/
def readElement? (m : Mode) : List Char → Option (Escape × List Char)
  | [] => none
  | '\\' :: cs => Escape.read? m cs
  | c :: cs => some (.literal c, cs)

/-- The character after blanks, for telling what a hyphen is.  A number sign
    does not end the blanks, but what follows it does. -/
def peek (m : Mode) (cs : List Char) : Option Char :=
  if m.verbose then
    match cs.dropWhile isBlank with
    | '#' :: rest => (rest.dropWhile isBlank).head?.or cs.head?
    | c :: _ => some c
    | [] => cs.head?
  else cs.head?

/-- Whether a hyphen that is followed by `cs` joins a range. -/
def joins (m : Mode) (cs : List Char) : Bool := peek m cs != some ']' && peek m cs != some '-'

/-- A single element as an item. -/
def itemOf? (m : Mode) : Escape → Option Item
  | .literal c => if m.unicode ∨ c.toNat < 128 then some ⟨.singleton c, 0⟩ else none
  | .set set => some ⟨set, 0⟩
  | .look _ => none

/-- An element, or a range between two characters. -/
def readRange? (m : Mode) (cs : List Char) : Option (Item × List Char) := do
  let (first, cs) ← readElement? m cs
  match m.skip cs with
  | '-' :: rest =>
    if joins m rest then
      let (last, cs) ← readElement? m (m.skip rest)
      match first, last with
      | .literal low, .literal high =>
        if low ≤ high ∧ (m.unicode ∨ high.toNat < 128) then some (⟨.range low high, 0⟩, cs)
        else none
      | _, _ => none
    else return (← itemOf? m first, '-' :: rest)
  | cs => return (← itemOf? m first, cs)

/-- What one step of reading leads to. -/
inductive Progress where
  | done (item : Item) (rest : List Char)
  | more (level : Level) (outer : List Level) (rest : List Char)

/-- Reads the next part of the innermost level. -/
def next? (m : Mode) (level : Level) (outer : List Level) (cs : List Char) : Option Progress :=
  match m.skip cs with
  | [] => none
  | '[' :: cs =>
    match readNamed? m cs with
    | some (set, rest) => do some (.more (level.push ⟨← set, 0⟩) outer rest)
    | none =>
      let (inner, rest) := enter m cs
      some (.more inner (level :: outer) rest)
  | ']' :: cs => do
    let item ← level.close? m
    match outer with
    | [] => some (.done item cs)
    | level :: outer => some (.more (level.push item) outer cs)
  | '&' :: '&' :: cs => some (.more (level.operate m .inter) outer cs)
  | '-' :: '-' :: cs => some (.more (level.operate m .diff) outer cs)
  | '~' :: '~' :: cs => some (.more (level.operate m .symmDiff) outer cs)
  | cs => do
    let (item, rest) ← readRange? m cs
    some (.more (level.push item) outer rest)

/-- Reads on until the outermost level is complete.  Every step has to take
    characters off. -/
def readAll? (m : Mode) (level : Level) (outer : List Level) (cs : List Char) :
    Option (Item × List Char) :=
  match next? m level outer cs with
  | none => none
  | some (.done item rest) => some (item, rest)
  | some (.more level outer rest) =>
    if rest.length < cs.length then readAll? m level outer rest else none
termination_by cs.length

/-- The set of a bracket expression, after its opening bracket, and the rest. -/
def read? (m : Mode) (cs : List Char) : Option (Item × List Char) :=
  let (level, cs) := enter m cs
  readAll? m level [] cs

end ValueGraph.Regex.Bracket
