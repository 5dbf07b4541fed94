/-
  Reading regular expressions.

  * `Reading` is an expression that has been read in part: the pieces of the
    current branch, the branches before it, and the groups around it;
  * `Reading.next?` reads the next part;
  * `Regex.read?` reads a whole expression.  It may nest at most
    `Regex.heightLimit` deep and need at most `Regex.sizeLimit` states as an
    automaton.
-/
import ValueGraph.Decimal
import ValueGraph.Regex.Bracket

namespace ValueGraph.Regex

open Unicode (Property)

/-! ## Sizes -/

/-- How deep expressions may nest. -/
def heightLimit : Nat := 250

/-- How many states an expression may need as an automaton: ten mebibytes with
    thirty-two bytes for each. -/
def sizeLimit : Nat := 327680

/-- A rough count of the states that a set needs on encoded text. -/
def setSize : CharSet → Nat
  | .none => 1
  | .range low high =>
    if high.toNat < 128 then 1 else if low = high then low.utf8Size else 2 * high.utf8Size
  | .property .ascii => 1
  | .property .any => 8
  | .property _ => 500
  | .union a b | .inter a b | .diff a b | .symmDiff a b => max (setSize a) (setSize b)
  | .compl a => max 8 (setSize a)
  | .folded a | .foldedAscii a => setSize a

/-- Whether every match is empty. -/
def isZeroWidth : Regex → Bool
  | empty | look _ => true
  | chars _ => false
  | seq a b | alt a b => isZeroWidth a && isZeroWidth b
  | repeated a _ most => isZeroWidth a || most == some 0
  | group a => isZeroWidth a

/-- A rough count of the states that an expression needs.  Repetitions are
    written out. -/
def size : Regex → Nat
  | empty | look _ => 1
  | chars set => setSize set
  | seq a b => size a + size b
  | alt a b => size a + size b + 1
  | repeated a least most =>
    let copies := match most with
      | some most => max least most
      | none => max 1 least
    if isZeroWidth a then size a * min 1 copies else size a * copies + (copies - least) + 1
  | group a => size a + 2

/-! ## Pieces -/

/-- A part of a branch: an expression and how deep it nests.  A setting of
    flags is an empty piece that cannot be repeated. -/
structure Piece where
  regex : Regex
  height : Nat
  isFlags : Bool

/-- The sequence of pieces, the latest of which comes first. -/
def Piece.sequence (pieces : List Piece) : Piece :=
  match pieces with
  | [] => ⟨.empty, 0, false⟩
  | [p] => p
  | ps => ⟨(ps.map Piece.regex).foldl (fun later earlier => .seq earlier later) .empty,
      1 + (ps.map Piece.height).foldl max 0, false⟩

/-- The choice between branches, the latest of which comes first. -/
def Piece.choice (branches : List Piece) : Piece :=
  match branches with
  | [] => ⟨.empty, 0, false⟩
  | b :: [] => b
  | b :: bs => ⟨(bs.map Piece.regex).foldl (fun later earlier => .alt earlier later) b.regex,
      1 + ((b :: bs).map Piece.height).foldl max 0, false⟩

/-! ## States -/

/-- The surroundings of a group: the mode, the pieces of the branch that the
    group is part of, and the branches before that. -/
structure Surroundings where
  mode : Mode
  pieces : List Piece
  branches : List Piece

/-- An expression that has been read in part. -/
structure Reading where
  mode : Mode
  /-- The pieces of the current branch, the latest first. -/
  pieces : List Piece
  /-- The branches before the current one, the latest first. -/
  branches : List Piece
  /-- The groups that are open, the innermost first. -/
  groups : List Surroundings
  /-- The names of groups so far. -/
  names : List String
  rest : List Char

namespace Reading

/-- The state with one more piece. -/
def push (r : Reading) (regex : Regex) (height : Nat) (rest : List Char) : Reading :=
  { r with pieces := ⟨regex, height, false⟩ :: r.pieces, rest }

/-- What the current group holds so far. -/
def current (r : Reading) : Piece := .choice (.sequence r.pieces :: r.branches)

/-! ## Groups and flags -/

/-- Sets the flag with this letter.  `U` only changes which match is found. -/
def setFlag? (m : Mode) (value : Bool) (letter : Char) : Option Mode :=
  match letter with
  | 'i' => some { m with ignoreCase := value }
  | 'm' => some { m with multiLine := value }
  | 's' => some { m with dotAll := value }
  | 'R' => some { m with crlf := value }
  | 'u' => some { m with unicode := value }
  | 'x' => some { m with verbose := value }
  | 'U' => some m
  | _ => none

/-- The mode that flag letters set, where a hyphen, at most one and not the
    last, stands before those to be taken back.  No letter occurs twice. -/
def setFlags? (m : Mode) (value : Bool) (seen : List Char) : List Char → Option Mode
  | [] => some m
  | c :: cs =>
    if seen.contains c then none
    else if c = '-' then if cs.isEmpty then none else setFlags? m false (c :: seen) cs
    else do setFlags? (← setFlag? m value c) value (c :: seen) cs

/-- Opens a group. -/
def enter (r : Reading) (mode : Mode) (rest : List Char) : Reading :=
  { r with
    mode
    pieces := []
    branches := []
    groups := ⟨r.mode, r.pieces, r.branches⟩ :: r.groups
    rest }

/-- Whether a name is one that a group can have. -/
def isName : List Char → Bool
  | [] => false
  | c :: cs => (c == '_' || Property.isAlphabetic c) &&
      cs.all fun c => ['_', '.', '[', ']'].contains c || Property.isAlphanumeric c

/-- Opens a group that has a name, which starts here. -/
def enterNamed? (r : Reading) (cs : List Char) : Option Reading :=
  let name := cs.takeWhile (· ≠ '>')
  match cs.dropWhile (· ≠ '>') with
  | _ :: rest =>
    let text := String.ofList name
    if isName name ∧ !r.names.contains text then
      some { r.enter r.mode rest with names := text :: r.names }
    else none
  | [] => none

/-- Opens a group or sets flags, after a question mark. -/
def enterFlags? (r : Reading) (cs : List Char) : Option Reading := do
  let letters := cs.takeWhile fun c => c != ':' && c != ')'
  let mode ← setFlags? r.mode true [] letters
  match cs.drop letters.length with
  | ':' :: rest => some (r.enter mode rest)
  | _ :: rest =>
    if letters.isEmpty then none
    else some { r with mode, pieces := ⟨.empty, 0, true⟩ :: r.pieces, rest }
  | [] => none

/-- What an opening parenthesis starts.  There is no looking around. -/
def openGroup? (r : Reading) (cs : List Char) : Option Reading :=
  match r.mode.skip cs with
  | '?' :: '=' :: _ | '?' :: '!' :: _ | '?' :: '<' :: '=' :: _ | '?' :: '<' :: '!' :: _ => none
  | '?' :: 'P' :: '<' :: cs | '?' :: '<' :: cs => r.enterNamed? cs
  | '?' :: cs => r.enterFlags? cs
  | cs => some (r.enter r.mode cs)

/-- Closes the innermost group. -/
def closeGroup? (r : Reading) (cs : List Char) : Option Reading :=
  match r.groups with
  | [] => none
  | g :: groups =>
    let inner := r.current
    some { r with
      mode := g.mode
      pieces := ⟨.group inner.regex, 1 + inner.height, false⟩ :: g.pieces
      branches := g.branches
      groups
      rest := cs }

/-! ## Repetitions -/

/-- Repeats the latest piece. -/
def repeat? (r : Reading) (least : Nat) (most : Option Nat) (rest : List Char) : Option Reading :=
  match r.pieces with
  | p :: ps =>
    if p.isFlags then none
    else some { r with pieces := ⟨.repeated p.regex least most, 1 + p.height, false⟩ :: ps, rest }
  | [] => none

/-- What follows a question mark, which only changes which match is found. -/
def dropLazy : List Char → List Char
  | '?' :: cs => cs
  | cs => cs

/-- Decimal digits, with blanks between them in verbose mode. -/
def readDigits (m : Mode) (cs : List Char) : List Char × List Char :=
  match cs with
  | [] => ([], [])
  | c :: cs =>
    if c.isDigit then
      let (digits, rest) := readDigits m (m.skip cs)
      (c :: digits, rest)
    else ([], c :: cs)
termination_by cs.length
decreasing_by exact Nat.lt_succ_of_le (m.length_skip cs)

/-- A count of repetitions, with blanks around it. -/
def readCount? (m : Mode) (cs : List Char) : Option (Nat × List Char) :=
  let (digits, rest) := readDigits m (cs.dropWhile isBlank)
  let n := ofDigits 0 digits
  if digits.isEmpty ∨ 0x100000000 ≤ n then none else some (n, (m.skip rest).dropWhile isBlank)

/-- The bounds of a repetition, after an opening brace. -/
def readBounds? (m : Mode) (cs : List Char) : Option (Nat × Option Nat × List Char) := do
  let (least, cs) ← readCount? m (m.skip cs)
  let (most, cs) ← match cs with
    | ',' :: cs =>
      match m.skip cs with
      | '\x7d' :: rest => some (none, '\x7d' :: rest)
      | cs => do
        let (most, cs) ← readCount? m cs
        some (some most, cs)
    | cs => some (some least, cs)
  match cs with
  | '\x7d' :: cs => if most.all (least ≤ ·) then some (least, most, m.skip cs) else none
  | _ => none

/-! ## Single characters -/

/-- What an escape adds. -/
def pushEscape? (r : Reading) (cs : List Char) : Option Reading := do
  let (escape, rest) ← Escape.read? r.mode cs
  match escape with
  | .literal c => return r.push (.chars (← r.mode.literal? c)) 0 rest
  | .set set => return r.push (.chars set) 0 rest
  | .look l => return r.push (.look l) 0 rest

/-- The set that a point stands for: all characters, or all but line ends. -/
def anyCharacter (m : Mode) : CharSet :=
  if m.dotAll then .property .any
  else if m.crlf then .compl (.ofRanges [('\n', '\n'), ('\r', '\r')])
  else .compl (.singleton '\n')

/-- Reads the next part.  Without Unicode a point would match parts of
    characters and is refused. -/
def next? (r : Reading) : Option Reading :=
  let m := r.mode
  match m.skip r.rest with
  | [] => some { r with rest := [] }
  | '(' :: cs => r.openGroup? cs
  | ')' :: cs => r.closeGroup? cs
  | '|' :: cs =>
    some { r with pieces := [], branches := .sequence r.pieces :: r.branches, rest := cs }
  | '[' :: cs => do
    let (item, rest) ← Bracket.read? m cs
    return r.push (.chars item.set) item.height rest
  | '?' :: cs => r.repeat? 0 (some 1) (dropLazy cs)
  | '*' :: cs => r.repeat? 0 none (dropLazy cs)
  | '+' :: cs => r.repeat? 1 none (dropLazy cs)
  | '\x7b' :: cs => do
    let (least, most, rest) ← readBounds? m cs
    r.repeat? least most (dropLazy rest)
  | '\\' :: cs => r.pushEscape? cs
  | '.' :: cs => if m.unicode then some (r.push (.chars (anyCharacter m)) 0 cs) else none
  | '^' :: cs => some (r.push (.look (if m.multiLine then .lineStart m.crlf else .textStart)) 0 cs)
  | '$' :: cs => some (r.push (.look (if m.multiLine then .lineEnd m.crlf else .textEnd)) 0 cs)
  | c :: cs => do return r.push (.chars (← m.literal? c)) 0 cs

/-- Reads all parts that are left; every step has to take characters off. -/
def run? (r : Reading) : Option Reading :=
  if r.rest.isEmpty then some r
  else match r.next? with
    | some next => if next.rest.length < r.rest.length then next.run? else none
    | none => none
termination_by r.rest.length

end Reading

/-- The expression with this text, where flags may set case, lines and the
    meaning of a point. -/
def read? (ignoreCase multiLine dotAll : Bool) (text : String) : Option Regex := do
  let mode : Mode := ⟨ignoreCase, multiLine, dotAll, false, true, false⟩
  let r ← Reading.run? ⟨mode, [], [], [], [], text.toList⟩
  let whole := r.current
  if r.groups.isEmpty ∧ whole.height ≤ heightLimit ∧ size whole.regex ≤ sizeLimit then
    some whole.regex
  else none

end ValueGraph.Regex
