/-
  Scalars that run on over lines: quoted and plain ones.

  White space within a line is kept.  A line break with the white space around
  it counts as one space, and further line breaks are kept instead.

  * `Gap` is white space between two words of a scalar, and `Gap.text` what it
    counts as;
  * `scanQuoted?` and `scanPlain?` read a scalar.
-/
import ValueGraph.Yaml.Character

namespace ValueGraph.Yaml

/-! ## White space -/

/-- White space between words: blanks before the first line break, and the
    line breaks.  All lists have the latest first. -/
structure Gap where
  blanks : List Char
  /-- Whether there is a line break, be it one that counts as nothing. -/
  broken : Bool
  first : Option Char
  further : List Char

namespace Gap

/-- No white space. -/
def empty : Gap := ⟨[], false, none, []⟩

/-- A line break that counts as nothing. -/
def escaped : Gap := ⟨[], true, none, []⟩

/-- What white space counts as. -/
def text (g : Gap) : List Char :=
  if !g.broken then g.blanks.reverse
  else match g.first with
    | some '\n' => if g.further.isEmpty then [' '] else g.further.reverse
    | some c => c :: g.further.reverse
    | none => g.further.reverse

/-- With one more line break. -/
def addBreak (g : Gap) (c : Char) : Gap :=
  if g.broken then { g with further := c :: g.further } else ⟨[], true, some c, []⟩

/-- Reads on through white space.  On later lines, a tab left of `indent` is
    refused. -/
def scan? (indent : Int) (g : Gap) (c : Cursor) : Option (Gap × Cursor) :=
  c.loop? step g
where
  /-- Takes one blank or line break in. -/
  step (g : Gap) (c : Cursor) : Option (Cursor.Step Gap Gap) :=
    match c.readBreak? with
    | some (char, next) => some (.more (g.addBreak char) next)
    | none =>
      match c.next? with
      | some char =>
        if !isBlank char then some (.done g c)
        else if !g.broken then some (.more { g with blanks := char :: g.blanks } (c.skip 1))
        else if char == '\t' && (c.column : Int) < indent then none
        else some (.more g (c.skip 1))
      | none => some (.done g c)

end Gap

/-! ## Quoted scalars -/

/-- A character code of `n` hexadecimal digits, after the digits of `code`. -/
def scanCode? (code : Nat) : (n : Nat) → Cursor → Option (Char × Cursor)
  | 0, c => if code.isValidChar then some (Char.ofNat code, c) else none
  | n + 1, c => do scanCode? (16 * code + (← Numeral.digit? 16 (← c.next?))) n (c.skip 1)

/-- The character that an escape stands for, after its backslash. -/
def scanEscape? (c : Cursor) : Option (Char × Cursor) := do
  let next := c.skip 1
  match ← c.next? with
  | '0' => some ('\x00', next)
  | 'a' => some ('\x07', next)
  | 'b' => some ('\x08', next)
  | 't' | '\t' => some ('\t', next)
  | 'n' => some ('\n', next)
  | 'v' => some ('\x0b', next)
  | 'f' => some ('\x0c', next)
  | 'r' => some ('\r', next)
  | 'e' => some ('\x1b', next)
  | ' ' => some (' ', next)
  | '"' => some ('"', next)
  | '/' => some ('/', next)
  | '\\' => some ('\\', next)
  | 'N' => some ('\u0085', next)
  | '_' => some ('\u00a0', next)
  | 'L' => some ('\u2028', next)
  | 'P' => some ('\u2029', next)
  | 'x' => scanCode? 0 2 next
  | 'u' => scanCode? 0 4 next
  | 'U' => scanCode? 0 8 next
  | _ => none

/-- Adds white space to a text, the latest character of which comes first. -/
def appendGap? (g : Gap) (text : List Char) (c : Cursor) :
    Option (Cursor.Step (List Char) (List Char)) := do
  let (g, next) ← g.scan? 0 c
  return .more (g.text.reverse ++ text) next

/-- Takes the next part of a quoted scalar in: a character, an escape or white
    space.  A document may neither end nor start inside. -/
def stepQuoted? (quote : Char) (text : List Char) (c : Cursor) :
    Option (Cursor.Step (List Char) (List Char)) := do
  if c.isDocumentMarker then none
  let char ← c.next?
  if char = '\'' ∧ quote = '\'' ∧ c.ahead? 1 = some '\'' then
    return .more ('\'' :: text) (c.skip 2)
  else if char = quote then return .done text.reverse (c.skip 1)
  else if char = '\\' ∧ quote = '"' then
    match (c.skip 1).readBreak? with
    | some (_, next) => appendGap? .escaped text next
    | none =>
      let (char, next) ← scanEscape? (c.skip 1)
      return .more (char :: text) next
  else if isBlank char || isBreak char then appendGap? .empty text c
  else return .more (char :: text) (c.skip 1)

/-- The content of a scalar that starts with a quote here. -/
def scanQuoted? (quote : Char) (c : Cursor) : Option (String × Cursor) := do
  let (text, c) ← (c.skip 1).loop? (stepQuoted? quote) []
  return (String.ofList text, c)

/-! ## Plain scalars -/

/-- A plain scalar that has been read in part. -/
structure Plain where
  /-- The text so far, the latest character first. -/
  text : List Char
  /-- White space after it. -/
  gap : Gap
  /-- Whether a word may end here: nothing or white space comes before. -/
  betweenWords : Bool

/-- The marks that structure flow collections. -/
def isFlowMark (c : Char) : Bool :=
  c == ',' || c == '[' || c == ']' || c == '\x7b' || c == '\x7d'

/-- Takes the next part of a plain scalar in: a character or white space.  It
    ends at a colon before white space, at a comment, at a document marker, at
    a line that is not indented to `indent`, and inside flow collections at
    their marks, which no colon may touch. -/
def stepPlain? (inFlow : Bool) (indent : Int) (p : Plain) (c : Cursor) :
    Option (Cursor.Step Plain Plain) := do
  match c.next? with
  | none => return .done p c
  | some char =>
    if p.betweenWords && (c.isDocumentMarker || char == '#') then return .done p c
    else if isBlank char || isBreak char then
      let (gap, next) ← p.gap.scan? indent c
      if !inFlow && (next.column : Int) < indent then return .done { p with gap } next
      else return .more { p with gap, betweenWords := true } next
    else if inFlow && char == ':' && (c.ahead? 1).any (fun d => isFlowMark d || d == '?') then none
    else if (char == ':' && c.isGapAt 1) || (inFlow && isFlowMark char) then return .done p c
    else return .more ⟨char :: (p.gap.text.reverse ++ p.text), .empty, false⟩ (c.skip 1)

/-- The content of a plain scalar that starts here, and whether a line break
    follows it. -/
def scanPlain? (inFlow : Bool) (indent : Int) (c : Cursor) : Option ((String × Bool) × Cursor) := do
  let (p, c) ← c.loop? (stepPlain? inFlow indent) ⟨[], .empty, true⟩
  return ((String.ofList p.text.reverse, p.gap.broken), c)

end ValueGraph.Yaml
