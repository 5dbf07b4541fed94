/-
  Dividing YAML texts into tokens.

  Where a block collection starts or ends is told by indentation.  A scalar,
  alias, tag, anchor or flow collection may turn out to be a key when a colon
  follows on the same line: it is kept in mind as a `Candidate`, and the
  tokens for the key are inserted in front of it when the colon comes.

  * `Scanner` is a text that has been divided in part;
  * `Scanner.next?` reads the next token;
  * `Token.scan?` divides a whole text.
-/
import ValueGraph.Yaml.FlowScalar
import ValueGraph.Yaml.BlockScalar
import ValueGraph.Yaml.Tag

namespace ValueGraph.Yaml

/-- What may turn out to be a key: where it starts, how many tokens come before
    it, and whether it has to be a key, as nothing else may start in this
    column. -/
structure Candidate where
  start : Cursor
  token : Nat
  required : Bool

/-- A text that has been divided in part. -/
structure Scanner where
  cursor : Cursor
  tokens : Array Token
  /-- The column of the innermost block collection, or `-1` outside of all. -/
  indent : Int
  /-- The columns of the collections around it. -/
  outer : List Int
  /-- Whether a key may start here. -/
  keyAllowed : Bool
  /-- The candidate of the current flow collection, or outside of all. -/
  candidate : Option Candidate
  /-- The candidates of the surroundings of each open flow collection. -/
  flows : List (Option Candidate)

namespace Scanner

/-- Nothing has been read. -/
def start (text : String) : Scanner := ⟨.ofString text, #[], -1, [], true, none, []⟩

/-- Whether a flow collection is open. -/
def inFlow (s : Scanner) : Bool := !s.flows.isEmpty

/-- The state with one more token, after which reading goes on at `c`. -/
def push (s : Scanner) (token : Token) (c : Cursor) : Scanner :=
  { s with tokens := s.tokens.push token, cursor := c }

/-- The state with one more token that takes `n` characters. -/
def pushMark (s : Scanner) (token : Token) (n : Nat) : Scanner := s.push token (s.cursor.skip n)

/-! ## Indentation -/

/-- A block collection starts in this column if it is deeper than the current
    one; its token is inserted before the token `place`. -/
def openBlock (s : Scanner) (column place : Nat) (token : Token) : Scanner :=
  if s.inFlow ∨ (column : Int) ≤ s.indent then s
  else { s with
    tokens := s.tokens.insertIdxIfInBounds place token
    indent := column
    outer := s.indent :: s.outer }

/-- The tokens for the ends of the block collections in columns right of
    `column`, with the columns that are left. -/
def closeBlocks (column : Int) (tokens : Array Token) (indent : Int) :
    List Int → Array Token × Int × List Int
  | [] => (tokens, indent, [])
  | i :: outer =>
    if column < indent then closeBlocks column (tokens.push .blockEnd) i outer
    else (tokens, indent, i :: outer)

/-- The block collections in columns right of `column` end. -/
def closeTo (s : Scanner) (column : Int) : Scanner :=
  if s.inFlow then s
  else
    let (tokens, indent, outer) := closeBlocks column s.tokens s.indent s.outer
    { s with tokens, indent, outer }

/-! ## Candidates -/

/-- What starts here may turn out to be a key. -/
def propose? (s : Scanner) : Option Scanner :=
  if !s.keyAllowed then some s
  else if s.candidate.any Candidate.required then none
  else
    let required := !s.inFlow && s.indent == s.cursor.column
    some { s with candidate := some ⟨s.cursor, s.tokens.size, required⟩ }

/-- The candidate is no key. -/
def dismiss? (s : Scanner) : Option Scanner :=
  if s.candidate.any Candidate.required then none else some { s with candidate := none }

/-- Whether a candidate is too far behind to be a key: on another line, or more
    than a thousand and twenty-four characters back. -/
def isStale (s : Scanner) (k : Candidate) : Bool :=
  k.start.line < s.cursor.line || 1024 < k.start.left - s.cursor.left

/-- Drops a candidate that is too far behind. -/
def refresh? (s : Scanner) (k : Option Candidate) : Option (Option Candidate) :=
  match k with
  | some k => if !s.isStale k then some (some k) else if k.required then none else some none
  | none => some none

/-- Drops all candidates that are too far behind. -/
def refreshAll? (s : Scanner) : Option Scanner := do
  return { s with candidate := ← s.refresh? s.candidate, flows := ← s.flows.mapM s.refresh? }

/-! ## Tokens -/

/-- Goes past white space and comments.  Tabs do not count as white space where
    a block key may start, and a byte order mark may stand in front of a
    line. -/
def skipGap? (s : Scanner) : Option Scanner := do
  let (keyAllowed, c) ← s.cursor.loop? step s.keyAllowed
  return { s with keyAllowed, cursor := c }
where
  /-- Goes to the next line, if there is nothing else on this one. -/
  step (keyAllowed : Bool) (c : Cursor) : Option (Cursor.Step Bool Bool) :=
    let c := if c.column == 0 && c.isNext '\ufeff' then c.skip 1 else c
    let c := c.dropWhile fun char => char == ' ' || ((s.inFlow || !keyAllowed) && char == '\t')
    let c := c.skipComment
    match c.readBreak? with
    | some (_, c) => some (.more (keyAllowed || !s.inFlow) c)
    | none => some (.done keyAllowed c)

/-- A mark that ends all that is open: a directive or a document marker. -/
def leave? (s : Scanner) : Option Scanner := do
  return { ← (s.closeTo (-1)).dismiss? with keyAllowed := false }

/-- The start of a flow collection. -/
def openFlow? (s : Scanner) (token : Token) : Option Scanner := do
  let s ← s.propose?
  return { s.pushMark token 1 with
    flows := s.candidate :: s.flows, candidate := none, keyAllowed := true }

/-- The end of a flow collection. -/
def closeFlow? (s : Scanner) (token : Token) : Option Scanner := do
  let s ← s.dismiss?
  let s := { s.pushMark token 1 with keyAllowed := false }
  match s.flows with
  | candidate :: flows => return { s with candidate, flows }
  | [] => return s

/-- A comma. -/
def flowEntry? (s : Scanner) : Option Scanner := do
  return { (← s.dismiss?).pushMark .flowEntry 1 with keyAllowed := true }

/-- The hyphen of a sequence entry. -/
def blockEntry? (s : Scanner) : Option Scanner := do
  if !s.inFlow && !s.keyAllowed then none
  let s := s.openBlock s.cursor.column s.tokens.size .blockSequenceStart
  return { (← s.dismiss?).pushMark .blockEntry 1 with keyAllowed := true }

/-- The question mark of a key. -/
def key? (s : Scanner) : Option Scanner := do
  if !s.inFlow && !s.keyAllowed then none
  let s := s.openBlock s.cursor.column s.tokens.size .blockMappingStart
  let s ← s.dismiss?
  return { s.pushMark .key 1 with keyAllowed := !s.inFlow }

/-- The colon of a value: after a candidate, which is a key then, or after a
    key with a question mark. -/
def value? (s : Scanner) : Option Scanner :=
  match s.candidate with
  | some k =>
    let s := { s with tokens := s.tokens.insertIdxIfInBounds k.token .key }
    let s := s.openBlock k.start.column k.token .blockMappingStart
    some { s.pushMark .value 1 with candidate := none, keyAllowed := false }
  | none =>
    if !s.inFlow && !s.keyAllowed then none
    else
      let s := s.openBlock s.cursor.column s.tokens.size .blockMappingStart
      some { s.pushMark .value 1 with keyAllowed := !s.inFlow }

/-- An alias or an anchor. -/
def anchor? (s : Scanner) (token : String → Token) : Option Scanner := do
  let s ← s.propose?
  let (name, c) ← scanAnchor? s.cursor
  return { s.push (token name) c with keyAllowed := false }

/-- A tag. -/
def tag? (s : Scanner) : Option Scanner := do
  let s ← s.propose?
  let (token, c) ← scanTag? s.inFlow s.cursor
  return { s.push token c with keyAllowed := false }

/-- A block scalar. -/
def block? (s : Scanner) (folded : Bool) : Option Scanner := do
  let s ← s.dismiss?
  let (text, c) ← scanBlock? folded s.indent s.cursor
  return { s.push (.scalar text false) c with keyAllowed := true }

/-- A quoted scalar. -/
def quoted? (s : Scanner) (quote : Char) : Option Scanner := do
  let s ← s.propose?
  let (text, c) ← scanQuoted? quote s.cursor
  return { s.push (.scalar text false) c with keyAllowed := false }

/-- A plain scalar.  After a line break, a key may start again. -/
def plain? (s : Scanner) : Option Scanner := do
  let s ← s.propose?
  let ((text, broken), c) ← scanPlain? s.inFlow (s.indent + 1) s.cursor
  return { s.push (.scalar text true) c with keyAllowed := broken }

/-- The marks that no plain scalar starts with. -/
def marks : List Char := "-?:,[]\x7b\x7d#&*!|>'\"%@\x60".toList

/-- Whether a plain scalar may start here.  A hyphen may start one unless a
    blank follows, and outside flow collections a question mark and a colon
    unless white space follows. -/
def startsPlain (s : Scanner) (char : Char) : Bool :=
  (!marks.contains char && !isBlank char) ||
    (char == '-' && !(s.cursor.ahead? 1).any isBlank) ||
    (!s.inFlow && (char == '?' || char == ':') && !s.cursor.isGapAt 1)

/-- Reads the token that starts here with `char`. -/
def token? (s : Scanner) (char : Char) : Option Scanner :=
  let c := s.cursor
  if c.column = 0 ∧ char = '%' then do
    let s ← s.leave?
    let (token, c) ← scanDirective? s.cursor
    return s.push token c
  else if c.isMarker '-' then do return (← s.leave?).pushMark .documentStart 3
  else if c.isMarker '.' then do return (← s.leave?).pushMark .documentEnd 3
  else match char with
    | '[' => s.openFlow? .flowSequenceStart
    | '\x7b' => s.openFlow? .flowMappingStart
    | ']' => s.closeFlow? .flowSequenceEnd
    | '\x7d' => s.closeFlow? .flowMappingEnd
    | ',' => s.flowEntry?
    | '*' => s.anchor? .alias
    | '&' => s.anchor? .anchor
    | '!' => s.tag?
    | '\'' => s.quoted? '\''
    | '"' => s.quoted? '"'
    | char =>
      if char = '-' ∧ c.isGapAt 1 then s.blockEntry?
      else if char = '?' ∧ (s.inFlow ∨ c.isGapAt 1) then s.key?
      else if char = ':' ∧ (s.inFlow ∨ c.isGapAt 1) then s.value?
      else if char = '|' ∧ !s.inFlow then s.block? false
      else if char = '>' ∧ !s.inFlow then s.block? true
      else if s.startsPlain char then s.plain?
      else none

/-- What reading the next token leads to. -/
inductive Progress where
  | finished (tokens : Array Token)
  | running (s : Scanner)

/-- Reads the next token, or ends all that is open at the end of the text. -/
def next? (s : Scanner) : Option Progress := do
  let s ← (← s.skipGap?).refreshAll?
  let s := s.closeTo s.cursor.column
  match s.cursor.next? with
  | some char => return .running (← s.token? char)
  | none => return .finished (← (s.closeTo (-1)).dismiss?).tokens

/-- Reads all tokens that are left; every step has to take characters off. -/
def run? (s : Scanner) : Option (Array Token) :=
  match s.next? with
  | none => none
  | some (.finished tokens) => some tokens
  | some (.running t) => if t.cursor.left < s.cursor.left then t.run? else none
termination_by s.cursor.left

end Scanner

/-- The tokens of a text, which contains allowed characters only. -/
def Token.scan? (text : String) : Option (List Token) :=
  if text.toList.all isAllowed then (Scanner.start text).run?.map Array.toList else none

end ValueGraph.Yaml
