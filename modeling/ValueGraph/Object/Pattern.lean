/-
  Patterns: the source of a regular expression with a set of flags.

  The flags of a pattern are kept in one fixed order, so a pattern does not
  depend on the order in which they were given.  Which sources are regular
  expressions is a parameter here.

  * `Flag.read?` checks a flag text: every letter a flag, none twice, and not
    both unicode modes;
  * `Pattern.compile` checks the flags first and then the source.
-/

namespace ValueGraph

/-- The flags of a pattern. -/
inductive Flag where
  | indices | global | ignoreCase | multiLine | dotAll | unicode | unicodeSets | sticky
deriving DecidableEq, Repr

namespace Flag

/-- The letter of a flag. -/
def letter : Flag → Char
  | indices => 'd'
  | global => 'g'
  | ignoreCase => 'i'
  | multiLine => 'm'
  | dotAll => 's'
  | unicode => 'u'
  | unicodeSets => 'v'
  | sticky => 'y'

/-- All flags, in the order in which a pattern keeps them. -/
def all : List Flag :=
  [indices, global, ignoreCase, multiLine, dotAll, unicode, unicodeSets, sticky]

/-- The flag with this letter. -/
def ofLetter? (c : Char) : Option Flag := all.find? (·.letter == c)

end Flag

/-- Why a pattern is refused. -/
inductive PatternError where
  | unknownFlag (letter : Char)
  | duplicateFlag (letter : Char)
  | conflictingFlags
  | source
deriving DecidableEq, Repr

/-- The text of a refusal. -/
def PatternError.message (e : PatternError) : String :=
  "Invalid pattern: " ++ match e with
    | unknownFlag c => "unknown flag '" ++ c.toString ++ "'"
    | duplicateFlag c => "duplicate flag '" ++ c.toString ++ "'"
    | conflictingFlags => "flags 'u' and 'v' are mutually exclusive"
    | source => "<regex>"

/-- The first letter that is no flag or occurs more than once in `text`. -/
def Flag.firstBad? (text : List Char) : List Char → Option PatternError
  | [] => none
  | c :: cs =>
    if (Flag.ofLetter? c).isNone then some (.unknownFlag c)
    else if 1 < text.count c then some (.duplicateFlag c)
    else firstBad? text cs

/-- The flags that a text lists, in the fixed order. -/
def Flag.read? (text : String) : Except PatternError (List Flag) :=
  let letters := text.toList
  match Flag.firstBad? letters letters with
  | some e => .error e
  | none =>
    if 'u' ∈ letters ∧ 'v' ∈ letters then .error .conflictingFlags
    else .ok (Flag.all.filter fun f => f.letter ∈ letters)

/-- A regular expression: its source and its flags. -/
structure Pattern where
  source : String
  flags : List Flag
deriving DecidableEq

namespace Pattern

/-- The pattern with this source and these flags.  `accepts` says which sources
    are regular expressions under which flags. -/
def compile (accepts : String → List Flag → Bool) (source flags : String) :
    Except PatternError Pattern := do
  let flags ← Flag.read? flags
  if accepts source flags then .ok ⟨source, flags⟩ else .error .source

/-- The letters of the flags. -/
def flagText (p : Pattern) : String := String.ofList (p.flags.map Flag.letter)

/-- The source between slashes, followed by the flags. -/
def text (p : Pattern) : String := "/" ++ p.source ++ "/" ++ p.flagText

end Pattern

end ValueGraph
