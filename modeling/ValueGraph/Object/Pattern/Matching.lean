/-
  Patterns as regular expressions.

  The flags for case, lines and the point change what a source means; the
  others do not matter for whether a text matches.

  * `Pattern.read?` makes a pattern of a source and flags;
  * `Pattern.isMatch` says whether a part of a text matches.
-/
import ValueGraph.Object.Pattern
import ValueGraph.Regex.Reading

namespace ValueGraph.Pattern

/-- The regular expression that a source denotes under flags. -/
def regex? (source : String) (flags : List Flag) : Option Regex :=
  Regex.read? (flags.contains .ignoreCase) (flags.contains .multiLine) (flags.contains .dotAll)
    source

/-- The pattern with this source and these flags. -/
def read? (source flags : String) : Except PatternError Pattern :=
  compile (fun source flags => (regex? source flags).isSome) source flags

/-- Whether a part of the text matches the pattern. -/
def isMatch (p : Pattern) (text : String) : Bool := (regex? p.source p.flags).any (·.isMatch text)

end ValueGraph.Pattern
