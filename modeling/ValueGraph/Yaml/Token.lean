/-
  Tokens of YAML texts.

  Besides the marks that are written, there are tokens where a block collection
  starts and ends, as its indentation tells, and in front of a key that is
  only told by the colon after it.
-/

namespace ValueGraph.Yaml

/-- What a text consists of. -/
inductive Token where
  | versionDirective (major minor : Nat)
  | tagDirective (handle expansion : String)
  | documentStart
  | documentEnd
  | blockSequenceStart
  | blockMappingStart
  | blockEnd
  | flowSequenceStart
  | flowSequenceEnd
  | flowMappingStart
  | flowMappingEnd
  | blockEntry
  | flowEntry
  | key
  | value
  | alias (name : String)
  | anchor (name : String)
  | tag (handle suffix : String)
  | scalar (text : String) (plain : Bool)
deriving DecidableEq, Repr

end ValueGraph.Yaml
