/-
  The text of a configuration.

  Every list is written, also an empty one; lists of two texts or more have a
  line for each.  Profiles follow as rows of a table.

  * `RuleSet.lines` are the lists of a layer of rules;
  * `Configuration.text` is the text of a whole configuration.
-/
import ValueGraph.Rules
import ValueGraph.Toml.Quoting

namespace ValueGraph

/-- A list of texts. -/
def Toml.quoteAll (texts : List String) : String :=
  match texts with
  | [] => "[]"
  | [text] => "[" ++ quote text ++ "]"
  | texts => "[\n" ++ String.join (texts.map fun text => "    " ++ quote text ++ ",\n") ++ "]"

/-- The lists of a layer of rules. -/
def RuleSet.text (r : RuleSet) : String :=
  "ignore_keys = " ++ Toml.quoteAll r.keys ++ "\nignore_paths = " ++ Toml.quoteAll r.paths ++ "\n"

/-- A profile as a row. -/
def Profile.text (p : Profile) : String :=
  "\n[[profiles]]\nname = " ++ Toml.quote p.name ++ "\n" ++ p.rules.text

/-- The text of a configuration. -/
def Configuration.text (c : Configuration) : String :=
  c.rules.text ++
    if c.profiles.isEmpty then "profiles = []\n" else String.join (c.profiles.map Profile.text)

end ValueGraph
