/-
  Reading configurations.

  A configuration is a TOML document.  It may list ignored keys, ignored paths
  and profiles; what it does not mention is empty, and entries under other
  keys do not matter.  A profile is a table with a name and lists of its own,
  or the list of its name, keys and paths.

  * `Configuration.ofToml?` takes the entries of a document;
  * `Configuration.read?` reads a text, and `Configuration.load` a file.
-/
import ValueGraph.Toml.Reading
import ValueGraph.Rules
import ValueGraph.File

namespace ValueGraph

/-- The texts of a list. -/
def Toml.strings? (v : Toml) : Option (List String) := do (← v.items?).mapM Toml.string?

/-- The rules that entries list. -/
def RuleSet.ofToml? (entries : List (String × Toml)) : Option RuleSet := do
  let list? (key : String) : Option (List String) :=
    match Toml.entry? entries key with
    | none => some []
    | some v => v.strings?
  return ⟨← list? "ignore_keys", ← list? "ignore_paths"⟩

/-- The profile that a value describes. -/
def Profile.ofToml? (v : Toml) : Option Profile :=
  match v with
  | .table entries => do
    return ⟨← (← Toml.entry? entries "name").string?, ← RuleSet.ofToml? entries⟩
  | .array [name] => do return ⟨← name.string?, ⟨[], []⟩⟩
  | .array [name, keys] => do return ⟨← name.string?, ⟨← keys.strings?, []⟩⟩
  | .array (name :: keys :: paths :: _) => do
    return ⟨← name.string?, ⟨← keys.strings?, ← paths.strings?⟩⟩
  | _ => none

/-- Why there is no configuration: the file has no text, or the text is
    malformed. -/
inductive ConfigurationError where
  | unreadable
  | malformed
deriving DecidableEq, Repr

namespace Configuration

/-- The configuration that the entries of a document describe. -/
def ofToml? (entries : List (String × Toml)) : Option Configuration := do
  let rules ← RuleSet.ofToml? entries
  let profiles ← match Toml.entry? entries "profiles" with
    | none => some []
    | some v => do (← v.items?).mapM Profile.ofToml?
  return ⟨rules, profiles⟩

/-- The configuration that a text describes. -/
def read? (text : String) : Option Configuration := do ofToml? (← Toml.read? text)

/-- The configuration in a file; without the file, the one without rules. -/
def load (file : File) : Except ConfigurationError Configuration :=
  if !file.exists? then .ok empty
  else match file.text? with
    | none => .error .unreadable
    | some text =>
      match read? text with
      | none => .error .malformed
      | some c => .ok c

end Configuration

end ValueGraph
