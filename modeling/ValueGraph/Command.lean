/-
  Commands: comparing two documents, and pruning one.

  * `Command` is what is asked for, and `RuleChoice` says which rules apply;
  * `RuleChoice.rules` combines those rules: the ones of the configuration, of
    the profile and of the command itself;
  * `Command.run` carries a command out, given what file names lead to;
  * `Command.outcome` is what is seen of that: an exit code and an output.
-/
import ValueGraph.Document.Loading
import ValueGraph.Configuration.Reading
import ValueGraph.Pruning
import ValueGraph.Rendering

namespace ValueGraph

/-! ## Commands -/

/-- Which configuration applies: the one at the usual location, the one in a
    file, or none. -/
inductive ConfigurationChoice where
  | usual
  | file (name : String)
  | none
deriving DecidableEq, Repr

/-- Which rules apply: those of a configuration and of one of its profiles,
    and more. -/
structure RuleChoice where
  configuration : ConfigurationChoice
  profile : Option String
  more : RuleSet
deriving DecidableEq, Repr

/-- What is asked for. -/
inductive Command where
  | compare (left right : String) (choice : RuleChoice) (asJson : Bool)
  | prune (name : String) (choice : RuleChoice)
deriving DecidableEq, Repr

/-- Why a command fails. -/
inductive Failure where
  | noHome
  | noConfiguration (name : String)
  | configuration (e : ConfigurationError)
  | rules (e : RuleError)
  | document (name : String) (e : LoadError)
  | rendering (e : RenderError)
deriving DecidableEq, Repr

/-- The text of a failure. -/
def Failure.message : Failure → String
  | noHome => "There is no home directory"
  | noConfiguration name => "Configuration file does not exist: " ++ name
  | configuration .unreadable => "Configuration file cannot be read"
  | configuration .malformed => "Configuration file is malformed"
  | rules e => e.message
  | document name .unreadable => "Document cannot be read: " ++ name
  | document name .malformed => "Document is malformed: " ++ name
  | rendering e => e.message

/-! ## Rules -/

namespace RuleChoice

/-- The configuration that applies.  A file that is named must be there; `usual`
    is the usual location. -/
def load (choice : RuleChoice) (files : String → File) (usual : Option String) :
    Except Failure Configuration :=
  match choice.configuration with
  | .none => .ok .empty
  | .usual =>
    match usual with
    | none => .error .noHome
    | some name => (Configuration.load (files name)).mapError .configuration
  | .file name =>
    if (files name).exists? then (Configuration.load (files name)).mapError .configuration
    else .error (.noConfiguration name)

/-- The rules that apply. -/
def rules (choice : RuleChoice) (files : String → File) (usual : Option String) :
    Except Failure IgnoreRules := do
  let configuration ← choice.load files usual
  let rules ← (IgnoreRules.ofConfiguration configuration choice.profile).mapError .rules
  (rules.extend? choice.more).mapError .rules

end RuleChoice

/-! ## Carrying out -/

/-- What came of a traversal whose predicate rejects nothing. -/
def Pruning.Traced.result {α : Type} (t : Traced Empty α) : α :=
  match t.outcome with
  | .ok a => a
  | .error e => e.elim

namespace IgnoreRules

/-- Whether two documents are equal under the rules. -/
def sameDocuments (r : IgnoreRules) (left right : Document) : Bool :=
  let (h, a) := Heap.empty.addDocument left
  let (h, b) := h.addDocument right
  (h.deepEqualExcept a b r.exclusion).result

/-- A document without what the rules ignore. -/
def prunedDocument (r : IgnoreRules) (d : Document) : Except RenderError Json :=
  let (h, v) := Heap.empty.addDocument d
  let copy := (h.prune v r.exclusion).result
  copy.heap.render copy.value

end IgnoreRules

/-- What a comparison has found. -/
structure Report where
  left : String
  right : String
  equal : Bool
  rules : IgnoreRules
deriving DecidableEq, Repr

/-- The document of a report. -/
def Report.toJson (r : Report) : Json :=
  .object [("left", .string r.left), ("right", .string r.right), ("equal", .bool r.equal),
    ("ignore_keys", .array (r.rules.keys.map .string)),
    ("ignore_paths", .array (r.rules.globs.map fun glob => .string glob.text))]

/-- The verdict of a report in a word. -/
def Report.verdict (r : Report) : String := if r.equal then "equal" else "different"

/-- What a command produces. -/
inductive Result where
  | compared (report : Report) (asJson : Bool)
  | pruned (document : Json)

namespace Command

/-- The document in a file. -/
def document (files : String → File) (name : String) : Except Failure Document :=
  (Document.load name (files name)).mapError (.document name)

/-- Carries a command out: the rules are read first, then the documents. -/
def run (files : String → File) (usual : Option String) : Command → Except Failure Result
  | compare left right choice asJson => do
    let rules ← choice.rules files usual
    let a ← document files left
    let b ← document files right
    return .compared ⟨left, right, rules.sameDocuments a b, rules⟩ asJson
  | prune name choice => do
    let rules ← choice.rules files usual
    let d ← document files name
    return .pruned (← (rules.prunedDocument d).mapError .rendering)

/-- The names of the files that a command may read. -/
def inputs (usual : Option String) (c : Command) : List String :=
  let configuration (choice : RuleChoice) : List String := match choice.configuration with
    | .none => []
    | .usual => usual.toList
    | .file name => [name]
  match c with
  | compare left right choice _ => left :: right :: configuration choice
  | prune name choice => name :: configuration choice

end Command

/-! ## Outcomes -/

/-- What is seen of a program: an exit code, an output, and a complaint. -/
structure Outcome where
  code : Nat
  output : String
  complaint : Option String
deriving DecidableEq, Repr

namespace Outcome

/-- A failure has the code 1. -/
def ofFailure (e : Failure) : Outcome := ⟨1, "", some e.message⟩

/-- Documents that differ have the code 2; everything else succeeds. -/
def ofResult : Result → Outcome
  | .compared report asJson =>
    ⟨if report.equal then 0 else 2,
      (if asJson then report.toJson.pretty else report.verdict) ++ "\n", none⟩
  | .pruned document => ⟨0, document.pretty ++ "\n", none⟩

end Outcome

/-- What is seen of a command. -/
def Command.outcome (files : String → File) (usual : Option String) (c : Command) : Outcome :=
  match c.run files usual with
  | .error e => .ofFailure e
  | .ok r => .ofResult r

end ValueGraph
