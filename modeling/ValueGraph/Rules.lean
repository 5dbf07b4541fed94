/-
  Ignore rules: key names and globs over dotted paths.

  A key is ignored wherever it occurs if its name is listed, or in one place
  if a glob matches its dotted path there.  Rules come in layers: those for
  every comparison, those of a profile, and later extensions.

  * `RuleSet` is one layer as it is written down, and `Configuration` all
    layers of a configuration file;
  * `IgnoreRules.extend` adds a layer: all its names, and its globs up to the
    first malformed one, which is reported;
  * `IgnoreRules.ofConfiguration` combines a configuration with a profile;
  * `IgnoreRules.exclusion` is the exclusion that the rules stand for, and
    `IgnoreRules.exclusionBy` the same for any way of matching globs.
-/
import ValueGraph.Glob
import ValueGraph.Exclusion

namespace ValueGraph

/-! ## Configurations -/

/-- Key names and path globs as they are written down. -/
structure RuleSet where
  keys : List String
  paths : List String
deriving DecidableEq, Repr

/-- Rules under a name. -/
structure Profile where
  name : String
  rules : RuleSet
deriving DecidableEq, Repr

/-- The rules for every comparison, and the profiles. -/
structure Configuration where
  rules : RuleSet
  profiles : List Profile
deriving DecidableEq, Repr

namespace Configuration

/-- The configuration without any rules. -/
def empty : Configuration := ⟨⟨[], []⟩, []⟩

/-- The first profile with this name. -/
def profile? (c : Configuration) (name : String) : Option Profile :=
  c.profiles.find? (·.name == name)

end Configuration

/-- Why rules are refused. -/
inductive RuleError where
  | badPath (path : String) (error : GlobError)
  | unknownProfile (name : String)
deriving DecidableEq, Repr

/-- The text of a refusal. -/
def RuleError.message (e : RuleError) : String :=
  "Invalid configuration: " ++ match e with
    | badPath path error => "Invalid ignore path '" ++ path ++ "': " ++ error.message
    | unknownProfile name => "Unknown profile: " ++ name

/-! ## Rules -/

/-- Key names, and path globs that have been read. -/
structure IgnoreRules where
  keys : List String
  globs : List Glob
deriving DecidableEq, Repr

namespace IgnoreRules

/-- Ignores nothing. -/
def empty : IgnoreRules := ⟨[], []⟩

/-- The globs of a list up to the first malformed one, and that one's error. -/
def readGlobs : List String → List Glob × Option RuleError
  | [] => ([], none)
  | path :: paths =>
    match Glob.read? path with
    | .error e => ([], some (.badPath path e))
    | .ok glob =>
      let (globs, error) := readGlobs paths
      (glob :: globs, error)

/-- Adds a layer of rules.  What could be read is added even if there is an
    error. -/
def extend (r : IgnoreRules) (layer : RuleSet) : IgnoreRules × Option RuleError :=
  let (globs, error) := readGlobs layer.paths
  (⟨r.keys ++ layer.keys, r.globs ++ globs⟩, error)

/-- Adds a layer of rules, all of which can be read. -/
def extend? (r : IgnoreRules) (layer : RuleSet) : Except RuleError IgnoreRules :=
  match r.extend layer with
  | (_, some error) => .error error
  | (rules, none) => .ok rules

/-- The rules of one layer. -/
def ofRuleSet (layer : RuleSet) : Except RuleError IgnoreRules := empty.extend? layer

/-- The rules of a configuration for every comparison, and those of the profile
    that is named, if one is. -/
def ofConfiguration (c : Configuration) (profile : Option String) :
    Except RuleError IgnoreRules := do
  let rules ← ofRuleSet c.rules
  match profile with
  | none => return rules
  | some name =>
    match c.profile? name with
    | none => throw (.unknownProfile name)
    | some p => rules.extend? p.rules

/-- Whether there are no rules. -/
def isEmpty (r : IgnoreRules) : Bool := r.keys.isEmpty && r.globs.isEmpty

/-- Whether a glob matches the dotted path of a key of the object at `parent`,
    where `isMatch` says which texts a glob matches. -/
def matchesPathBy (isMatch : Glob → String → Bool) (r : IgnoreRules) (key : Key)
    (parent : KeyPath) : Bool :=
  let path := parent.textWith key
  r.globs.any fun glob => isMatch glob path

/-- Whether a glob matches the dotted path of a key of the object at `parent`. -/
def matchesPath (r : IgnoreRules) (key : Key) (parent : KeyPath) : Bool :=
  r.matchesPathBy Glob.isMatch key parent

/-- The exclusion that the rules stand for: its ignored keys are the names, and
    its predicate, if there are globs, matches paths by `isMatch`. -/
def exclusionBy {ε : Type} (isMatch : Glob → String → Bool) (r : IgnoreRules) : Exclusion ε :=
  let x := Exclusion.nothing.ignoreKeys (r.keys.map Key.name)
  if r.globs.isEmpty then x
  else x.withPredicate fun key parent => .ok (r.matchesPathBy isMatch key parent)

/-- The exclusion that the rules stand for. -/
def exclusion {ε : Type} (r : IgnoreRules) : Exclusion ε := r.exclusionBy Glob.isMatch

end IgnoreRules

end ValueGraph
