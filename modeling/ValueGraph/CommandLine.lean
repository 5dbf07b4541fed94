/-
  The command line.

  A line starts with the name of a command.  Its flags may stand before,
  between and after the names of files; after `--` there are only names.  A
  flag with a value takes the rest of its own argument or the next argument.

  * `Argument` is an argument by its form;
  * `Line.next?` reads one argument after the name of a command, and
    `Line.read?` all of them;
  * `Request.read?` reads a whole command line, and `Request.outcome` answers
    it;
  * `CommandLine.outcome` is what is seen of a call of the program.
-/
import ValueGraph.Command

namespace ValueGraph.CommandLine

/-! ## Arguments -/

/-- An argument by its form. -/
inductive Argument where
  | word (text : String)
  | long (name : String) (value : Option String)
  | short (flag : Char) (value : Option String)
  | endOfFlags
deriving DecidableEq, Repr

namespace Argument

/-- The form of an argument.  A dash alone is a word. -/
def ofString (text : String) : Argument :=
  match text.toList with
  | ['-', '-'] => endOfFlags
  | '-' :: '-' :: cs =>
    long (String.ofList (cs.takeWhile (· ≠ '='))) <| match cs.dropWhile (· ≠ '=') with
      | [] => none
      | _ :: value => some (String.ofList value)
  | '-' :: c :: cs =>
    short c <| match cs with
      | [] => none
      | '=' :: value => some (String.ofList value)
      | value => some (String.ofList value)
  | _ => word text

/-- Whether an argument can be the value of the flag before it. -/
def isValue (text : String) : Bool :=
  match ofString text with
  | word _ => true
  | _ => false

end Argument

/-! ## Flags -/

/-- The commands by name. -/
inductive Verb where
  | compare
  | prune
deriving DecidableEq, Repr

/-- What a flag is about.  The first four have values. -/
inductive Flag where
  | key
  | path
  | profile
  | configuration
  | noConfiguration
  | asJson
  | help
deriving DecidableEq, Repr

namespace Flag

/-- Whether a flag has a value. -/
def hasValue : Flag → Bool
  | key | path | profile | configuration => true
  | noConfiguration | asJson | help => false

/-- The flag of a command with a long name. -/
def ofName? (verb : Verb) : String → Option Flag
  | "ignore" => some key
  | "ignore-path" => some path
  | "profile" => some profile
  | "config" => some configuration
  | "no-config" => some noConfiguration
  | "json" => if verb = .compare then some asJson else none
  | "help" => some help
  | _ => none

/-- The flag with a value that a letter stands for. -/
def ofLetter? : Char → Option Flag
  | 'i' => some key
  | 'p' => some path
  | 'c' => some configuration
  | _ => none

end Flag

/-! ## Lines -/

/-- What the arguments so far say. -/
structure Line where
  names : List String
  keys : List String
  paths : List String
  profile : Option String
  configuration : Option String
  noConfiguration : Bool
  asJson : Bool
deriving DecidableEq, Repr

/-- What a command line asks for. -/
inductive Request where
  | run (c : Command)
  | help
  | version
deriving DecidableEq, Repr

/-- How the next argument is taken: by its form, as the value of a flag, or as
    the name of a file. -/
inductive Mode where
  | any
  | value (flag : Flag)
  | name
deriving DecidableEq, Repr

/-- What an argument leads to. -/
inductive Progress where
  | going (l : Line) (mode : Mode)
  | done (request : Request)
deriving DecidableEq, Repr

namespace Line

/-- No arguments. -/
def empty : Line := ⟨[], [], [], none, none, false, false⟩

/-- A flag with its value.  Keys and paths may be given several times; the name
    of a file is not empty. -/
def set? (l : Line) (flag : Flag) (value : String) : Option Line :=
  match flag with
  | .key => some { l with keys := l.keys ++ [value] }
  | .path => some { l with paths := l.paths ++ [value] }
  | .profile => if l.profile.isNone then some { l with profile := some value } else none
  | .configuration =>
    if l.configuration.isNone ∧ value ≠ "" then some { l with configuration := some value }
    else none
  | _ => none

/-- A flag without a value, given once. -/
def turnOn? (l : Line) : Flag → Option Line
  | .noConfiguration => if l.noConfiguration then none else some { l with noConfiguration := true }
  | .asJson => if l.asJson then none else some { l with asJson := true }
  | _ => none

/-- One more name of a file: two for a comparison, one for pruning. -/
def addName? (l : Line) (verb : Verb) (name : String) : Option Line :=
  let limit := match verb with
    | .compare => 2
    | .prune => 1
  if l.names.length < limit ∧ name ≠ "" then some { l with names := l.names ++ [name] } else none

/-- The rules that a line chooses.  It cannot both name a configuration and
    want none. -/
def choice? (l : Line) : Option RuleChoice :=
  let choose (configuration : ConfigurationChoice) : Option RuleChoice :=
    some ⟨configuration, l.profile, ⟨l.keys, l.paths⟩⟩
  match l.configuration, l.noConfiguration with
  | none, false => choose .usual
  | none, true => choose .none
  | some name, false => choose (.file name)
  | some _, true => none

/-- The command that a complete line stands for. -/
def command? (l : Line) (verb : Verb) : Option Command :=
  l.choice?.bind fun choice =>
    match verb, l.names with
    | .compare, [left, right] => some (.compare left right choice l.asJson)
    | .prune, [name] => some (.prune name choice)
    | _, _ => none

/-- A flag, with a value if that stands in the same argument. -/
def give? (l : Line) (flag : Flag) : Option String → Option Progress
  | some value => if flag.hasValue then (l.set? flag value).map (.going · .any) else none
  | none =>
    if flag.hasValue then some (.going l (.value flag))
    else if flag = .help then some (.done .help)
    else (l.turnOn? flag).map (.going · .any)

/-- One more argument. -/
def next? (verb : Verb) (l : Line) (mode : Mode) (arg : String) : Option Progress :=
  match mode with
  | .name => (l.addName? verb arg).map (.going · .name)
  | .value flag => if Argument.isValue arg then (l.set? flag arg).map (.going · .any) else none
  | .any =>
    match Argument.ofString arg with
    | .endOfFlags => some (.going l .name)
    | .word name => (l.addName? verb name).map (.going · .any)
    | .long name value => (Flag.ofName? verb name).bind (l.give? · value)
    | .short 'h' _ => some (.done .help)
    | .short letter value => (Flag.ofLetter? letter).bind (l.give? · value)

/-- What the arguments after the name of a command ask for, if they are well
    formed.  They count in order: a call for help hides what follows it. -/
def read? (verb : Verb) (l : Line) (mode : Mode) : List String → Option Request
  | [] =>
    match mode with
    | .value _ => none
    | _ => (l.command? verb).map .run
  | arg :: args =>
    match l.next? verb mode arg with
    | none => none
    | some (.done request) => some request
    | some (.going l mode) => read? verb l mode args

end Line

/-! ## Requests -/

namespace Request

/-- What a command line asks for, if it is well formed. -/
def read? : List String → Option Request
  | [] => none
  | arg :: args =>
    match Argument.ofString arg with
    | .word "compare" => Line.empty.read? .compare .any args
    | .word "omit" => Line.empty.read? .prune .any args
    | .word "help" => if args ∈ [[], ["compare"], ["omit"], ["help"]] then some help else none
    | .long "help" none | .short 'h' _ => some help
    | .long "version" none | .short 'V' _ => some version
    | _ => none

/-- The name of the program with its version. -/
def versionText : String := "rdeep 0.1.0\n"

/-- How the program is used. -/
def helpText : String :=
  "Structural comparison of JSON and YAML documents\n\n"
    ++ "  rdeep compare LEFT RIGHT [--json] [FLAGS]  compare two documents\n"
    ++ "  rdeep omit FILE [FLAGS]                    print a document without ignored keys\n\n"
    ++ "  -i, --ignore KEY        ignore a key wherever it occurs\n"
    ++ "  -p, --ignore-path GLOB  ignore the keys whose dotted path matches\n"
    ++ "      --profile NAME      ignore what a profile of the configuration lists\n"
    ++ "  -c, --config FILE       read this configuration file\n"
    ++ "      --no-config         read no configuration file\n"
    ++ "      --json              print the verdict as a JSON document\n"
    ++ "  -h, --help              print this text\n"
    ++ "  -V, --version           print the version\n"

/-- What is seen of a request. -/
def outcome (files : String → File) (usual : Option String) : Request → Outcome
  | run c => c.outcome files usual
  | help => ⟨0, helpText, none⟩
  | version => ⟨0, versionText, none⟩

end Request

/-- What is seen of a call of the program. -/
def outcome (files : String → File) (usual : Option String) (args : List String) : Outcome :=
  match Request.read? args with
  | some request => request.outcome files usual
  | none => ⟨1, "", some "The command line is malformed; see --help"⟩

/-- The names of the files that a call of the program may read. -/
def inputs (usual : Option String) (args : List String) : List String :=
  match Request.read? args with
  | some (.run c) => c.inputs usual
  | _ => []

end ValueGraph.CommandLine
