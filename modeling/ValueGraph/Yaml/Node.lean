/-
  The nodes of YAML texts.

  * `Node` is a node as it is written: with its anchor and tag, and with
    aliases in place of repetitions;
  * `Node.ofTokens?` makes the node of the only document of a text.
-/
import ValueGraph.Yaml.Token

namespace ValueGraph.Yaml

/-- What may stand in front of a node. -/
structure Properties (α : Type) where
  anchor : Option α
  tag : Option String
deriving Repr

/-- A node, with anchors of a type `α`. -/
inductive Node (α : Type) where
  | alias (anchor : α)
  | scalar (properties : Properties α) (text : String) (plain : Bool)
  | sequence (properties : Properties α) (items : List (Node α))
  | mapping (properties : Properties α) (entries : List (Node α × Node α))
deriving Repr

namespace Node

/-- The node of something left out. -/
def omitted {α : Type} : Node α := .scalar ⟨none, none⟩ "" true

/-! ## Directives -/

/-- The expansions of tag handles. -/
abbrev Handles := List (String × String)

/-- The handles that are always known. -/
def defaultHandles : Handles := [("!", "!"), ("!!", "tag:yaml.org,2002:")]

/-- The directives in front of a document: the handles they define, and the
    rest.  There is at most one version, which is one that is known, and no
    handle is defined twice. -/
def directives? (versioned : Bool) (handles : Handles) : List Token → Option (Handles × List Token)
  | .versionDirective major minor :: ts =>
    if versioned ∨ major ≠ 1 ∨ (minor ≠ 1 ∧ minor ≠ 2) then none else directives? true handles ts
  | .tagDirective handle expansion :: ts =>
    if handles.any (·.1 == handle) then none
    else directives? versioned (handles ++ [(handle, expansion)]) ts
  | ts => some (handles ++ defaultHandles, ts)

/-- The tag with this handle and suffix. -/
def expandTag? (handles : Handles) (handle suffix : String) : Option String :=
  if handle.isEmpty then some suffix
  else (handles.find? (·.1 == handle)).map fun entry => entry.2 ++ suffix

/-- An anchor and a tag, in either order. -/
def properties? (handles : Handles) : List Token → Option (Properties String × List Token)
  | .anchor name :: .tag handle suffix :: ts | .tag handle suffix :: .anchor name :: ts => do
    return (⟨some name, some (← expandTag? handles handle suffix)⟩, ts)
  | .anchor name :: ts => some (⟨some name, none⟩, ts)
  | .tag handle suffix :: ts => do return (⟨none, some (← expandTag? handles handle suffix)⟩, ts)
  | ts => some (⟨none, none⟩, ts)

/-! ## Nodes -/

/-- A scalar.  The tag of a single exclamation mark makes it plain if it is
    written so, and says nothing else. -/
def ofScalar (p : Properties String) (text : String) (plain : Bool) : Node String :=
  .scalar (if p.tag = some "!" then ⟨p.anchor, none⟩ else p) text plain

/-- Whether a token ends a part of a block collection. -/
def endsPart : Token → Bool
  | .key | .value | .blockEnd => true
  | _ => false

/-- Whether a token ends an entry of a sequence that is not indented. -/
def endsEntry : Token → Bool
  | .blockEntry | .key | .value | .blockEnd => true
  | _ => false

mutual

/-- A node.  Block collections are allowed if `block` says so, and sequences
    that are not indented if `unindented` does; `fuel` bounds the nesting. -/
def node? (handles : Handles) (fuel : Nat) (block unindented : Bool) (ts : List Token) :
    Option (Node String × List Token) :=
  match fuel with
  | 0 => none
  | fuel + 1 =>
    match ts with
    | .alias name :: ts => some (.alias name, ts)
    | ts => do
      let (p, rest) ← properties? handles ts
      match rest with
      | .blockEntry :: _ =>
        if unindented then
          let (items, rest) ← unindented? handles fuel rest
          return (.sequence p items, rest)
        else bare? p ts rest
      | .scalar text plain :: rest => return (ofScalar p text plain, rest)
      | .flowSequenceStart :: rest =>
        let (items, rest) ← flowSequence? handles fuel true rest
        return (.sequence p items, rest)
      | .flowMappingStart :: rest =>
        let (entries, rest) ← flowMapping? handles fuel true rest
        return (.mapping p entries, rest)
      | .blockSequenceStart :: rest' =>
        if block then
          let (items, rest) ← blockSequence? handles fuel rest'
          return (.sequence p items, rest)
        else bare? p ts rest
      | .blockMappingStart :: rest' =>
        if block then
          let (entries, rest) ← blockMapping? handles fuel rest'
          return (.mapping p entries, rest)
        else bare? p ts rest
      | rest => bare? p ts rest
termination_by structural fuel

/-- The node that an anchor and a tag alone stand for. -/
def bare? (p : Properties String) (ts rest : List Token) : Option (Node String × List Token) :=
  if rest.length < ts.length then some (.scalar p "" true, rest) else none

/-- The entries of a block sequence, up to its end. -/
def blockSequence? (handles : Handles) (fuel : Nat) (ts : List Token) :
    Option (List (Node String) × List Token) :=
  match fuel with
  | 0 => none
  | fuel + 1 =>
    match ts with
    | .blockEnd :: ts => some ([], ts)
    | .blockEntry :: ts => do
      let (item, ts) ← match ts with
        | .blockEntry :: _ | .blockEnd :: _ => some (omitted, ts)
        | ts => node? handles fuel true false ts
      let (items, ts) ← blockSequence? handles fuel ts
      return (item :: items, ts)
    | _ => none
termination_by structural fuel

/-- The entries of a sequence that is not indented. -/
def unindented? (handles : Handles) (fuel : Nat) (ts : List Token) :
    Option (List (Node String) × List Token) :=
  match fuel with
  | 0 => none
  | fuel + 1 =>
    match ts with
    | .blockEntry :: ts => do
      let (item, ts) ← if ts.head?.any endsEntry then some (omitted, ts)
        else node? handles fuel true false ts
      let (items, ts) ← unindented? handles fuel ts
      return (item :: items, ts)
    | ts => some ([], ts)
termination_by structural fuel

/-- The entries of a block mapping, up to its end. -/
def blockMapping? (handles : Handles) (fuel : Nat) (ts : List Token) :
    Option (List (Node String × Node String) × List Token) :=
  match fuel with
  | 0 => none
  | fuel + 1 =>
    match ts with
    | .blockEnd :: ts => some ([], ts)
    | .key :: ts => do
      let (key, ts) ← if ts.head?.any endsPart then some (omitted, ts)
        else node? handles fuel true true ts
      let (value, ts) ← match ts with
        | .value :: ts =>
          if ts.head?.any endsPart then some (omitted, ts)
          else node? handles fuel true true ts
        | ts => some (omitted, ts)
      let (entries, ts) ← blockMapping? handles fuel ts
      return ((key, value) :: entries, ts)
    | _ => none
termination_by structural fuel

/-- The entries of a flow sequence, up to its end.  An entry with a key is a
    mapping of its own. -/
def flowSequence? (handles : Handles) (fuel : Nat) (first : Bool) (ts : List Token) :
    Option (List (Node String) × List Token) :=
  match fuel with
  | 0 => none
  | fuel + 1 => do
    match ts with
    | .flowSequenceEnd :: ts => return ([], ts)
    | ts =>
      let ts ← if first then some ts else match ts with
        | .flowEntry :: ts => some ts
        | _ => none
      match ts with
      | .flowSequenceEnd :: ts => return ([], ts)
      | .key :: ts =>
        let (key, ts) ← match ts with
          | .value :: ts | .flowEntry :: ts | .flowSequenceEnd :: ts => some (omitted, ts)
          | ts => node? handles fuel false false ts
        let (value, ts) ← match ts with
          | .value :: ts => match ts with
            | .flowEntry :: _ | .flowSequenceEnd :: _ => some (omitted, ts)
            | ts => node? handles fuel false false ts
          | ts => some (omitted, ts)
        let (items, ts) ← flowSequence? handles fuel false ts
        return (.mapping ⟨none, none⟩ [(key, value)] :: items, ts)
      | ts =>
        let (item, ts) ← node? handles fuel false false ts
        let (items, ts) ← flowSequence? handles fuel false ts
        return (item :: items, ts)
termination_by structural fuel

/-- The entries of a flow mapping, up to its end.  An entry without a key mark
    is a key without a value. -/
def flowMapping? (handles : Handles) (fuel : Nat) (first : Bool) (ts : List Token) :
    Option (List (Node String × Node String) × List Token) :=
  match fuel with
  | 0 => none
  | fuel + 1 => do
    match ts with
    | .flowMappingEnd :: ts => return ([], ts)
    | ts =>
      let ts ← if first then some ts else match ts with
        | .flowEntry :: ts => some ts
        | _ => none
      match ts with
      | .flowMappingEnd :: ts => return ([], ts)
      | .key :: ts =>
        let (key, ts) ← match ts with
          | .value :: _ | .flowEntry :: _ | .flowMappingEnd :: _ => some (omitted, ts)
          | ts => node? handles fuel false false ts
        let (value, ts) ← match ts with
          | .value :: ts => match ts with
            | .flowEntry :: _ | .flowMappingEnd :: _ => some (omitted, ts)
            | ts => node? handles fuel false false ts
          | ts => some (omitted, ts)
        let (entries, ts) ← flowMapping? handles fuel false ts
        return ((key, value) :: entries, ts)
      | ts =>
        let (key, ts) ← node? handles fuel false false ts
        let (entries, ts) ← flowMapping? handles fuel false ts
        return ((key, omitted) :: entries, ts)
termination_by structural fuel

end

/-! ## Documents -/

/-- The content of a document after its start marker. -/
def content? (handles : Handles) (ts : List Token) : Option (Node String × List Token) :=
  match ts with
  | [] | .documentStart :: _ | .documentEnd :: _ | .versionDirective _ _ :: _
  | .tagDirective _ _ :: _ => some (omitted, ts)
  | ts => node? handles (2 * ts.length + 2) true false ts

/-- The node of the first document, and the rest. -/
def document? (ts : List Token) : Option (Node String × List Token) :=
  match ts with
  | [] => some (omitted, [])
  | .documentStart :: _ | .versionDirective _ _ :: _ | .tagDirective _ _ :: _ => do
    let (handles, ts) ← directives? false [] ts
    match ts with
    | .documentStart :: ts => content? handles ts
    | _ => none
  | ts => node? defaultHandles (2 * ts.length + 2) true false ts

/-- The node of the only document of a text. -/
def ofTokens? (ts : List Token) : Option (Node String) := do
  let (node, rest) ← document? ts
  match rest.dropWhile (· == .documentEnd) with
  | [] => some node
  | _ => none

end Node

end ValueGraph.Yaml
