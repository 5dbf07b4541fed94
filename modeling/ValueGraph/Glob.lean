/-
  Glob patterns over whole texts.

  `?` stands for any one character, `*` for any run of characters, a bracket
  expression for one character of a class, and `**`, alone between slashes,
  for any number of whole components.  No character is special inside brackets
  except `]`, which is literal in the first place, `!` in front and `-`
  between two characters.

  * `Glob.read?` reads a pattern or says where it is malformed;
  * `Glob.isMatch` decides whether a text has the form of a pattern, keeping
    the rests of the text that the tokens read so far can leave over.
-/

namespace ValueGraph

/-! ## Patterns -/

/-- What one part of a pattern stands for. -/
inductive GlobToken where
  | literal (c : Char)
  | anyChar
  | anyRun
  | anyComponents
  | oneOf (ranges : List (Char × Char))
  | noneOf (ranges : List (Char × Char))
deriving DecidableEq, Repr

/-- A pattern with its text. -/
structure Glob where
  text : String
  tokens : List GlobToken
deriving DecidableEq, Repr

/-- What is wrong with a malformed pattern. -/
inductive GlobFault where
  | tooManyStars
  | partialComponent
  | unclosedClass
deriving DecidableEq, Repr

/-- A fault and the number of characters before it. -/
structure GlobError where
  position : Nat
  fault : GlobFault
deriving DecidableEq, Repr

/-- The description of a fault. -/
def GlobFault.message : GlobFault → String
  | tooManyStars => "wildcards are either regular `*` or recursive `**`"
  | partialComponent => "recursive wildcards must form a single path component"
  | unclosedClass => "invalid range pattern"

/-- The text of an error. -/
def GlobError.message (e : GlobError) : String :=
  "Pattern syntax error near position " ++ toString e.position ++ ": " ++ e.fault.message

namespace Glob

/-! ## Reading -/

/-- The ranges of a class: a minus between two characters joins them, any
    other character stands alone. -/
def readRanges : List Char → List (Char × Char)
  | a :: '-' :: b :: cs => (a, b) :: readRanges cs
  | c :: cs => (c, c) :: readRanges cs
  | [] => []

/-- The class after an opening bracket, and the rest of the pattern; nothing if
    the bracket is not closed. -/
def readClass? (cs : List Char) : Option (GlobToken × List Char) :=
  let (negated, cs) := match cs with
    | '!' :: cs => (true, cs)
    | cs => (false, cs)
  match cs with
  | [] => none
  | first :: cs =>
    match cs.dropWhile (· != ']') with
    | [] => none
    | _ :: rest =>
      let ranges := readRanges (first :: cs.takeWhile (· != ']'))
      some (if negated then .noneOf ranges else .oneOf ranges, rest)

/-- The tokens of a pattern from `position` on, where `atStart` says whether a
    component starts here. -/
def readTokens? (position : Nat) (atStart : Bool) (cs : List Char) :
    Except GlobError (List GlobToken) :=
  match cs with
  | [] => .ok []
  | '?' :: cs => return .anyChar :: (← readTokens? (position + 1) false cs)
  | '*' :: '*' :: '*' :: _ => .error ⟨position + 2, .tooManyStars⟩
  | ['*', '*'] => if atStart then .ok [.anyComponents] else .error ⟨position - 1, .partialComponent⟩
  | '*' :: '*' :: c :: cs =>
    if !atStart then .error ⟨position - 1, .partialComponent⟩
    else if c = '/' then return .anyComponents :: (← readTokens? (position + 3) true cs)
    else .error ⟨position + 2, .partialComponent⟩
  | '*' :: cs => return .anyRun :: (← readTokens? (position + 1) false cs)
  | '[' :: cs =>
    match readClass? cs with
    | none => .error ⟨position, .unclosedClass⟩
    | some (token, rest) =>
      if _h : rest.length < cs.length then
        return token :: (← readTokens? (position + 1 + (cs.length - rest.length)) false rest)
      else .error ⟨position, .unclosedClass⟩
  | c :: cs => return .literal c :: (← readTokens? (position + 1) (c == '/') cs)
termination_by cs.length

/-- The pattern with this text. -/
def read? (text : String) : Except GlobError Glob := do
  return ⟨text, ← readTokens? 0 true text.toList⟩

/-! ## Matching -/

/-- The ends of a text, from the whole text to the empty one. -/
def suffixes : List Char → List (List Char)
  | [] => [[]]
  | c :: cs => (c :: cs) :: suffixes cs

/-- What is left of a text after any number of components: all of it, what
    follows a slash, or nothing. -/
def componentRests (cs : List Char) : List (List Char) :=
  cs :: inner cs ++ [[]]
where
  /-- What follows each slash. -/
  inner : List Char → List (List Char)
    | [] => []
    | c :: cs => if c = '/' then cs :: inner cs else inner cs

/-- Whether a character lies in one of the ranges. -/
def inRanges (ranges : List (Char × Char)) (c : Char) : Bool :=
  ranges.any fun r => r.1 ≤ c && c ≤ r.2

/-- Whether a token that stands for one character stands for `c`. -/
def accepts (c : Char) : GlobToken → Bool
  | .literal d => c == d
  | .anyChar => true
  | .oneOf ranges => inRanges ranges c
  | .noneOf ranges => !inRanges ranges c
  | .anyRun | .anyComponents => false

/-- What is left of one of the texts after a token at its front, each rest
    once. -/
def restsAfter (token : GlobToken) (texts : List (List Char)) : List (List Char) :=
  (match token with
  | .anyRun => texts.flatMap suffixes
  | .anyComponents => texts.flatMap componentRests
  | token => texts.filterMap fun
    | [] => none
    | c :: cs => if accepts c token then some cs else none).eraseDups

/-- Whether a text has the form of the pattern. -/
def isMatch (g : Glob) (text : String) : Bool :=
  (g.tokens.foldl (fun texts token => restsAfter token texts) [text.toList]).contains []

end Glob

end ValueGraph
