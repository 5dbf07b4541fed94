/-
  Regular expressions without back-references.

  * `CharSet` is a set of characters, `Look` a condition on a place between two
    characters, and `Regex` an expression over them;
  * `Regex.ends` takes a set of places in a text to the places where a match
    from one of them can end; a set of places is a number with one bit for
    each place;
  * `Regex.isMatch` says whether any part of a text matches.
-/
import ValueGraph.Unicode.Property
import ValueGraph.Unicode.CaseVariants

namespace ValueGraph

open Unicode (Property caseVariants)

/-! ## Expressions -/

/-- A set of characters. -/
inductive CharSet where
  | none
  | range (low high : Char)
  | property (p : Property)
  | union (a b : CharSet)
  | inter (a b : CharSet)
  | diff (a b : CharSet)
  | symmDiff (a b : CharSet)
  | compl (a : CharSet)
  /-- The set and all case variants of its members. -/
  | folded (a : CharSet)
  /-- The set and its ASCII letters in the other case. -/
  | foldedAscii (a : CharSet)

namespace CharSet

/-- The other case of an ASCII letter; other characters stay. -/
def otherCase (c : Char) : Char := if c.isLower then c.toUpper else c.toLower

/-- Membership. -/
def contains : CharSet → Char → Bool
  | none, _ => false
  | range low high, c => low ≤ c && c ≤ high
  | property p, c => p.has c
  | union a b, c => a.contains c || b.contains c
  | inter a b, c => a.contains c && b.contains c
  | diff a b, c => a.contains c && !b.contains c
  | symmDiff a b, c => a.contains c != b.contains c
  | compl a, c => !a.contains c
  | folded a, c => (caseVariants c).any a.contains
  | foldedAscii a, c => a.contains c || a.contains (otherCase c)

/-- The set with one member. -/
def singleton (c : Char) : CharSet := range c c

/-- The union of sets. -/
def unions (sets : List CharSet) : CharSet := sets.foldr union none

/-- The set of characters in one of the ranges. -/
def ofRanges (ranges : List (Char × Char)) : CharSet :=
  unions (ranges.map fun r => range r.1 r.2)

end CharSet

/-- Which characters make up words. -/
inductive WordRule where
  | unicode
  | ascii
deriving DecidableEq, Repr

/-- A condition on a place between two characters. -/
inductive Look where
  | textStart
  | textEnd
  /-- The start of a line; `crlf` takes a carriage return for a line end, and
      the pair for one. -/
  | lineStart (crlf : Bool)
  | lineEnd (crlf : Bool)
  | wordBoundary (rule : WordRule)
  | noWordBoundary (rule : WordRule)
  | wordStart (rule : WordRule)
  | wordEnd (rule : WordRule)
  | wordStartHalf (rule : WordRule)
  | wordEndHalf (rule : WordRule)
deriving DecidableEq, Repr

/-- A regular expression. -/
inductive Regex where
  | empty
  | chars (set : CharSet)
  | look (look : Look)
  | seq (a b : Regex)
  | alt (a b : Regex)
  /-- At least `least` repetitions, and at most `most` if there is a bound. -/
  | repeated (a : Regex) (least : Nat) (most : Option Nat)
  | group (a : Regex)

/-! ## Conditions -/

/-- Whether a character is part of a word. -/
def WordRule.accepts : WordRule → Option Char → Bool
  | _, none => false
  | unicode, some c => Property.isWordCharacter c
  | ascii, some c => c.isAlphanum || c == '_'

/-- Whether a condition holds between two characters, where there are some. -/
def Look.holds (look : Look) (before after : Option Char) : Bool :=
  match look with
  | textStart => before.isNone
  | textEnd => after.isNone
  | lineStart false => before.all (· == '\n')
  | lineStart true => before.all fun c => c == '\n' || (c == '\r' && after != some '\n')
  | lineEnd false => after.all (· == '\n')
  | lineEnd true => after.all fun c => c == '\r' || (c == '\n' && before != some '\r')
  | wordBoundary rule => rule.accepts before != rule.accepts after
  | noWordBoundary rule => rule.accepts before == rule.accepts after
  | wordStart rule => !rule.accepts before && rule.accepts after
  | wordEnd rule => rule.accepts before && !rule.accepts after
  | wordStartHalf rule => !rule.accepts before
  | wordEndHalf rule => !rule.accepts after

/-! ## Matching -/

namespace Regex

/-- The set of the places for which a condition on their neighbours holds: bit
    `i` stands for the place before the character `i`. -/
def placesWhere (p : Option Char → Option Char → Bool) (text : List Char) : Nat :=
  go none text 0 0
where
  /-- The places from `i` on, where `before` is the character in front. -/
  go (before : Option Char) (text : List Char) (i places : Nat) : Nat :=
    let places := if p before text.head? then places ||| 1 <<< i else places
    match text with
    | [] => places
    | c :: cs => go (some c) cs (i + 1) places

/-- What repeating a step again and again leads to, at most `n` times. -/
def closure (step : Nat → Nat) : (n : Nat) → Nat → Nat
  | 0, places => places
  | n + 1, places =>
    let more := places ||| step places
    if more = places then places else closure step n more

/-- What repeating a step exactly `n` times leads to. -/
def iterate (step : Nat → Nat) : (n : Nat) → Nat → Nat
  | 0, places => places
  | n + 1, places =>
    let next := step places
    if next = places then places else iterate step n next

/-- The places where a match can end that starts at one of `places`. -/
def ends (text : List Char) : Regex → (places : Nat) → Nat
  | empty, places => places
  | chars set, places =>
    (places &&& placesWhere (fun _ after => after.any set.contains) text) <<< 1
  | look l, places => places &&& placesWhere l.holds text
  | seq a b, places => ends text b (ends text a places)
  | alt a b, places => ends text a places ||| ends text b places
  | repeated a least most, places =>
    closure (ends text a) (match most with
      | some most => most - least
      | none => text.length + 1) (iterate (ends text a) least places)
  | group a, places => ends text a places

/-- Whether a part of the text matches. -/
def isMatch (r : Regex) (text : String) : Bool :=
  let text := text.toList
  r.ends text (Nat.pow 2 (text.length + 1) - 1) != 0

end Regex

end ValueGraph
