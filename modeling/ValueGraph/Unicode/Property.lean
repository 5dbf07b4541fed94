/-
  Properties of characters, by name.

  Names are compared in loose spelling: case, blanks, underscores and hyphens
  do not count, nor do characters beyond ASCII or the letters `is` in front.

  * `Property.named?` finds a property, category or script by one name, and
    `Property.withValue?` one by the names of a property and of its value;
  * `Property.has` says whether a character has a property.
-/
import ValueGraph.Unicode.GeneralCategory
import ValueGraph.Unicode.Script
import ValueGraph.Unicode.Age
import ValueGraph.Unicode.Binary

namespace ValueGraph.Unicode

/-- A property of characters. -/
inductive Property where
  | any
  | ascii
  | assigned
  | category (among : List GeneralCategory)
  | script (number : Nat)
  | scriptExtension (number : Nat)
  | age (version : Nat)
  | binary (table : Runs)

namespace Property

/-- Whether a character has the property. -/
def has (p : Property) (c : Char) : Bool :=
  match p with
  | any => true
  | ascii => c.toNat < 128
  | assigned => GeneralCategory.of c != .unassigned
  | category among => among.contains (GeneralCategory.of c)
  | script number => Script.of c == number
  | scriptExtension number => Script.isUsed number c
  | age version => Age.isAssigned version c
  | binary table => table.contains c

/-! ## Names -/

/-- The loose spelling of a name.  What is left of `isc` is not taken for the
    name of a category. -/
def loose (name : String) : String :=
  let keep (cs : List Char) : List Char :=
    (cs.filter fun c => c.toNat < 128 && c != ' ' && c != '_' && c != '-').map Char.toLower
  match name.toList with
  | i :: s :: rest =>
    if i.toLower = 'i' ∧ s.toLower = 's' then
      let rest := keep rest
      if rest = ['c'] then "isc" else String.ofList rest
    else String.ofList (keep (i :: s :: rest))
  | cs => String.ofList (keep cs)

/-- The category with this name, in loose spelling. -/
def categoryNamed? (name : String) : Option Property :=
  match name with
  | "any" => some any
  | "assigned" => some assigned
  | "ascii" => some ascii
  | name => (GeneralCategory.named? name).map category

/-- The binary property, category or script with this name. -/
def named? (name : String) : Option Property :=
  let name := loose name
  ((Binary.named? name).map binary).or
    ((categoryNamed? name).or ((Script.named? name).map script))

/-- The property that has this value. -/
def withValue? (name value : String) : Option Property :=
  let value := loose value
  match loose name with
  | "gc" | "generalcategory" => categoryNamed? value
  | "sc" | "script" => (Script.named? value).map script
  | "scx" | "scriptextensions" => (Script.named? value).map scriptExtension
  | "age" => (Age.named? value).map age
  | _ => none

/-! ## Properties with a use of their own -/

/-- White space. -/
def whiteSpace : Property := binary Binary.whiteSpace

/-- Decimal digits of any script. -/
def decimalDigit : Property := category [.decimalNumber]

/-- The characters of words: letters, marks, decimal digits, connectors and
    joiners. -/
def isWordCharacter (c : Char) : Bool :=
  Binary.alphabetic.contains c || Binary.joinControl.contains c ||
    [.nonspacingMark, .spacingMark, .enclosingMark, .decimalNumber, .connectorPunctuation].contains
      (GeneralCategory.of c)

/-- Letters of any script. -/
def isAlphabetic (c : Char) : Bool := Binary.alphabetic.contains c

/-- Letters and numbers of any script. -/
def isAlphanumeric (c : Char) : Bool :=
  isAlphabetic c || [.decimalNumber, .letterNumber, .otherNumber].contains (GeneralCategory.of c)

end Property

end ValueGraph.Unicode
