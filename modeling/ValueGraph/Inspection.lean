/-
  Inspection: short texts that show a value, a prototype or an exclusion to a
  programmer.

  An object shows its tag only, as the graph below it may be cyclic.
-/
import ValueGraph.Object
import ValueGraph.Exclusion
import ValueGraph.Decimal.Notation
import ValueGraph.Unicode.GeneralCategory
import ValueGraph.Unicode.Binary

namespace ValueGraph

/-- The categories of separators, controls and characters without a meaning. -/
def invisibleCategories : List Unicode.GeneralCategory :=
  [.control, .format, .surrogate, .privateUse, .unassigned, .lineSeparator, .paragraphSeparator,
    .spaceSeparator]

/-- Whether a character can be seen: it is the space, or of a visible category
    and no mark on the character before it. -/
def isVisible (c : Char) : Bool :=
  c = ' ' || (!invisibleCategories.contains (Unicode.GeneralCategory.of c) &&
    !Unicode.Binary.graphemeExtend.contains c)

/-- A text in quotes.  Quotes, backslashes and characters that cannot be seen
    are escaped. -/
def inspectText (text : String) : String :=
  String.ofList ('"' :: text.toList.flatMap escape ++ ['"'])
where
  /-- A character inside quotes. -/
  escape (c : Char) : List Char :=
    match c with
    | '"' => ['\\', '"']
    | '\\' => ['\\', '\\']
    | '\n' => ['\\', 'n']
    | '\r' => ['\\', 'r']
    | '\t' => ['\\', 't']
    | '\x00' => ['\\', '0']
    | c =>
      if isVisible c then [c] else "\\u\x7b".toList ++ Nat.toDigits 16 c.toNat ++ ['\x7d']

/-- Numbers show positionally from `0.0001` to sixteen digits before the
    point. -/
def inspectStyle : Decimal.Notation := ⟨-4, 15, false, "NaN", "inf", "-inf"⟩

/-- The form of a key. -/
def Key.inspect : Key → String
  | name text => "Str(" ++ inspectText text ++ ")"
  | symbol s => "Symbol(" ++ s.text ++ ")"

/-- The form of a prototype. -/
def Prototype.inspect : Prototype → String
  | object => "Object"
  | null => "Null"
  | ofClass c => "Class(Class(" ++ (if c.builtin then "builtin " else "user ") ++ c.name ++ "))"

/-- The form of a value, where `tagOf` is the tag of an object. -/
def Value.inspect (tagOf : Ref → String) : Value → String
  | undefined => "Undefined"
  | null => "Null"
  | bool b => "Bool(" ++ (if b then "true" else "false") ++ ")"
  | number x => "Number(" ++ inspectStyle.write x ++ ")"
  | bigInt n => "BigInt(" ++ integerText n ++ ")"
  | string text => "String(" ++ inspectText text ++ ")"
  | symbol s => "Symbol(" ++ s.text ++ ")"
  | function f => "Function(Function(" ++ f.name ++ "))"
  | object r => "Object(ObjectRef(" ++ tagOf r ++ " @))"

/-- The form of an exclusion: its ignored keys, and whether it has a
    predicate. -/
def Exclusion.inspect {ε : Type} (x : Exclusion ε) : String :=
  "OmitOptions \x7b ignore_keys: \x7b" ++ ", ".intercalate (x.keys.map Key.inspect)
    ++ "\x7d, ignore_key_predicate: " ++ (if x.predicate.isSome then "true" else "false") ++ " \x7d"

end ValueGraph
