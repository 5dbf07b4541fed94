/-
  Anchors, tags and directives.

  A tag has a handle and a suffix.  A handle is an exclamation mark, two of
  them, or a word between two; the handle of a tag in angle brackets is empty.

  * `scanAnchor?` reads the name of an anchor or an alias;
  * `scanTag?` reads a tag, and `scanDirective?` a directive.
-/
import ValueGraph.Yaml.Character
import ValueGraph.Yaml.Token
import ValueGraph.Decimal

namespace ValueGraph.Yaml

/-! ## Anchors -/

/-- The name after the mark of an anchor or an alias. -/
def scanAnchor? (c : Cursor) : Option (String × Cursor) :=
  let (name, c) := (c.skip 1).takeWhile isWordCharacter
  let ends := c.isGapAt 0 || c.next?.any fun char =>
    char == '?' || char == ':' || char == ',' || char == ']' || char == '\x7d' || char == '%' ||
      char == '@' || char == '\x60'
  if name.isEmpty || !ends then none else some (String.ofList name, c)

/-! ## Tags -/

/-- A handle. -/
def scanHandle? (c : Cursor) : Option (List Char × Cursor) :=
  if !c.isNext '!' then none
  else
    let (name, c) := (c.skip 1).takeWhile isWordCharacter
    if c.isNext '!' then some ('!' :: name ++ ['!'], c.skip 1) else some ('!' :: name, c)

/-- The characters that an address may contain; in angle brackets also those
    that structure flow collections. -/
def isAddressCharacter (inBrackets : Bool) (c : Char) : Bool :=
  isWordCharacter c || ";/?:@&=+$.%!~*'()".toList.contains c ||
    (inBrackets && (c == ',' || c == '[' || c == ']'))

/-- The byte that two hexadecimal digits after a percent sign stand for. -/
def scanByte? (c : Cursor) : Option (UInt8 × Cursor) := do
  if !c.isNext '%' then none
  let high ← Numeral.digit? 16 (← c.ahead? 1)
  let low ← Numeral.digit? 16 (← c.ahead? 2)
  return (UInt8.ofNat (16 * high + low), c.skip 3)

/-- Takes one character of an address in, as its bytes, the latest first. -/
def stepAddress? (inBrackets : Bool) (bytes : List UInt8) (c : Cursor) :
    Option (Cursor.Step (List UInt8) (List UInt8)) := do
  match c.next? with
  | none => return .done bytes.reverse c
  | some char =>
    if !isAddressCharacter inBrackets char then return .done bytes.reverse c
    else if char == '%' then
      let (byte, next) ← scanByte? c
      return .more (byte :: bytes) next
    else return .more (char.toString.toUTF8.toList.reverse ++ bytes) (c.skip 1)

/-- An address.  The bytes of escapes have to make up characters. -/
def scanAddress? (inBrackets : Bool) (c : Cursor) : Option (String × Cursor) := do
  let (bytes, c) ← c.loop? (stepAddress? inBrackets) []
  return (← String.fromUTF8? ⟨bytes.toArray⟩, c)

/-- A tag in angle brackets. -/
def scanVerbatimTag? (c : Cursor) : Option (Token × Cursor) := do
  let (address, c) ← scanAddress? true (c.skip 2)
  if address.isEmpty || !c.isNext '>' then none else return (.tag "" address, c.skip 1)

/-- A tag with a handle; a single exclamation mark alone is a tag without a
    handle. -/
def scanShortTag? (c : Cursor) : Option (Token × Cursor) := do
  let (handle, c) ← scanHandle? c
  let (address, c) ← scanAddress? false c
  if 1 < handle.length ∧ handle.getLast? = some '!' then
    if address.isEmpty then none else return (.tag (String.ofList handle) address, c)
  else
    let suffix := String.ofList (handle.drop 1) ++ address
    return (if suffix.isEmpty then .tag "" "!" else .tag "!" suffix, c)

/-- A tag; white space follows it, or a comma inside a flow collection. -/
def scanTag? (inFlow : Bool) (c : Cursor) : Option (Token × Cursor) := do
  let (token, c) ← if c.ahead? 1 = some '<' then scanVerbatimTag? c else scanShortTag? c
  if c.isGapAt 0 || (inFlow && c.isNext ',') then return (token, c) else none

/-! ## Directives -/

/-- A version number of at most nine digits. -/
def scanVersionNumber? (c : Cursor) : Option (Nat × Cursor) :=
  let (digits, c) := c.takeWhile Char.isDigit
  if digits.isEmpty ∨ 9 < digits.length then none else some (ofDigits 0 digits, c)

/-- The content of a version directive. -/
def scanVersion? (c : Cursor) : Option (Token × Cursor) := do
  let (major, c) ← scanVersionNumber? (c.dropWhile isBlank)
  if !c.isNext '.' then none
  let (minor, c) ← scanVersionNumber? (c.skip 1)
  return (.versionDirective major minor, c)

/-- The content of a tag directive. -/
def scanTagDirective? (c : Cursor) : Option (Token × Cursor) := do
  let (handle, c) ← scanHandle? (c.dropWhile isBlank)
  if 1 < handle.length ∧ handle.getLast? ≠ some '!' then none
  if !(c.next?.any isBlank) then none
  let (expansion, c) ← scanAddress? true (c.dropWhile isBlank)
  if expansion.isEmpty || !c.isGapAt 0 then none
  return (.tagDirective (String.ofList handle) expansion, c)

/-- A directive, which starts here with its percent sign, up to the end of its
    line. -/
def scanDirective? (c : Cursor) : Option (Token × Cursor) := do
  let (name, c) := (c.skip 1).takeWhile isWordCharacter
  if !c.isGapAt 0 then none
  let (token, c) ← match String.ofList name with
    | "YAML" => scanVersion? c
    | "TAG" => scanTagDirective? c
    | _ => none
  return (token, ← c.finishLine?)

end ValueGraph.Yaml
