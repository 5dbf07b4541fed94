/-
  Quoted texts of TOML documents.

  Texts in double quotes know escapes, texts in single quotes do not.  Three
  quotes enclose texts of several lines, in which one or two quotes are
  content.

  * `Text.line?` and `Text.block?` read on after the opening quotes;
  * `Text.read?` reads a quoted text of any kind.
-/
import ValueGraph.Text.Cursor
import ValueGraph.Text.Numeral

namespace ValueGraph.Toml

/-- Blanks inside a line. -/
def isBlank (c : Char) : Bool := c = ' ' || c = '\t'

/-- Characters that comments and quoted texts may contain as they are. -/
def isPlain (c : Char) : Bool := c = '\t' || (' ' ≤ c && c ≠ '\x7f')

/-- The place after a line break. -/
def lineBreak? (c : Cursor) : Option Cursor :=
  match c.rest with
  | '\n' :: _ => some (c.skipLine 1)
  | '\r' :: '\n' :: _ => some (c.skipLine 2)
  | _ => none

namespace Text

open Cursor (Step loop?)

/-! ## Escapes -/

/-- The character whose code is written with `n` hexadecimal digits. -/
def codePoint? (n : Nat) (c : Cursor) : Option (Char × Cursor) := do
  let digits := c.rest.take n
  if digits.length < n then none
  let code ← Numeral.value? 16 digits
  if code.isValidChar then some (Char.ofNat code, c.skip n) else none

/-- The character that an escape stands for, after its backslash. -/
def escape? (c : Cursor) : Option (Char × Cursor) :=
  match c.next? with
  | some 'b' => some ('\x08', c.skip 1)
  | some 't' => some ('\t', c.skip 1)
  | some 'n' => some ('\n', c.skip 1)
  | some 'f' => some ('\x0c', c.skip 1)
  | some 'r' => some ('\r', c.skip 1)
  | some '"' => some ('"', c.skip 1)
  | some '\\' => some ('\\', c.skip 1)
  | some 'u' => codePoint? 4 (c.skip 1)
  | some 'U' => codePoint? 8 (c.skip 1)
  | _ => none

/-! ## Texts of one line -/

/-- The text of characters in reverse order. -/
def ofReverse (taken : List Char) : String := String.ofList taken.reverse

/-- Takes off one character or the closing quote. -/
def lineStep (quote : Char) (taken : List Char) (c : Cursor) : Option (Step (List Char) String) :=
  match c.next? with
  | none => none
  | some ch =>
    if ch = quote then some (.done (ofReverse taken) (c.skip 1))
    else if ch = '\\' && quote = '"' then
      (escape? (c.skip 1)).map fun (ch, c) => .more (ch :: taken) c
    else if isPlain ch then some (.more (ch :: taken) (c.skip 1))
    else none

/-- The rest of a text of one line. -/
def line? (quote : Char) (c : Cursor) : Option (String × Cursor) := loop? (lineStep quote) [] c

/-! ## Texts of several lines -/

/-- Goes past blanks and line breaks. -/
def gapStep (_ : Unit) (c : Cursor) : Option (Step Unit Unit) :=
  match lineBreak? c with
  | some c => some (.more () c)
  | none => if c.next?.any isBlank then some (.more () (c.skip 1)) else some (.done () c)

/-- The place after a backslash that ends a line, and after the white space
    that follows it. -/
def continuation? (c : Cursor) : Option Cursor := do
  let (_, c) ← loop? gapStep () (← lineBreak? (c.dropWhile isBlank))
  return c

/-- Takes off one character, one line break, or a run of quotes, which ends the
    text if there are at least three of them. -/
def blockStep (quote : Char) (taken : List Char) (c : Cursor) : Option (Step (List Char) String) :=
  match c.next?, lineBreak? c with
  | none, _ => none
  | some _, some c => some (.more ('\n' :: taken) c)
  | some ch, none =>
    if ch = quote then
      let (quotes, c) := c.takeWhile (· = quote)
      if quotes.length < 3 then some (.more (quotes ++ taken) c)
      else if quotes.length ≤ 5 then some (.done (ofReverse (quotes.drop 3 ++ taken)) c)
      else none
    else if ch = '\\' && quote = '"' then
      match continuation? (c.skip 1) with
      | some c => some (.more taken c)
      | none => (escape? (c.skip 1)).map fun (ch, c) => .more (ch :: taken) c
    else if isPlain ch then some (.more (ch :: taken) (c.skip 1))
    else none

/-- The rest of a text of several lines.  A line break right after the opening
    quotes does not count. -/
def block? (quote : Char) (c : Cursor) : Option (String × Cursor) :=
  loop? (blockStep quote) [] ((lineBreak? c).getD c)

/-- A text in quotes of this kind. -/
def read? (quote : Char) (c : Cursor) : Option (String × Cursor) :=
  if c.rest.take 3 = [quote, quote, quote] then block? quote (c.skip 3) else line? quote (c.skip 1)

end Text

end ValueGraph.Toml
