/-
  Writing texts in quotes.

  Of the four kinds of quoted texts the first one is chosen that needs no
  escapes but for tabs: double quotes, single quotes, three double quotes,
  three single quotes.  If none does, the text is written with escapes, in
  three double quotes if it has line breaks.

  * `Quoting.ofText` is the kind of quotes for a text;
  * `quote` is the text in those quotes.
-/
import ValueGraph.Text.Numeral

namespace ValueGraph.Toml

/-- The kinds of quotes. -/
inductive Quoting where
  | double
  | single
  | tripleDouble
  | tripleSingle
deriving DecidableEq, Repr

namespace Quoting

/-- The quotes on either side. -/
def marks : Quoting → List Char
  | double => ['"']
  | single => ['\'']
  | tripleDouble => ['"', '"', '"']
  | tripleSingle => ['\'', '\'', '\'']

/-- Whether the text may have line breaks. -/
def isBlock : Quoting → Bool
  | double | single => false
  | tripleDouble | tripleSingle => true

/-- Control characters that have to be escaped in any quotes. -/
def isControl (c : Char) : Bool := (c < ' ' && c ≠ '\t' && c ≠ '\n') || c = '\x7f'

/-- Whether a text contains a run of `n + 1` characters `c`. -/
def hasRun (c : Char) (n : Nat) : List Char → Bool
  | [] => false
  | d :: ds => (List.replicate (n + 1) c).isPrefixOf (d :: ds) || hasRun c n ds

/-- Whether a text can be written without escapes, tabs apart. -/
def fits (q : Quoting) (cs : List Char) : Bool :=
  !cs.any isControl && (q.isBlock || !cs.contains '\n') &&
    match q with
    | double => !cs.contains '\\' && !cs.contains '"'
    | single => !cs.contains '\''
    | tripleDouble => !cs.contains '\\' && !hasRun '"' 2 cs
    | tripleSingle => !hasRun '\'' 2 cs

/-- The kind of quotes for a text. -/
def ofText (cs : List Char) : Quoting :=
  ([double, single, tripleDouble, tripleSingle].find? (·.fits cs)).getD
    (if cs.contains '\n' then tripleDouble else double)

end Quoting

/-- Characters between double quotes.  Line breaks are escaped unless the text
    is a block; a double quote is escaped if `quotes` of them are in front of it
    and no more than `limit` may stand together. -/
def escape (isBlock : Bool) (limit quotes : Nat) : List Char → List Char
  | [] => []
  | c :: cs =>
    if c = '"' then
      if quotes < limit then c :: escape isBlock limit (quotes + 1) cs
      else '\\' :: '"' :: escape isBlock limit 0 cs
    else
      (match c with
        | '\x08' => ['\\', 'b']
        | '\t' => ['\\', 't']
        | '\n' => if isBlock then ['\n'] else ['\\', 'n']
        | '\x0c' => ['\\', 'f']
        | '\r' => ['\\', 'r']
        | '\\' => ['\\', '\\']
        | c => if Quoting.isControl c then '\\' :: 'u' :: Numeral.hexadecimal 4 c.toNat else [c])
      ++ escape isBlock limit 0 cs

/-- A text in quotes.  A block that has line breaks starts on a line of its
    own. -/
def quote (text : String) : String :=
  let cs := text.toList
  let q := Quoting.ofText cs
  let start := if q.isBlock && cs.contains '\n' then ['\n'] else []
  let content := match q with
    | .double => escape false 0 0 cs
    | .tripleDouble => escape true 2 0 cs
    | .single | .tripleSingle => cs
  String.ofList (q.marks ++ start ++ content ++ q.marks)

end ValueGraph.Toml
