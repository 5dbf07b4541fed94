/-
  Numbers, booleans, dates and times of TOML documents.

  * `Scalar.integer?`, `Scalar.float?` and `Scalar.isMoment` know the forms of
    each kind;
  * `Scalar.read?` is the value of a whole word.
-/
import ValueGraph.Toml
import ValueGraph.Decimal
import ValueGraph.Text.Numeral

namespace ValueGraph.Toml.Scalar

/-! ## Digits -/

/-- Digits of which neighbours may be separated by an underscore, without the
    underscores.  There is at least one digit. -/
def digits? (isDigit : Char → Bool) : List Char → Option (List Char)
  | [] => none
  | [c] => if isDigit c then some [c] else none
  | c :: '_' :: cs => if isDigit c then (digits? isDigit cs).map (c :: ·) else none
  | c :: cs => if isDigit c then (digits? isDigit cs).map (c :: ·) else none

/-- The number that digits of a base of at most sixteen denote. -/
def natural? (base : Nat) (cs : List Char) : Option Nat := do
  Numeral.value? base (← digits? (fun c => (Numeral.digit? base c).isSome) cs)

/-- Decimal digits; a zero in front stands alone. -/
def whole? (cs : List Char) : Option (List Char) :=
  match digits? Char.isDigit cs with
  | some ('0' :: _ :: _) => none
  | digits => digits

/-! ## Numbers -/

/-- An integer of 64 bits: a sign and decimal digits, or digits of another base
    behind a mark. -/
def integer? (cs : List Char) : Option Int := do
  let i ← match cs with
    | '0' :: 'x' :: ds => (natural? 16 ds).map Int.ofNat
    | '0' :: 'o' :: ds => (natural? 8 ds).map Int.ofNat
    | '0' :: 'b' :: ds => (natural? 2 ds).map Int.ofNat
    | cs =>
      let (negative, ds) := Decimal.readSign cs
      (whole? ds).map fun ds => (if negative then -1 else 1) * (ofDigits 0 ds : Int)
  if -0x8000000000000000 ≤ i ∧ i < 0x8000000000000000 then some i else none

/-- The exponent at the front, or nothing. -/
def exponent? : List Char → Option Int
  | [] => some 0
  | c :: cs =>
    if c = 'e' ∨ c = 'E' then
      let (negative, ds) := Decimal.readSign cs
      (digits? Char.isDigit ds).map fun ds => (if negative then -1 else 1) * (ofDigits 0 ds : Int)
    else none

/-- Whether a character may be part of digits. -/
def isDigitOrGap (c : Char) : Bool := c.isDigit || c = '_'

/-- The decimal value of a sign, digits, and a fraction, an exponent or
    both. -/
def decimal? (cs : List Char) : Option Decimal := do
  let (negative, cs) := Decimal.readSign cs
  let whole ← whole? (cs.takeWhile isDigitOrGap)
  match cs.dropWhile isDigitOrGap with
  | [] => none
  | '.' :: cs =>
    let fraction ← digits? Char.isDigit (cs.takeWhile isDigitOrGap)
    let exponent ← exponent? (cs.dropWhile isDigitOrGap)
    return ⟨negative, ofDigits (ofDigits 0 whole) fraction, exponent - fraction.length⟩
  | cs => return ⟨negative, ofDigits 0 whole, ← exponent? cs⟩

/-- A floating-point number: a decimal value, infinity or not-a-number.  A
    positive value that would be rounded to infinity is none. -/
def float? (cs : List Char) : Option Binary64 :=
  let (negative, word) := Decimal.readSign cs
  if word = ['i', 'n', 'f'] then some (Binary64.infinity negative)
  else if word = ['n', 'a', 'n'] then some Binary64.nan
  else do
    let x := Binary64.ofDecimal (← decimal? cs)
    if x = Binary64.infinity false then none else some x

/-! ## Dates and times -/

/-- Exactly `n` decimal digits at the front: their number and the rest. -/
def field? (n : Nat) (cs : List Char) : Option (Nat × List Char) :=
  let ds := cs.take n
  if ds.length = n ∧ ds.all Char.isDigit then some (ofDigits 0 ds, cs.drop n) else none

/-- A character at the front, and the rest. -/
def mark? (c : Char) : List Char → Option (List Char)
  | d :: ds => if d = c then some ds else none
  | [] => none

/-- The number of days of a month. -/
def daysOf (year month : Nat) : Nat :=
  if month = 2 then if year % 4 = 0 ∧ (year % 100 ≠ 0 ∨ year % 400 = 0) then 29 else 28
  else if month = 4 ∨ month = 6 ∨ month = 9 ∨ month = 11 then 30
  else 31

/-- The rest after a date. -/
def afterDate? (cs : List Char) : Option (List Char) := do
  let (year, cs) ← field? 4 cs
  let (month, cs) ← field? 2 (← mark? '-' cs)
  let (day, cs) ← field? 2 (← mark? '-' cs)
  if 1 ≤ month ∧ month ≤ 12 ∧ 1 ≤ day ∧ day ≤ daysOf year month then some cs else none

/-- The rest after hours and minutes. -/
def afterMinutes? (cs : List Char) : Option (List Char) := do
  let (hour, cs) ← field? 2 cs
  let (minute, cs) ← field? 2 (← mark? ':' cs)
  if hour < 24 ∧ minute < 60 then some cs else none

/-- The rest after a time of day, which may have leap seconds and a
    fraction. -/
def afterTime? (cs : List Char) : Option (List Char) := do
  let (second, cs) ← field? 2 (← mark? ':' (← afterMinutes? cs))
  if 60 < second then none
  match cs with
  | '.' :: c :: cs => if c.isDigit then some (cs.dropWhile Char.isDigit) else none
  | cs => some cs

/-- Whether nothing or a difference to universal time comes next. -/
def isOffset (cs : List Char) : Bool :=
  match cs with
  | [] => true
  | c :: cs =>
    if c = 'Z' || c = 'z' then cs.isEmpty
    else if c = '+' || c = '-' then afterMinutes? cs == some []
    else false

/-- Whether a word is a date. -/
def isDate (cs : List Char) : Bool := afterDate? cs == some []

/-- Whether a word is a date, a time of day, or both with an optional
    difference to universal time. -/
def isMoment (cs : List Char) : Bool :=
  match afterDate? cs with
  | some [] => true
  | some (c :: cs) =>
    (c = 'T' || c = 't' || c = ' ') && (afterTime? cs).any isOffset
  | none => afterTime? cs == some []

/-! ## Words -/

/-- The value that a word stands for. -/
def read? (cs : List Char) : Option Toml :=
  let text := String.ofList cs
  if text = "true" then some (.bool true)
  else if text = "false" then some (.bool false)
  else if isMoment cs then some (.moment text)
  else match float? cs with
    | some x => some (.float x)
    | none => (integer? cs).map .integer

end ValueGraph.Toml.Scalar
