/-
  Instants and the calendar.

  An instant is a number of milliseconds since the start of 1970.  The
  calendar repeats every 400 years, which have 146097 days; counting years
  from the first of March puts the leap day last.

  * `Civil.ofDays` is the date of a day of the proleptic Gregorian calendar;
  * `timestamp?` is the text of an instant in the years from −262143 to
    262142: date, time with milliseconds, and `Z`.
-/
import ValueGraph.Decimal

namespace ValueGraph.Calendar

/-- A date of the Gregorian calendar, extended to all years. -/
structure Civil where
  year : Int
  month : Nat
  day : Nat
deriving DecidableEq, Repr

/-- The date that lies `days` days after the first of January 1970. -/
def Civil.ofDays (days : Int) : Civil :=
  let shifted := days + 719468
  let era := shifted.fdiv 146097
  let dayOfEra := (shifted.fmod 146097).toNat
  let yearOfEra := (dayOfEra - dayOfEra / 1460 + dayOfEra / 36524 - dayOfEra / 146096) / 365
  let dayOfYear := dayOfEra - (365 * yearOfEra + yearOfEra / 4 - yearOfEra / 100)
  let monthFromMarch := (5 * dayOfYear + 2) / 153
  let day := dayOfYear - (153 * monthFromMarch + 2) / 5 + 1
  let month := if monthFromMarch < 10 then monthFromMarch + 3 else monthFromMarch - 9
  ⟨era * 400 + yearOfEra + (if month ≤ 2 then 1 else 0), month, day⟩

/-- A natural number with at least `width` digits. -/
def padded (width n : Nat) : String :=
  let digits := digitsOf n
  String.ofList (List.replicate (width - digits.length) '0' ++ digits)

/-- A year: four digits, or a sign and at least four digits if the year does
    not lie between 0 and 9999. -/
def yearText (y : Int) : String :=
  if 0 ≤ y ∧ y ≤ 9999 then padded 4 y.toNat
  else (if y < 0 then "-" else "+") ++ padded 4 y.natAbs

/-- The date and time of an instant, with milliseconds, if its year is one
    that dates can have. -/
def timestamp? (millis : Int) : Option String :=
  let date := Civil.ofDays (millis.fdiv 86400000)
  let time := (millis.fmod 86400000).toNat
  if -262143 ≤ date.year ∧ date.year ≤ 262142 then
    some (yearText date.year ++ "-" ++ padded 2 date.month ++ "-" ++ padded 2 date.day ++ "T"
      ++ padded 2 (time / 3600000) ++ ":" ++ padded 2 (time / 60000 % 60) ++ ":"
      ++ padded 2 (time / 1000 % 60) ++ "." ++ padded 3 (time % 1000) ++ "Z")
  else none

/-- The instant `seconds` and `nanos` after the start of 1970, cut to the
    millisecond before it. -/
def millisOf (seconds : Int) (nanos : Nat) : Int := seconds * 1000 + (nanos / 1000000 : Nat)

end ValueGraph.Calendar
