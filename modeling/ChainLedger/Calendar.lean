import ChainLedger.Amount.Text
import ChainLedger.ChainParams

/-!
# Timestamps in the calendar

A timestamp is shown as a date and a time of day in UTC, with milliseconds only where
they are not zero. Years are counted in the Gregorian calendar throughout; they are
shown for some 262,000 years before and after the start of the era, and carry a sign
outside of the first ten thousand.
-/

namespace ChainLedger.Calendar

/-! ## Dates -/

structure Date where
  year : Int
  month : Nat
  day : Nat
deriving DecidableEq

/-- Days from the first of March of the year zero to the start of 1970. -/
def epochDay : Int := 719468

/-- Days in four hundred years, after which the calendar repeats. -/
def eraDays : Int := 146097

/-- The date that lies a number of days after the start of 1970. Years are taken to begin in
March, so that a leap day comes at the end of one. -/
def Date.ofDays (days : Int) : Date :=
  let shifted := days + epochDay
  let era := shifted / eraDays
  let dayOfEra := (shifted % eraDays).toNat
  let yearOfEra :=
    (dayOfEra - dayOfEra / 1460 + dayOfEra / 36524 - dayOfEra / 146096) / 365
  let dayOfYear := dayOfEra - (365 * yearOfEra + yearOfEra / 4 - yearOfEra / 100)
  let monthFromMarch := (5 * dayOfYear + 2) / 153
  let month := if monthFromMarch < 10 then monthFromMarch + 3 else monthFromMarch - 9
  { year := era * 400 + yearOfEra + (if month ≤ 2 then 1 else 0)
    month
    day := dayOfYear - (153 * monthFromMarch + 2) / 5 + 1 }

/-! ## Text -/

/-- The last `width` decimal digits of a number. -/
def padded (width n : Nat) : String := String.ofList (lastDigits width n)

/-- A year in four digits, with a sign where it takes more or lies before the year zero. -/
def yearText (year : Int) : String :=
  if 0 ≤ year && year ≤ 9999 then padded 4 year.toNat
  else
    let digits := Nat.toDigits 10 year.natAbs
    (if year < 0 then "-" else "+") ++
      String.ofList (List.replicate (4 - digits.length) '0' ++ digits)

/-- Milliseconds of a day. -/
def dayLength : Int := 86400000

/-- The first timestamp that is shown, and the first one after the last. -/
def firstShown : Int := -8334601228800000
def firstNotShown : Int := 8210266876800000

/-- The date and time of a timestamp, if it is near enough to be shown. -/
def textOf? (timestamp : Timestamp) : Option String :=
  let millis := timestamp.toInt
  if firstShown ≤ millis ∧ millis < firstNotShown then
    let date := Date.ofDays (millis / dayLength)
    let time := (millis % dayLength).toNat
    let fraction := time % 1000
    some <|
      yearText date.year ++ "-" ++ padded 2 date.month ++ "-" ++ padded 2 date.day ++ "T" ++
        padded 2 (time / 3600000) ++ ":" ++ padded 2 (time / 60000 % 60) ++ ":" ++
        padded 2 (time / 1000 % 60) ++ (if fraction = 0 then "" else "." ++ padded 3 fraction) ++
        "+00:00"
  else none

end ChainLedger.Calendar
