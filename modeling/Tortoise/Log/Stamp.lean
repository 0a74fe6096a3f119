import Tortoise.Log.Line

/-!
# Time stamps

A moment is a number of nanoseconds since the beginning of 1970. It is written as a date and a time
of day in universal time, with milliseconds in plain text and with all digits that matter in JSON.
-/

namespace Tortoise.Log

structure Date where
  year : Nat
  month : Nat
  day : Nat
deriving DecidableEq

/-- The date some days after the beginning of 1970. Days are counted from the first of March of the
year 0, so that a leap day ends a year; 400 years have 146097 days. -/
def Date.ofDays (days : Nat) : Date :=
  let shifted := days + 719468
  let inEra := shifted % 146097
  let yearOfEra := (inEra - inEra / 1460 + inEra / 36524 - inEra / 146096) / 365
  let dayOfYear := inEra - (365 * yearOfEra + yearOfEra / 4 - yearOfEra / 100)
  let monthFromMarch := (5 * dayOfYear + 2) / 153
  let month := if monthFromMarch < 10 then monthFromMarch + 3 else monthFromMarch - 9
  { year := yearOfEra + shifted / 146097 * 400 + (if month ≤ 2 then 1 else 0)
    month
    day := dayOfYear - (153 * monthFromMarch + 2) / 5 + 1 }

def zeroPadded (width n : Nat) : String :=
  let digits := Text.ofNat n
  String.ofList (List.replicate (width - digits.length) '0') ++ digits

def fractionText (nanoseconds : Nat) : Format → String
  | .plain => "." ++ zeroPadded 3 (nanoseconds / 1000000)
  | .json => Duration.fraction 9 nanoseconds

def stamp (f : Format) (moment : Nat) : String :=
  let seconds := moment / 1000000000
  let date := Date.ofDays (seconds / 86400)
  let minutes := seconds % 86400 / 60
  zeroPadded 4 date.year ++ "-" ++ zeroPadded 2 date.month ++ "-" ++ zeroPadded 2 date.day ++ "T"
    ++ zeroPadded 2 (minutes / 60) ++ ":" ++ zeroPadded 2 (minutes % 60) ++ ":"
    ++ zeroPadded 2 (seconds % 60) ++ fractionText (moment % 1000000000) f ++ "Z"

example : stamp .plain 951826554012000000 = "2000-02-29T12:15:54.012Z" := by decide +kernel

example : stamp .json 1704067199500000000 = "2023-12-31T23:59:59.5Z" := by decide +kernel

end Tortoise.Log
