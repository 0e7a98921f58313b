/-!
Points in time, and how they are written: as RFC 3339 in UTC.
-/

namespace ApiManifest

/-- So many seconds after the start of 1970, and nanoseconds after these. A leap second lengthens the
second before it. -/
structure Instant where
  seconds : Int := 0
  nanoseconds : Nat := 0
  deriving DecidableEq, Repr

namespace Instant

def padded (width n : Nat) : String :=
  let digits := toString n
  String.ofList (List.replicate (width - digits.length) '0') ++ digits

/-- The year, month and day of the Gregorian calendar that lies so many days after the start of 1970.
Days are counted from the 1st of March of year 0 in eras of 400 years, so that a leap day ends a year. -/
def dateOfDays (days : Int) : Int × Nat × Nat :=
  let days := days + 719468
  let era := Int.fdiv days 146097
  let dayOfEra := (days - era * 146097).toNat
  let yearOfEra := (dayOfEra - dayOfEra / 1460 + dayOfEra / 36524 - dayOfEra / 146096) / 365
  let dayOfYear := dayOfEra - (365 * yearOfEra + yearOfEra / 4 - yearOfEra / 100)
  let shifted := (5 * dayOfYear + 2) / 153
  let day := dayOfYear - (153 * shifted + 2) / 5 + 1
  let month := if shifted < 10 then shifted + 3 else shifted - 9
  let year := era * 400 + yearOfEra
  (if month ≤ 2 then year + 1 else year, month, day)

/-- Four digits, with a sign outside of the years 0 to 9999. -/
def yearText (year : Int) : String :=
  let digits := padded 4 year.natAbs
  if year < 0 then "-" ++ digits else if 9999 < year then "+" ++ digits else digits

def fractionText (nanoseconds : Nat) : String :=
  if nanoseconds = 0 then ""
  else if nanoseconds % 1000000 = 0 then "." ++ padded 3 (nanoseconds / 1000000)
  else if nanoseconds % 1000 = 0 then "." ++ padded 6 (nanoseconds / 1000)
  else "." ++ padded 9 nanoseconds

def text (i : Instant) : String :=
  let (year, month, day) := dateOfDays (Int.fdiv i.seconds 86400)
  let ofDay := (Int.fmod i.seconds 86400).toNat
  let second := ofDay % 60 + i.nanoseconds / 1000000000
  yearText year ++ "-" ++ padded 2 month ++ "-" ++ padded 2 day ++ "T" ++ padded 2 (ofDay / 3600) ++ ":" ++
    padded 2 (ofDay / 60 % 60) ++ ":" ++ padded 2 second ++ fractionText (i.nanoseconds % 1000000000) ++ "Z"

end Instant

end ApiManifest
