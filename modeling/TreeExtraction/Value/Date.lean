import TreeExtraction.Text.Digits

/-! # Dates

A date is a count of milliseconds from the start of 1970. It is written in the extended calendar
format, years outside four digits with a sign and six digits, or in the long format that names the
day of the week and the month.
-/

namespace TreeExtraction.Date

def dayLength : Int := 86400000

/-- Year, month and day of a day count, by the calendar of 400-year cycles that start in March. -/
def civil (day : Int) : Int × Nat × Nat :=
  let shifted := day + 719468
  let era := shifted.fdiv 146097
  let dayOfEra := (shifted.fmod 146097).toNat
  let yearOfEra := (dayOfEra - dayOfEra / 1460 + dayOfEra / 36524 - dayOfEra / 146096) / 365
  let dayOfYear := dayOfEra - (365 * yearOfEra + yearOfEra / 4 - yearOfEra / 100)
  let shiftedMonth := (5 * dayOfYear + 2) / 153
  let dayOfMonth := dayOfYear - (153 * shiftedMonth + 2) / 5 + 1
  let month := if shiftedMonth < 10 then shiftedMonth + 3 else shiftedMonth - 9
  (yearOfEra + era * 400 + (if month ≤ 2 then 1 else 0), month, dayOfMonth)

def padded (count n : Nat) : Text :=
  Text.padZeros count (Text.ofNat n)

/-- Hours, minutes and seconds of a time of day in milliseconds. -/
def clock (time : Nat) : Text :=
  padded 2 (time / 3600000) ++ unit ':' :: padded 2 (time / 60000 % 60) ++
    unit ':' :: padded 2 (time / 1000 % 60)

def isoText (milliseconds : Int) : Text :=
  let (year, month, day) := civil (milliseconds.fdiv dayLength)
  let time := (milliseconds.fmod dayLength).toNat
  let yearText :=
    if 0 ≤ year && year ≤ 9999 then padded 4 year.toNat
    else (if year < 0 then unit '-' else unit '+') :: padded 6 year.natAbs
  yearText ++ unit '-' :: padded 2 month ++ unit '-' :: padded 2 day ++ unit 'T' :: clock time ++
    unit '.' :: padded 3 (time % 1000) ++ [unit 'Z']

def weekdays : List Text :=
  ["Thu", "Fri", "Sat", "Sun", "Mon", "Tue", "Wed"].map units

def months : List Text :=
  ["Jan", "Feb", "Mar", "Apr", "May", "Jun", "Jul", "Aug", "Sep", "Oct", "Nov", "Dec"].map units

def longText (milliseconds : Int) : Text :=
  let dayCount := milliseconds.fdiv dayLength
  let (year, month, day) := civil dayCount
  let time := (milliseconds.fmod dayLength).toNat
  weekdays.getD (dayCount.fmod 7).toNat [] ++ unit ' ' :: months.getD (month - 1) [] ++
    unit ' ' :: padded 2 day ++ unit ' ' :: (if year < 0 then [unit '-'] else []) ++
    padded 4 year.natAbs ++ unit ' ' :: clock time ++
    units " GMT+0000 (Coordinated Universal Time)"

end TreeExtraction.Date
