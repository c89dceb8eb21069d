import WebBaseline.Text.Padding

/-!
# Timestamps

A moment is a number of milliseconds since the start of 1970 in UTC.  Its text
is a date and a time of the proleptic Gregorian calendar; the milliseconds are
left out where they are zero, and years outside 0 to 9999 carry a sign.
-/

namespace WebBaseline

/-- A date. -/
structure Date where
  year : Int
  month : Nat
  day : Nat
deriving DecidableEq, Repr

namespace Date

/-- The date of a day, counted from the start of 1970.  Years are taken to
start in March, so that a leap day comes last; 400 of them have 146097 days. -/
def ofDay (day : Int) : Date :=
  let shifted := day + 719468
  let era := shifted / 146097
  let dayOfEra := (shifted % 146097).toNat
  let yearOfEra :=
    (dayOfEra - dayOfEra / 1460 + dayOfEra / 36524 - dayOfEra / 146096) / 365
  let dayOfYear := dayOfEra - (365 * yearOfEra + yearOfEra / 4 - yearOfEra / 100)
  let fromMarch := (5 * dayOfYear + 2) / 153
  let month := if fromMarch < 10 then fromMarch + 3 else fromMarch - 9
  { year := yearOfEra + era * 400 + (if month ≤ 2 then 1 else 0)
    month
    day := dayOfYear - (153 * fromMarch + 2) / 5 + 1 }

/-- The text of a date. -/
def text (d : Date) : String :=
  let year :=
    if d.year < 0 then "-" ++ Text.zeroPadded 4 d.year.natAbs
    else if d.year ≤ 9999 then Text.zeroPadded 4 d.year.toNat
    else "+" ++ toString d.year
  year ++ "-" ++ Text.zeroPadded 2 d.month ++ "-" ++ Text.zeroPadded 2 d.day

end Date

/-- The date and time of a moment, followed by the given name of the zone. -/
def timestampText (zone : String) (millis : Int) : String :=
  let ofDay := (millis % 86400000).toNat
  let two := Text.zeroPadded 2
  let fraction := ofDay % 1000
  (Date.ofDay (millis / 86400000)).text ++ "T" ++ two (ofDay / 3600000) ++ ":"
    ++ two (ofDay / 60000 % 60) ++ ":" ++ two (ofDay / 1000 % 60)
    ++ (if fraction = 0 then "" else "." ++ Text.zeroPadded 3 fraction) ++ zone

end WebBaseline
