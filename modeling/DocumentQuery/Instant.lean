/-!
# Instants

A point in time counts seconds from the start of 1970 in UTC, leap seconds left out. A leap
second is the second before it with a thousand million nanoseconds more.
-/

namespace DocumentQuery
set_option autoImplicit false

/-- Seconds since 1970-01-01T00:00:00Z and the nanoseconds after them. -/
structure Instant where
  seconds : Int
  nanos : Nat
  deriving DecidableEq, Inhabited

/-- A day of the Gregorian calendar, extended to all years. -/
structure CalendarDay where
  year : Int
  month : Nat
  day : Nat
  deriving DecidableEq

namespace CalendarDay

/-- The day that lies `n` days after 1970-01-01. Years are counted from March, so that a leap day
ends its year, in cycles of 400 years of 146097 days. -/
def ofDays (n : Int) : CalendarDay :=
  let fromMarch := n + 719468
  let cycle := fromMarch.fdiv 146097
  let dayOfCycle := (fromMarch.fmod 146097).toNat
  let yearOfCycle :=
    (dayOfCycle - dayOfCycle / 1460 + dayOfCycle / 36524 - dayOfCycle / 146096) / 365
  let dayOfYear := dayOfCycle - (365 * yearOfCycle + yearOfCycle / 4 - yearOfCycle / 100)
  let monthFromMarch := (5 * dayOfYear + 2) / 153
  let month := if monthFromMarch < 10 then monthFromMarch + 3 else monthFromMarch - 9
  { year := cycle * 400 + yearOfCycle + (if month ≤ 2 then 1 else 0)
    month := month
    day := dayOfYear - (153 * monthFromMarch + 2) / 5 + 1 }

end CalendarDay

namespace Instant

/-- The decimal digits of `n`, filled up with leading zeros to `width`. -/
def padded (width n : Nat) : String :=
  let digits := toString n
  String.ofList (List.replicate (width - digits.length) '0') ++ digits

/-- Four digits; a year outside 0 to 9999 has a sign before them and as many as it needs. -/
def yearText (y : Int) : String :=
  if 0 ≤ y ∧ y ≤ 9999 then padded 4 y.toNat
  else (if y < 0 then "-" else "+") ++ padded 4 y.natAbs

/-- The fraction of the second in milli-, micro- or nanoseconds, whichever is exact, and nothing
for a full second. -/
def fractionText (nanos : Nat) : String :=
  if nanos = 0 then ""
  else if nanos % 1000000 = 0 then "." ++ padded 3 (nanos / 1000000)
  else if nanos % 1000 = 0 then "." ++ padded 6 (nanos / 1000)
  else "." ++ padded 9 nanos

/-- Date and time of day with the offset of UTC, as RFC 3339 writes them. A leap second is
counted as one more of its minute. -/
def toText (t : Instant) : String :=
  let date := CalendarDay.ofDays (t.seconds.fdiv 86400)
  let time := (t.seconds.fmod 86400).toNat
  yearText date.year ++ "-" ++ padded 2 date.month ++ "-" ++ padded 2 date.day ++ "T"
    ++ padded 2 (time / 3600) ++ ":" ++ padded 2 (time / 60 % 60) ++ ":"
    ++ padded 2 (time % 60 + t.nanos / 1000000000) ++ fractionText (t.nanos % 1000000000)
    ++ "+00:00"

end Instant

end DocumentQuery
