/-!
# Time.Civil — the Gregorian calendar, run backwards and forwards without end

A `Date` is a year, a month and a day of the month.  `dayNumber` counts days from 1970-01-01 and
`Date.ofDayNumber` finds the date of a day.  A year that is divisible by four has a leap day,
except for a year divisible by a hundred and not by four hundred.
-/

namespace RowFilter.Time

set_option autoImplicit false

structure Date where
  year : Int
  month : Nat
  day : Nat
  deriving DecidableEq, Repr

def isLeap (year : Int) : Bool := year % 4 == 0 && (year % 100 != 0 || year % 400 == 0)

/-- The lengths of the twelve months. -/
def monthLengths (leap : Bool) : List Nat :=
  [31, if leap then 29 else 28, 31, 30, 31, 30, 31, 31, 30, 31, 30, 31]

/-- The days of a year before its month `month`. -/
def daysBeforeMonth (leap : Bool) (month : Nat) : Nat :=
  ((monthLengths leap).take (month - 1)).foldl (· + ·) 0

/-- The days from 0001-01-01 to the first day of a year. -/
def daysBeforeYear (year : Int) : Int :=
  let y := year - 1
  365 * y + y / 4 - y / 100 + y / 400

/-- The day number of 0001-01-01, counted down from 1970-01-01. -/
def epochDay : Int := 719162

namespace Date

/-- Whether the calendar has the date. -/
def isValid (d : Date) : Bool :=
  1 ≤ d.month && d.month ≤ 12 && 1 ≤ d.day &&
    d.day ≤ (monthLengths (isLeap d.year)).getD (d.month - 1) 0

/-- Days since 1970-01-01. -/
def dayNumber (d : Date) : Int :=
  daysBeforeYear d.year + daysBeforeMonth (isLeap d.year) d.month + d.day - 1 - epochDay

/-- Month and day of the day `rest` of a year, counted from zero, given the lengths of the months
from `month` on. -/
def monthAndDay (month rest : Nat) : List Nat → Nat × Nat
  | [] => (month, rest + 1)
  | length :: lengths =>
    if rest < length then (month, rest + 1) else monthAndDay (month + 1) (rest - length) lengths

/-- The year of a day counted from 0001-01-01, and the day of that year counted from zero.  Four
hundred years have 146097 days; the last century of them and the last year of four are a day longer
than the others. -/
def yearAndDay (n : Int) : Int × Nat :=
  let cycle := n / 146097
  let inCycle := (n % 146097).toNat
  let century := min (inCycle / 36524) 3
  let inCentury := inCycle - century * 36524
  let four := inCentury / 1461
  let inFour := inCentury % 1461
  let single := min (inFour / 365) 3
  (400 * cycle + 100 * century + 4 * four + single + 1, inFour - single * 365)

/-- The date of a day number. -/
def ofDayNumber (n : Int) : Date :=
  let (year, rest) := yearAndDay (n + epochDay)
  let (month, day) := monthAndDay 1 rest (monthLengths (isLeap year))
  ⟨year, month, day⟩

end Date

end RowFilter.Time
