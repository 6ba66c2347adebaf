import RowFilter.Time.Instant
import RowFilter.Text.Numeral

/-!
# Time.Printer — instants as text

`2024-03-01 12:30:00.500`, in universal time and cut to milliseconds.  A leap second prints as the
second `60`.  Years of up to four digits have four, all others have a sign.
-/

namespace RowFilter.Time

set_option autoImplicit false

open RowFilter.Text

def yearText (year : Int) : List Char :=
  if 0 ≤ year ∧ year ≤ 9999 then padded 4 year.toNat
  else (if year < 0 then '-' else '+') :: padded 4 year.natAbs

def dateText (d : Date) : List Char :=
  yearText d.year ++ '-' :: padded 2 d.month ++ '-' :: padded 2 d.day

namespace Instant

def text (t : Instant) : List Char :=
  let inDay := (t.second % 86400).toNat
  let sec := inDay % 60 + t.nano / nanosPerSecond
  dateText (Date.ofDayNumber (t.second / 86400)) ++
    ' ' :: padded 2 (inDay / 3600) ++
    ':' :: padded 2 (inDay / 60 % 60) ++
    ':' :: padded 2 sec ++
    '.' :: padded 3 (t.nano % nanosPerSecond / nanosPerMilli)

end Instant

end RowFilter.Time
