import RowFilter.Time.Civil

/-!
# Time.Instant — points in time

An instant is a second, counted from 1970-01-01 00:00:00, and nanoseconds.  A leap second is written
as the second before it with a thousand million nanoseconds more, and only the last second of a
minute has one.  Instants are ordered by the second first; `epochMillis` counts whole milliseconds,
so that a leap second runs through the count of the second after it.
-/

namespace RowFilter.Time

set_option autoImplicit false

/-- The first second of the year -262143. -/
def firstSecond : Int := -8334601228800

/-- The last second of the year 262142. -/
def lastSecond : Int := 8210266876799

/-- Nanoseconds of a second. -/
def nanosPerSecond : Nat := 1000000000

/-- Nanoseconds of a millisecond. -/
def nanosPerMilli : Nat := 1000000

structure Instant where
  second : Int
  nano : Nat
  first_le : firstSecond ≤ second
  le_last : second ≤ lastSecond
  nano_lt : nano < 2 * nanosPerSecond
  leap_at_minute : nanosPerSecond ≤ nano → second % 60 = 59
  deriving DecidableEq

namespace Instant

/-- The instant of a second and nanoseconds, where there is one. -/
def of? (s : Int) (nano : Nat) : Option Instant :=
  if h : firstSecond ≤ s ∧ s ≤ lastSecond ∧ nano < 2 * nanosPerSecond ∧
      (nanosPerSecond ≤ nano → s % 60 = 59) then
    some ⟨s, nano, h.1, h.2.1, h.2.2.1, h.2.2.2⟩
  else none

/-- The instant of a date and a time of day shifted by an offset in seconds.  The second `60` of a
minute is its leap second. -/
def ofCivil? (date : Date) (hour minute s nano : Nat) (offset : Int) : Option Instant :=
  if date.isValid && hour < 24 && minute < 60 && s ≤ 60 && nano < nanosPerSecond then
    let base := date.dayNumber * 86400 + hour * 3600 + minute * 60 - offset
    if s = 60 then of? (base + 59) (nanosPerSecond + nano) else of? (base + s) nano
  else none

/-- Whole milliseconds since 1970-01-01 00:00:00. -/
def epochMillis (t : Instant) : Int := t.second * 1000 + (t.nano / nanosPerMilli : Nat)

/-- The instant of a count of milliseconds, where there is one. -/
def ofEpochMillis? (n : Int) : Option Instant :=
  of? (n / 1000) ((n % 1000).toNat * nanosPerMilli)

/-- The order of time: the second first, then the nanoseconds. -/
def compare (a b : Instant) : Ordering :=
  match Ord.compare a.second b.second with
  | .eq => Ord.compare a.nano b.nano
  | o => o

/-! ## Small laws -/

theorem ext {a b : Instant} (hs : a.second = b.second) (hn : a.nano = b.nano) : a = b := by
  cases a
  cases b
  simp_all

theorem of?_eq_some_iff {s : Int} {nano : Nat} {t : Instant} :
    of? s nano = some t ↔ t.second = s ∧ t.nano = nano := by
  constructor
  · intro h
    simp only [of?] at h
    split at h
    · cases h
      exact ⟨rfl, rfl⟩
    · cases h
  · rintro ⟨rfl, rfl⟩
    simp only [of?]
    rw [dif_pos ⟨t.first_le, t.le_last, t.nano_lt, t.leap_at_minute⟩]

end Instant

end RowFilter.Time
