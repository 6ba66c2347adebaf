import RowFilter.Proofs.Lexicographic
import RowFilter.Time.Instant
import Mathlib.Algebra.Order.Ring.Int

/-!
# Proofs.Calendar — the calendar runs forward

Days are counted in the order of their dates: years follow each other without a gap or an overlap,
and so do the months of a year (`compare_dayNumber`).  The instants of dates and times of day are
therefore in the order of year, month, day, hour, minute and second, where the second `60` comes behind
all other seconds of its minute and before the next minute (`compare_ofCivil?`).
-/

namespace RowFilter.Time

set_option autoImplicit false

/-! ## Years -/

/-- The days of a year. -/
def yearLength (leap : Bool) : Nat := if leap then 366 else 365

theorem daysBeforeYear_succ (year : Int) :
    daysBeforeYear (year + 1) = daysBeforeYear year + yearLength (isLeap year) := by
  have leap : isLeap year = true ↔ year % 4 = 0 ∧ (year % 100 ≠ 0 ∨ year % 400 = 0) := by
    simp [isLeap]
  simp only [yearLength, daysBeforeYear]
  split
  · rename_i h
    rw [leap] at h
    omega
  · rename_i h
    rw [leap] at h
    omega

theorem daysBeforeYear_mono {x y : Int} (le : x ≤ y) : daysBeforeYear x ≤ daysBeforeYear y := by
  simp only [daysBeforeYear]
  omega

/-- A year is over before a later one begins. -/
theorem daysBeforeYear_add_le {x y : Int} (less : x < y) :
    daysBeforeYear x + yearLength (isLeap x) ≤ daysBeforeYear y := by
  rw [← daysBeforeYear_succ]
  exact daysBeforeYear_mono less

/-! ## Months -/

/-- The days of a month. -/
def monthLength (leap : Bool) (month : Nat) : Nat := (monthLengths leap).getD (month - 1) 0

theorem monthLength_le (leap : Bool) (month : Nat) : monthLength leap month ≤ 31 := by
  have short : ∀ leap, ∀ n ∈ monthLengths leap, n ≤ 31 := by decide
  rw [monthLength, List.getD_eq_getElem?_getD]
  cases given : (monthLengths leap)[month - 1]? with
  | none => decide
  | some n => exact short leap n (List.mem_of_getElem? given)

theorem daysBeforeMonth_succ (leap : Bool) {month : Nat} (first : 1 ≤ month) :
    daysBeforeMonth leap (month + 1) = daysBeforeMonth leap month + monthLength leap month := by
  obtain ⟨i, rfl⟩ := Nat.exists_eq_add_of_le' first
  simp only [daysBeforeMonth, monthLength, Nat.add_sub_cancel, List.take_add_one,
    List.foldl_append, List.getD_eq_getElem?_getD]
  cases (monthLengths leap)[i]? <;> rfl

theorem daysBeforeMonth_mono (leap : Bool) {x y : Nat} (first : 1 ≤ x) (le : x ≤ y) :
    daysBeforeMonth leap x ≤ daysBeforeMonth leap y := by
  induction y, le using Nat.le_induction with
  | base => exact Nat.le_refl _
  | succ y le ih =>
      rw [daysBeforeMonth_succ leap (first.trans le)]
      exact Nat.le_add_right_of_le ih

/-- A month is over before a later one begins. -/
theorem daysBeforeMonth_add_le (leap : Bool) {x y : Nat} (first : 1 ≤ x) (less : x < y) :
    daysBeforeMonth leap x + monthLength leap x ≤ daysBeforeMonth leap y := by
  rw [← daysBeforeMonth_succ leap first]
  exact daysBeforeMonth_mono leap (Nat.le_add_left 1 x) less

theorem daysBeforeMonth_thirteen (leap : Bool) : daysBeforeMonth leap 13 = yearLength leap := by
  cases leap <;> rfl

/-! ## Dates -/

namespace Date

variable {d e : Date}

theorem isValid_iff : d.isValid = true ↔
    1 ≤ d.month ∧ d.month ≤ 12 ∧ 1 ≤ d.day ∧ d.day ≤ monthLength (isLeap d.year) d.month := by
  simp [isValid, monthLength, and_assoc]

/-- The days of the year up to the date. -/
def dayOfYear (d : Date) : Nat := daysBeforeMonth (isLeap d.year) d.month + d.day

theorem dayNumber_eq (d : Date) :
    d.dayNumber = daysBeforeYear d.year + d.dayOfYear - 1 - epochDay := by
  simp only [dayNumber, dayOfYear, Nat.cast_add]
  omega

theorem dayOfYear_bounds (valid : d.isValid = true) :
    1 ≤ d.dayOfYear ∧ d.dayOfYear ≤ yearLength (isLeap d.year) := by
  obtain ⟨first, last, day, short⟩ := isValid_iff.mp valid
  have ended := daysBeforeMonth_add_le (isLeap d.year) first (Nat.lt_succ_of_le last)
  rw [daysBeforeMonth_thirteen] at ended
  unfold dayOfYear
  omega

/-- Within a year days are counted in the order of month and day. -/
theorem compare_dayOfYear (left : d.isValid = true) (right : e.isValid = true)
    (same : d.year = e.year) :
    Ord.compare (d.dayOfYear : Int) (e.dayOfYear : Int) =
      (Ord.compare d.month e.month).then (Ord.compare d.day e.day) := by
  obtain ⟨first, -, day, short⟩ := isValid_iff.mp left
  obtain ⟨first', -, day', short'⟩ := isValid_iff.mp right
  unfold dayOfYear
  rw [same] at short ⊢
  refine compare_then ?_ ?_ ?_
  · intro less
    have ended := daysBeforeMonth_add_le (isLeap e.year) first less
    omega
  · intro less
    have ended := daysBeforeMonth_add_le (isLeap e.year) first' less
    omega
  · intro equal
    rw [equal]
    exact compare_congr (by omega) (by omega) (by omega)

/-- **Days are counted in the order of their dates.** -/
theorem compare_dayNumber (left : d.isValid = true) (right : e.isValid = true) :
    Ord.compare d.dayNumber e.dayNumber =
      (Ord.compare d.year e.year).then
        ((Ord.compare d.month e.month).then (Ord.compare d.day e.day)) := by
  obtain ⟨low, high⟩ := dayOfYear_bounds left
  obtain ⟨low', high'⟩ := dayOfYear_bounds right
  rw [dayNumber_eq, dayNumber_eq]
  refine compare_then ?_ ?_ ?_
  · intro less
    have ended := daysBeforeYear_add_le less
    omega
  · intro less
    have ended := daysBeforeYear_add_le less
    omega
  · intro same
    rw [← compare_dayOfYear left right same, same]
    exact compare_congr (by omega) (by omega) (by omega)

end Date

/-! ## Instants -/

/-- Hour, minute and second of a time of day; the second `60` is a leap second. -/
structure OnClock (hour minute s : Nat) : Prop where
  hour_lt : hour < 24
  minute_lt : minute < 60
  s_le : s ≤ 60

namespace Instant

variable {t u : Instant}

/-- The second and the nanoseconds of an instant in one number. -/
def place (t : Instant) : Int := t.second * (2 * nanosPerSecond : Nat) + t.nano

theorem compare_eq_place (t u : Instant) : t.compare u = Ord.compare t.place u.place := by
  have pair : t.compare u =
      (Ord.compare t.second u.second).then (Ord.compare t.nano u.nano) := by
    unfold compare
    cases Ord.compare t.second u.second <;> rfl
  have nano := t.nano_lt
  have nano' := u.nano_lt
  rw [pair, eq_comm]
  -- A leap second has less than two seconds of nanoseconds, so no second reaches into the next.
  simp only [place, nanosPerSecond] at nano nano' ⊢
  exact compare_then (by omega) (by omega) fun same =>
    compare_congr (by omega) (by omega) (by omega)

theorem ofCivil?_eq_some_iff {date : Date} {hour minute s nano : Nat} {offset : Int} :
    ofCivil? date hour minute s nano offset = some t ↔
      (date.isValid = true ∧ OnClock hour minute s ∧ nano < nanosPerSecond) ∧
        t.second = date.dayNumber * 86400 + hour * 3600 + minute * 60 - offset + (min s 59 : Nat) ∧
        t.nano = s / 60 * nanosPerSecond + nano := by
  have accepted : (date.isValid && hour < 24 && minute < 60 && s ≤ 60 && nano < nanosPerSecond) =
      true ↔ date.isValid = true ∧ OnClock hour minute s ∧ nano < nanosPerSecond := by
    simp only [Bool.and_eq_true, decide_eq_true_eq, and_assoc]
    exact ⟨fun ⟨valid, h, m, s, n⟩ => ⟨valid, ⟨h, m, s⟩, n⟩,
      fun ⟨valid, ⟨h, m, s⟩, n⟩ => ⟨valid, h, m, s, n⟩⟩
  unfold ofCivil?
  split
  · rename_i given
    rw [accepted] at given
    have s_le := given.2.1.s_le
    simp only [given, true_and]
    split
    · rename_i leap
      subst leap
      simp [of?_eq_some_iff]
    · rename_i plain
      have small : min s 59 = s := by omega
      have none : s / 60 = 0 := by omega
      simp [of?_eq_some_iff, small, none]
  · rename_i refused
    rw [accepted] at refused
    simp only [refused, false_and, reduceCtorEq]

/-- **Instants are in the order of their dates and times of day.** -/
theorem compare_ofCivil? {d e : Date} {hour hour' minute minute' s s' : Nat}
    (left : ofCivil? d hour minute s 0 0 = some t)
    (right : ofCivil? e hour' minute' s' 0 0 = some u) :
    t.compare u =
      (Ord.compare d.year e.year).then ((Ord.compare d.month e.month).then
        ((Ord.compare d.day e.day).then ((Ord.compare hour hour').then
          ((Ord.compare minute minute').then (Ord.compare s s'))))) := by
  obtain ⟨⟨valid, clock, -⟩, second, nano⟩ := ofCivil?_eq_some_iff.mp left
  obtain ⟨⟨valid', clock', -⟩, second', nano'⟩ := ofCivil?_eq_some_iff.mp right
  obtain ⟨hour_lt, minute_lt, s_le⟩ := clock
  obtain ⟨hour_lt', minute_lt', s_le'⟩ := clock'
  have places : Ord.compare t.place u.place =
      (Ord.compare d.dayNumber e.dayNumber).then ((Ord.compare hour hour').then
        ((Ord.compare minute minute').then (Ord.compare s s'))) := by
    simp only [place, second, second', nano, nano', nanosPerSecond]
    refine compare_then (by omega) (by omega) fun day => ?_
    refine compare_then (by omega) (by omega) fun hours => ?_
    refine compare_then (by omega) (by omega) fun minutes => ?_
    exact compare_congr (by omega) (by omega) (by omega)
  rw [compare_eq_place, places, Date.compare_dayNumber valid valid', Ordering.then_assoc,
    Ordering.then_assoc]

end Instant

end RowFilter.Time
