import RowFilter.Proofs.NearestDouble

/-!
# Proofs.LongsAndDoubles — integers and longs compared with doubles

A long is rounded to a double before it is compared with one.  Rounding keeps the order, so a
comparison that is strict is right about the long itself, and two that come out equal are those where
the double is the long rounded.  An integer, and a long of at most 53 bits, is not changed by rounding
and is compared as it is (`whole_against_double`).
-/

namespace RowFilter

set_option autoImplicit false

namespace Double

open Place (number high)

/-- The place of a double itself: its number, or beyond all numbers. -/
def ownPlace (d : Double) : Place :=
  if d.isFinite then number d.toRat else if d.isNegative then ⊥ else high

section OwnPlace

variable {d e : Double}

theorem stands_ownPlace (real : d.isNaN = false) : Stands d.ownPlace d.key := by
  unfold ownPlace
  by_cases finite : d.isFinite = true
  · rw [if_pos finite]
    exact .number (roundsTo_toRat finite)
  · rw [if_neg finite]
    exact stands_of_infinite real (Bool.not_eq_true _ ▸ finite)

theorem ownPlace_eq_of_key_eq (same : d.key = e.key) : d.ownPlace = e.ownPlace := by
  have magnitude : d.magnitude = e.magnitude := by rw [← natAbs_key, ← natAbs_key, same]
  simp only [ownPlace, isFinite, magnitude, toRat_eq_of_key_eq same]
  by_cases finite : e.magnitude < infinite
  · simp only [finite, decide_true, if_true]
  · have sign : d.isNegative = e.isNegative := by
      have pos : 0 < infinite := by decide
      simp only [key, magnitude] at same
      cases left : d.isNegative <;> cases right : e.isNegative <;>
        simp only [left, right, if_true, Bool.false_eq_true, if_false] at same ⊢ <;> omega
    simp only [sign, finite, decide_false, Bool.false_eq_true, if_false]

/-- **Doubles are in the order of their places**, unless one of them is NaN. -/
theorem cmp_ownPlace (real : d.isNaN = false) (real' : e.isNaN = false) :
    cmp d.ownPlace e.ownPlace = cmp d.key e.key := by
  have left := stands_ownPlace real
  have right := stands_ownPlace real'
  rcases lt_trichotomy d.key e.key with less | same | greater
  · have lower : d.ownPlace < e.ownPlace := by
      by_contra le
      exact absurd (right.mono left (not_lt.mp le)) less.not_ge
    rw [less.cmp_eq_lt, lower.cmp_eq_lt]
  · rw [same, ownPlace_eq_of_key_eq same, cmp_self_eq_eq, cmp_self_eq_eq]
  · have higher : e.ownPlace < d.ownPlace := by
      by_contra le
      exact absurd (left.mono right (not_lt.mp le)) greater.not_ge
    rw [greater.cmp_eq_gt, higher.cmp_eq_gt]

end OwnPlace

section Integers

variable {n : Int} {d : Double}

theorem isNaN_ofInt (small : n.natAbs ≤ signBit) : (ofInt n).isNaN = false := by
  have finite := lt_infinite_of_isFinite (isFinite_ofInt small)
  exact decide_eq_false finite.le.not_gt

/-- The double that an integer is rounded to is in one place with exactly the nearest doubles. -/
theorem key_ofInt_eq_iff (small : n.natAbs ≤ signBit) : (ofInt n).key = d.key ↔ d.NearestTo n := by
  have nearest := nearestTo_ofInt small
  constructor
  · exact nearest.of_key_eq
  · intro h
    exact (key_eq_iff nearest.finite h.finite).mpr (nearest.toRat_eq h)

theorem ownPlace_ofInt (narrow : n.natAbs ≤ 2 * fractions) : (ofInt n).ownPlace = number n := by
  have small : n.natAbs ≤ signBit := narrow.trans (by decide)
  rw [ownPlace, if_pos (isFinite_ofInt small), toRat_ofInt narrow]

end Integers

end Double

namespace Value

open Place (number)

/-- The number of an integer or a long. -/
def whole? : Value → Option Int
  | integer n => some n.toInt
  | long n => some n.toInt
  | _ => none

section Whole

variable {v : Value} {n : Int} {d : Double}

theorem natAbs_le_of_whole (h : v.whole? = some n) : n.natAbs ≤ Double.signBit := by
  simp only [Double.signBit]
  cases v with
  | integer m =>
      cases h
      have low := Int32.le_toInt m
      have high := Int32.toInt_lt m
      omega
  | long m =>
      cases h
      have low := Int64.le_toInt m
      have high := Int64.toInt_lt m
      omega
  | _ => cases h

theorem natAbs_le_of_integer (h : v.whole? = some n) (integer : v.type = .integer) :
    n.natAbs ≤ 2 * Double.fractions := by
  simp only [Double.fractions]
  cases v with
  | integer m =>
      cases h
      have low := Int32.le_toInt m
      have high := Int32.toInt_lt m
      omega
  | long m => cases integer
  | _ => cases h

/-- An integer or a long is compared with a double as the double made of it. -/
theorem standing_of_whole (h : v.whole? = some n) (real : d.isNaN = false) :
    Cell.standing (.of v) (.of (.double d)) = .ok (.ordered (cmp (Double.ofInt n).key d.key)) := by
  have rounded := Double.isNaN_ofInt (natAbs_le_of_whole h)
  have order : (Double.ofInt n).compare? d = some (cmp (Double.ofInt n).key d.key) := by
    rw [Double.compare?, rounded, real, cmp_eq_compare]
    rfl
  have read : Cell.standingBy Cell.readDouble Double.compare? (.of v) (.of (.double d)) =
      .ok (.ofOption ((Double.ofInt n).compare? d)) := by
    cases v <;> cases h <;> rfl
  rw [order] at read
  cases v <;> cases h <;> exact read

theorem compare_of_whole (h : v.whole? = some n) (real : d.isNaN = false) (c : Comparator) :
    Cell.compare c (.of v) (.of (.double d)) =
      .ok (decide (c.Relates (Double.ofInt n).ownPlace d.ownPlace)) := by
  have full : (Cell.of v).isNull = false := by
    cases v <;> first | rfl | cases h
  have rounded := Double.isNaN_ofInt (natAbs_le_of_whole h)
  have holds : c.holds (some (cmp (Double.ofInt n).key d.key)) =
      decide (c.Relates (Double.ofInt n).ownPlace d.ownPlace) := by
    rw [← Double.cmp_ownPlace rounded real, Bool.eq_iff_iff, c.holds_cmp_iff, decide_eq_true_iff]
  rw [Cell.compare, Cell.compareFor_full full rfl, standing_of_whole h real]
  exact congrArg Except.ok holds

theorem number_lt_of_less (h : v.whole? = some n) (real : d.isNaN = false)
    (less : Cell.compare .lessThan (.of v) (.of (.double d)) = .ok true) : number n < d.ownPlace := by
  rw [compare_of_whole h real, Except.ok.injEq, decide_eq_true_iff] at less
  have rounded := Double.isNaN_ofInt (natAbs_le_of_whole h)
  rw [Comparator.Relates, ← cmp_eq_lt_iff, Double.cmp_ownPlace rounded real, cmp_eq_lt_iff] at less
  by_contra le
  have mono := (Double.stands_ownPlace real).mono (.number (Double.roundsTo_ofInt n)) (not_lt.mp le)
  exact absurd mono less.not_ge

theorem lt_number_of_greater (h : v.whole? = some n) (real : d.isNaN = false)
    (greater : Cell.compare .greaterThan (.of v) (.of (.double d)) = .ok true) :
    d.ownPlace < number n := by
  rw [compare_of_whole h real, Except.ok.injEq, decide_eq_true_iff] at greater
  have rounded := Double.isNaN_ofInt (natAbs_le_of_whole h)
  rw [Comparator.Relates, ← cmp_eq_lt_iff, Double.cmp_ownPlace real rounded, cmp_eq_lt_iff] at greater
  by_contra le
  have mono := Double.Stands.mono (.number (Double.roundsTo_ofInt n)) (Double.stands_ownPlace real)
    (not_lt.mp le)
  exact absurd mono greater.not_ge

theorem equals_iff_nearestTo (h : v.whole? = some n) (real : d.isNaN = false) :
    Cell.compare .equals (.of v) (.of (.double d)) = .ok true ↔ d.NearestTo n := by
  have small := natAbs_le_of_whole h
  rw [compare_of_whole h real, Except.ok.injEq, decide_eq_true_iff, Comparator.Relates,
    ← cmp_eq_eq_iff, Double.cmp_ownPlace (Double.isNaN_ofInt small) real, cmp_eq_eq_iff,
    Double.key_ofInt_eq_iff small]

/-- A number that is not rounded to the double is on the side of it that the comparison says. -/
theorem compare_of_not_nearest (h : v.whole? = some n) (real : d.isNaN = false)
    (apart : ¬ d.NearestTo n) (c : Comparator) :
    Cell.compare c (.of v) (.of (.double d)) = .ok (decide (c.Relates (number n) d.ownPlace)) := by
  have less := number_lt_of_less h real
  have greater := lt_number_of_greater h real
  rw [← equals_iff_nearestTo h real] at apart
  rw [compare_of_whole h real, Except.ok.injEq, decide_eq_true_iff] at less greater apart
  have same : cmp (Double.ofInt n).ownPlace d.ownPlace = cmp (number n) d.ownPlace := by
    rcases lt_trichotomy (Double.ofInt n).ownPlace d.ownPlace with lt | eq | gt
    · rw [lt.cmp_eq_lt, (less lt).cmp_eq_lt]
    · exact absurd eq apart
    · rw [gt.cmp_eq_gt, (greater gt).cmp_eq_gt]
  rw [compare_of_whole h real, Except.ok.injEq, Bool.eq_iff_iff, decide_eq_true_iff,
    decide_eq_true_iff, ← c.holds_cmp_iff, ← c.holds_cmp_iff, same]

/-- **An integer or a long against a double is right whenever it is strict.**  It can always be
compared unless the double is NaN; it is equal to those doubles that it is rounded to, and beside all
others it stands as its number does.  Integers, and longs up to 2^53, stand so beside every double. -/
theorem whole_against_double (h : v.whole? = some n) (real : d.isNaN = false) :
    (∀ c, ∃ b, Cell.compare c (.of v) (.of (.double d)) = .ok b) ∧
      (Cell.compare .lessThan (.of v) (.of (.double d)) = .ok true → number n < d.ownPlace) ∧
      (Cell.compare .greaterThan (.of v) (.of (.double d)) = .ok true → d.ownPlace < number n) ∧
      (Cell.compare .equals (.of v) (.of (.double d)) = .ok true ↔ d.NearestTo n) ∧
      (¬ d.NearestTo n ∨ v.type = .integer ∨ n.natAbs ≤ 2 * Double.fractions →
        ∀ c, Cell.compare c (.of v) (.of (.double d)) =
          .ok (decide (c.Relates (number n) d.ownPlace))) := by
  refine ⟨fun c => ⟨_, compare_of_whole h real c⟩, number_lt_of_less h real,
    lt_number_of_greater h real, equals_iff_nearestTo h real, fun exact c => ?_⟩
  rcases exact with apart | exact
  · exact compare_of_not_nearest h real apart c
  · have narrow : n.natAbs ≤ 2 * Double.fractions :=
      exact.elim (natAbs_le_of_integer h) id
    rw [compare_of_whole h real, Double.ownPlace_ofInt narrow]

/-- 2^53 + 1 is midway between two doubles: rounded to the lower one, and less than the upper one. -/
theorem oddLong_equals_lower :
    (long 9007199254740993).whole? = some 9007199254740993 ∧
      Double.isNaN ⟨0x4340000000000000⟩ = false ∧ Double.isNaN ⟨0x4340000000000001⟩ = false ∧
      Double.NearestTo ⟨0x4340000000000000⟩ (9007199254740993 : Int) ∧
      number (9007199254740993 : Int) < Double.ownPlace ⟨0x4340000000000001⟩ := by
  have whole : (long 9007199254740993).whole? = some 9007199254740993 := rfl
  have lower : Double.isNaN ⟨0x4340000000000000⟩ = false := rfl
  have upper : Double.isNaN ⟨0x4340000000000001⟩ = false := rfl
  have equal : Cell.compare .equals (.of (long 9007199254740993)) (.of (.double ⟨0x4340000000000000⟩)) =
      .ok true := by
    decide +kernel
  have less : Cell.compare .lessThan (.of (long 9007199254740993)) (.of (.double ⟨0x4340000000000001⟩)) =
      .ok true := by
    decide +kernel
  obtain ⟨-, -, -, nearest, -⟩ := whole_against_double whole lower
  obtain ⟨-, below, -, -, -⟩ := whole_against_double whole upper
  exact ⟨whole, lower, upper, nearest.mp equal, below less⟩

end Whole

end Value

end RowFilter
