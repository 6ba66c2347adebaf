import RowFilter.Proofs.Comparison
import RowFilter.Proofs.DecimalOrder

/-!
# Proofs.OneType — comparing values of one type

Two values of one type are compared as they are, in the order of their type, and that never fails
(`compareFor_of_fits`).  Nulls and booleans satisfy no comparator, and a NaN only `notEquals`.
-/

namespace RowFilter

set_option autoImplicit false

namespace Value

theorem isNull_eq_false_iff {v : Value} : v.isNull = false ↔ v ≠ null := by
  rw [← Bool.not_eq_true, isNull_iff]

/-- Where two values of one type stand in its order: numbers by what they denote, texts by their
characters, and instants by time.  A NaN stands nowhere. -/
def order? : Value → Value → Option Ordering
  | integer a, integer b => some (Ord.compare a.toInt b.toInt)
  | long a, long b => some (Ord.compare a.toInt b.toInt)
  | double a, double b => a.compare? b
  | decimal a, decimal b => some (cmp a.toRat b.toRat)
  | string a, string b => some (Ord.compare a b)
  | timestamp a, timestamp b => some (a.compare b)
  | _, _ => none

/-- Neither value is null, they can be ordered, and the comparator holds of their order. -/
structure Satisfies (comparator : Comparator) (v w : Value) : Prop where
  left : v ≠ null
  right : w ≠ null
  ordered : v.type ≠ .boolean
  holds : comparator.holds (v.order? w) = true

theorem satisfies_nan_iff (comparator : Comparator) {x y : Double}
    (nan : x.isNaN = true ∨ y.isNaN = true) :
    Satisfies comparator (double x) (double y) ↔ comparator = .notEquals := by
  have unordered : (double x).order? (double y) = none := (Double.compare?_eq_none_iff x y).mpr nan
  constructor
  · rintro ⟨-, -, -, holds⟩
    rw [unordered] at holds
    cases comparator <;> first | rfl | cases holds
  · rintro rfl
    exact ⟨nofun, nofun, nofun, by rw [unordered]; rfl⟩

end Value

namespace Cell

theorem satisfies_ofOption (comparator : Comparator) (o : Option Ordering) :
    (Standing.ofOption o).satisfies comparator = comparator.holds o := by
  cases o <;> rfl

/-- Values of one type are read as they are. -/
theorem standing_of_type {v w : Value} (same : w.type = v.type) (full : v ≠ .null)
    (ordered : v.type ≠ .boolean) :
    standing ⟨v.type, v⟩ ⟨v.type, w⟩ = .ok (.ofOption (v.order? w)) := by
  cases v with
  | null => exact absurd rfl full
  | boolean => exact absurd rfl ordered
  | decimal x =>
      cases w <;> cases same
      rw [Value.order?, ← Decimal.compare_eq_cmp]
      rfl
  | _ =>
      cases w <;> cases same
      rfl

/-- Cells of one type compare, as their values do. -/
theorem compareFor_of_fits (kind : Kind) (comparator : Comparator) {t : ColumnType} {v w : Value}
    (left : v.fits t = true) (right : w.fits t = true) :
    ∃ b, compareFor kind comparator ⟨t, v⟩ ⟨t, w⟩ = .ok b ∧
      (b = true ↔ v.Satisfies comparator w) := by
  by_cases fullv : v = .null
  · subst fullv
    exact ⟨false, rfl, nofun, fun h => absurd rfl h.left⟩
  by_cases fullw : w = .null
  · subst fullw
    refine ⟨false, ?_, nofun, fun h => absurd rfl h.right⟩
    rw [compareFor, show isNull ⟨t, .null⟩ = true from rfl, Bool.or_true, if_pos rfl]
  obtain rfl := (Value.fits_iff.mp left).resolve_left fullv
  have same := (Value.fits_iff.mp right).resolve_left fullw
  simp only [compareFor, isNull, Value.isNull_eq_false_iff.mpr fullv,
    Value.isNull_eq_false_iff.mpr fullw, Bool.or_self, Bool.false_eq_true, if_false]
  by_cases ordered : v.type = .boolean
  · refine ⟨false, ?_, nofun, fun h => absurd ordered h.ordered⟩
    rw [ordered]
    rfl
  · rw [standing_of_type same fullv ordered]
    refine ⟨comparator.holds (v.order? w), ?_, ?_⟩
    · rw [← satisfies_ofOption]
    · exact ⟨fun holds => ⟨fullv, fullw, ordered, holds⟩, fun h => h.holds⟩

end Cell

end RowFilter
