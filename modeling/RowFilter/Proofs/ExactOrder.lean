import RowFilter.Proofs.Comparison

/-!
# Proofs.ExactOrder — integers, longs and decimals in one order

These three types are compared in three frames, but each frame reads a number as it is.  So a
comparison of such values is that of the numbers they stand for, and the layout of a decimal does not
matter (`exact_comparison`).
-/

namespace RowFilter

set_option autoImplicit false

namespace Comparator

section

variable {α : Type} [LinearOrder α]

/-- The relation that the comparator asks for. -/
def Relates : Comparator → α → α → Prop
  | equals, x, y => x = y
  | notEquals, x, y => x ≠ y
  | greaterThan, x, y => y < x
  | greaterThanEquals, x, y => y ≤ x
  | lessThan, x, y => x < y
  | lessThanEquals, x, y => x ≤ y

instance : (c : Comparator) → (x y : α) → Decidable (c.Relates x y)
  | equals, x, y => inferInstanceAs (Decidable (x = y))
  | notEquals, x, y => inferInstanceAs (Decidable (x ≠ y))
  | greaterThan, x, y => inferInstanceAs (Decidable (y < x))
  | greaterThanEquals, x, y => inferInstanceAs (Decidable (y ≤ x))
  | lessThan, x, y => inferInstanceAs (Decidable (x < y))
  | lessThanEquals, x, y => inferInstanceAs (Decidable (x ≤ y))

theorem holds_cmp_iff (c : Comparator) (x y : α) : c.holds (some (cmp x y)) = true ↔ c.Relates x y := by
  rcases lt_trichotomy x y with less | rfl | greater
  · rw [less.cmp_eq_lt]
    cases c <;> simp [holds, Relates, less, less.le, less.ne, less.not_gt, less.not_ge]
  · rw [cmp_self_eq_eq]
    cases c <;> simp [holds, Relates]
  · rw [greater.cmp_eq_gt]
    cases c <;> simp [holds, Relates, greater, greater.le, greater.ne', greater.not_gt, greater.not_ge]

end

end Comparator

namespace Value

/-- The number that an integer, a long or a decimal stands for. -/
def rational? : Value → Option ℚ
  | integer n => some n.toInt
  | long n => some n.toInt
  | decimal d => some d.toRat
  | _ => none

end Value

namespace Cell

theorem compare_cast (m n : Int) : Ord.compare m n = cmp (m : ℚ) n := by
  rw [← cmp_eq_compare]
  exact (Int.cast_strictMono.cmp_map_eq m n).symm

theorem toRat_ofInt (n : Int) : (Decimal.ofInt n).toRat = n := by
  have unscaled : (0 : Int64).toInt = 0 := by decide
  rw [Decimal.ofInt, Decimal.toRat, unscaled, neg_zero, zpow_zero, mul_one]

section Frames

variable {l r : Cell}

theorem standing_of_integers {m n : Int32} (frame : ColumnType.frame l.type r.type = .integer)
    (hl : readInteger l = .ok m) (hr : readInteger r = .ok n) :
    standing l r = .ok (.ordered (cmp (m.toInt : ℚ) n.toInt)) := by
  have ordered : standing l r = .ok (.ordered (Ord.compare m.toInt n.toInt)) := by
    simp only [standing, frame]
    exact standingBy_eq_ok.mpr ⟨m, n, hl, hr, rfl⟩
  rw [ordered, compare_cast]

theorem standing_of_longs {m n : Int64} (frame : ColumnType.frame l.type r.type = .long)
    (hl : readLong l = .ok m) (hr : readLong r = .ok n) :
    standing l r = .ok (.ordered (cmp (m.toInt : ℚ) n.toInt)) := by
  have ordered : standing l r = .ok (.ordered (Ord.compare m.toInt n.toInt)) := by
    simp only [standing, frame]
    exact standingBy_eq_ok.mpr ⟨m, n, hl, hr, rfl⟩
  rw [ordered, compare_cast]

theorem standing_of_decimals {d e : Decimal} (frame : ColumnType.frame l.type r.type = .decimal)
    (hl : readDecimal l = .ok d) (hr : readDecimal r = .ok e) :
    standing l r = .ok (.ordered (cmp d.toRat e.toRat)) := by
  have ordered : standing l r = .ok (.ordered (d.compare e)) := by
    simp only [standing, frame]
    exact standingBy_eq_ok.mpr ⟨d, e, hl, hr, rfl⟩
  rw [ordered, Decimal.compare_eq_cmp]

end Frames

section Exact

variable {v w : Value} {x y : ℚ}

theorem type_of_exact (h : v.rational? = some x) :
    v.type = .integer ∨ v.type = .long ∨ v.type = .decimal := by
  cases v <;> simp_all [Value.rational?, Value.type]

theorem readInteger_of_exact (h : v.rational? = some x) (integer : v.type = .integer) :
    ∃ n, readInteger (of v) = .ok n ∧ (n.toInt : ℚ) = x := by
  cases v <;> cases integer
  cases h
  exact ⟨_, rfl, rfl⟩

theorem readLong_of_exact (h : v.rational? = some x) (narrow : v.type ≠ .decimal) :
    ∃ n, readLong (of v) = .ok n ∧ (n.toInt : ℚ) = x := by
  cases v with
  | integer n =>
      cases h
      exact ⟨n.toInt64, rfl, by rw [Int32.toInt_toInt64]⟩
  | long n =>
      cases h
      exact ⟨n, rfl, rfl⟩
  | decimal d => exact absurd rfl narrow
  | _ => cases h

theorem readDecimal_of_exact (h : v.rational? = some x) :
    ∃ d, readDecimal (of v) = .ok d ∧ d.toRat = x := by
  cases v with
  | integer n | long n =>
      cases h
      exact ⟨.ofInt n.toInt, rfl, toRat_ofInt _⟩
  | decimal d =>
      cases h
      exact ⟨d, rfl, rfl⟩
  | _ => cases h

/-- Two exact values are compared as integers, as longs or as decimals, the narrowest that has both. -/
theorem frame_of_exact (left : v.rational? = some x) (right : w.rational? = some y) :
    (ColumnType.frame v.type w.type = .integer ∧ v.type = .integer ∧ w.type = .integer) ∨
      (ColumnType.frame v.type w.type = .long ∧ v.type ≠ .decimal ∧ w.type ≠ .decimal) ∨
        ColumnType.frame v.type w.type = .decimal := by
  rcases type_of_exact left with hv | hv | hv <;> rcases type_of_exact right with hw | hw | hw <;>
    rw [hv, hw] <;> decide

theorem standing_of_exact (left : v.rational? = some x) (right : w.rational? = some y) :
    standing (of v) (of w) = .ok (.ordered (cmp x y)) := by
  rcases frame_of_exact left right with ⟨frame, hv, hw⟩ | ⟨frame, hv, hw⟩ | frame
  · obtain ⟨m, hm, rfl⟩ := readInteger_of_exact left hv
    obtain ⟨n, hn, rfl⟩ := readInteger_of_exact right hw
    exact standing_of_integers frame hm hn
  · obtain ⟨m, hm, rfl⟩ := readLong_of_exact left hv
    obtain ⟨n, hn, rfl⟩ := readLong_of_exact right hw
    exact standing_of_longs frame hm hn
  · obtain ⟨d, hd, rfl⟩ := readDecimal_of_exact left
    obtain ⟨e, he, rfl⟩ := readDecimal_of_exact right
    exact standing_of_decimals frame hd he

theorem isNull_of_exact (h : v.rational? = some x) : (of v).isNull = false := by
  cases v <;> first | rfl | cases h

end Exact

end Cell

namespace Value

/-- The first value is at most the second, by comparing them. -/
def AtMost (v w : Value) : Prop := Cell.compare .lessThanEquals (.of v) (.of w) = .ok true

section Exact

variable {v w : Value} {x y : ℚ}

theorem compare_of_exact (left : v.rational? = some x) (right : w.rational? = some y) (c : Comparator) :
    Cell.compare c (.of v) (.of w) = .ok (decide (c.Relates x y)) := by
  have holds : c.holds (some (cmp x y)) = decide (c.Relates x y) := by
    rw [Bool.eq_iff_iff, c.holds_cmp_iff, decide_eq_true_iff]
  rw [Cell.compare, Cell.compareFor_full (Cell.isNull_of_exact left) (Cell.isNull_of_exact right),
    Cell.standing_of_exact left right]
  exact congrArg Except.ok holds

theorem atMost_iff (left : v.rational? = some x) (right : w.rational? = some y) :
    v.AtMost w ↔ x ≤ y := by
  rw [AtMost, compare_of_exact left right, Except.ok.injEq, decide_eq_true_iff]
  rfl

/-- Zeros behind the digits and a scale that is larger by their number leave the number. -/
theorem toRat_rescaled (n : Int) {s t : Int64} {k : Nat} (scale : t.toInt = s.toInt + k) :
    Decimal.toRat ⟨n * 10 ^ k, t⟩ = Decimal.toRat ⟨n, s⟩ := by
  have power : ((10 : ℚ) ^ k) * 10 ^ (-t.toInt) = 10 ^ (-s.toInt) := by
    rw [← zpow_natCast, ← zpow_add₀ (by norm_num), scale]
    congr 1
    omega
  rw [Decimal.toRat, Decimal.toRat, Int.cast_mul, Int.cast_pow, mul_assoc]
  exact congrArg _ power

/-- **Integers, longs and decimals compare as the numbers they stand for**, in any mixture.  So to be
at most another is a total preorder of them, and decimals that differ only in their scale are equal. -/
theorem exact_comparison (left : v.rational? = some x) (right : w.rational? = some y) :
    (∀ c, Cell.compare c (.of v) (.of w) = .ok (decide (c.Relates x y))) ∧
      v.AtMost v ∧ (v.AtMost w ∨ w.AtMost v) ∧
      (∀ u z, u.rational? = some z → v.AtMost w → w.AtMost u → v.AtMost u) ∧
      ∀ (n : Int) (s t : Int64) (k : Nat), t.toInt = s.toInt + k →
        Cell.compare .equals (.of (.decimal ⟨n * 10 ^ k, t⟩)) (.of (.decimal ⟨n, s⟩)) = .ok true := by
  refine ⟨compare_of_exact left right, ?_, ?_, ?_, ?_⟩
  · exact (atMost_iff left left).mpr (le_refl x)
  · rw [atMost_iff left right, atMost_iff right left]
    exact le_total x y
  · intro u z third first second
    rw [atMost_iff left right] at first
    rw [atMost_iff right third] at second
    exact (atMost_iff left third).mpr (first.trans second)
  · intro n s t k scale
    rw [compare_of_exact rfl rfl, toRat_rescaled n scale]
    exact congrArg Except.ok (decide_eq_true rfl)

/-- The least long is above the decimal `-1e9223372036854775808`, which is not written out for it. -/
theorem deepDecimal_is_less :
    (long Int64.minValue).rational? = some (Int64.minValue.toInt : ℚ) ∧
      (decimal ⟨-1, Int64.minValue⟩).rational? = some (Decimal.toRat ⟨-1, Int64.minValue⟩) ∧
      Cell.compare .greaterThan (.of (.long Int64.minValue)) (.of (.decimal ⟨-1, Int64.minValue⟩)) =
        .ok true ∧
      Decimal.toRat ⟨-1, Int64.minValue⟩ < (Int64.minValue.toInt : ℚ) := by
  have less : Cell.compare .greaterThan (.of (.long Int64.minValue))
      (.of (.decimal ⟨-1, Int64.minValue⟩)) = .ok true := by rfl
  have decided := (exact_comparison (v := long Int64.minValue) (w := decimal ⟨-1, Int64.minValue⟩)
    rfl rfl).1 .greaterThan
  rw [less, Except.ok.injEq] at decided
  exact ⟨rfl, rfl, less, of_decide_eq_true decided.symm⟩

end Exact

end Value

end RowFilter
