import RowFilter.Number.Decimal
import Mathlib.Algebra.Order.Field.Rat
import Mathlib.Algebra.Order.Field.Power
import Mathlib.Order.Compare
import Mathlib.Tactic.Positivity

/-!
# Proofs.DecimalOrder — decimals as rational numbers

`toRat` is the number that a decimal stands for.  The order of decimals, which never writes out a
large power of ten, is the order of these numbers (`compare_eq_cmp`), and two decimals are the same
exactly when they stand for one number (`same_iff`).
-/

namespace RowFilter.Decimal

set_option autoImplicit false

open RowFilter.Text

/-- The number that the decimal stands for. -/
def toRat (d : Decimal) : ℚ := d.digits * (10 : ℚ) ^ (-d.scale.toInt)

theorem ten_zpow_pos (e : Int) : (0 : ℚ) < (10 : ℚ) ^ e := zpow_pos (by norm_num) e

theorem natCast_pow_ten {e : Int} (nonneg : 0 ≤ e) :
    ((Nat.pow 10 e.toNat : Nat) : ℚ) = 10 ^ e := by
  have exponent : e = (e.toNat : Int) := by omega
  rw [exponent, zpow_natCast]
  exact Nat.cast_pow 10 _

/-! ## Magnitudes -/

section Magnitude

variable {m n : Nat} {s t : Int}

theorem lt_pow_digitCount (m : Nat) : m < 10 ^ digitCount m := by
  unfold digitCount
  split
  · omega
  · exact (Nat.length_toDigits_le_iff (by decide) Nat.length_toDigits_pos).mp (Nat.le_refl _)

theorem pow_digitCount_le (pos : 0 < m) : 10 ^ (digitCount m - 1) ≤ m := by
  have count : digitCount m = (Nat.toDigits 10 m).length := if_neg (by omega)
  rw [count]
  by_contra less
  by_cases single : (Nat.toDigits 10 m).length = 1
  · rw [single] at less
    omega
  · have many : 0 < (Nat.toDigits 10 m).length := Nat.length_toDigits_pos
    have shorter := (Nat.length_toDigits_le_iff (by decide) (by omega)).mpr (Nat.lt_of_not_le less)
    omega

theorem digitCount_pos (pos : 0 < m) : 0 < digitCount m := by
  rw [digitCount, if_neg (by omega)]
  exact Nat.length_toDigits_pos

theorem magnitude_lt (m : Nat) (s : Int) :
    (m : ℚ) * 10 ^ (-s) < 10 ^ ((digitCount m : Int) - s) := by
  have less : (m : ℚ) < 10 ^ (digitCount m : Int) := by
    rw [zpow_natCast]
    exact_mod_cast lt_pow_digitCount m
  calc (m : ℚ) * 10 ^ (-s) < 10 ^ (digitCount m : Int) * 10 ^ (-s) :=
        mul_lt_mul_of_pos_right less (ten_zpow_pos _)
    _ = 10 ^ ((digitCount m : Int) - s) := by
        rw [← zpow_add₀ (by norm_num), sub_eq_add_neg]

theorem le_magnitude (pos : 0 < m) (s : Int) :
    (10 : ℚ) ^ ((digitCount m : Int) - s - 1) ≤ m * 10 ^ (-s) := by
  have count := digitCount_pos pos
  have le : (10 : ℚ) ^ ((digitCount m - 1 : Nat) : Int) ≤ m := by
    rw [zpow_natCast]
    exact_mod_cast pow_digitCount_le pos
  calc (10 : ℚ) ^ ((digitCount m : Int) - s - 1)
      = 10 ^ ((digitCount m - 1 : Nat) : Int) * 10 ^ (-s) := by
        rw [← zpow_add₀ (by norm_num)]
        congr 1
        omega
    _ ≤ m * 10 ^ (-s) := mul_le_mul_of_nonneg_right le (ten_zpow_pos _).le

/-- A leading digit in a lower place makes the number smaller. -/
theorem magnitude_lt_of_place (pos : 0 < n)
    (place : (digitCount m : Int) - s < (digitCount n : Int) - t) :
    (m : ℚ) * 10 ^ (-s) < n * 10 ^ (-t) :=
  calc (m : ℚ) * 10 ^ (-s) < 10 ^ ((digitCount m : Int) - s) := magnitude_lt m s
    _ ≤ 10 ^ ((digitCount n : Int) - t - 1) := zpow_le_zpow_right₀ (by norm_num) (by omega)
    _ ≤ n * 10 ^ (-t) := le_magnitude pos t

theorem lined_up (m : Nat) (s t : Int) :
    ((m * Nat.pow 10 (t - s).toNat : Nat) : ℚ) = m * 10 ^ (-s) * 10 ^ (max s t) := by
  have power : ((Nat.pow 10 (t - s).toNat : Nat) : ℚ) = 10 ^ (-s) * 10 ^ (max s t) := by
    rw [← zpow_add₀ (by norm_num)]
    have exponent : -s + max s t = ((t - s).toNat : Int) := by omega
    rw [exponent, zpow_natCast]
    exact Nat.cast_pow 10 _
  rw [Nat.cast_mul, power, mul_assoc]

theorem compareMagnitude_eq_cmp (posm : 0 < m) (posn : 0 < n) :
    compareMagnitude m s n t = cmp ((m : ℚ) * 10 ^ (-s)) (n * 10 ^ (-t)) := by
  have place := cmp_compares ((digitCount m : Int) - s) ((digitCount n : Int) - t)
  rw [cmp_eq_compare] at place
  unfold compareMagnitude
  cases ho : Ord.compare ((digitCount m : Int) - s) ((digitCount n : Int) - t) with
  | lt =>
      rw [ho] at place
      exact (magnitude_lt_of_place posn place).cmp_eq_lt.symm
  | eq =>
      calc Ord.compare (m * Nat.pow 10 (t - s).toNat) (n * Nat.pow 10 (s - t).toNat)
          = cmp (m * Nat.pow 10 (t - s).toNat) (n * Nat.pow 10 (s - t).toNat) :=
            (cmp_eq_compare _ _).symm
        _ = cmp ((m * Nat.pow 10 (t - s).toNat : Nat) : ℚ) (n * Nat.pow 10 (s - t).toNat : Nat) :=
            (Nat.strictMono_cast.cmp_map_eq _ _).symm
        _ = cmp ((m : ℚ) * 10 ^ (-s) * 10 ^ max s t) (n * 10 ^ (-t) * 10 ^ max s t) := by
            rw [lined_up m s t, lined_up n t s, max_comm t s]
        _ = cmp ((m : ℚ) * 10 ^ (-s)) (n * 10 ^ (-t)) := cmp_mul_pos_right (ten_zpow_pos _) _ _
  | gt =>
      rw [ho] at place
      exact (magnitude_lt_of_place posm place).cmp_eq_gt.symm

end Magnitude

/-! ## Numbers -/

section Sign

variable {d : Decimal}

theorem toRat_pos (h : 0 < d.digits) : 0 < d.toRat :=
  mul_pos (by exact_mod_cast h) (ten_zpow_pos _)

theorem toRat_neg (h : d.digits < 0) : d.toRat < 0 :=
  mul_neg_of_neg_of_pos (by exact_mod_cast h) (ten_zpow_pos _)

theorem toRat_zero (h : d.digits = 0) : d.toRat = 0 := by
  rw [toRat, h, Int.cast_zero, zero_mul]

theorem toRat_of_pos (h : 0 < d.digits) :
    d.toRat = (d.digits.natAbs : ℚ) * 10 ^ (-d.scale.toInt) := by
  have same : (d.digits.natAbs : Int) = d.digits := by omega
  rw [toRat, ← Int.cast_natCast, same]

theorem toRat_of_neg (h : d.digits < 0) :
    d.toRat = -((d.digits.natAbs : ℚ) * 10 ^ (-d.scale.toInt)) := by
  have same : (d.digits.natAbs : Int) = -d.digits := by omega
  rw [toRat, ← Int.cast_natCast, same, Int.cast_neg, neg_mul, neg_neg]

end Sign

theorem toRat_lt_of_sign {a b : Decimal} (h : a.digits.sign < b.digits.sign) :
    a.toRat < b.toRat := by
  rcases lt_trichotomy a.digits 0 with nega | zeroa | posa
  · rcases lt_trichotomy b.digits 0 with negb | zerob | posb
    · rw [Int.sign_eq_neg_one_of_neg nega, Int.sign_eq_neg_one_of_neg negb] at h
      exact absurd h (lt_irrefl _)
    · exact (toRat_neg nega).trans_eq (toRat_zero zerob).symm
    · exact (toRat_neg nega).trans (toRat_pos posb)
  · rw [zeroa, Int.sign_zero, Int.sign_pos_iff] at h
    exact (toRat_zero zeroa).trans_lt (toRat_pos h)
  · rw [Int.sign_eq_one_of_pos posa] at h
    rcases Int.sign_trichotomy b.digits with sign | sign | sign <;> omega

theorem compareMagnitude_of_pos {a b : Decimal} (posa : 0 < a.digits) (posb : 0 < b.digits) :
    compareMagnitude a.digits.natAbs a.scale.toInt b.digits.natAbs b.scale.toInt
      = cmp a.toRat b.toRat := by
  rw [toRat_of_pos posa, toRat_of_pos posb]
  exact compareMagnitude_eq_cmp (by omega) (by omega)

/-- Of two numbers below zero, the one with the larger magnitude is the smaller. -/
theorem compareMagnitude_of_neg {a b : Decimal} (nega : a.digits < 0) (negb : b.digits < 0) :
    compareMagnitude b.digits.natAbs b.scale.toInt a.digits.natAbs a.scale.toInt
      = cmp a.toRat b.toRat := by
  have falling : StrictAnti (fun x : ℚ => -x) := fun _ _ less => neg_lt_neg less
  rw [toRat_of_neg nega, toRat_of_neg negb, falling.cmp_map_eq]
  exact compareMagnitude_eq_cmp (by omega) (by omega)

/-- The order of decimals is that of the numbers they stand for. -/
theorem compare_eq_cmp (a b : Decimal) : a.compare b = cmp a.toRat b.toRat := by
  have signs := cmp_compares a.digits.sign b.digits.sign
  rw [cmp_eq_compare] at signs
  unfold compare
  cases ho : Ord.compare a.digits.sign b.digits.sign with
  | lt =>
      rw [ho] at signs
      exact (toRat_lt_of_sign signs).cmp_eq_lt.symm
  | eq =>
      rw [ho] at signs
      have sign : a.digits.sign = b.digits.sign := signs
      rcases lt_trichotomy a.digits 0 with nega | zeroa | posa
      · have negb : b.digits < 0 := by
          rw [Int.sign_eq_neg_one_of_neg nega] at sign
          exact Int.sign_eq_neg_one_iff_neg.mp sign.symm
        rw [← compareMagnitude_of_neg nega negb]
        exact (if_neg nega.ne).trans (if_neg nega.asymm)
      · have zerob : b.digits = 0 := by
          rw [zeroa, Int.sign_zero] at sign
          exact Int.sign_eq_zero_iff_zero.mp sign.symm
        rw [toRat_zero zeroa, toRat_zero zerob, cmp_self_eq_eq]
        exact if_pos zeroa
      · have posb : 0 < b.digits := by
          rw [Int.sign_eq_one_of_pos posa] at sign
          exact Int.sign_eq_one_iff_pos.mp sign.symm
        rw [← compareMagnitude_of_pos posa posb]
        exact (if_neg posa.ne').trans (if_pos posa)
  | gt =>
      rw [ho] at signs
      exact (toRat_lt_of_sign signs).cmp_eq_gt.symm

theorem same_iff {a b : Decimal} : a.same b = true ↔ a.toRat = b.toRat := by
  rw [same, compare_eq_cmp, beq_iff_eq, cmp_eq_eq_iff]

end RowFilter.Decimal
