import RowFilter.Proofs.DecimalOrder
import RowFilter.Proofs.Rounding
import Mathlib.Tactic.FieldSimp

/-!
# Proofs.ShortestDecimal — the shortest decimal of a double is rounded to it

`Rounds x m` says of a rational number that rounding makes `m` of it.  The search for the shortest
decimal keeps to this relation: what it finds is read back, and the exact expansion behind it is the
magnitude itself (`shortest_rounds`).  With signs, the decimal of a double and the double stand in
`RoundsTo` (`roundsTo_ofDouble?`), and so do an integer and the double made of it (`roundsTo_ofInt`).
The relation keeps the order (`RoundsTo.mono`).
-/

namespace RowFilter

set_option autoImplicit false

namespace Double

/-! ## Numbers and their magnitudes -/

/-- Rounding the number gives the magnitude. -/
def Rounds (x : ℚ) (magnitude : Nat) : Prop :=
  ∃ num den : Nat, 0 < den ∧ x = num / den ∧ nearest num den = magnitude

section Rounds

variable {x y : ℚ} {m n : Nat}

theorem Rounds.nonneg (h : Rounds x m) : 0 ≤ x := by
  obtain ⟨num, den, -, rfl, -⟩ := h
  positivity

theorem Rounds.le_infinite (h : Rounds x m) : m ≤ infinite := by
  obtain ⟨num, den, -, -, rfl⟩ := h
  exact Nat.min_le_left _ _

theorem Rounds.mono (hx : Rounds x m) (hy : Rounds y n) (le : x ≤ y) : m ≤ n := by
  obtain ⟨num, den, pos, rfl, rfl⟩ := hx
  obtain ⟨num', den', pos', rfl, rfl⟩ := hy
  apply nearest_mono pos pos'
  rw [div_le_div_iff₀ (by exact_mod_cast pos) (by exact_mod_cast pos')] at le
  exact_mod_cast le

theorem rounds_natCast (n : Nat) : Rounds n (nearest n 1) :=
  ⟨n, 1, Nat.one_pos, by simp, rfl⟩

theorem rounds_zero : Rounds 0 0 := by
  have exact : nearest 0 1 = 0 := nearest_of_units (by decide) Nat.one_pos (by simp [units])
  exact ⟨0, 1, Nat.one_pos, by simp, exact⟩

theorem Rounds.eq_zero (h : Rounds x m) (nonpos : x ≤ 0) : m = 0 :=
  Nat.le_zero.mp (h.mono rounds_zero nonpos)

end Rounds

/-! ## Decimals of a magnitude -/

section Decimal

variable {magnitude digits count : Nat} {e : Int}

/-- A decimal that is read as neither zero nor infinity is rounded to what it is read as. -/
theorem rounds_of_nearestDecimal (pos : 0 < magnitude) (finite : magnitude < infinite)
    (read : nearestDecimal digits count e = magnitude) : Rounds (digits * 10 ^ e) magnitude := by
  unfold nearestDecimal at read
  split at read
  · omega
  split at read
  · omega
  split at read
  · omega
  split at read
  · rename_i nonneg
    refine ⟨digits * Nat.pow 10 e.toNat, 1, Nat.one_pos, ?_, read⟩
    rw [Nat.cast_mul, Decimal.natCast_pow_ten nonneg, Nat.cast_one, div_one]
  · rename_i negative
    refine ⟨digits, Nat.pow 10 (-e).toNat, Nat.pow_pos (by decide), ?_, read⟩
    rw [Decimal.natCast_pow_ten (by omega), zpow_neg, div_inv_eq_mul]

/-- The digits read back as the magnitude, and the power of ten is not too small to be written out. -/
structure Reads (magnitude : Nat) (decimal : Nat × Int) : Prop where
  back : Rounds (decimal.1 * 10 ^ decimal.2) magnitude
  scale : -(unitExponent : Int) ≤ decimal.2

theorem reads_of_readsBack (pos : 0 < magnitude) (finite : magnitude < infinite)
    (back : readsBack magnitude digits e = true) (scale : -(lift : Int) ≤ e) :
    Reads magnitude (digits, e) where
  back := rounds_of_nearestDecimal pos finite (beq_iff_eq.mp back)
  scale := by
    simp only [lift, unitExponent] at scale ⊢
    omega

theorem reads_of_decimalOf? {scaled places : Nat} {decimal : Nat × Int} (pos : 0 < magnitude)
    (finite : magnitude < infinite) (found : decimalOf? magnitude scaled places count = some decimal) :
    Reads magnitude decimal := by
  simp only [decimalOf?] at found
  generalize dropped : places - count = k at found
  generalize hlower : scaled / Nat.pow 2 unitExponent / Nat.pow 10 k = lower at found
  generalize hupper : (if lower + 1 = Nat.pow 10 count then ((1 : Nat), (k : Int) - lift + count)
    else (lower + 1, (k : Int) - lift)) = upper at found
  have scale : -(lift : Int) ≤ upper.2 := by
    rw [← hupper]
    split <;> simp only <;> omega
  have low : readsBack magnitude lower (k - lift) = true → Reads magnitude (lower, k - lift) :=
    fun back => reads_of_readsBack pos finite back (by omega)
  have high : readsBack magnitude upper.1 upper.2 = true → Reads magnitude upper :=
    fun back => reads_of_readsBack pos finite back scale
  split at found
  · rename_i both
    rw [Bool.and_eq_true] at both
    split at found
    · cases found
      exact low both.1
    · cases found
      exact high both.2
  split at found
  · rename_i back
    cases found
    exact low back
  split at found
  · rename_i back
    cases found
    exact high back
  · cases found

/-- A unit is a power of five with as many digits behind the point. -/
theorem units_decimal (n k : Nat) :
    ((n * Nat.pow 5 k : Nat) : ℚ) * 10 ^ (-(k : Int)) = n / (Nat.pow 2 k : Nat) := by
  have five : ((Nat.pow 5 k : Nat) : ℚ) = 5 ^ k := Nat.cast_pow 5 k
  have two : ((Nat.pow 2 k : Nat) : ℚ) = 2 ^ k := Nat.cast_pow 2 k
  have ten : (10 : ℚ) ^ k = 2 ^ k * 5 ^ k := by
    rw [← mul_pow]
    norm_num
  rw [Nat.cast_mul, five, two, zpow_neg, zpow_natCast, ten]
  field_simp

/-- The exact expansion of a magnitude is no other number. -/
theorem reads_exactDecimal (finite : magnitude < infinite) :
    Reads magnitude (exactDecimal magnitude) where
  back := by
    have pos := two_pow_pos unitExponent
    have decimal := units_decimal (units magnitude) unitExponent
    exact ⟨units magnitude, _, pos, decimal, nearest_of_units finite.le pos rfl⟩
  scale := le_refl _

/-- **The shortest decimal of a finite magnitude is rounded to it.** -/
theorem shortest_reads (finite : magnitude < infinite) : Reads magnitude (shortest magnitude) := by
  unfold shortest
  split
  · rename_i zero
    rw [zero]
    refine ⟨?_, by simp⟩
    simpa using rounds_zero
  rename_i nonzero
  simp only
  generalize found : (List.range 17).findSome? _ = search
  cases search with
  | none => exact reads_exactDecimal finite
  | some decimal =>
      obtain ⟨n, -, tried⟩ := List.exists_of_findSome?_eq_some found
      exact reads_of_decimalOf? (Nat.pos_of_ne_zero nonzero) finite tried

end Decimal

/-! ## Signs -/

/-- Rounding the number gives the double with this place in the order. -/
inductive RoundsTo : ℚ → Int → Prop where
  | above {x : ℚ} {m : Nat} (h : Rounds x m) : RoundsTo x m
  | below {x : ℚ} {m : Nat} (h : Rounds x m) : RoundsTo (-x) (-m)

section RoundsTo

variable {x y : ℚ} {a b : Int}

/-- **Rounding keeps the order of numbers.** -/
theorem RoundsTo.mono (hx : RoundsTo x a) (hy : RoundsTo y b) (le : x ≤ y) : a ≤ b := by
  cases hx with
  | above hx =>
      cases hy with
      | above hy => exact_mod_cast hx.mono hy le
      | below hy =>
          -- Both numbers are zero.
          have left := hx.eq_zero (le.trans (neg_nonpos.mpr hy.nonneg))
          have right := hy.eq_zero (neg_nonneg.mp (hx.nonneg.trans le))
          rw [left, right]
          rfl
  | below hx =>
      cases hy with
      | above hy => omega
      | below hy =>
          have reversed := hy.mono hx (neg_le_neg_iff.mp le)
          omega

theorem RoundsTo.natAbs_le (h : RoundsTo x a) : a.natAbs ≤ infinite := by
  cases h with
  | above h => exact (Int.natAbs_natCast _).trans_le h.le_infinite
  | below h =>
      rw [Int.natAbs_neg, Int.natAbs_natCast]
      exact h.le_infinite

end RoundsTo

section Signs

variable {negative : Bool} {m : Nat}

theorem bits_ofSign (bound : m < signBit) :
    (ofSign negative m).bits.toNat = if negative then signBit + m else m := by
  have size : UInt64.size = signBit + signBit := rfl
  apply UInt64.toNat_ofNat_of_lt'
  split <;> omega

/-- A sign and a magnitude make a double with them. -/
theorem isNegative_ofSign (bound : m < signBit) : (ofSign negative m).isNegative = negative := by
  rw [isNegative, bits_ofSign bound]
  cases negative with
  | true => exact decide_eq_true (Nat.le_add_right _ _)
  | false => exact decide_eq_false (Nat.not_le_of_lt bound)

theorem magnitude_ofSign (bound : m < signBit) : (ofSign negative m).magnitude = m := by
  rw [magnitude, bits_ofSign bound]
  split
  · rw [Nat.add_mod_left, Nat.mod_eq_of_lt bound]
  · exact Nat.mod_eq_of_lt bound

theorem key_ofSign (bound : m ≤ infinite) :
    (ofSign negative m).key = if negative then -(m : Int) else m := by
  have small : m < signBit := bound.trans_lt (by decide)
  rw [key, isNegative_ofSign small, magnitude_ofSign small]

end Signs

theorem roundsTo_ofInt (n : Int) : RoundsTo n (ofInt n).key := by
  have rounds := rounds_natCast n.natAbs
  rw [ofInt, key_ofSign rounds.le_infinite]
  by_cases negative : n < 0
  · have same : (n : ℚ) = -(n.natAbs : ℚ) := by
      rw [← Int.cast_natCast, ← Int.cast_neg]
      congr 1
      omega
    rw [if_pos (decide_eq_true negative), same]
    exact .below rounds
  · have same : (n : ℚ) = (n.natAbs : ℚ) := by
      rw [← Int.cast_natCast]
      congr 1
      omega
    rw [if_neg (by simpa using negative), same]
    exact .above rounds

/-- The decimal of a double has the digits and the power of ten of its magnitude. -/
theorem toRat_ofDouble? {d : Double} {x : Decimal} (h : Decimal.ofDouble? d = some x) :
    d.magnitude < infinite ∧
      x.toRat = (if d.isNegative then -1 else 1) *
        ((shortest d.magnitude).1 * 10 ^ (shortest d.magnitude).2) := by
  unfold Decimal.ofDouble? at h
  split at h
  swap
  · cases h
  rename_i isFinite
  have finite : d.magnitude < infinite := of_decide_eq_true isFinite
  refine ⟨finite, ?_⟩
  have scale := (shortest_reads finite).scale
  generalize shortest d.magnitude = decimal at h scale ⊢
  obtain ⟨n, e⟩ := decimal
  have sign : (((if d.isNegative then -(n : Int) else n) : Int) : ℚ) =
      (if d.isNegative then -1 else 1) * (n : ℚ) := by
    split <;> simp
  simp only at h scale ⊢
  split at h
  · rename_i nonneg
    cases h
    have unscaled : -(0 : Int64).toInt = 0 := by decide
    rw [Decimal.toRat, Int.cast_mul, sign, Int.cast_natCast, Decimal.natCast_pow_ten nonneg, unscaled,
      zpow_zero, mul_one, mul_assoc]
  · rename_i negative
    cases h
    simp only [unitExponent] at scale
    have exponent : (Int64.ofInt (-e)).toInt = -e :=
      Int64.toInt_ofInt_of_le (by omega) (by omega)
    rw [Decimal.toRat, sign, exponent, neg_neg, mul_assoc]

/-- The decimal of a double is rounded to it. -/
theorem roundsTo_ofDouble? {d : Double} {x : Decimal} (h : Decimal.ofDouble? d = some x) :
    RoundsTo x.toRat d.key := by
  obtain ⟨finite, number⟩ := toRat_ofDouble? h
  have back := (shortest_reads finite).back
  rw [number, key]
  by_cases negative : d.isNegative = true
  · rw [if_pos negative, if_pos negative, neg_one_mul]
    exact .below back
  · rw [if_neg negative, if_neg negative, one_mul]
    exact .above back

end Double

end RowFilter
