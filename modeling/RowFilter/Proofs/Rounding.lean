import RowFilter.Number.Double
import Mathlib.Data.Nat.Log
import Mathlib.Order.Lattice

/-!
# Proofs.Rounding — rounding keeps the order

A quotient of units is rounded on a grid that is finer for small quotients than for large ones
(`grid`).  Between two powers of two the grid is even, and there the larger quotient is not rounded
to the smaller number; across a power of two the grid has a point at the power itself.  So the
magnitude nearest to a quotient grows with it (`nearest_mono`), and a quotient that is a magnitude is
rounded to it (`nearest_of_units`).
-/

namespace RowFilter.Double

set_option autoImplicit false

/-! ## Whole numbers -/

section Whole

variable {num den num' den' k : Nat}

theorem two_pow_pos (k : Nat) : 0 < Nat.pow 2 k := Nat.pow_pos (by decide)

/-- Less than half goes down, more than half up, and a tie goes to the even number. -/
theorem roundEven_cases (num den : Nat) :
    2 * (num % den) < den ∧ roundEven num den = num / den ∨
      den < 2 * (num % den) ∧ roundEven num den = num / den + 1 ∨
        2 * (num % den) = den ∧ roundEven num den = num / den + num / den % 2 := by
  by_cases down : 2 * (num % den) < den
  · exact .inl ⟨down, if_pos down⟩
  by_cases up : den < 2 * (num % den)
  · refine .inr (.inl ⟨up, ?_⟩)
    simp only [roundEven, if_neg down, if_pos up]
  · refine .inr (.inr ⟨by omega, ?_⟩)
    simp only [roundEven, if_neg down, if_neg up]
    split <;> omega

theorem div_le_roundEven (num den : Nat) : num / den ≤ roundEven num den := by
  rcases roundEven_cases num den with ⟨-, h⟩ | ⟨-, h⟩ | ⟨-, h⟩ <;> omega

theorem roundEven_le (num den : Nat) : roundEven num den ≤ num / den + 1 := by
  rcases roundEven_cases num den with ⟨-, h⟩ | ⟨-, h⟩ | ⟨-, h⟩ <;> omega

theorem roundEven_mul (k : Nat) (pos : 0 < den) : roundEven (k * den) den = k := by
  have rest : k * den % den = 0 := Nat.mul_mod_left k den
  simp only [roundEven, rest, Nat.mul_div_cancel k pos, Nat.mul_zero, if_pos pos]

theorem div_le_div_of_cross (pos : 0 < den) (pos' : 0 < den') (le : num * den' ≤ num' * den) :
    num / den ≤ num' / den' := by
  rw [Nat.le_div_iff_mul_le pos']
  apply Nat.le_of_mul_le_mul_right _ pos
  calc num / den * den' * den = num / den * den * den' := Nat.mul_right_comm _ _ _
    _ ≤ num * den' := Nat.mul_le_mul_right den' (Nat.div_mul_le_self num den)
    _ ≤ num' * den := le

/-- Of two quotients with one whole part, the larger has the larger rest. -/
theorem mod_cross_of_div_eq (same : num / den = num' / den') (le : num * den' ≤ num' * den) :
    num % den * den' ≤ num' % den' * den := by
  have split : num * den' = num' / den' * den * den' + num % den * den' := by
    rw [← Nat.add_mul, ← same, Nat.mul_comm (num / den), Nat.div_add_mod]
  have split' : num' * den = num' / den' * den * den' + num' % den' * den := by
    rw [Nat.mul_right_comm, ← Nat.add_mul, Nat.mul_comm (num' / den'), Nat.div_add_mod]
  omega

/-- A larger quotient is not rounded to a smaller number. -/
theorem roundEven_mono (pos : 0 < den) (pos' : 0 < den') (le : num * den' ≤ num' * den) :
    roundEven num den ≤ roundEven num' den' := by
  rcases Nat.lt_or_eq_of_le (div_le_div_of_cross pos pos' le) with less | same
  · calc roundEven num den ≤ num / den + 1 := roundEven_le num den
      _ ≤ num' / den' := less
      _ ≤ roundEven num' den' := div_le_roundEven num' den'
  · have rest := mod_cross_of_div_eq same le
    -- The rest of the larger quotient is at least half where that of the smaller one is.
    have half : den ≤ 2 * (num % den) → den' ≤ 2 * (num' % den') := by
      intro h
      apply Nat.le_of_mul_le_mul_right _ pos
      calc den' * den = den * den' := Nat.mul_comm _ _
        _ ≤ 2 * (num % den) * den' := Nat.mul_le_mul_right den' h
        _ = 2 * (num % den * den') := Nat.mul_assoc _ _ _
        _ ≤ 2 * (num' % den' * den) := Nat.mul_le_mul_left 2 rest
        _ = 2 * (num' % den') * den := (Nat.mul_assoc _ _ _).symm
    have more : den < 2 * (num % den) → den' < 2 * (num' % den') := by
      intro h
      apply Nat.lt_of_mul_lt_mul_right (a := den)
      calc den' * den = den * den' := Nat.mul_comm _ _
        _ < 2 * (num % den) * den' := Nat.mul_lt_mul_of_pos_right h pos'
        _ = 2 * (num % den * den') := Nat.mul_assoc _ _ _
        _ ≤ 2 * (num' % den' * den) := Nat.mul_le_mul_left 2 rest
        _ = 2 * (num' % den') * den := (Nat.mul_assoc _ _ _).symm
    rcases roundEven_cases num den with ⟨down, h⟩ | ⟨up, h⟩ | ⟨tie, h⟩
    · rw [h, same]
      exact div_le_roundEven num' den'
    · have up' := more up
      rcases roundEven_cases num' den' with ⟨down', h'⟩ | ⟨-, h'⟩ | ⟨tie', h'⟩ <;> omega
    · have tie' := half (Nat.le_of_eq tie.symm)
      rcases roundEven_cases num' den' with ⟨down', h'⟩ | ⟨-, h'⟩ | ⟨-, h'⟩ <;> omega

theorem le_roundEven (pos : 0 < den) (le : k * den ≤ num) : k ≤ roundEven num den := by
  have mono := roundEven_mono pos pos (Nat.mul_le_mul_right den le)
  rwa [roundEven_mul k pos] at mono

theorem roundEven_le_of_le (pos : 0 < den) (le : num ≤ k * den) : roundEven num den ≤ k := by
  have mono := roundEven_mono pos pos (Nat.mul_le_mul_right den le)
  rwa [roundEven_mul k pos] at mono

end Whole

/-! ## The grid -/

/-- The number of the grid point nearest to a quotient, as if there were no largest one.  With `shift`
zero bits dropped from its units, the quotient has at most 53 bits. -/
def grid (num den : Nat) : Nat :=
  let shift := Nat.log2 (num / den) - 52
  shift * fractions + roundEven num (den * Nat.pow 2 shift)

theorem nearest_eq (num den : Nat) :
    nearest num den = min infinite (grid (num * Nat.pow 2 unitExponent) den) := rfl

section Grid

variable {num den num' den' : Nat}

/-- A rounded significand is at most the power of two behind its own. -/
theorem significand_le (num : Nat) (pos : 0 < den) :
    roundEven num (den * Nat.pow 2 (Nat.log2 (num / den) - 52)) ≤ 2 * fractions := by
  generalize shifted : Nat.log2 (num / den) - 52 = shift
  have wide : num / den < Nat.pow 2 (53 + shift) :=
    calc num / den < 2 ^ (Nat.log2 (num / den) + 1) := Nat.lt_log2_self
      _ ≤ Nat.pow 2 (53 + shift) := Nat.pow_le_pow_right (by decide) (by omega)
  apply roundEven_le_of_le (Nat.mul_pos pos (two_pow_pos _))
  calc num ≤ Nat.pow 2 (53 + shift) * den := ((Nat.div_lt_iff_lt_mul pos).mp wide).le
    _ = 2 * fractions * (den * Nat.pow 2 shift) := by
        have power : Nat.pow 2 (53 + shift) = 2 * fractions * Nat.pow 2 shift := Nat.pow_add 2 53 shift
        rw [power, Nat.mul_assoc, Nat.mul_comm den]

/-- Where bits are dropped, the rounded significand is at least a power of two. -/
theorem le_significand (num : Nat) (pos : 0 < den) (dropped : 0 < Nat.log2 (num / den) - 52) :
    fractions ≤ roundEven num (den * Nat.pow 2 (Nat.log2 (num / den) - 52)) := by
  generalize shifted : Nat.log2 (num / den) - 52 = shift at dropped ⊢
  have nonzero : num / den ≠ 0 := by
    intro zero
    rw [zero, Nat.log2_zero] at shifted
    omega
  have large : Nat.pow 2 (52 + shift) ≤ num / den :=
    calc Nat.pow 2 (52 + shift) ≤ 2 ^ Nat.log2 (num / den) :=
          Nat.pow_le_pow_right (by decide) (by omega)
      _ ≤ num / den := Nat.log2_self_le nonzero
  apply le_roundEven (Nat.mul_pos pos (two_pow_pos _))
  calc fractions * (den * Nat.pow 2 shift) = Nat.pow 2 (52 + shift) * den := by
        have power : Nat.pow 2 (52 + shift) = fractions * Nat.pow 2 shift := Nat.pow_add 2 52 shift
        rw [power, Nat.mul_assoc, Nat.mul_comm den]
    _ ≤ num := (Nat.le_div_iff_mul_le pos).mp large

theorem grid_mono (pos : 0 < den) (pos' : 0 < den') (le : num * den' ≤ num' * den) :
    grid num den ≤ grid num' den' := by
  have whole := div_le_div_of_cross pos pos' le
  have shifts : Nat.log2 (num / den) - 52 ≤ Nat.log2 (num' / den') - 52 := by
    rw [Nat.log2_eq_log_two, Nat.log2_eq_log_two]
    exact Nat.sub_le_sub_right (Nat.log_mono_right whole) 52
  rcases Nat.lt_or_eq_of_le shifts with less | same
  · -- The larger quotient is beyond a power of two, to which the smaller is rounded at most.
    have upper := significand_le num pos
    have lower := le_significand num' pos' (by omega)
    have step := Nat.mul_le_mul_right fractions (Nat.succ_le_of_lt less)
    simp only [grid]
    rw [Nat.succ_mul] at step
    omega
  · simp only [grid, same]
    apply Nat.add_le_add_left
    have scaled : 0 < Nat.pow 2 (Nat.log2 (num' / den') - 52) := two_pow_pos _
    apply roundEven_mono (Nat.mul_pos pos scaled) (Nat.mul_pos pos' scaled)
    rw [← Nat.mul_assoc, ← Nat.mul_assoc]
    exact Nat.mul_le_mul_right _ le

/-- **The magnitude nearest to a quotient grows with it.** -/
theorem nearest_mono (pos : 0 < den) (pos' : 0 < den') (le : num * den' ≤ num' * den) :
    nearest num den ≤ nearest num' den' := by
  have scaled : num * Nat.pow 2 unitExponent * den' ≤ num' * Nat.pow 2 unitExponent * den := by
    rw [Nat.mul_right_comm, Nat.mul_right_comm num']
    exact Nat.mul_le_mul_right _ le
  exact inf_le_inf_left infinite (grid_mono pos pos' scaled)

/-! ## Magnitudes -/

/-- The units of a magnitude are a significand with zero bits behind it, and these bits are those
that rounding drops. -/
theorem units_eq (magnitude : Nat) :
    ∃ significand shift, units magnitude = significand * Nat.pow 2 shift ∧
      Nat.log2 (units magnitude) - 52 = shift ∧ shift * fractions + significand = magnitude := by
  have split := Nat.div_add_mod magnitude fractions
  have small : magnitude % fractions < fractions := Nat.mod_lt _ (by decide)
  by_cases subnormal : magnitude / fractions = 0
  · refine ⟨magnitude % fractions, 0, ?_, ?_, ?_⟩
    · simp only [units, if_pos subnormal]
      exact (Nat.mul_one _).symm
    · have short : Nat.log2 (magnitude % fractions) < 53 := by
        rw [Nat.log2_eq_log_two]
        exact Nat.log_lt_of_lt_pow' (by decide) (small.trans (by decide))
      simp only [units, if_pos subnormal]
      omega
    · rw [subnormal] at split
      omega
  · refine ⟨fractions + magnitude % fractions, magnitude / fractions - 1, ?_, ?_, ?_⟩
    · simp only [units, if_neg subnormal]
    · simp only [units, if_neg subnormal]
      generalize magnitude / fractions - 1 = shift
      have low : 2 ^ (52 + shift) ≤ (fractions + magnitude % fractions) * Nat.pow 2 shift :=
        calc 2 ^ (52 + shift) = fractions * Nat.pow 2 shift := Nat.pow_add 2 52 shift
          _ ≤ (fractions + magnitude % fractions) * Nat.pow 2 shift :=
              Nat.mul_le_mul_right _ (Nat.le_add_right _ _)
      have high : (fractions + magnitude % fractions) * Nat.pow 2 shift < 2 ^ (52 + shift + 1) :=
        calc (fractions + magnitude % fractions) * Nat.pow 2 shift
            < 2 * fractions * Nat.pow 2 shift :=
              Nat.mul_lt_mul_of_pos_right (by omega) (two_pow_pos _)
          _ = 2 ^ (52 + shift + 1) := by
              rw [Nat.add_right_comm]
              exact (Nat.pow_add 2 53 shift).symm
      rw [Nat.log2_eq_log_two, Nat.log_eq_of_pow_le_of_lt_pow low high, Nat.add_sub_cancel_left]
    · obtain ⟨e, exponent⟩ := Nat.exists_eq_succ_of_ne_zero subnormal
      rw [exponent, Nat.succ_eq_add_one] at split ⊢
      rw [Nat.add_sub_cancel]
      rw [Nat.mul_add, Nat.mul_one, Nat.mul_comm] at split
      omega

theorem grid_units (magnitude : Nat) (pos : 0 < den) : grid (units magnitude * den) den = magnitude := by
  obtain ⟨significand, shift, bits, log, number⟩ := units_eq magnitude
  have power : 0 < Nat.pow 2 shift := two_pow_pos _
  have shifted : significand * Nat.pow 2 shift * den = significand * (den * Nat.pow 2 shift) := by
    rw [Nat.mul_right_comm, Nat.mul_assoc]
  have whole : units magnitude * den / den = units magnitude :=
    Nat.mul_div_cancel _ pos
  simp only [grid, whole, log]
  rw [bits, shifted, roundEven_mul _ (Nat.mul_pos pos power), number]

/-- A quotient that is a magnitude is rounded to it. -/
theorem nearest_of_units {magnitude : Nat} (finite : magnitude ≤ infinite) (pos : 0 < den)
    (same : num * Nat.pow 2 unitExponent = units magnitude * den) : nearest num den = magnitude := by
  rw [nearest_eq, same, grid_units magnitude pos]
  exact Nat.min_eq_right finite

end Grid

end RowFilter.Double
