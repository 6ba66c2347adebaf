import RowFilter.Proofs.NumberOrder
import Mathlib.Data.Nat.Dist
import Mathlib.Tactic.Linarith

/-!
# Proofs.NearestDouble — the double nearest to an integer

`NearestTo` says what rounding is to give: a finite double such that no other is nearer, and with a
last bit of zero where another is as near.  A number has one such double at most, up to the sign of
zero, because between two with a last bit of zero there is a third (`NearestTo.toRat_eq`).  The grid
point that rounding picks is nearest among all magnitudes (`dist_grid_le`), so the double made of a
long is the nearest one (`nearestTo_ofInt`), and the long itself where it has at most 53 bits
(`toRat_ofInt`).
-/

namespace RowFilter.Double

set_option autoImplicit false

/-! ## Multiples -/

section Multiples

variable {num den : Nat}

/-- No multiple is nearer than the rounded one. -/
theorem dist_roundEven_le (num : Nat) (pos : 0 < den) (k : Nat) :
    Nat.dist num (roundEven num den * den) ≤ Nat.dist num (k * den) := by
  have split := Nat.div_add_mod num den
  have rest := Nat.mod_lt num pos
  rw [Nat.mul_comm] at split
  have lower : k ≤ num / den → k * den ≤ num / den * den := Nat.mul_le_mul_right den
  have upper : num / den + 1 ≤ k → (num / den + 1) * den ≤ k * den := Nat.mul_le_mul_right den
  rw [Nat.succ_mul] at upper
  rcases roundEven_cases num den with ⟨down, h⟩ | ⟨up, h⟩ | ⟨tie, h⟩
  · rw [h]
    simp only [Nat.dist]
    omega
  · rw [h, Nat.succ_mul]
    simp only [Nat.dist]
    omega
  · have halves : (num / den + num / den % 2) * den = num / den * den ∨
        (num / den + num / den % 2) * den = num / den * den + den := by
      rcases Nat.mod_two_eq_zero_or_one (num / den) with even | odd
      · rw [even]
        exact .inl rfl
      · rw [odd]
        exact .inr (Nat.succ_mul _ _)
    rw [h]
    simp only [Nat.dist]
    omega

/-- A multiple that is as near as the rounded one leaves an even one. -/
theorem roundEven_even_of_dist_eq (num : Nat) (pos : 0 < den) {k : Nat} (ne : k ≠ roundEven num den)
    (tie : Nat.dist num (k * den) = Nat.dist num (roundEven num den * den)) :
    roundEven num den % 2 = 0 := by
  have split := Nat.div_add_mod num den
  have rest := Nat.mod_lt num pos
  rw [Nat.mul_comm] at split
  have lower : k + 1 ≤ num / den → (k + 1) * den ≤ num / den * den := Nat.mul_le_mul_right den
  have upper : num / den + 1 ≤ k → (num / den + 1) * den ≤ k * den := Nat.mul_le_mul_right den
  have beyond : num / den + 1 + 1 ≤ k → (num / den + 1 + 1) * den ≤ k * den :=
    Nat.mul_le_mul_right den
  simp only [Nat.succ_mul] at lower upper beyond
  rcases roundEven_cases num den with ⟨down, h⟩ | ⟨up, h⟩ | ⟨-, h⟩
  · rw [h] at tie ne
    simp only [Nat.dist] at tie
    omega
  · rw [h, Nat.succ_mul] at tie
    rw [h] at ne
    simp only [Nat.dist] at tie
    have same : k = num / den → k * den = num / den * den := fun h => by rw [h]
    omega
  · omega

end Multiples

/-! ## Magnitudes -/

section Units

variable {m n shift significand : Nat}

/-- The units of a magnitude that is put together from a significand and a number of zero bits. -/
theorem units_add (full : shift = 0 ∨ fractions ≤ significand) (most : significand ≤ 2 * fractions) :
    units (shift * fractions + significand) = significand * Nat.pow 2 shift := by
  rcases Nat.lt_or_eq_of_le most with less | rfl
  · by_cases normal : fractions ≤ significand
    · obtain ⟨fraction, rfl⟩ := Nat.exists_eq_add_of_le normal
      have small : fraction < fractions := by omega
      have number : shift * fractions + (fractions + fraction) = (shift + 1) * fractions + fraction := by
        rw [Nat.succ_mul, Nat.add_assoc]
      have exponent : ((shift + 1) * fractions + fraction) / fractions = shift + 1 := by
        rw [Nat.mul_comm, Nat.mul_add_div (by decide), Nat.div_eq_of_lt small, Nat.add_zero]
      have rest : ((shift + 1) * fractions + fraction) % fractions = fraction := by
        rw [Nat.mul_comm, Nat.mul_add_mod, Nat.mod_eq_of_lt small]
      rw [number]
      simp only [units, exponent, rest, if_neg (Nat.succ_ne_zero shift), Nat.add_sub_cancel]
    · have zero : shift = 0 := full.resolve_right normal
      subst zero
      have small : significand < fractions := Nat.lt_of_not_le normal
      rw [Nat.zero_mul, Nat.zero_add]
      simp only [units, Nat.div_eq_of_lt small, Nat.mod_eq_of_lt small, if_true]
      exact (Nat.mul_one _).symm
  · -- The significand has carried into the next power of two.
    have number : shift * fractions + 2 * fractions = (shift + 2) * fractions := (Nat.add_mul _ _ _).symm
    have exponent : (shift + 2) * fractions / fractions = shift + 2 := Nat.mul_div_cancel _ (by decide)
    have rest : (shift + 2) * fractions % fractions = 0 := Nat.mul_mod_left _ _
    have power : Nat.pow 2 (shift + 1) = 2 * Nat.pow 2 shift := Nat.pow_succ'
    rw [number]
    simp only [units, exponent, rest, if_neg (Nat.succ_ne_zero (shift + 1)), Nat.add_zero]
    show fractions * Nat.pow 2 (shift + 1) = _
    rw [power, ← Nat.mul_assoc, Nat.mul_comm fractions]

/-- The units of a grid point are a multiple of the power of two that it is rounded in. -/
theorem units_grid (n : Nat) :
    units (grid n 1) = roundEven n (Nat.pow 2 (Nat.log2 n - 52)) * Nat.pow 2 (Nat.log2 n - 52) := by
  have most := significand_le n Nat.one_pos
  have least := le_significand n Nat.one_pos
  simp only [grid, Nat.div_one, Nat.one_mul] at most least ⊢
  refine units_add ?_ most
  by_cases dropped : 0 < Nat.log2 n - 52
  · exact .inr (least dropped)
  · exact .inl (by omega)

theorem units_lt_units (lt : m < n) : units m < units n := by
  by_contra le
  have scaled : units n * 1 * 1 ≤ units m * 1 * 1 := by omega
  have mono := grid_mono Nat.one_pos Nat.one_pos scaled
  rw [grid_units _ Nat.one_pos, grid_units _ Nat.one_pos] at mono
  omega

theorem units_inj : units m = units n ↔ m = n := by
  constructor
  · intro same
    rcases Nat.lt_trichotomy m n with less | rfl | greater
    · exact absurd same (units_lt_units less).ne
    · rfl
    · exact absurd same (units_lt_units greater).ne'
  · rintro rfl
    rfl

/-- The units of a magnitude are a multiple of a power of two, or have fewer bits than a significand in
front of it. -/
theorem units_cases (m shift : Nat) :
    (∃ k, units m = k * Nat.pow 2 shift) ∨ 0 < shift ∧ units m < fractions * Nat.pow 2 shift := by
  obtain ⟨significand, own, bits, log, -⟩ := units_eq m
  rcases Nat.le_total shift own with le | le
  · refine .inl ⟨significand * Nat.pow 2 (own - shift), ?_⟩
    have power : Nat.pow 2 own = Nat.pow 2 (own - shift) * Nat.pow 2 shift := by
      show 2 ^ own = 2 ^ (own - shift) * 2 ^ shift
      rw [← Nat.pow_add, Nat.sub_add_cancel le]
    rw [bits, power, Nat.mul_assoc]
  · rcases Nat.lt_or_eq_of_le le with less | rfl
    swap
    · exact .inl ⟨significand, bits⟩
    refine .inr ⟨Nat.zero_lt_of_lt less, ?_⟩
    have short : Nat.log2 (units m) + 1 ≤ 52 + shift := by omega
    calc units m < 2 ^ (Nat.log2 (units m) + 1) := Nat.lt_log2_self
      _ ≤ 2 ^ (52 + shift) := Nat.pow_le_pow_right (by decide) short
      _ = fractions * Nat.pow 2 shift := Nat.pow_add 2 52 shift

/-- A number from which bits are dropped has a significand in front of them. -/
theorem fractions_mul_le (dropped : 0 < Nat.log2 n - 52) :
    fractions * Nat.pow 2 (Nat.log2 n - 52) ≤ n := by
  have nonzero : n ≠ 0 := by
    rintro rfl
    rw [Nat.log2_zero] at dropped
    omega
  have power : Nat.pow 2 (52 + (Nat.log2 n - 52)) = fractions * Nat.pow 2 (Nat.log2 n - 52) :=
    Nat.pow_add 2 52 _
  have whole : 52 + (Nat.log2 n - 52) = Nat.log2 n := by omega
  rw [← power, whole]
  exact Nat.log2_self_le nonzero

/-- **No magnitude is nearer than the grid point.** -/
theorem dist_grid_le (n m : Nat) : Nat.dist n (units (grid n 1)) ≤ Nat.dist n (units m) := by
  have pos : 0 < Nat.pow 2 (Nat.log2 n - 52) := two_pow_pos _
  rw [units_grid]
  rcases units_cases m (Nat.log2 n - 52) with ⟨k, multiple⟩ | ⟨dropped, short⟩
  · rw [multiple]
    exact dist_roundEven_le n pos k
  · have first := dist_roundEven_le n pos fractions
    have inside := fractions_mul_le dropped
    simp only [Nat.dist] at first ⊢
    omega

/-- **A magnitude that is as near as the grid point leaves an even one.** -/
theorem grid_even_of_dist_eq {n m : Nat} (ne : m ≠ grid n 1)
    (tie : Nat.dist n (units m) = Nat.dist n (units (grid n 1))) : grid n 1 % 2 = 0 := by
  have pos : 0 < Nat.pow 2 (Nat.log2 n - 52) := two_pow_pos _
  have other : units m ≠ units (grid n 1) := fun same => ne (units_inj.mp same)
  rw [units_grid] at tie other
  have even : roundEven n (Nat.pow 2 (Nat.log2 n - 52)) % 2 = 0 := by
    rcases units_cases m (Nat.log2 n - 52) with ⟨k, multiple⟩ | ⟨dropped, short⟩
    · rw [multiple] at tie other
      exact roundEven_even_of_dist_eq n pos (fun same => other (by rw [same])) tie
    · have first := dist_roundEven_le n pos fractions
      have inside := fractions_mul_le dropped
      simp only [Nat.dist] at first tie
      omega
  have fraction : fractions % 2 = 0 := by decide
  simp only [grid, Nat.div_one, Nat.one_mul]
  rw [Nat.add_mod, even, Nat.mul_mod, fraction, Nat.mul_zero]

end Units

/-! ## Numbers of doubles -/

/-- The units of a finite double, with its sign. -/
def steps (d : Double) : Int :=
  if d.isNegative then -(units d.magnitude : Int) else units d.magnitude

/-- The number that a finite double stands for. -/
def toRat (d : Double) : ℚ := d.steps / (Nat.pow 2 unitExponent : Nat)

/-- The double is the number rounded: it is finite, no finite double is nearer to the number, and if
another one is as near, then the last bit of this one is zero. -/
structure NearestTo (d : Double) (x : ℚ) : Prop where
  finite : d.isFinite = true
  closest : ∀ e : Double, e.isFinite = true → |x - d.toRat| ≤ |x - e.toRat|
  even : ∀ e : Double, e.isFinite = true → e.toRat ≠ d.toRat →
    |x - e.toRat| = |x - d.toRat| → d.magnitude % 2 = 0

section Numbers

variable {d e : Double} {x : ℚ}

theorem unit_pos : (0 : ℚ) < (Nat.pow 2 unitExponent : Nat) := by exact_mod_cast two_pow_pos _

theorem lt_infinite_of_isFinite (finite : d.isFinite = true) : d.magnitude < infinite :=
  of_decide_eq_true finite

theorem natAbs_key (d : Double) : d.key.natAbs = d.magnitude := by
  unfold key
  split <;> simp

theorem steps_eq_key (d : Double) : d.steps = d.key.sign * (units d.key.natAbs : Int) := by
  rw [natAbs_key, steps, key]
  rcases Nat.eq_zero_or_pos d.magnitude with zero | pos
  · rw [zero]
    split <;> rfl
  · split
    · rw [Int.sign_eq_neg_one_of_neg (by omega), neg_one_mul]
    · rw [Int.sign_eq_one_of_pos (by omega), one_mul]

/-- Doubles in one place of the order stand for one number. -/
theorem toRat_eq_of_key_eq (same : d.key = e.key) : d.toRat = e.toRat := by
  rw [toRat, toRat, steps_eq_key, steps_eq_key, same]

theorem roundsTo_toRat (finite : d.isFinite = true) : RoundsTo d.toRat d.key := by
  have below := lt_infinite_of_isFinite finite
  have rounds : Rounds (units d.magnitude / (Nat.pow 2 unitExponent : Nat)) d.magnitude :=
    ⟨_, _, two_pow_pos unitExponent, rfl, nearest_of_units below.le (two_pow_pos _) rfl⟩
  rw [toRat, steps, key]
  split
  · rw [Int.cast_neg, Int.cast_natCast, neg_div]
    exact .below rounds
  · rw [Int.cast_natCast]
    exact .above rounds

/-- **Finite doubles are in the order of their numbers.** -/
theorem key_lt_iff (finite : d.isFinite = true) (finite' : e.isFinite = true) :
    d.key < e.key ↔ d.toRat < e.toRat := by
  constructor
  · intro less
    by_contra le
    have mono := (roundsTo_toRat finite').mono (roundsTo_toRat finite) (not_lt.mp le)
    omega
  · intro less
    have mono := (roundsTo_toRat finite).mono (roundsTo_toRat finite') less.le
    rcases Int.lt_or_eq_of_le mono with lt | same
    · exact lt
    · exact absurd (toRat_eq_of_key_eq same) less.ne

theorem key_eq_iff (finite : d.isFinite = true) (finite' : e.isFinite = true) :
    d.key = e.key ↔ d.toRat = e.toRat := by
  refine ⟨toRat_eq_of_key_eq, fun same => ?_⟩
  have left := (key_lt_iff finite finite').not.mpr same.not_lt
  have right := (key_lt_iff finite' finite).not.mpr same.not_gt
  omega

/-- Every place below the infinities is that of a finite double. -/
theorem exists_of_key {k : Int} (below : k.natAbs < infinite) :
    ∃ c : Double, c.isFinite = true ∧ c.key = k := by
  have small : k.natAbs < signBit := below.trans (by decide)
  refine ⟨ofSign (k < 0) k.natAbs, ?_, ?_⟩
  · rw [isFinite, magnitude_ofSign small]
    exact decide_eq_true below
  · rw [key_ofSign below.le]
    by_cases negative : k < 0
    · rw [decide_eq_true negative, if_pos rfl]
      omega
    · rw [decide_eq_false negative, if_neg Bool.false_ne_true]
      omega

/-! ## One nearest number -/

theorem not_lt_of_nearestTo (h : d.NearestTo x) (h' : e.NearestTo x) : ¬ d.toRat < e.toRat := by
  intro less
  -- Both are as near, so both have a last bit of zero and there is a double between them.
  have tie : |x - d.toRat| = |x - e.toRat| :=
    le_antisymm (h.closest e h'.finite) (h'.closest d h.finite)
  have even := h.even e h'.finite less.ne' tie.symm
  have even' := h'.even d h.finite less.ne tie
  rw [← natAbs_key] at even even'
  have keys := (key_lt_iff h.finite h'.finite).mpr less
  have first := lt_infinite_of_isFinite h.finite
  have last := lt_infinite_of_isFinite h'.finite
  rw [← natAbs_key] at first last
  obtain ⟨c, finite, between⟩ := exists_of_key (k := d.key + 1) (by omega)
  have above := (key_lt_iff h.finite finite).mp (by omega)
  have below := (key_lt_iff finite h'.finite).mp (by omega)
  have nearer := h.closest c finite
  rcases abs_cases (x - d.toRat) with ⟨hd, _⟩ | ⟨hd, _⟩ <;>
    rcases abs_cases (x - e.toRat) with ⟨he, _⟩ | ⟨he, _⟩ <;>
    rcases abs_cases (x - c.toRat) with ⟨hc, _⟩ | ⟨hc, _⟩ <;> linarith

/-- **A number is rounded to one number.** -/
theorem NearestTo.toRat_eq (h : d.NearestTo x) (h' : e.NearestTo x) : d.toRat = e.toRat :=
  le_antisymm (not_lt.mp (not_lt_of_nearestTo h' h)) (not_lt.mp (not_lt_of_nearestTo h h'))

theorem NearestTo.of_key_eq (h : d.NearestTo x) (same : d.key = e.key) : e.NearestTo x := by
  have magnitude : d.magnitude = e.magnitude := by rw [← natAbs_key, ← natAbs_key, same]
  have number := toRat_eq_of_key_eq same
  constructor
  · have finite := h.finite
    rwa [isFinite, magnitude] at finite
  · rw [← number]
    exact h.closest
  · rw [← number, ← magnitude]
    exact h.even

end Numbers

/-! ## Integers -/

section Integers

variable {n : Int}

theorem natAbs_steps (d : Double) : d.steps.natAbs = units d.magnitude := by
  unfold steps
  split <;> simp

/-- The distance of an integer and a double, counted in units. -/
def gap (n : Int) (d : Double) : Nat := (n * (Nat.pow 2 unitExponent : Nat) - d.steps).natAbs

theorem abs_sub_toRat (n : Int) (d : Double) :
    |(n : ℚ) - d.toRat| = gap n d / (Nat.pow 2 unitExponent : Nat) := by
  have whole : (n : ℚ) - d.toRat =
      ((n * (Nat.pow 2 unitExponent : Nat) - d.steps : Int) : ℚ) / (Nat.pow 2 unitExponent : Nat) := by
    rw [toRat, Int.cast_sub, Int.cast_mul, Int.cast_natCast, sub_div, mul_div_cancel_right₀ _ unit_pos.ne']
  rw [whole, abs_div, abs_of_pos unit_pos, gap, Nat.cast_natAbs, Int.cast_abs]

theorem natAbs_scaled (n : Int) :
    (n * (Nat.pow 2 unitExponent : Nat)).natAbs = n.natAbs * Nat.pow 2 unitExponent := by
  rw [Int.natAbs_mul, Int.natAbs_natCast]

theorem dist_le_gap (n : Int) (d : Double) :
    Nat.dist (n.natAbs * Nat.pow 2 unitExponent) (units d.magnitude) ≤ gap n d := by
  rw [← natAbs_scaled, ← natAbs_steps, gap, Nat.dist]
  omega

theorem eq_of_as_near {t u v : Int} (same : u.natAbs = v.natAbs)
    (tie : (t - u).natAbs = (t - v).natAbs) : u = v ∨ t = 0 := by
  omega

/-- The least integer beyond the longs, shifted, is the number of units of a magnitude. -/
theorem units_signBit (k : Nat) :
    units ((11 + k) * fractions + fractions) = signBit * Nat.pow 2 k := by
  have power : Nat.pow 2 (11 + k) = Nat.pow 2 11 * Nat.pow 2 k := Nat.pow_add 2 11 k
  have split : signBit = fractions * Nat.pow 2 11 := by decide
  rw [units_add (.inr (le_refl _)) (Nat.le_mul_of_pos_left _ (by decide)), power, split, Nat.mul_assoc]

/-- Longs are far below the infinities. -/
theorem grid_lt_infinite {m : Nat} (small : m ≤ signBit) :
    grid (m * Nat.pow 2 unitExponent) 1 < infinite := by
  have le := Nat.mul_le_mul_right (Nat.pow 2 unitExponent) small
  rw [← units_signBit] at le
  have mono := grid_mono Nat.one_pos Nat.one_pos (Nat.mul_le_mul_right 1 le)
  have top := grid_units ((11 + unitExponent) * fractions + fractions) Nat.one_pos
  rw [Nat.mul_one] at top
  exact (mono.trans_eq top).trans_lt (by decide)

section Long

variable (small : n.natAbs ≤ signBit)

include small

theorem nearest_natAbs : nearest n.natAbs 1 = grid (n.natAbs * Nat.pow 2 unitExponent) 1 := by
  rw [nearest_eq]
  exact Nat.min_eq_right (grid_lt_infinite small).le

theorem magnitude_ofInt : (ofInt n).magnitude = grid (n.natAbs * Nat.pow 2 unitExponent) 1 := by
  have below := grid_lt_infinite small
  rw [ofInt, nearest_natAbs small, magnitude_ofSign (below.trans (by decide))]

theorem gap_ofInt : gap n (ofInt n) = Nat.dist (n.natAbs * Nat.pow 2 unitExponent)
    (units (grid (n.natAbs * Nat.pow 2 unitExponent) 1)) := by
  have below := grid_lt_infinite small
  have sign : (ofInt n).isNegative = decide (n < 0) := by
    rw [ofInt, nearest_natAbs small, isNegative_ofSign (below.trans (by decide))]
  rw [gap, steps, sign, magnitude_ofInt small]
  generalize units (grid (n.natAbs * Nat.pow 2 unitExponent) 1) = w
  rw [← natAbs_scaled]
  by_cases negative : n < 0
  · have signed : n * (Nat.pow 2 unitExponent : Nat) ≤ 0 :=
      Int.mul_nonpos_of_nonpos_of_nonneg negative.le (Int.natCast_nonneg _)
    simp only [negative, decide_true, if_true, Nat.dist]
    omega
  · have signed : 0 ≤ n * (Nat.pow 2 unitExponent : Nat) :=
      Int.mul_nonneg (not_lt.mp negative) (Int.natCast_nonneg _)
    simp only [negative, decide_false, Bool.false_eq_true, if_false, Nat.dist]
    omega

theorem isFinite_ofInt : (ofInt n).isFinite = true := by
  rw [isFinite, magnitude_ofInt small]
  exact decide_eq_true (grid_lt_infinite small)

/-- **The double made of a long is the long rounded to the nearest, a tie to the even one.** -/
theorem nearestTo_ofInt : (ofInt n).NearestTo n := by
  refine ⟨isFinite_ofInt small, fun e finite => ?_, fun e finite ne tie => ?_⟩
  · rw [abs_sub_toRat, abs_sub_toRat, div_le_div_iff_of_pos_right unit_pos, gap_ofInt small]
    exact_mod_cast (dist_grid_le _ _).trans (dist_le_gap n e)
  · rw [abs_sub_toRat, abs_sub_toRat, div_left_inj' unit_pos.ne', Nat.cast_inj] at tie
    rw [magnitude_ofInt small]
    by_cases same : e.magnitude = grid (n.natAbs * Nat.pow 2 unitExponent) 1
    · -- With the same magnitude it has the opposite sign, and that is as near to zero alone.
      have opposite : e.steps ≠ (ofInt n).steps := fun same => ne (by rw [toRat, toRat, same])
      have width : e.steps.natAbs = (ofInt n).steps.natAbs := by
        rw [natAbs_steps, natAbs_steps, magnitude_ofInt small, same]
      have zero : n * (Nat.pow 2 unitExponent : Nat) = 0 := (eq_of_as_near width tie).resolve_left opposite
      have none : gap n (ofInt n) = 0 := by
        rw [gap_ofInt small, ← natAbs_scaled, zero]
        exact Nat.le_zero.mp (dist_grid_le 0 0)
      rw [gap, zero] at none
      omega
    · refine grid_even_of_dist_eq same ?_
      have other := dist_le_gap n e
      rw [tie, gap_ofInt small] at other
      exact le_antisymm other (dist_grid_le _ _)

end Long

end Integers

/-- An integer of at most 53 bits keeps its bits when it is shifted. -/
theorem pow_dvd_shifted {a : Nat} (narrow : a ≤ 2 * fractions) (k : Nat) :
    Nat.pow 2 (Nat.log2 (a * Nat.pow 2 k) - 52) ∣ a * Nat.pow 2 k := by
  rcases Nat.lt_or_eq_of_le narrow with less | rfl
  · have wide : a * Nat.pow 2 k < 2 ^ (53 + k) :=
      calc a * Nat.pow 2 k < 2 * fractions * Nat.pow 2 k :=
            Nat.mul_lt_mul_of_pos_right less (two_pow_pos k)
        _ = 2 ^ (53 + k) := (Nat.pow_add 2 53 k).symm
    have short : Nat.log2 (a * Nat.pow 2 k) < 53 + k := by
      rw [Nat.log2_eq_log_two]
      exact Nat.log_lt_of_lt_pow' (by omega) wide
    exact Dvd.dvd.mul_left (Nat.pow_dvd_pow 2 (by omega)) a
  · have power : 2 * fractions * Nat.pow 2 k = 2 ^ (53 + k) := (Nat.pow_add 2 53 k).symm
    rw [power, Nat.log2_two_pow]
    exact Nat.pow_dvd_pow 2 (by omega)

/-- **An integer of at most 53 bits is the number of the double made of it.** -/
theorem toRat_ofInt {n : Int} (narrow : n.natAbs ≤ 2 * fractions) : (ofInt n).toRat = n := by
  have small : n.natAbs ≤ signBit := narrow.trans (by decide)
  obtain ⟨k, multiple⟩ := pow_dvd_shifted narrow unitExponent
  have exact : gap n (ofInt n) = 0 := by
    rw [gap_ofInt small, units_grid]
    generalize n.natAbs * Nat.pow 2 unitExponent = scaled at multiple ⊢
    rw [Nat.mul_comm] at multiple
    have rounded : roundEven scaled (Nat.pow 2 (Nat.log2 scaled - 52)) = k := by
      generalize Nat.log2 scaled - 52 = shift at multiple ⊢
      rw [multiple]
      exact roundEven_mul k (two_pow_pos shift)
    rw [rounded, ← multiple, Nat.dist_self]
  have near := abs_sub_toRat n (ofInt n)
  rw [exact, Nat.cast_zero, zero_div, abs_eq_zero] at near
  exact (sub_eq_zero.mp near).symm

end RowFilter.Double
