import RowFilter.Proofs.ExactOrder
import RowFilter.Proofs.ShortestDecimal
import Mathlib.Order.WithBot

/-!
# Proofs.NumberOrder — being less has no cycles among numbers

Numbers of two types are compared after one of them, or both, are rounded or written out as decimals,
so being equal is not transitive.  Still each number has one `place`: a double stands where its
shortest decimal is, any other number where it is itself, and the infinities beyond all of them.
Rounding keeps the order of places (`Stands.mono`).  So one number is less than another only if its
place is lower (`place_lt_of_less`), along a chain places rise, and no chain returns to where it
started (`less_never_returns`).
-/

namespace RowFilter

set_option autoImplicit false

/-- The rational numbers and what is below and above all of them. -/
abbrev Place : Type := WithBot (WithTop ℚ)

namespace Place

/-- The place of a number. -/
def number (x : ℚ) : Place := ((x : WithTop ℚ) : WithBot (WithTop ℚ))

/-- The place above all numbers. -/
def high : Place := ((⊤ : WithTop ℚ) : WithBot (WithTop ℚ))

theorem number_le_number {x y : ℚ} : number x ≤ number y ↔ x ≤ y := by
  rw [number, number, WithBot.coe_le_coe, WithTop.coe_le_coe]

theorem number_lt_number {x y : ℚ} : number x < number y ↔ x < y := by
  rw [number, number, WithBot.coe_lt_coe, WithTop.coe_lt_coe]

theorem number_lt_high (x : ℚ) : number x < high := by
  rw [number, high, WithBot.coe_lt_coe]
  exact WithTop.coe_lt_top x

theorem bot_lt_number (x : ℚ) : ⊥ < number x := WithBot.bot_lt_coe _

theorem bot_lt_high : ⊥ < high := WithBot.bot_lt_coe _

end Place

/-! ## Doubles -/

namespace Double

open Place (number high)

/-- A double made of what is at the place has the given place in the order of doubles. -/
inductive Stands : Place → Int → Prop where
  | number {x : ℚ} {a : Int} (h : RoundsTo x a) : Stands (number x) a
  | high : Stands high infinite
  | low : Stands ⊥ (-infinite)

/-- **Rounding keeps the order of places.** -/
theorem Stands.mono {p q : Place} {a b : Int} (hp : Stands p a) (hq : Stands q b) (le : p ≤ q) :
    a ≤ b := by
  cases hp with
  | number hx =>
      cases hq with
      | number hy => exact hx.mono hy (Place.number_le_number.mp le)
      | high =>
          have bound := hx.natAbs_le
          omega
      | low => exact absurd le (Place.bot_lt_number _).not_ge
  | high =>
      cases hq with
      | number hy => exact absurd le (Place.number_lt_high _).not_ge
      | high => exact le_refl _
      | low => exact absurd le Place.bot_lt_high.not_ge
  | low =>
      cases hq with
      | number hy =>
          have bound := hy.natAbs_le
          omega
      | high => decide
      | low => exact le_refl _

/-- The place that a double shows: that of its shortest decimal. -/
def place (d : Double) : Place :=
  match Decimal.ofDouble? d with
  | some x => number x.toRat
  | none => if d.isNegative then ⊥ else high

theorem stands_of_infinite {d : Double} (real : d.isNaN = false) (unbounded : d.isFinite = false) :
    Stands (if d.isNegative then ⊥ else high) d.key := by
  have magnitude : d.magnitude = infinite := by
    simp only [isNaN, isFinite, decide_eq_false_iff_not] at real unbounded
    omega
  simp only [key, magnitude]
  by_cases negative : d.isNegative = true
  · rw [if_pos negative, if_pos negative]
    exact .low
  · rw [if_neg negative, if_neg negative]
    exact .high

theorem stands_place {d : Double} (real : d.isNaN = false) : Stands d.place d.key := by
  unfold place
  cases h : Decimal.ofDouble? d with
  | some x => exact .number (roundsTo_ofDouble? h)
  | none => exact stands_of_infinite real ((Cell.ofDouble?_eq_none_iff d).mp h)

theorem lt_of_compare? {a b : Double} (h : a.compare? b = some .lt) :
    a.isNaN = false ∧ b.isNaN = false ∧ a.key < b.key := by
  unfold compare? at h
  split at h
  · cases h
  · rename_i real
    rw [Bool.or_eq_true, not_or, Bool.not_eq_true, Bool.not_eq_true] at real
    rw [Option.some.injEq, ← cmp_eq_compare, cmp_eq_lt_iff] at h
    exact ⟨real.1, real.2, h⟩

end Double

/-! ## Numbers -/

namespace Value

open Place (number)

/-- The value is an integer, a long, a double or a decimal. -/
def isNumber : Value → Bool
  | integer _ | long _ | double _ | decimal _ => true
  | _ => false

/-- The first value is less than the second, by comparing them. -/
def Less (v w : Value) : Prop := Cell.compare .lessThan (.of v) (.of w) = .ok true

/-- Where a number stands among all numbers. -/
def place : Value → Place
  | double d => d.place
  | v =>
    match v.rational? with
    | some x => number x
    | none => ⊥

section

variable {v w : Value}

theorem place_of_exact {x : ℚ} (h : v.rational? = some x) : v.place = number x := by
  cases v with
  | integer n | long n | decimal d =>
      cases h
      rfl
  | _ => cases h

theorem exact_of_isNumber (h : v.isNumber = true) :
    (∃ x, v.rational? = some x) ∨ v.type = .double := by
  cases v with
  | integer n | long n | decimal d => exact .inl ⟨_, rfl⟩
  | double d => exact .inr rfl
  | _ => cases h

/-- What is read of a number as a double is rounded from its place. -/
theorem stands_of_readDouble {a : Double} (h : v.isNumber = true)
    (read : Cell.readDouble (.of v) = .ok a) (real : a.isNaN = false) :
    Double.Stands v.place a.key := by
  cases v with
  | integer n | long n =>
      cases read
      exact .number (Double.roundsTo_ofInt n.toInt)
  | double d =>
      cases read
      exact Double.stands_place real
  | decimal d => cases read
  | _ => cases h

/-- What is read of a number as a decimal is at its place. -/
theorem place_of_readDecimal {x : Decimal} (h : v.isNumber = true)
    (read : Cell.readDecimal (.of v) = .ok x) : v.place = number x.toRat := by
  cases v with
  | integer n | long n =>
      cases read
      rw [Cell.toRat_ofInt]
      rfl
  | double d =>
      simp only [Cell.readDecimal, Cell.of] at read
      cases shown : Decimal.ofDouble? d with
      | some y =>
          rw [shown] at read
          cases read
          simp only [place, Double.place, shown]
      | none =>
          rw [shown] at read
          cases read
  | decimal d =>
      cases read
      rfl
  | _ => cases h

/-- A double is compared with a number in the frame of doubles or in that of decimals. -/
theorem frame_of_double (hv : v.isNumber = true) (hw : w.isNumber = true)
    (double : v.type = .double ∨ w.type = .double) :
    ColumnType.frame v.type w.type = .double ∨ ColumnType.frame v.type w.type = .decimal := by
  cases v <;> cases hv <;> cases w <;> cases hw <;> simp_all [type, ColumnType.frame, ColumnType.rank]

theorem isNull_of_isNumber (h : v.isNumber = true) : (Cell.of v).isNull = false := by
  cases v <;> first | rfl | cases h

theorem option_of_ordered {o : Option Ordering} {x : Ordering}
    (h : Cell.Standing.ordered x = .ofOption o) : o = some x := by
  cases o <;> cases h
  rfl

theorem standing_of_less (hv : v.isNumber = true) (hw : w.isNumber = true) (less : Less v w) :
    Cell.standing (.of v) (.of w) = .ok (.ordered .lt) := by
  rw [Less, Cell.compare, Cell.compareFor_full (isNull_of_isNumber hv) (isNull_of_isNumber hw)] at less
  cases standing : Cell.standing (.of v) (.of w) with
  | error reason =>
      rw [standing] at less
      cases less
  | ok s =>
      rw [standing] at less
      have satisfied : s.satisfies .lessThan = true := Except.ok.inj less
      cases s with
      | unranked => cases satisfied
      | unordered => cases satisfied
      | ordered o => cases o <;> first | rfl | cases satisfied

/-- Where two numbers are rounded, the greater was not at a lower place. -/
theorem place_lt_of_doubles (hv : v.isNumber = true) (hw : w.isNumber = true)
    (frame : ColumnType.frame v.type w.type = .double)
    (standing : Cell.standing (.of v) (.of w) = .ok (.ordered .lt)) : v.place < w.place := by
  simp only [Cell.standing, Cell.of, frame, Cell.standingBy_eq_ok] at standing
  obtain ⟨a, b, reada, readb, order⟩ := standing
  obtain ⟨reala, realb, keys⟩ := Double.lt_of_compare? (option_of_ordered order)
  by_contra high
  have lower := stands_of_readDouble hv reada reala
  have upper := stands_of_readDouble hw readb realb
  have mono := upper.mono lower (not_lt.mp high)
  omega

/-- Where two numbers are written out, they are compared by their places. -/
theorem place_lt_of_decimals (hv : v.isNumber = true) (hw : w.isNumber = true)
    (frame : ColumnType.frame v.type w.type = .decimal)
    (standing : Cell.standing (.of v) (.of w) = .ok (.ordered .lt)) : v.place < w.place := by
  simp only [Cell.standing, Cell.of, frame, Cell.standingBy_eq_ok] at standing
  obtain ⟨x, y, readx, ready, order⟩ := standing
  have ordered : x.compare y = .lt := Option.some.inj (option_of_ordered order)
  rw [Decimal.compare_eq_cmp, cmp_eq_lt_iff] at ordered
  rw [place_of_readDecimal hv readx, place_of_readDecimal hw ready, Place.number_lt_number]
  exact ordered

/-- **A number is less than another only if its place is lower**, whatever their types are. -/
theorem place_lt_of_less (hv : v.isNumber = true) (hw : w.isNumber = true) (less : Less v w) :
    v.place < w.place := by
  by_cases double : v.type = .double ∨ w.type = .double
  · have standing := standing_of_less hv hw less
    rcases frame_of_double hv hw double with frame | frame
    · exact place_lt_of_doubles hv hw frame standing
    · exact place_lt_of_decimals hv hw frame standing
  · rw [not_or] at double
    obtain ⟨x, left⟩ := (exact_of_isNumber hv).resolve_right double.1
    obtain ⟨y, right⟩ := (exact_of_isNumber hw).resolve_right double.2
    rw [Less, compare_of_exact left right, Except.ok.injEq, decide_eq_true_iff] at less
    rw [place_of_exact left, place_of_exact right, Place.number_lt_number]
    exact less

end

section Chain

variable {first : Value} {more : List Value}

/-- Along a chain of numbers, each less than the next, places rise. -/
theorem place_le_of_chain (numbers : ∀ v ∈ first :: more, v.isNumber = true)
    (chain : (first :: more).IsChain Less) :
    first.place ≤ ((first :: more).getLast (List.cons_ne_nil first more)).place := by
  induction more generalizing first with
  | nil => exact le_refl _
  | cons second more ih =>
      rw [List.isChain_cons_cons] at chain
      rw [List.forall_mem_cons] at numbers
      obtain ⟨number, numbers⟩ := numbers
      have step := place_lt_of_less number (numbers second List.mem_cons_self) chain.1
      exact step.le.trans (ih numbers chain.2)

/-- **No chain of numbers, each less than the next, ends in one that is less than the first.** -/
theorem less_never_returns (numbers : ∀ v ∈ first :: more, v.isNumber = true)
    (chain : (first :: more).IsChain Less) :
    ¬ Less ((first :: more).getLast (List.cons_ne_nil first more)) first := by
  intro less
  have last := numbers _ (List.getLast_mem (List.cons_ne_nil first more))
  have returned := place_lt_of_less last (numbers first List.mem_cons_self) less
  exact absurd (place_le_of_chain numbers chain) returned.not_ge

/-- Between 2^60 and its shortest decimal, `1152921504606847000`, stand a long and a decimal. -/
theorem doubleBelowItsText_is_not_less :
    Less (long 1152921504606846990) (decimal ⟨1152921504606846995, 0⟩) ∧
      Less (decimal ⟨1152921504606846995, 0⟩) (double ⟨0x43B0000000000000⟩) ∧
      ¬ Less (double ⟨0x43B0000000000000⟩) (long 1152921504606846990) := by
  have first : Less (long 1152921504606846990) (decimal ⟨1152921504606846995, 0⟩) := by
    unfold Less
    decide +kernel
  have second : Less (decimal ⟨1152921504606846995, 0⟩) (double ⟨0x43B0000000000000⟩) := by
    unfold Less
    decide +kernel
  have chain : [long 1152921504606846990, decimal ⟨1152921504606846995, 0⟩,
      double ⟨0x43B0000000000000⟩].IsChain Less := .cons_cons first (.cons_cons second (.singleton _))
  exact ⟨first, second, less_never_returns (by simp [isNumber]) chain⟩

end Chain

end Value

end RowFilter
