import RowFilter.Proofs.OneType
import RowFilter.Proofs.Shipping
import RowFilter.Proofs.Twins

/-!
# Proofs.Equality — equal trees are interchangeable

Equality of trees is looser than identity in two places: decimals are equal by their number, whatever
their scale, and the two zeros among the doubles are equal.  No frame tells such values apart
(`standing_of_like`): a zero of either sign is read as the decimal zero, a frame that takes neither
decimals nor doubles refuses both in the same words, and a fault shows only values that equality leaves
as they are.  Checks differ at most in the text of the node that they reject.
-/

namespace RowFilter

set_option autoImplicit false

/-! ## Zeros of either sign -/

namespace Double

variable {x y : Double}

theorem magnitude_of_key (zero : x.key = 0) : x.magnitude = 0 := by
  unfold key at zero
  split at zero <;> omega

theorem isNaN_of_key (zero : x.key = 0) : x.isNaN = false := by
  rw [isNaN, magnitude_of_key zero]
  rfl

/-- Doubles in one place are the same, or zeros. -/
theorem eq_or_zero_of_key (same : x.key = y.key) : x = y ∨ x.key = 0 ∧ y.key = 0 := by
  by_cases zero : x.key = 0
  · exact .inr ⟨zero, same ▸ zero⟩
  left
  have bits : x.bits.toNat = y.bits.toNat := by
    have boundx := x.bits.toNat_lt
    have boundy := y.bits.toNat_lt
    simp only [key, isNegative_iff, magnitude, signBit] at same zero
    split at same <;> split at same <;> omega
  cases x
  cases y
  exact congrArg mk (UInt64.toNat_inj.mp bits)

end Double

theorem Decimal.ofDouble?_of_key {d : Double} (zero : d.key = 0) : ofDouble? d = some ⟨0, 0⟩ := by
  have none := Double.magnitude_of_key zero
  simp [ofDouble?, Double.isFinite, Double.shortest, Double.infinite, none]

namespace Value

/-- Identical values, decimals of one number, or zeros of either sign. -/
inductive Like : Value → Value → Prop where
  | refl (v : Value) : Like v v
  | decimal {x y : Decimal} (number : x.toRat = y.toRat) : Like (.decimal x) (.decimal y)
  | zero {x y : Double} (left : x.key = 0) (right : y.key = 0) : Like (.double x) (.double y)

variable {v w : Value}

theorem like_of_same (h : v.same w = true) : v.Like w := by
  cases v with
  | double x =>
      cases w with
      | double y =>
          have equal : x.compare? y = some .eq := beq_iff_eq.mp h
          unfold Double.compare? at equal
          split at equal
          · cases equal
          have keys : x.key = y.key := Std.LawfulEqCmp.eq_of_compare (Option.some.inj equal)
          rcases Double.eq_or_zero_of_key keys with rfl | ⟨left, right⟩
          · exact .refl _
          · exact .zero left right
      | _ => cases h
  | decimal x =>
      cases w with
      | decimal y => exact .decimal (Decimal.same_iff.mp h)
      | _ => cases h
  | _ => cases w <;> simp_all [same, Like.refl]

theorem compare_of_order (full : v ≠ null) (ordered : v.type ≠ .boolean) (type : w.type = v.type)
    (equal : v.order? w = some .eq) : Cell.compare .equals (.of v) (.of w) = .ok true := by
  have satisfied : v.Satisfies .equals w := by
    refine ⟨full, ?_, ordered, by rw [equal]; rfl⟩
    rintro rfl
    cases v <;> cases type
    exact full rfl
  obtain ⟨b, compared, holds⟩ :=
    Cell.compareFor_of_fits Comparator.equals.kind .equals (fits_type v) (type ▸ fits_type w)
  rw [holds.mpr satisfied] at compared
  rwa [Cell.compare, Cell.of, Cell.of, type]

/-- Values that are alike are identical or compare equal. -/
theorem Like.equals (h : v.Like w) :
    w = v ∨ Cell.compare .equals (.of v) (.of w) = .ok true := by
  cases h with
  | refl => exact .inl rfl
  | @decimal x y number =>
      have equal : cmp x.toRat y.toRat = .eq := by rw [number, cmp_self_eq_eq]
      exact .inr (compare_of_order (by simp) (by simp [type]) rfl (congrArg some equal))
  | @zero x y left right =>
      have equal : (Value.double x).order? (.double y) = some .eq := by
        simp [order?, Double.compare?, Double.isNaN_of_key, left, right]
      exact .inr (compare_of_order (by simp) (by simp [type]) rfl equal)

end Value

/-! ## Reading through frames -/

namespace Cell

/-- The cells have one type and values that are alike. -/
def Like (c d : Cell) : Prop := d.type = c.type ∧ c.value.Like d.value

theorem like_of_same {c d : Cell} (h : c.same d = true) : c.Like d := by
  rw [same, Bool.and_eq_true, beq_iff_eq] at h
  exact ⟨h.1.symm, Value.like_of_same h.2⟩

section Reading

variable {c d : Cell}

/-- What holds of a cell with itself, of decimals of one number and of zeros, under one type each,
holds of cells that are alike. -/
theorem Like.elim {P : Cell → Cell → Prop} (h : c.Like d) (refl : ∀ c, P c c)
    (decimal : ∀ t x y, x.toRat = y.toRat → P ⟨t, .decimal x⟩ ⟨t, .decimal y⟩)
    (zero : ∀ t x y, x.key = 0 → y.key = 0 → P ⟨t, .double x⟩ ⟨t, .double y⟩) : P c d := by
  obtain ⟨t, v⟩ := c
  obtain ⟨s, w⟩ := d
  obtain ⟨type, like⟩ := h
  cases type
  cases like with
  | refl => exact refl _
  | decimal number => exact decimal _ _ _ number
  | zero left right => exact zero _ _ _ left right

theorem operand_of_like (h : c.Like d) (kind : Kind) : operand kind c = operand kind d := by
  apply h.elim <;> intros <;> rfl

/-- A reader that takes neither decimals nor doubles reads the same. -/
theorem read_of_like {α : Type} {read : Cell → Except Coercion α} (h : c.Like d)
    (decimal : ∀ t x y, read ⟨t, .decimal x⟩ = read ⟨t, .decimal y⟩)
    (double : ∀ t x y, read ⟨t, .double x⟩ = read ⟨t, .double y⟩) : read c = read d := by
  apply h.elim
  · intro c
    rfl
  · intro t x y number
    exact decimal t x y
  · intro t x y left right
    exact double t x y

/-- Doubles are read as doubles in the same place. -/
theorem readDouble_of_like (h : c.Like d) :
    Agree (fun x y : Double => x.key = y.key ∧ x.isNaN = y.isNaN) (readDouble c) (readDouble d) := by
  apply h.elim
  · intro c
    exact agree_refl (fun _ => ⟨rfl, rfl⟩) _
  · intro t x y number
    rfl
  · intro t x y left right
    exact ⟨left.trans right.symm, (Double.isNaN_of_key left).trans (Double.isNaN_of_key right).symm⟩

/-- Zeros of either sign are read as the decimal zero. -/
theorem readDecimal_of_like (h : c.Like d) :
    Agree (fun x y : Decimal => x.toRat = y.toRat) (readDecimal c) (readDecimal d) := by
  apply h.elim
  · intro c
    refine agree_refl ?_ _
    exact fun _ => rfl
  · intro t x y number
    exact number
  · intro t x y left right
    simp only [readDecimal, Decimal.ofDouble?_of_key left, Decimal.ofDouble?_of_key right]
    rfl

end Reading

/-! ## Comparing -/

theorem readsAlike_of_like {c d : Cell} (h : c.Like d) : c.ReadsAlike d where
  type := h.1
  string := read_of_like h (fun _ _ _ => rfl) fun _ _ _ => rfl
  integer := read_of_like h (fun _ _ _ => rfl) fun _ _ _ => rfl
  long := read_of_like h (fun _ _ _ => rfl) fun _ _ _ => rfl
  double := readDouble_of_like h
  decimal := readDecimal_of_like h

/-- No frame tells cells apart that are alike. -/
theorem standing_of_like {l l' r r' : Cell} (left : l.Like l') (right : r.Like r') :
    standing l r = standing l' r' := by
  refine standing_of_readsAlike (readsAlike_of_like left) (readsAlike_of_like right) fun _ => ?_
  constructor
  · exact read_of_like left (fun _ _ _ => rfl) fun _ _ _ => rfl
  · exact read_of_like right (fun _ _ _ => rfl) fun _ _ _ => rfl

theorem interchangeable_like : Expr.Interchangeable Like where
  refl _ := ⟨rfl, .refl _⟩
  operand h := operand_of_like h

theorem indistinct_like : Indistinct Like where
  toInterchangeable := interchangeable_like
  compareFor left right _ _ :=
    compareFor_congr (interchangeable_like.isNull_eq left) (interchangeable_like.isNull_eq right)
      (standing_of_like left right)

end Cell

/-- The fault without the text of the node that it is found at; its variant and all else stay. -/
def Fault.unnamed : Fault → Fault
  | .rejected _ reason => .rejected "" reason
  | fault => fault

namespace Expr

/-! ## Equal trees -/

section Same

variable {a b : Expr}

theorem forall₂_of_allSame {as bs : List Expr} (h : allSame as bs = true) :
    List.Forall₂ (fun a b => a.same b = true) as bs := by
  induction as generalizing bs with
  | nil =>
      cases bs with
      | nil => exact .nil
      | cons b bs => cases h
  | cons a as ih =>
      cases bs with
      | nil => cases h
      | cons b bs =>
          rw [allSame, Bool.and_eq_true] at h
          exact .cons h.1 (ih h.2)

/-- Equal trees have one shape and equal literals. -/
theorem alike_of_same (h : a.same b = true) : a.Alike (fun c d => c.same d = true) b := by
  induction a generalizing b with
  | literal c =>
      cases b <;> simp only [same, Bool.false_eq_true] at h
      exact .literal h
  | column c =>
      cases b <;> simp only [same, Bool.false_eq_true, beq_iff_eq] at h
      subst h
      exact .column c
  | nullTest test operand ih =>
      cases b <;> simp only [same, Bool.false_eq_true, Bool.and_eq_true, beq_iff_eq] at h
      obtain ⟨rfl, operands⟩ := h
      exact .nullTest test (ih operands)
  | comparison c l r ihl ihr =>
      cases b <;> simp only [same, Bool.false_eq_true, Bool.and_eq_true, beq_iff_eq] at h
      obtain ⟨⟨rfl, left⟩, right⟩ := h
      exact .comparison c (ihl left) (ihr right)
  | member negated probe items ihp ihi =>
      cases b <;> simp only [same, Bool.false_eq_true, Bool.and_eq_true, beq_iff_eq] at h
      obtain ⟨⟨rfl, head⟩, rest⟩ := h
      exact .member negated (ihp head)
        (forall₂_imp (forall₂_of_allSame rest) fun item mem _ => ihi item mem)
  | logic c l r ihl ihr =>
      cases b <;> simp only [same, Bool.false_eq_true, Bool.and_eq_true, beq_iff_eq] at h
      obtain ⟨⟨rfl, left⟩, right⟩ := h
      exact .logic c (ihl left) (ihr right)
  | not operand ih =>
      cases b <;> simp only [same, Bool.false_eq_true] at h
      exact .not (ih h)

theorem alike_like (h : a.same b = true) : a.Alike Cell.Like b :=
  (alike_of_same h).imp (self_mem_nodes a) fun _ _ _ => Cell.like_of_same

end Same

/-! ## Checking equal trees -/

section Check

variable {schema : Schema}

theorem requireComparable_unnamed (node : Expr) (l r : ColumnType) :
    (requireComparable node l r).mapError Fault.unnamed =
      if l.comparable r then .ok () else .error (.rejected "" (.incomparable l r)) := by
  unfold requireComparable
  split <;> rfl

theorem requireTruth_unnamed (node : Expr) (found : ColumnType) :
    (requireTruth node found).mapError Fault.unnamed =
      if found.isTruth then .ok ()
      else .error (.rejected "" (.operandNotBoolean node.kind found)) := by
  unfold requireTruth
  split <;> rfl

theorem checkItems_unnamed (node node' : Expr) (probe : ColumnType) {items items' : List Expr}
    (same : items'.map (fun e => (check schema e).mapError Fault.unnamed) =
      items.map (fun e => (check schema e).mapError Fault.unnamed)) :
    (checkItems schema node' probe items').mapError Fault.unnamed =
      (checkItems schema node probe items).mapError Fault.unnamed := by
  induction items generalizing items' with
  | nil =>
      rw [List.map_nil, List.map_eq_nil_iff] at same
      rw [same]
      rfl
  | cons item more ih =>
      obtain ⟨item', more', rfl, first, rest⟩ := List.map_eq_cons_iff.mp same
      simp only [checkItems, mapError_bind, first, requireComparable_unnamed, ih rest]

/-- But for the text of the node, a check sees nothing of the trees below but their checks. -/
theorem compositional_unnamed (schema : Schema) :
    Compositional fun e => (check schema e).mapError Fault.unnamed where
  nullTest _ _ _ same := by simp only [check, mapError_bind, same]
  comparison _ _ _ _ _ left right := by
    simp only [check, mapError_bind, left, right, requireComparable_unnamed]
  member negated p p' es es' probe items := by
    have empty : es'.isEmpty = es.isEmpty := by
      rw [← List.isEmpty_map (f := fun e => (check schema e).mapError Fault.unnamed), items,
        List.isEmpty_map]
    have searched := fun t =>
      checkItems_unnamed (member negated p es) (member negated p' es') t items
    simp only [check, empty]
    split
    · rfl
    · simp only [mapError_bind, probe, searched]
  logic _ _ _ _ _ left right := by
    simp only [check, mapError_bind, left, right, requireTruth_unnamed, kind]
  not same := by simp only [check, mapError_bind, same, requireTruth_unnamed, kind]

variable {a b : Expr}

theorem check_of_alike (alike : a.Alike Cell.Like b) :
    (check schema b).mapError Fault.unnamed = (check schema a).mapError Fault.unnamed := by
  refine alike.congr (compositional_unnamed schema) ?_
  rintro c d ⟨type, -⟩
  simp only [check, type]

end Check

/-- **Equal trees are interchangeable.**  On every row they give the same fault, or results of one type
whose values are identical or compare equal, and against every schema they have the same type, or faults
of one variant that differ at most in the text of the node rejected. -/
theorem equal_trees_interchange {a b : Expr} (same : a.same b = true) :
    (∀ row, Agree
        (fun c d => d.type = c.type ∧
          (d.value = c.value ∨ Cell.compare .equals (.of c.value) (.of d.value) = .ok true))
        (a.evaluate row) (b.evaluate row)) ∧
      ∀ schema, (∃ t, check schema a = .ok t ∧ check schema b = .ok t) ∨
        ∃ fault other, check schema a = .error fault ∧ check schema b = .error other ∧
          fault.unnamed = other.unnamed := by
  have alike := alike_like same
  refine ⟨fun row => ?_, fun schema => mapError_eq_mapError.mp (check_of_alike alike).symm⟩
  exact (Cell.indistinct_like.agree alike row).imp fun c d _ _ like => ⟨like.1, like.2.equals⟩

/-- `z < d OR NOT (' 1.5 ' IN (d))`. -/
def zeroOr (z : Double) (d : Decimal) : Expr :=
  .or (.comparison .lessThan (.ofValue (.double z)) (.ofValue (.decimal d)))
    (.not (.member false (.ofValue (.string " 1.5 ")) [.ofValue (.decimal d)]))

/-- One tree has the zero of negative sign and 1.50, the other that of positive sign and 1.5. -/
theorem zeroOr_interchanges :
    (zeroOr ⟨0x8000000000000000⟩ ⟨150, 2⟩).same (zeroOr ⟨0⟩ ⟨15, 1⟩) = true ∧
      (zeroOr ⟨0x8000000000000000⟩ ⟨150, 2⟩).evaluate [] = .ok (Cell.boolean true) ∧
      ∃ d, (zeroOr ⟨0⟩ ⟨15, 1⟩).evaluate [] = .ok d ∧ d.type = .boolean := by
  have same : (zeroOr ⟨0x8000000000000000⟩ ⟨150, 2⟩).same (zeroOr ⟨0⟩ ⟨15, 1⟩) = true := by
    decide +kernel
  have evaluated :
      (zeroOr ⟨0x8000000000000000⟩ ⟨150, 2⟩).evaluate [] = .ok (Cell.boolean true) := rfl
  have agree := (equal_trees_interchange same).1 []
  rw [evaluated] at agree
  rcases agree_iff.mp agree with ⟨c, d, hc, hd, type, -⟩ | ⟨fault, failed, -⟩
  · cases hc
    exact ⟨same, evaluated, d, hd, type⟩
  · cases failed

end Expr

end RowFilter
