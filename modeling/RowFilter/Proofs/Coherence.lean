import RowFilter.Proofs.Comparison

/-!
# Proofs.Coherence — six comparators, one standing

All comparators look at one standing of the operands, so they fail together, with one reason, or
answer together.  Swapping the operands swaps their standing (`standing_swap`): the frame is the same,
and the operand that brings its own type to it can always be read, so at most one operand is at
fault, whichever is read first.  Two operands that are compared are in exactly one order, except
truth values and nulls, which satisfy no comparator, and NaNs, which satisfy only `notEquals`
(`comparators_cohere`).
-/

namespace RowFilter.Cell

set_option autoImplicit false

/-! ## Swapped operands -/

def Standing.swap : Standing → Standing
  | unranked => unranked
  | unordered => unordered
  | ordered o => ordered o.swap

theorem satisfies_swap (comparator : Comparator) (s : Standing) :
    s.swap.satisfies comparator.swap = s.satisfies comparator := by
  cases s with
  | unranked => rfl
  | unordered => exact comparator.holds_swap none
  | ordered o => exact comparator.holds_swap (some o)

theorem ofOption_swap (o : Option Ordering) :
    Standing.ofOption (o.map Ordering.swap) = (Standing.ofOption o).swap := by
  cases o <;> rfl

section Swap

variable {α : Type} {read : Cell → Except Coercion α} {frame : ColumnType}
  {order : α → α → Option Ordering} {l r : Cell}

/-- A value is always read through its own type. -/
theorem ReadsFrame.own (reads : ReadsFrame read frame) {v : Value} (full : v.isNull = false)
    (type : v.type = frame) : ∃ a, read (of v) = .ok a := by
  have readable : v.type.canReadAs frame = true := by
    rw [type]
    exact frame.canReadAs_self
  have given := reads.reads v full readable
  cases h : read (of v) with
  | ok a => exact ⟨a, rfl⟩
  | error reason =>
      rw [h] at given
      have lower : v.type.rank < frame.rank := given.2.1
      rw [type] at lower
      exact absurd lower (Nat.lt_irrefl _)

/-- Where one operand can be read, it does not matter which is read first. -/
theorem standingBy_swap (swaps : Swaps order)
    (one : (∃ a, read l = .ok a) ∨ ∃ b, read r = .ok b) :
    standingBy read order r l = (standingBy read order l r).map Standing.swap := by
  unfold standingBy
  cases hl : read l with
  | error reason =>
      have right : ∃ b, read r = .ok b := by
        refine one.resolve_left ?_
        rintro ⟨a, ha⟩
        rw [hl] at ha
        cases ha
      obtain ⟨b, hr⟩ := right
      rw [hr]
      rfl
  | ok a =>
      cases hr : read r with
      | error reason => rfl
      | ok b =>
          show Except.ok (Standing.ofOption (order b a)) = _
          rw [swaps a b, ofOption_swap]
          rfl

theorem eq_frame_or_eq_frame (s t : ColumnType) :
    s = ColumnType.frame s t ∨ t = ColumnType.frame s t := by
  unfold ColumnType.frame
  split
  · exact .inr rfl
  · exact .inl rfl

/-- Swapped operands are in the swapped standing, or at fault for the same reason. -/
theorem standing_swap (tagl : l.WellTagged) (tagr : r.WellTagged) (left : l.isNull = false)
    (right : r.isNull = false) : standing r l = (standing l r).map Standing.swap := by
  have flip : ColumnType.frame r.type l.type = ColumnType.frame l.type r.type :=
    ColumnType.frame_comm _ _
  rcases standing_of_frame (ColumnType.frame l.type r.type) with
    ⟨-, unranked⟩ | ⟨α, read, order, reads, swaps, standing⟩
  · rw [unranked l r rfl, unranked r l flip]
    rfl
  · have typel := tagl.type_eq left
    have typer := tagr.type_eq right
    have one : (∃ a, read l = .ok a) ∨ ∃ b, read r = .ok b := by
      rw [← eq_of_type_eq typel, ← eq_of_type_eq typer]
      rcases eq_frame_or_eq_frame l.type r.type with own | own
      · exact .inl (reads.own left (typel.trans own))
      · exact .inr (reads.own right (typer.trans own))
    rw [standing l r rfl, standing r l flip]
    exact standingBy_swap swaps one

end Swap

/-! ## Operands in no order -/

/-- The cell is read as a NaN where doubles are compared. -/
def ReadsNaN (c : Cell) : Prop := ∃ d, readDouble c = .ok d ∧ d.isNaN = true

/-- Two operands that satisfy no comparator: one is null, or both are truth values. -/
def Unranked (l r : Cell) : Prop :=
  l.isNull = true ∨ r.isNull = true ∨ l.type = .boolean ∧ r.type = .boolean

/-- Two operands that are compared as doubles, one of which is read as a NaN. -/
def Unordered (l r : Cell) : Prop :=
  ColumnType.frame l.type r.type = .double ∧ (l.ReadsNaN ∨ r.ReadsNaN)

section Unordered

variable {l r : Cell} {s : Standing}

/-- In an order without gaps all that can be read is ordered. -/
theorem ordered_of_standingBy {α : Type} {read : Cell → Except Coercion α} {cmp : α → α → Ordering}
    (h : standingBy read (fun a b => some (cmp a b)) l r = .ok s) : ∃ o, s = .ordered o := by
  obtain ⟨a, b, -, -, rfl⟩ := standingBy_eq_ok.mp h
  exact ⟨cmp a b, rfl⟩

theorem unordered_iff_of_double (frame : ColumnType.frame l.type r.type = .double)
    (h : standing l r = .ok s) :
    (s = .unordered ∨ ∃ o, s = .ordered o) ∧ (s = .unordered ↔ Unordered l r) := by
  simp only [standing, frame, standingBy_eq_ok] at h
  obtain ⟨a, b, ha, hb, rfl⟩ := h
  have nan : Unordered l r ↔ a.isNaN = true ∨ b.isNaN = true := by
    simp [Unordered, ReadsNaN, frame, ha, hb]
  have none : Standing.ofOption (a.compare? b) = .unordered ↔ a.compare? b = none := by
    cases a.compare? b <;> simp [Standing.ofOption]
  refine ⟨?_, ?_⟩
  · cases a.compare? b with
    | none => exact .inl rfl
    | some o => exact .inr ⟨o, rfl⟩
  · rw [none, nan, Double.compare?_eq_none_iff]

theorem type_ne_null {c : Cell} (tagged : c.WellTagged) (full : c.isNull = false) :
    c.type ≠ .null := by
  intro null
  have type := tagged.type_eq full
  rw [null] at type
  cases hv : c.value with
  | null =>
      rw [isNull, hv] at full
      cases full
  | _ =>
      rw [hv] at type
      cases type

/-- Operands that are not null satisfy no comparator where their frame is that of truth values. -/
theorem unranked_iff (tagl : l.WellTagged) (tagr : r.WellTagged) (left : l.isNull = false)
    (right : r.isNull = false) :
    (ColumnType.frame l.type r.type ≠ .null) ∧
      (Unranked l r ↔ ColumnType.frame l.type r.type = .boolean) := by
  have typel := type_ne_null tagl left
  have typer := type_ne_null tagr right
  simp only [Unranked, left, right, Bool.false_eq_true, false_or]
  revert typel typer
  cases l.type <;> cases r.type <;> simp [ColumnType.frame, ColumnType.rank]

/-- Operands that are not null and can be compared are truth values, or have a NaN among them, or
are in an order. -/
theorem standing_cases (tagl : l.WellTagged) (tagr : r.WellTagged) (left : l.isNull = false)
    (right : r.isNull = false) (h : standing l r = .ok s) :
    s = .unranked ∧ Unranked l r ∨ s = .unordered ∧ ¬ Unranked l r ∧ Unordered l r ∨
      (∃ o, s = .ordered o) ∧ ¬ Unranked l r ∧ ¬ Unordered l r := by
  obtain ⟨some, unranked⟩ := unranked_iff tagl tagr left right
  by_cases boolean : ColumnType.frame l.type r.type = .boolean
  · simp only [standing, boolean] at h
    cases h
    exact .inl ⟨rfl, unranked.mpr boolean⟩
  have ranked : ¬ Unranked l r := fun h => boolean (unranked.mp h)
  by_cases double : ColumnType.frame l.type r.type = .double
  · obtain ⟨ordered | ordered, nan⟩ := unordered_iff_of_double double h
    · exact .inr (.inl ⟨ordered, ranked, nan.mp ordered⟩)
    · refine .inr (.inr ⟨ordered, ranked, fun unordered => ?_⟩)
      obtain ⟨o, rfl⟩ := ordered
      cases nan.mpr unordered
  have numbers : ¬ Unordered l r := fun h => double h.1
  refine .inr (.inr ⟨?_, ranked, numbers⟩)
  cases frame : ColumnType.frame l.type r.type with
  | null => exact absurd frame some
  | boolean => exact absurd frame boolean
  | double => exact absurd frame double
  | string | timestamp | integer | long | decimal =>
      simp only [standing, frame] at h
      exact ordered_of_standingBy h

end Unordered

/-! ## Answers -/

section Answers

variable {l r : Cell}

/-- The answers of three comparators are settled by those of the other three. -/
structure Complementary (answer : Comparator → Bool) : Prop where
  notEquals : answer .notEquals = !answer .equals
  greaterThanEquals : answer .greaterThanEquals = (answer .greaterThan || answer .equals)
  lessThanEquals : answer .lessThanEquals = (answer .lessThan || answer .equals)

/-- The laws of the answers that the comparators give for two operands. -/
structure Coherent (l r : Cell) (answer : Comparator → Bool) : Prop where
  unranked : Unranked l r → ∀ c, answer c = false
  complementary : ¬ Unranked l r → Complementary answer
  unordered : ¬ Unranked l r → Unordered l r → ∀ c, answer c = true ↔ c = .notEquals
  ordered : ¬ Unranked l r → ¬ Unordered l r →
    ∃! c, c ∈ [Comparator.lessThan, .equals, .greaterThan] ∧ answer c = true

theorem complementary_holds (o : Option Ordering) : Complementary (Comparator.holds · o) where
  notEquals := rfl
  greaterThanEquals := rfl
  lessThanEquals := rfl

/-- Exactly one of three comparators holds of an order. -/
theorem existsUnique_holds (o : Ordering) :
    ∃! c, c ∈ [Comparator.lessThan, .equals, .greaterThan] ∧ c.holds (some o) = true := by
  cases o with
  | lt => exact ⟨.lessThan, by decide, fun c => by cases c <;> decide⟩
  | eq => exact ⟨.equals, by decide, fun c => by cases c <;> decide⟩
  | gt => exact ⟨.greaterThan, by decide, fun c => by cases c <;> decide⟩

theorem coherent_of_standing {s : Standing} (tagl : l.WellTagged) (tagr : r.WellTagged)
    (left : l.isNull = false) (right : r.isNull = false) (h : standing l r = .ok s) :
    Coherent l r (s.satisfies ·) := by
  rcases standing_cases tagl tagr left right h with
    ⟨rfl, unranked⟩ | ⟨rfl, ranked, unordered⟩ | ⟨⟨o, rfl⟩, ranked, ordered⟩
  · exact ⟨fun _ _ => rfl, absurd unranked, absurd unranked, absurd unranked⟩
  · refine ⟨fun h => absurd h ranked, fun _ => complementary_holds none, fun _ _ c => ?_,
      fun _ h => absurd unordered h⟩
    cases c <;> decide
  · exact ⟨fun h => absurd h ranked, fun _ => complementary_holds (some o),
      fun _ h => absurd h ordered, fun _ _ => existsUnique_holds o⟩

theorem coherent_of_null (null : l.isNull = true ∨ r.isNull = true) :
    Coherent l r fun _ => false := by
  have unranked : Unranked l r := null.elim .inl fun h => .inr (.inl h)
  exact ⟨fun _ _ => rfl, absurd unranked, absurd unranked, absurd unranked⟩

/-- **The comparators agree about two operands.**  Either all of them answer, as `Coherent` has it,
or all fail for one reason, each in its own name; and each answers or fails for the same reason when
the operands are swapped and it is replaced by its converse. -/
theorem comparators_cohere (tagl : l.WellTagged) (tagr : r.WellTagged) :
    (∃ answer : Comparator → Bool, Coherent l r answer ∧
        ∀ c, compare c l r = .ok (answer c) ∧ compare c.swap r l = .ok (answer c)) ∨
      ∃ reason : Fault.Reason, ∀ c,
        compare c l r = .error (.unsupported (.node c.kind) reason) ∧
          compare c.swap r l = .error (.unsupported (.node c.swap.kind) reason) := by
  by_cases null : l.isNull = true ∨ r.isNull = true
  · refine .inl ⟨fun _ => false, coherent_of_null null, fun c => ?_⟩
    exact ⟨compareFor_null null, compareFor_null null.symm⟩
  rw [not_or, Bool.not_eq_true, Bool.not_eq_true] at null
  obtain ⟨left, right⟩ := null
  have swapped := standing_swap tagl tagr left right
  cases h : standing l r with
  | ok s =>
      rw [h] at swapped
      refine .inl ⟨(s.satisfies ·), coherent_of_standing tagl tagr left right h, fun c => ?_⟩
      rw [compare, compare, compareFor_full left right, compareFor_full right left, h, swapped]
      refine ⟨rfl, ?_⟩
      show Except.ok (s.swap.satisfies c.swap) = Except.ok (s.satisfies c)
      rw [satisfies_swap]
  | error reason =>
      rw [h] at swapped
      refine .inr ⟨.coercion reason, fun c => ?_⟩
      rw [compare, compare, compareFor_full left right, compareFor_full right left, h, swapped]
      exact ⟨rfl, rfl⟩

/-- A text that is read as a NaN, beside a number. -/
theorem nanText_satisfies_notEquals :
    (of (.string " -NaN")).WellTagged ∧ (of (.double ⟨0⟩)).WellTagged ∧
      Unordered (of (.string " -NaN")) (of (.double ⟨0⟩)) ∧
      compare .notEquals (of (.string " -NaN")) (of (.double ⟨0⟩)) = .ok true ∧
      (∀ c, compare c (of (.string " -NaN")) (of (.double ⟨0⟩)) =
        compare c.swap (of (.double ⟨0⟩)) (of (.string " -NaN"))) := by
  have unordered : Unordered (of (.string " -NaN")) (of (.double ⟨0⟩)) :=
    ⟨rfl, .inl ⟨Double.nan true, rfl, by decide⟩⟩
  have ranked : ¬ Unranked (of (.string " -NaN")) (of (.double ⟨0⟩)) := by
    rintro (h | h | h) <;> simp_all [of, isNull, Value.isNull, Value.type]
  refine ⟨wellTagged_of _, wellTagged_of _, unordered, ?_⟩
  rcases comparators_cohere (wellTagged_of (.string " -NaN")) (wellTagged_of (.double ⟨0⟩)) with
    ⟨answer, coherent, answers⟩ | ⟨reason, fails⟩
  · refine ⟨?_, fun c => ?_⟩
    · rw [(answers .notEquals).1]
      exact congrArg _ ((coherent.unordered ranked unordered .notEquals).mpr rfl)
    · rw [(answers c).1, (answers c).2]
  · cases (fails .equals).1

end Answers

end RowFilter.Cell
