import RowFilter.Proofs.Alike
import RowFilter.Proofs.Comparison

/-!
# Proofs.NullTypes — the type of a null plays no part in a decision

A null keeps the type that it was declared with, and types choose the frames of comparisons and are named
in faults.  But every operation looks for nulls before it looks at types: a comparison with a null is
false in any frame, and an operand that is null is never of a wrong type.  So the nulls among the
literals of a tree may take on other types, and only a tree that is such a null itself shows it.
-/

namespace RowFilter

set_option autoImplicit false

namespace Cell

/-- The same cell, or a null in place of a null. -/
def Retyped (c d : Cell) : Prop := d = c ∨ c.isNull = true ∧ d.isNull = true

theorem operand_of_null {c : Cell} (null : c.isNull = true) (kind : Kind) :
    operand kind c = .ok none := by
  rw [isNull, Value.isNull_iff] at null
  rw [operand, null]

theorem indistinct_retyped : Indistinct Retyped where
  refl c := .inl rfl
  operand h kind := by
    rcases h with rfl | ⟨nullc, nulld⟩
    · rfl
    · rw [operand_of_null nullc, operand_of_null nulld]
  compareFor left right kind comparator := by
    rcases left with rfl | ⟨nulll, nulll'⟩
    · rcases right with rfl | ⟨nullr, nullr'⟩
      · rfl
      · rw [compareFor_null (.inr nullr), compareFor_null (.inr nullr')]
    · rw [compareFor_null (.inl nulll), compareFor_null (.inl nulll')]

theorem Retyped.value_eq {c d : Cell} (h : c.Retyped d) : d.value = c.value := by
  rcases h with rfl | ⟨nullc, nulld⟩
  · rfl
  · rw [Value.isNull_iff.mp nullc, Value.isNull_iff.mp nulld]

end Cell

namespace Expr

variable {e e' : Expr}

theorem literal_of_null {c : Cell} (h : c.isNull = true) : literal c = null c.type :=
  congrArg (fun v => literal ⟨c.type, v⟩) (Value.isNull_iff.mp h)

/-- Only a null that takes on another type, and is the whole tree, changes the type of the results. -/
theorem tag_eq_of_retyped (retyped : e.Alike Cell.Retyped e') :
    e'.tag = e.tag ∨ ∃ s t, s ≠ t ∧ e = null s ∧ e' = null t := by
  cases retyped with
  | @literal c d related =>
      rcases related with rfl | ⟨nullc, nulld⟩
      · exact .inl rfl
      · by_cases same : d.type = c.type
        · exact .inl same
        · exact .inr ⟨c.type, d.type, Ne.symm same, literal_of_null nullc, literal_of_null nulld⟩
  | _ => exact .inl rfl

/-- **The type of a null is never seen.**  When nulls among the literals of a tree take on other types,
the tree gives the same fault or the same value on every row, of the same type unless it is such a null
itself, and its filter keeps and selects the same rows. -/
theorem null_types_unseen (retyped : e.Alike Cell.Retyped e') :
    (∀ row,
      Agree
          (fun a b => b.value = a.value ∧
            (b.type = a.type ∨ ∃ s t, s ≠ t ∧ e = null s ∧ e' = null t))
          (e.evaluate row) (e'.evaluate row) ∧
        (Filter.mk e').keeps row = (Filter.mk e).keeps row) ∧
      ∀ rows, (Filter.mk e').select rows = (Filter.mk e).select rows := by
  have indistinct := Cell.indistinct_retyped
  refine ⟨fun row => ⟨?_, indistinct.keeps retyped row⟩, indistinct.select retyped⟩
  refine (indistinct.agree retyped row).imp fun a b ha hb related => ⟨related.value_eq, ?_⟩
  rw [type_of_evaluate ha, type_of_evaluate hb]
  exact tag_eq_of_retyped retyped

/-- `NULL < 5 OR #0 NOT IN (NULL, 1)`, where the nulls have the types given. -/
def nullsOf (s t : ColumnType) : Expr :=
  .or (.comparison .lessThan (.null s) (.ofValue (.integer 5)))
    (.member true (.column ⟨0, .integer, none⟩) [.null t, .ofValue (.integer 1)])

/-- A truth value is not compared with a number, but a null of that type is. -/
theorem nullsOf_unseen :
    (nullsOf .integer .integer).Alike Cell.Retyped (nullsOf .boolean .timestamp) ∧
      (nullsOf .boolean .timestamp).evaluate [.integer 7] = .ok (Cell.boolean false) ∧
      ∀ rows, (Filter.mk (nullsOf .boolean .timestamp)).select rows =
        (Filter.mk (nullsOf .integer .integer)).select rows := by
  have nulls : ∀ s t, (null s).Alike Cell.Retyped (null t) := fun s t => .literal (.inr ⟨rfl, rfl⟩)
  have same : ∀ v, (ofValue v).Alike Cell.Retyped (ofValue v) := fun v => .literal (.inl rfl)
  have retyped : (nullsOf .integer .integer).Alike Cell.Retyped (nullsOf .boolean .timestamp) :=
    .logic .or (.comparison .lessThan (nulls _ _) (same _))
      (.member true (.column _) (.cons (nulls _ _) (.cons (same _) .nil)))
  exact ⟨retyped, rfl, (null_types_unseen retyped).2⟩

end Expr

end RowFilter
