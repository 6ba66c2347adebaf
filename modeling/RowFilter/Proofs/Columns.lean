import RowFilter.Proofs.Strictness
import Mathlib.Data.List.Basic

/-!
# Proofs.Columns — a filter depends on its columns alone

The columns of a tree are those among its nodes (`occurrences_eq_nodes`), and are reported once each
and increasing.  An evaluation asks the row for these and for nothing else (`evaluateBy_congr`), however
columns are fetched.  So rows that agree on them cannot be told apart by the tree, and a tree without
columns has one outcome for all rows.
-/

namespace RowFilter

set_option autoImplicit false

namespace Expr

/-! ## The columns of a tree -/

/-- The index that the node reads. -/
def index? : Expr → Option UInt64
  | column c => some c.index
  | _ => none

/-- The occurrences are the columns among the nodes. -/
theorem occurrences_eq_nodes (e : Expr) : e.occurrences = e.nodes.filterMap index? := by
  induction e using childInduction with
  | step e ih =>
      -- A column is the one node with an index of its own, and it has no children.
      by_cases leaf : ∃ c, e = column c
      · obtain ⟨c, rfl⟩ := leaf
        rfl
      · have inner : ∀ c, e ≠ column c := fun c h => leaf ⟨c, h⟩
        have root : e.index? = none := by
          cases e with
          | column c => exact absurd rfl (inner c)
          | _ => rfl
        rw [occurrences_eq_children e inner, nodes_eq, List.filterMap_cons_none root,
          List.filterMap_flatMap]
        exact List.flatMap_congr ih

theorem mem_occurrences {e : Expr} {i : UInt64} :
    i ∈ e.occurrences ↔ ∃ c, column c ∈ e.nodes ∧ c.index = i := by
  rw [occurrences_eq_nodes, List.mem_filterMap]
  constructor
  · rintro ⟨n, h, found⟩
    cases n <;> simp [index?] at found
    exact ⟨_, h, found⟩
  · rintro ⟨c, h, rfl⟩
    exact ⟨_, h, rfl⟩

theorem insertIndex_increasing (i : UInt64) {l : List UInt64} (h : l.Pairwise (· < ·)) :
    (insertIndex i l).Pairwise (· < ·) := by
  induction l with
  | nil => simp [insertIndex]
  | cons j more ih =>
      obtain ⟨first, rest⟩ := List.pairwise_cons.mp h
      simp only [insertIndex]
      split
      · rename_i lt
        refine List.pairwise_cons.mpr ⟨?_, h⟩
        intro k mem
        rcases List.mem_cons.mp mem with rfl | mem
        · exact lt
        · exact UInt64.lt_trans lt (first k mem)
      · split
        · exact h
        · rename_i ge ne
          refine List.pairwise_cons.mpr ⟨?_, ih rest⟩
          intro k mem
          rcases mem_insertIndex.mp mem with rfl | mem
          · exact UInt64.lt_of_le_of_ne (UInt64.not_lt.mp ge) (Ne.symm ne)
          · exact first k mem

theorem columns_increasing (e : Expr) : e.columns.Pairwise (· < ·) := by
  simp only [columns]
  induction e.occurrences with
  | nil => exact .nil
  | cons i more ih => exact insertIndex_increasing i ih

theorem columns_eq_nil_iff {e : Expr} : e.columns = [] ↔ e.occurrences = [] := by
  simp only [List.eq_nil_iff_forall_not_mem, mem_columns]

theorem allConstant_eq (es : List Expr) : allConstant es = es.all isConstant := by
  induction es with
  | nil => rfl
  | cons e more ih => simp [allConstant, ih]

/-- The constant trees are those without columns. -/
theorem isConstant_iff {e : Expr} : e.isConstant = true ↔ e.occurrences = [] := by
  induction e with
  | literal c | column c => simp [isConstant, occurrences]
  | nullTest test operand ih => simpa [isConstant, occurrences] using ih
  | comparison c l r ihl ihr => simp [isConstant, occurrences, ihl, ihr]
  | member negated probe items ihp ihi =>
      simp only [isConstant, occurrences, allConstant_eq, occurrencesIn_eq, Bool.and_eq_true,
        List.all_eq_true, List.append_eq_nil_iff, List.flatMap_eq_nil_iff, ihp]
      refine and_congr_right fun _ => ?_
      exact forall₂_congr ihi
  | logic c l r ihl ihr => simp [isConstant, occurrences, ihl, ihr]
  | not operand ih => simpa [isConstant, occurrences] using ih

/-- A column that a tree with a result has is a column of the row. -/
theorem lt_length_of_evaluate {e : Expr} {row : Row} {a : Cell} (h : e.evaluate row = .ok a)
    {i : UInt64} (mem : i ∈ e.columns) : i.toNat < row.length := by
  obtain ⟨c, below, rfl⟩ := mem_occurrences.mp (mem_columns.mp mem)
  obtain ⟨b, hb⟩ := evaluates_of_contains h (contains_iff_mem_nodes.mpr below)
  obtain ⟨v, found, -⟩ := evaluate_column_eq_ok.mp hb
  exact (List.getElem?_eq_some_iff.mp found).1

/-! ## Rows that agree on the columns -/

section Agreement

variable {m : Type → Type} [Monad m] [MonadExceptOf Fault m] {fetch fetch' : UInt64 → m Value}

theorem searchBy_congr {kind : Kind} {probe : Cell} {items : List Expr}
    (same : ∀ item ∈ items, evaluateBy fetch item = evaluateBy fetch' item) (s : Search) :
    searchBy fetch kind probe items s = searchBy fetch' kind probe items s := by
  induction items generalizing s with
  | nil => simp only [searchBy]
  | cons item more ih =>
      rw [List.forall_mem_cons] at same
      simp only [searchBy, same.1, ih same.2]

/-- Evaluation asks for the columns of the tree and for nothing else. -/
theorem evaluateBy_congr {e : Expr} (same : ∀ i ∈ e.occurrences, fetch i = fetch' i) :
    evaluateBy fetch e = evaluateBy fetch' e := by
  induction e with
  | literal c => simp only [evaluateBy]
  | column c => simp only [evaluateBy, same c.index (by simp [occurrences])]
  | nullTest test operand ih => simp only [evaluateBy, ih same]
  | comparison c l r ihl ihr =>
      rw [occurrences, List.forall_mem_append] at same
      simp only [evaluateBy, ihl same.1, ihr same.2]
  | member negated probe items ihp ihi =>
      rw [occurrences, List.forall_mem_append, occurrencesIn_eq] at same
      have each : ∀ item ∈ items, evaluateBy fetch item = evaluateBy fetch' item := by
        intro item mem
        exact ihi item mem fun i occurs => same.2 i (List.mem_flatMap.mpr ⟨item, mem, occurs⟩)
      simp only [evaluateBy, ihp same.1, searchBy_congr each]
  | logic c l r ihl ihr =>
      rw [occurrences, List.forall_mem_append] at same
      simp only [evaluateBy, ihl same.1, ihr same.2]
  | not operand ih => simp only [evaluateBy, ih same]

end Agreement

/-- Rows that agree on the columns of a tree have one outcome. -/
theorem outcome_congr {e : Expr} {row row' : Row}
    (same : ∀ i ∈ e.columns, row.fetch i = row'.fetch i) :
    e.evaluate row = e.evaluate row' ∧ (Filter.mk e).keeps row = (Filter.mk e).keeps row' := by
  have evaluated : e.evaluate row = e.evaluate row' :=
    evaluateBy_congr fun i occurs => same i (mem_columns.mpr occurs)
  refine ⟨evaluated, ?_⟩
  rw [Filter.keeps, Filter.keeps, evaluated]

/-- **A filter depends only on the columns that it reports.**  Rows on which these give the same values
or faults have the same outcome, and where none is reported there is one outcome for all rows. -/
theorem depends_on_columns (e : Expr) :
    (∀ row row' : Row, (∀ i ∈ e.columns, row.fetch i = row'.fetch i) →
      e.evaluate row = e.evaluate row' ∧ (Filter.mk e).keeps row = (Filter.mk e).keeps row') ∧
      (e.isConstant = true ↔ e.columns = []) ∧
      (e.isConstant = true → ∃ outcome decision, ∀ row,
        e.evaluate row = outcome ∧ (Filter.mk e).keeps row = decision) := by
  have constant : e.isConstant = true ↔ e.columns = [] := isConstant_iff.trans columns_eq_nil_iff.symm
  refine ⟨fun row row' same => outcome_congr same, constant, ?_⟩
  intro h
  refine ⟨e.evaluate [], (Filter.mk e).keeps [], ?_⟩
  intro row
  apply outcome_congr
  simp [constant.mp h]

/-- `#1 NOT IN (5, #9)`. -/
def farItem : Expr :=
  .member true (.column ⟨1, .integer, none⟩)
    [.ofValue (.integer 5), .column ⟨9, .integer, none⟩]

/-- Two rows that have the second column in common, and lack the tenth alike. -/
theorem farItem_ignores_others :
    farItem.columns = [1, 9] ∧
      farItem.evaluate [.integer 0, .integer 5, .null] =
        farItem.evaluate [.string "x", .integer 5, .boolean true] ∧
      farItem.evaluate [.string "x", .integer 5, .boolean true] =
        .error (.columnOutOfBounds 9 3) := by
  have same : ∀ i ∈ farItem.columns, Row.fetch [.integer 0, .integer 5, .null] i =
      Row.fetch [.string "x", .integer 5, .boolean true] i := by
    show ∀ i ∈ [1, 9], _
    simp [Row.fetch]
  exact ⟨rfl, ((depends_on_columns farItem).1 _ _ same).1, rfl⟩

end Expr

end RowFilter
