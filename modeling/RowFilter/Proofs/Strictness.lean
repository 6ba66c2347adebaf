import RowFilter.Filter
import RowFilter.Proofs.Evaluation
import Mathlib.Logic.Relation

/-!
# Proofs.Strictness — a fault anywhere is a fault of the whole

No node decides before its operands are evaluated: a false operand of a conjunction, a true one of a
disjunction, a null, and an item that equals the probe all leave the rest to be evaluated.  So with a
tree each of its children evaluates (`child_evaluates`), and with these every tree below
(`evaluates_of_contains`).  Conversely one tree that fails, wherever it stands, fails the filter.
-/

namespace RowFilter

set_option autoImplicit false

namespace Expr

/-! ## Trees below a tree -/

/-- The one tree is the other's child. -/
def Parent (e c : Expr) : Prop := c ∈ e.children

/-- The one tree is reached from the other through children, in any number of steps. -/
def Contains : Expr → Expr → Prop := Relation.ReflTransGen Parent

/-- The trees reached through children are the nodes. -/
theorem contains_iff_mem_nodes {e n : Expr} : e.Contains n ↔ n ∈ e.nodes := by
  constructor
  · intro h
    induction h with
    | refl => exact self_mem_nodes e
    | tail _ child ih => exact child_mem_nodes ih child
  · intro h
    induction e using childInduction with
    | step e ih =>
        rcases mem_nodes.mp h with rfl | ⟨c, child, h⟩
        · exact .refl
        · exact .head child (ih c child h)

/-! ## Children evaluate -/

section Evaluates

variable {row : Row}

/-- A search that ends well has evaluated every item, also those behind a match. -/
theorem item_evaluates_of_searchBy {kind : Kind} {probe : Cell} {items : List Expr} {s t : Search}
    (h : searchBy row.fetch kind probe items s = .ok t) :
    ∀ item ∈ items, ∃ b, item.evaluate row = .ok b := by
  induction items generalizing s with
  | nil => simp
  | cons item more ih =>
      simp only [searchBy_cons, bind_eq_ok] at h
      obtain ⟨b, hb, next, -, rest⟩ := h
      rw [List.forall_mem_cons]
      exact ⟨⟨b, hb⟩, ih rest⟩

/-- A tree that evaluates has evaluated its children. -/
theorem child_evaluates {e : Expr} {a : Cell} (h : e.evaluate row = .ok a) :
    ∀ c ∈ e.children, ∃ b, c.evaluate row = .ok b := by
  cases e with
  | literal c | column c => simp [children]
  | nullTest test operand =>
      rw [evaluate_nullTest, map_eq_ok] at h
      obtain ⟨b, hb, -⟩ := h
      simp [children, hb]
  | comparison c l r =>
      simp only [evaluate_comparison, bind_eq_ok] at h
      obtain ⟨b, hl, d, hr, -⟩ := h
      simp [children, hl, hr]
  | member negated probe items =>
      by_cases empty : items = []
      · subst empty
        rw [evaluate_member_nil] at h
        cases h
      · simp only [evaluate_member_of_ne_nil empty, bind_eq_ok, map_eq_ok] at h
        obtain ⟨b, hb, s, searched, -⟩ := h
        show ∀ c ∈ probe :: items, _
        rw [List.forall_mem_cons]
        exact ⟨⟨b, hb⟩, item_evaluates_of_searchBy searched⟩
  | logic c l r =>
      simp only [evaluate_logic, bind_eq_ok] at h
      obtain ⟨b, hl, d, hr, -⟩ := h
      simp [children, hl, hr]
  | not operand =>
      simp only [evaluate_not, bind_eq_ok] at h
      obtain ⟨b, hb, -⟩ := h
      simp [children, hb]

/-- A tree that evaluates has evaluated every tree below it. -/
theorem evaluates_of_contains {e s : Expr} {a : Cell} (h : e.evaluate row = .ok a)
    (below : e.Contains s) : ∃ b, s.evaluate row = .ok b := by
  -- The path is walked from the root, whose result gives those below.
  induction below with
  | refl => exact ⟨a, h⟩
  | tail _ child ih =>
      obtain ⟨b, hb⟩ := ih
      exact child_evaluates hb _ child

theorem keeps_of_evaluate_error {e : Expr} {fault : Fault} (h : e.evaluate row = .error fault) :
    (Filter.mk e).keeps row = .error fault := by
  rw [Filter.keeps, h]

end Evaluates

/-- **No operator masks a fault.**  A tree that evaluates evaluates throughout, and where any tree
below it fails the whole fails, and the filter with it. -/
theorem evaluates_throughout (e : Expr) (row : Row) :
    (∀ a, e.evaluate row = .ok a → ∀ s, e.Contains s → ∃ b, s.evaluate row = .ok b) ∧
      ∀ s fault, e.Contains s → s.evaluate row = .error fault →
        ∃ other, e.evaluate row = .error other ∧ (Filter.mk e).keeps row = .error other := by
  constructor
  · intro a h s below
    exact evaluates_of_contains h below
  · intro s fault below failed
    cases h : e.evaluate row with
    | error other => exact ⟨other, rfl, keeps_of_evaluate_error h⟩
    | ok a =>
        obtain ⟨b, hb⟩ := evaluates_of_contains h below
        rw [failed] at hb
        cases hb

/-- `FALSE AND 1 IN (1, #7)`: decided by its left operand, and the item behind the match fails. -/
def maskedItem : Expr :=
  .and (.ofValue (.boolean false))
    (.member false (.ofValue (.integer 1)) [.ofValue (.integer 1), .column ⟨7, .integer, none⟩])

theorem maskedItem_fails :
    maskedItem.Contains (.column ⟨7, .integer, none⟩) ∧
      (column ⟨7, .integer, none⟩).evaluate [] = .error (.columnOutOfBounds 7 0) ∧
      ∃ other, maskedItem.evaluate [] = .error other ∧
        (Filter.mk maskedItem).keeps [] = .error other := by
  have below : maskedItem.Contains (.column ⟨7, .integer, none⟩) := by
    apply contains_iff_mem_nodes.mpr
    simp [maskedItem, Expr.and, ofValue, nodes, nodesIn]
  exact ⟨below, rfl, (evaluates_throughout maskedItem []).2 _ _ below rfl⟩

end Expr

end RowFilter
