import RowFilter.Proofs.Columns
import RowFilter.Proofs.Typing

/-!
# Proofs.Origins — where the faults of an evaluation come from

A node fails by itself in few ways: a column may lie outside the row or hold another type, a membership
node may have no items, and an operation may refuse its operands.  Every other fault is handed up from
a node below as it is.  So each fault of an evaluation points to a node of the tree, whatever the types
its literals claim to have (`Explains`), and an operation that is refused is named by the kind of its
node.
-/

namespace RowFilter

set_option autoImplicit false

namespace Cell

theorem gives_compareFor_any (kind : Kind) (comparator : Comparator) (l r : Cell) :
    Gives (fun _ => True)
      (fun fault => ∃ reason, fault = .unsupported (.node kind) (.coercion reason))
      (compareFor kind comparator l r) := by
  unfold compareFor
  split
  · trivial
  · split
    · trivial
    · exact ⟨_, rfl⟩

theorem gives_operand (kind : Kind) (c : Cell) :
    Gives (fun _ => True)
      (fun fault => ∃ t, fault = .unsupported (.node kind) (.operandNotBoolean t))
      (operand kind c) := by
  unfold operand
  split
  · trivial
  · trivial
  · exact ⟨_, rfl⟩

theorem gives_logic (connective : Connective) (l r : Cell) :
    Gives (fun _ => True)
      (fun fault => ∃ t, fault = .unsupported (.node connective.kind) (.operandNotBoolean t))
      (logic connective l r) := by
  rw [logic_eq_bind]
  refine (gives_operand _ l).bind fun _ _ _ => ?_
  exact (gives_operand _ r).bind fun _ _ _ => trivial

theorem gives_not (c : Cell) :
    Gives (fun _ => True)
      (fun fault => ∃ t, fault = .unsupported (.node .not) (.operandNotBoolean t)) c.not := by
  rw [not_eq_map]
  exact (gives_operand .not c).map fun _ _ => trivial

end Cell

namespace Expr

/-- The reasons for which a node refuses the operands it is given. -/
def Refuses : Expr → Fault.Reason → Prop
  | comparison _ _ _, reason | member _ _ _, reason => ∃ coercion, reason = .coercion coercion
  | logic _ _ _, reason | not _, reason => ∃ found, reason = .operandNotBoolean found
  | _, _ => False

/-- What a fault says of the tree and the row it comes from.  Faults that say nothing of them do not
come out of an evaluation. -/
def Explains (e : Expr) (row : Row) : Fault → Prop
  | .unsupported operation reason =>
      ∃ n ∈ e.nodes, n.Refuses reason ∧ operation = .node n.kind
  | .columnOutOfBounds i width => i ∈ e.columns ∧ row.length ≤ i.toNat ∧ width = row.length
  | .columnTypeMismatch i declared actual =>
      i ∈ e.columns ∧ (∃ name, column ⟨i, declared, name⟩ ∈ e.nodes) ∧
        ∃ v, row[i.toNat]? = some v ∧ v.isNull = false ∧ v.type = actual ∧ actual ≠ declared
  | .emptyList kind =>
      ∃ negated probe, member negated probe [] ∈ e.nodes ∧ kind = memberKind negated
  | .typeMismatch _ _ | .unexpectedNull _ | .malformedRow _ | .rejected _ _ | .plan _ | .file _ =>
      False

section Origins

variable {row : Row} {root : Expr}

theorem gives_column {c : Column} (within : column c ∈ root.nodes) :
    Gives (fun _ => True) (root.Explains row) ((column c).evaluate row) := by
  have listed : c.index ∈ root.columns := mem_columns.mpr (mem_occurrences.mpr ⟨c, within, rfl⟩)
  rw [evaluate_column]
  unfold Row.fetch
  split
  · rename_i v found
    show Gives _ _ (Cell.ofColumn c v)
    unfold Cell.ofColumn
    split
    · trivial
    · rename_i misfit
      rw [Value.fits_iff, not_or, ← Value.isNull_iff, Bool.not_eq_true] at misfit
      exact ⟨listed, ⟨c.name, within⟩, v, found, misfit.1, rfl, misfit.2⟩
  · rename_i outside
    exact ⟨listed, List.getElem?_eq_none_iff.mp outside, rfl⟩

/-- A node of the tree fails with a fault that the tree explains. -/
theorem gives_explained {e : Expr} (within : e ∈ root.nodes) :
    Gives (fun _ => True) (root.Explains row) (e.evaluate row) := by
  -- The faults of a node itself are told apart from those that its children hand up.
  induction e with
  | literal c =>
      rw [evaluate_literal]
      trivial
  | column c => exact gives_column within
  | nullTest test operand ih =>
      rw [evaluate_nullTest]
      exact (ih (below_nullTest within)).map fun _ _ => trivial
  | comparison c l r ihl ihr =>
      obtain ⟨leftIn, rightIn⟩ := below_comparison within
      rw [evaluate_comparison]
      refine (ihl leftIn).bind fun a _ _ => (ihr rightIn).bind fun b _ _ => ?_
      refine ((Cell.gives_compareFor_any _ _ a b).map fun _ _ => trivial).imp (fun _ h => h) ?_
      rintro _ ⟨reason, rfl⟩
      exact ⟨_, within, ⟨reason, rfl⟩, rfl⟩
  | member negated probe items ihp ihi =>
      obtain ⟨probeIn, itemsIn⟩ := below_member within
      by_cases empty : items = []
      · subst empty
        rw [evaluate_member_nil]
        exact ⟨negated, probe, within, rfl⟩
      · rw [evaluate_member_of_ne_nil empty]
        refine (ihp probeIn).bind fun a _ _ => ?_
        have each := fun item mem => ihi item mem (itemsIn item mem)
        refine (gives_searchBy each (fun item mem b _ => ?_) Search.start).map fun _ _ => trivial
        refine (Cell.gives_compareFor_any _ _ a b).imp (fun _ h => h) ?_
        rintro _ ⟨reason, rfl⟩
        exact ⟨_, within, ⟨reason, rfl⟩, rfl⟩
  | logic c l r ihl ihr =>
      obtain ⟨leftIn, rightIn⟩ := below_logic within
      rw [evaluate_logic]
      refine (ihl leftIn).bind fun a _ _ => (ihr rightIn).bind fun b _ _ => ?_
      refine (Cell.gives_logic c a b).imp (fun _ h => h) ?_
      rintro _ ⟨found, rfl⟩
      exact ⟨_, within, ⟨found, rfl⟩, rfl⟩
  | not operand ih =>
      rw [evaluate_not]
      refine (ih (below_not within)).bind fun a _ _ => ?_
      refine (Cell.gives_not a).imp (fun _ h => h) ?_
      rintro _ ⟨found, rfl⟩
      exact ⟨_, within, ⟨found, rfl⟩, rfl⟩

end Origins

/-- The names under which no operation is refused: that of reading through a frame, and those of leaves
and null tests. -/
def unblamed : List String :=
  [Fault.Operation.coercion.name, Kind.literal.tag, Kind.column.tag, Kind.isNull.tag,
    Kind.isNotNull.tag]

theorem tag_not_mem_unblamed {n : Expr} {reason : Fault.Reason} (h : n.Refuses reason) :
    n.kind.tag ∉ unblamed := by
  cases n with
  | literal c | column c | nullTest test operand => cases h
  | comparison c l r =>
      show c.kind.tag ∉ unblamed
      cases c <;> decide
  | member negated probe items =>
      show (memberKind negated).tag ∉ unblamed
      cases negated <;> decide
  | logic c l r =>
      show c.kind.tag ∉ unblamed
      cases c <;> decide
  | not operand =>
      show Kind.not.tag ∉ unblamed
      decide

/-- **What an evaluation can come to, whatever the tree.**  A result is a truth value, unless the root
is a leaf, and a fault is explained by a node of the tree and by the row.  An operation that is refused
goes by the name of its node. -/
theorem outcome_explained (e : Expr) (row : Row) :
    (∀ a, e.evaluate row = .ok a → (∀ c, e ≠ literal c) → (∀ c, e ≠ column c) →
      a.type = .boolean ∧ a.isNull = false ∧ ∃ b, a.value = .boolean b) ∧
      (∀ fault, e.evaluate row = .error fault → e.Explains row fault) ∧
      ∀ operation reason, e.evaluate row = .error (.unsupported operation reason) →
        operation.name ∉ unblamed := by
  have explained : ∀ fault, e.evaluate row = .error fault → e.Explains row fault := by
    intro fault h
    have given : Gives (fun _ => True) (e.Explains row) (e.evaluate row) :=
      gives_explained (self_mem_nodes e)
    rw [h] at given
    exact given
  refine ⟨?_, explained, ?_⟩
  · intro a h noLiteral noColumn
    rcases truth_of_evaluate h with ⟨c, rfl⟩ | ⟨c, rfl⟩ | ⟨b, rfl⟩
    · exact absurd rfl (noLiteral c)
    · exact absurd rfl (noColumn c)
    · exact ⟨rfl, rfl, b, rfl⟩
  · intro operation reason h
    obtain ⟨n, -, refuses, rfl⟩ := explained _ h
    exact tag_not_mem_unblamed refuses

/-- `5 OR TRUE`, where the 5 claims to be a truth value. -/
def mistaggedOr : Expr := .or (.literal ⟨.boolean, .integer 5⟩) (.literal (.boolean true))

theorem mistaggedOr_explained :
    mistaggedOr.evaluate [] = .error (.unsupported (.node .or) (.operandNotBoolean .boolean)) ∧
      mistaggedOr.Explains [] (.unsupported (.node .or) (.operandNotBoolean .boolean)) ∧
      (Fault.Operation.node .or).name ∉ unblamed := by
  have failed : mistaggedOr.evaluate [] =
      .error (.unsupported (.node .or) (.operandNotBoolean .boolean)) := rfl
  obtain ⟨-, explained, named⟩ := outcome_explained mistaggedOr []
  exact ⟨failed, explained _ failed, named _ _ failed⟩

end Expr

end RowFilter
