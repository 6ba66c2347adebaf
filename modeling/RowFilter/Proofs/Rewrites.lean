import RowFilter.Proofs.Evaluation

/-!
# Proofs.Rewrites — the laws of truth values among operations

A literal or a column can be null, and a connective takes a null for false before a negation sees it, so
`NOT NOT x` need not be `x`.  An operation hands up a truth value or a fault and nothing else
(`exists_decides`), and among operations the laws of truth values hold.  A law that keeps the order in
which its operands are first evaluated keeps the fault too; one that changes it may meet another fault
first and only fails when the other side does (`SameResults`).
-/

namespace RowFilter

set_option autoImplicit false

/-! ## The same results -/

/-- Both fail, or both give the same result. -/
def SameResults {ε α : Type} : Except ε α → Except ε α → Prop
  | .ok a, .ok b => a = b
  | .error _, .error _ => True
  | _, _ => False

section SameResults

variable {ε α β γ : Type} {x : Except ε α} {y : Except ε β}

theorem SameResults.map {y : Except ε α} (h : SameResults x y) (f : α → β) :
    SameResults (x.map f) (y.map f) := by
  cases x <;> cases y <;> first | exact congrArg f h | exact h

/-- The order in which two computations run decides on the fault alone. -/
theorem sameResults_swap {f : α → β → Except ε γ} {g : β → α → Except ε γ}
    (same : ∀ a b, SameResults (f a b) (g b a)) :
    SameResults (x >>= fun a => y >>= fun b => f a b) (y >>= fun b => x >>= fun a => g b a) := by
  cases x with
  | error fault => cases y <;> trivial
  | ok a =>
      cases y with
      | error fault => trivial
      | ok b => exact same a b

end SameResults

/-! ## Connectives of truth values -/

namespace Connective

/-- The connective of the negations, as negation of this one gives it. -/
def dual : Connective → Connective
  | and => or
  | or => and

theorem not_apply (k : Connective) (a b : Bool) : (!k.apply a b) = k.dual.apply (!a) (!b) := by
  cases k <;> simp [apply, dual]

theorem apply_self (k : Connective) (a : Bool) : k.apply a a = a := by
  cases k <;> simp [apply]

theorem apply_comm (k : Connective) (a b : Bool) : k.apply a b = k.apply b a := by
  cases k <;> simp [apply, Bool.and_comm, Bool.or_comm]

theorem apply_assoc (k : Connective) (a b c : Bool) :
    k.apply (k.apply a b) c = k.apply a (k.apply b c) := by
  cases k <;> simp [apply, Bool.and_assoc, Bool.or_assoc]

theorem apply_distrib (k m : Connective) (a b c : Bool) :
    k.apply a (m.apply b c) = m.apply (k.apply a b) (k.apply a c) := by
  cases k <;> cases m <;> cases a <;> simp [apply]

/-- The connective of two outcomes, of which the left one comes first. -/
def lift (k : Connective) (x y : Except Fault Bool) : Except Fault Bool :=
  x >>= fun a => y.map (k.apply a)

section Lift

variable (k m : Connective) (x y z : Except Fault Bool)

theorem map_not_lift : (k.lift x y).map (!·) = k.dual.lift (x.map (!·)) (y.map (!·)) := by
  cases x with
  | error fault => rfl
  | ok a =>
      cases y with
      | error fault => rfl
      | ok b => exact congrArg _ (k.not_apply a b)

theorem lift_self : k.lift x x = x := by
  cases x with
  | error fault => rfl
  | ok a => exact congrArg _ (k.apply_self a)

theorem lift_assoc : k.lift (k.lift x y) z = k.lift x (k.lift y z) := by
  rcases x with fault | a
  · rfl
  rcases y with fault | b
  · rfl
  rcases z with fault | c
  · rfl
  exact congrArg _ (k.apply_assoc a b c)

/-- On both sides `x` comes first, then `y`, then `z`. -/
theorem lift_distrib : k.lift x (m.lift y z) = m.lift (k.lift x y) (k.lift x z) := by
  rcases x with fault | a
  · rfl
  rcases y with fault | b
  · rfl
  rcases z with fault | c
  · rfl
  exact congrArg _ (k.apply_distrib m a b c)

/-- On the right `x` comes before `z`. -/
theorem lift_distrib_right :
    SameResults (k.lift (m.lift y z) x) (m.lift (k.lift y x) (k.lift z x)) := by
  rcases y with fault | b
  · trivial
  rcases z with fault | c
  · rcases x with fault | a <;> trivial
  rcases x with fault | a
  · trivial
  show k.apply (m.apply b c) a = m.apply (k.apply b a) (k.apply c a)
  rw [k.apply_comm, k.apply_distrib, k.apply_comm a b, k.apply_comm a c]

end Lift

end Connective

namespace Expr

/-! ## Operations -/

/-- The root is an operation: no literal and no column. -/
def IsOperation : Expr → Prop
  | literal _ | column _ => False
  | _ => True

/-- On the row the tree gives the truth value of the outcome, or its fault. -/
def Decides (row : Row) (e : Expr) (x : Except Fault Bool) : Prop :=
  e.evaluate row = x.map Cell.boolean

section Decides

variable {row : Row} {e l r : Expr} {x y : Except Fault Bool}

theorem exists_decides (operation : e.IsOperation) (row : Row) : ∃ x, e.Decides row x := by
  cases h : e.evaluate row with
  | error fault => exact ⟨.error fault, h⟩
  | ok a =>
      rcases truth_of_evaluate h with ⟨c, rfl⟩ | ⟨c, rfl⟩ | ⟨b, rfl⟩
      · cases operation
      · cases operation
      · exact ⟨.ok b, h⟩

theorem Decides.not (h : e.Decides row x) : (Expr.not e).Decides row (x.map (!·)) := by
  rw [Decides, evaluate_not, h]
  cases x <;> rfl

theorem Decides.logic (left : l.Decides row x) (right : r.Decides row y) (k : Connective) :
    (Expr.logic k l r).Decides row (k.lift x y) := by
  rw [Decides, evaluate_logic, left, right]
  cases x with
  | error fault => rfl
  | ok a => cases y <;> rfl

theorem Decides.eq (left : l.Decides row x) (right : r.Decides row y) (h : x = y) :
    l.evaluate row = r.evaluate row := by
  rw [left, right, h]

theorem Decides.same (left : l.Decides row x) (right : r.Decides row y) (h : SameResults x y) :
    SameResults (l.evaluate row) (r.evaluate row) := by
  rw [left, right]
  exact h.map _

end Decides

/-- Swapped operands, leaves among them too, give the same result. -/
theorem evaluate_logic_comm (k : Connective) (l r : Expr) (row : Row) :
    SameResults ((logic k l r).evaluate row) ((logic k r l).evaluate row) := by
  rw [evaluate_logic, evaluate_logic]
  refine sameResults_swap fun a b => ?_
  rw [Cell.logic_eq_bind, Cell.logic_eq_bind]
  refine sameResults_swap fun o p => ?_
  rcases o with _ | s <;> rcases p with _ | t <;> first | rfl | exact congrArg _ (k.apply_comm s t)

/-- **The laws of truth values hold among operations.**  Double negation, De Morgan's laws and
idempotence leave the outcome as it is, and so do the laws that keep the order of the operands; swapped
operands, and distribution from the right, give the same result or fail on both sides. -/
theorem operations_obey_laws {p q r : Expr} (hp : p.IsOperation) (hq : q.IsOperation)
    (hr : r.IsOperation) (row : Row) :
    (not (not p)).evaluate row = p.evaluate row ∧
      (not (and p q)).evaluate row = (or (not p) (not q)).evaluate row ∧
      (not (or p q)).evaluate row = (and (not p) (not q)).evaluate row ∧
      (and p p).evaluate row = p.evaluate row ∧ (or p p).evaluate row = p.evaluate row ∧
      (∀ k, SameResults ((logic k p q).evaluate row) ((logic k q p).evaluate row)) ∧
      (∀ k, (logic k (logic k p q) r).evaluate row = (logic k p (logic k q r)).evaluate row) ∧
      ∀ k m,
        (logic k p (logic m q r)).evaluate row =
            (logic m (logic k p q) (logic k p r)).evaluate row ∧
          SameResults ((logic k (logic m q r) p).evaluate row)
            ((logic m (logic k q p) (logic k r p)).evaluate row) := by
  obtain ⟨x, hx⟩ := exists_decides hp row
  obtain ⟨y, hy⟩ := exists_decides hq row
  obtain ⟨z, hz⟩ := exists_decides hr row
  have doubled : (x.map (!·)).map (!·) = x := by cases x <;> simp [Except.map]
  have deMorgan : ∀ k : Connective,
      (not (logic k p q)).evaluate row = (logic k.dual (not p) (not q)).evaluate row := fun k =>
    (hx.logic hy k).not.eq (hx.not.logic hy.not k.dual) (k.map_not_lift x y)
  have idempotent : ∀ k : Connective, (logic k p p).evaluate row = p.evaluate row := fun k =>
    (hx.logic hx k).eq hx (k.lift_self x)
  refine ⟨hx.not.not.eq hx doubled, deMorgan .and, deMorgan .or, idempotent .and, idempotent .or,
    fun k => evaluate_logic_comm k p q row, fun k => ?_, fun k m => ⟨?_, ?_⟩⟩
  · exact ((hx.logic hy k).logic hz k).eq (hx.logic (hy.logic hz k) k) (k.lift_assoc x y z)
  · exact (hx.logic (hy.logic hz m) k).eq ((hx.logic hy k).logic (hx.logic hz k) m)
      (k.lift_distrib m x y z)
  · exact ((hy.logic hz m).logic hx k).same ((hy.logic hx k).logic (hz.logic hx k) m)
      (k.lift_distrib_right m x y z)

example : (not (not (null .boolean))).evaluate [] = .ok (Cell.boolean true) := rfl

/-- `#0 IS NULL`, true of a row that starts with a null. -/
def firstIsNull : Expr := .nullTest .isNull (.column ⟨0, .integer, none⟩)

/-- `#7 = 1`, which fails on a shorter row. -/
def farEquals : Expr :=
  .comparison .equals (.column ⟨7, .integer, none⟩) (.ofValue (.integer 1))

/-- A fault in an operand stays the fault of both sides of De Morgan's law. -/
theorem firstIsNull_and_farEquals_negated :
    firstIsNull.IsOperation ∧ farEquals.IsOperation ∧
      (not (and firstIsNull farEquals)).evaluate [.null] = .error (.columnOutOfBounds 7 1) ∧
      (or (not firstIsNull) (not farEquals)).evaluate [.null] = .error (.columnOutOfBounds 7 1) ∧
      (not (and firstIsNull firstIsNull)).evaluate [.null] = .ok (Cell.boolean false) ∧
      (or (not firstIsNull) (not firstIsNull)).evaluate [.null] = .ok (Cell.boolean false) := by
  have first : firstIsNull.IsOperation := trivial
  have far : farEquals.IsOperation := trivial
  obtain ⟨-, failing, -⟩ := operations_obey_laws first far first [.null]
  obtain ⟨-, passing, -⟩ := operations_obey_laws first first far [.null]
  have fails : (not (and firstIsNull farEquals)).evaluate [.null] =
      .error (.columnOutOfBounds 7 1) := rfl
  have passes : (not (and firstIsNull firstIsNull)).evaluate [.null] =
      .ok (Cell.boolean false) := rfl
  exact ⟨first, far, fails, failing.symm.trans fails, passes, passing.symm.trans passes⟩

end Expr

end RowFilter
