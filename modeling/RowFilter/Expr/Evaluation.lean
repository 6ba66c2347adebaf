import RowFilter.Expr.Basic

/-!
# Expr.Evaluation — the value of a filter tree for a row

Evaluation goes from left to right and leaves nothing out: both operands of a connective and every
item of a list are evaluated, so a fault anywhere is a fault of the whole.  It is written once, for
any way of fetching columns that may fail (`evaluateBy`).  `evaluate` fetches from a row, and `trace`
does so and keeps a record of what it fetched.

A null operand makes a comparison, a connective and a negation false.
-/

namespace RowFilter

set_option autoImplicit false

/-! ## Nodes -/

/-- How far the search for a probe among items has come. -/
structure Search where
  matched : Bool
  sawNull : Bool
  deriving DecidableEq, Repr

namespace Search

def start : Search := ⟨false, false⟩

/-- Goes past an item: a null is noted, and until an item equals the probe it is compared. -/
def step (kind : Kind) (probe item : Cell) (s : Search) : Except Fault Search :=
  if item.isNull then .ok ⟨s.matched, true⟩
  else if s.matched then .ok s
  else (Cell.compareFor kind .equals probe item).map (fun matched => ⟨matched, s.sawNull⟩)

/-- The outcome after all items.  A null probe is neither in a list nor not in it, and with a null
item nothing is known not to be in the list. -/
def outcome (negated : Bool) (probe : Cell) (s : Search) : Bool :=
  if probe.isNull then false
  else if negated then !s.sawNull && !s.matched
  else s.matched

end Search

/-- The value of a column of a row. -/
def Row.fetch (row : Row) (index : UInt64) : Except RowFilter.Fault Value :=
  match row[index.toNat]? with
  | some v => .ok v
  | none => .error (.columnOutOfBounds index row.length)

namespace Cell

/-- The cell of a column that holds the value. -/
def ofColumn (c : Column) (v : Value) : Except Fault Cell :=
  if v.fits c.type then .ok ⟨c.type, v⟩
  else .error (.columnTypeMismatch c.index c.type v.type)

def nullTest (test : NullTest) (c : Cell) : Cell := boolean (test.apply c.isNull)

def comparison (comparator : Comparator) (l r : Cell) : Except Fault Cell :=
  (compare comparator l r).map boolean

/-- The connective of two operands.  Each has to be a truth value or null, the left one first. -/
def logic (connective : Connective) (l r : Cell) : Except Fault Cell :=
  match operand connective.kind l with
  | .error fault => .error fault
  | .ok a =>
    match operand connective.kind r with
    | .error fault => .error fault
    | .ok b =>
      match a, b with
      | some a, some b => .ok (boolean (connective.apply a b))
      | _, _ => .ok (boolean false)

/-- The negation of an operand. -/
def not (c : Cell) : Except Fault Cell :=
  match operand .not c with
  | .error fault => .error fault
  | .ok (some b) => .ok (boolean !b)
  | .ok none => .ok (boolean false)

end Cell

/-! ## Trees -/

namespace Expr

section

variable {m : Type → Type} [Monad m] [MonadExceptOf Fault m]

mutual

/-- The cell of a tree, with columns fetched by `fetch`. -/
def evaluateBy (fetch : UInt64 → m Value) : Expr → m Cell
  | literal c => pure c
  | column c => do
    let v ← fetch c.index
    liftExcept (Cell.ofColumn c v)
  | nullTest test operand => do
    let a ← evaluateBy fetch operand
    pure (a.nullTest test)
  | comparison comparator left right => do
    let a ← evaluateBy fetch left
    let b ← evaluateBy fetch right
    liftExcept (Cell.comparison comparator a b)
  | member negated probe items => do
    if items.isEmpty then throw (Fault.emptyList (memberKind negated))
    else
      let a ← evaluateBy fetch probe
      let s ← searchBy fetch (memberKind negated) a items Search.start
      pure (Cell.boolean (s.outcome negated a))
  | logic connective left right => do
    let a ← evaluateBy fetch left
    let b ← evaluateBy fetch right
    liftExcept (Cell.logic connective a b)
  | not operand => do
    let a ← evaluateBy fetch operand
    liftExcept a.not

/-- The search for a probe among items, each evaluated in its turn. -/
def searchBy (fetch : UInt64 → m Value) (kind : Kind) (probe : Cell) :
    List Expr → Search → m Search
  | [], s => pure s
  | item :: more, s => do
    let c ← evaluateBy fetch item
    let s ← liftExcept (s.step kind probe c)
    searchBy fetch kind probe more s

end

end

/-- The cell of a tree for a row. -/
def evaluate (e : Expr) (row : Row) : Except Fault Cell := evaluateBy row.fetch e

/-- Fetches a column and records its index, also where the fetch fails. -/
def fetchRecorded (row : Row) (index : UInt64) : ExceptT Fault (StateM (List UInt64)) Value := do
  modify (· ++ [index])
  liftExcept (row.fetch index)

/-- The cell of a tree for a row, and the indices fetched for it in their order. -/
def trace (e : Expr) (row : Row) : Except Fault Cell × List UInt64 :=
  ((evaluateBy (fetchRecorded row) e).run).run []

/-! ## Small laws -/

theorem liftExcept_eq {α : Type} (x : Except Fault α) : (liftExcept x : Except Fault α) = x := by
  cases x <;> rfl

theorem evaluate_literal (c : Cell) (row : Row) : (literal c).evaluate row = .ok c := by
  simp only [evaluate, evaluateBy]
  rfl

theorem evaluate_column (c : Column) (row : Row) :
    (column c).evaluate row = row.fetch c.index >>= Cell.ofColumn c := by
  simp only [evaluate, evaluateBy, liftExcept_eq]

theorem evaluate_nullTest (test : NullTest) (e : Expr) (row : Row) :
    (nullTest test e).evaluate row = (e.evaluate row).map (Cell.nullTest test) := by
  simp only [evaluate, evaluateBy]
  rfl

theorem evaluate_comparison (c : Comparator) (l r : Expr) (row : Row) :
    (comparison c l r).evaluate row =
      l.evaluate row >>= fun a => r.evaluate row >>= fun b => Cell.comparison c a b := by
  simp only [evaluate, evaluateBy, liftExcept_eq]

theorem evaluate_logic (c : Connective) (l r : Expr) (row : Row) :
    (logic c l r).evaluate row =
      l.evaluate row >>= fun a => r.evaluate row >>= fun b => Cell.logic c a b := by
  simp only [evaluate, evaluateBy, liftExcept_eq]

theorem evaluate_not (e : Expr) (row : Row) :
    (not e).evaluate row = e.evaluate row >>= Cell.not := by
  simp only [evaluate, evaluateBy, liftExcept_eq]

theorem evaluate_member_nil (negated : Bool) (probe : Expr) (row : Row) :
    (member negated probe []).evaluate row = .error (.emptyList (memberKind negated)) := by
  simp only [evaluate, evaluateBy]
  rfl

theorem evaluate_member (negated : Bool) (probe item : Expr) (more : List Expr) (row : Row) :
    (member negated probe (item :: more)).evaluate row =
      probe.evaluate row >>= fun a =>
        (searchBy row.fetch (memberKind negated) a (item :: more) Search.start).map
          (fun s => Cell.boolean (s.outcome negated a)) := by
  simp only [evaluate, evaluateBy]
  rfl

end Expr

end RowFilter
