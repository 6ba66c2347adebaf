import RowFilter.Expr.Evaluation
import RowFilter.Expr.Typing

/-!
# Filter — keeping rows

A filter keeps the rows for which its tree is true.  A row for which it is false or null is left
out, and any other value is a fault.  `select` gives the numbers of the rows kept.
-/

namespace RowFilter

set_option autoImplicit false

/-- A tree that decides on rows. -/
structure Filter where
  expr : Expr

namespace Filter

/-- The filter of a tree that fits the schema. -/
def ofSchema (schema : Schema) (e : Expr) : Except Fault Filter :=
  (e.checkFilter schema).map (fun _ => ⟨e⟩)

/-- What the cell of the root says of the row. -/
def decide (root : Kind) (c : Cell) : Except Fault Bool :=
  match c.value with
  | .boolean b => .ok b
  | .null => .ok false
  | _ => .error (.unsupported (.node root) (.rootNotBoolean c.type))

/-- Whether the filter keeps the row. -/
def keeps (f : Filter) (row : Row) : Except Fault Bool :=
  match f.expr.evaluate row with
  | .error fault => .error fault
  | .ok c => decide f.expr.kind c

/-- The numbers from `n` on of the rows kept; the first fault ends the selection. -/
def selectFrom (f : Filter) (n : Nat) : List Row → Except Fault (List Nat)
  | [] => .ok []
  | row :: rows =>
    match f.keeps row with
    | .error fault => .error fault
    | .ok true => (selectFrom f (n + 1) rows).map (n :: ·)
    | .ok false => selectFrom f (n + 1) rows

/-- The numbers of the rows kept, counted from zero. -/
def select (f : Filter) (rows : List Row) : Except Fault (List Nat) := selectFrom f 0 rows

end Filter

end RowFilter
