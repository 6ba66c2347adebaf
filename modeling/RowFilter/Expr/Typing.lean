import RowFilter.Expr.Basic

/-!
# Expr.Typing — checking a filter against a schema

`check` gives the type of the cells that a tree evaluates to on rows of the schema, or the first
reason why it has none: a column that the schema has not got or has at another type, operands that
have no common frame, or operands of a connective that are no truth values.  A null is comparable
with everything and counts as a truth value.
-/

namespace RowFilter

set_option autoImplicit false

/-- Whether operands of the two types can be read through their frame. -/
def ColumnType.comparable (left right : ColumnType) : Bool :=
  left.canReadAs (frame left right) && right.canReadAs (frame left right)

/-- Whether operands of the type are truth values or null. -/
def ColumnType.isTruth : ColumnType → Bool
  | boolean | null => true
  | _ => false

namespace Expr

/-- The type of a column in a schema. -/
def checkColumn (schema : Schema) (c : Column) : Except Fault ColumnType :=
  match schema[c.index.toNat]? with
  | none => .error (.columnOutOfBounds c.index schema.length)
  | some actual =>
    if actual = c.type then .ok actual
    else .error (.columnTypeMismatch c.index c.type actual)

/-- Rejects types that are not comparable, on behalf of a node. -/
def requireComparable (node : Expr) (left right : ColumnType) : Except Fault Unit :=
  if left.comparable right then .ok ()
  else .error (.rejected node.text (.incomparable left right))

/-- Rejects a type that is no truth value, on behalf of a node. -/
def requireTruth (node : Expr) (found : ColumnType) : Except Fault Unit :=
  if found.isTruth then .ok ()
  else .error (.rejected node.text (.operandNotBoolean node.kind found))

mutual

/-- The type of a tree for a schema. -/
def check (schema : Schema) : Expr → Except Fault ColumnType
  | literal c => .ok c.type
  | column c => checkColumn schema c
  | nullTest _ operand => do
    let _ ← check schema operand
    .ok .boolean
  | comparison comparator left right => do
    let l ← check schema left
    let r ← check schema right
    requireComparable (comparison comparator left right) l r
    .ok .boolean
  | member negated probe items => do
    if items.isEmpty then .error (.emptyList (memberKind negated))
    else
      let t ← check schema probe
      checkItems schema (member negated probe items) t items
      .ok .boolean
  | logic connective left right => do
    let l ← check schema left
    requireTruth (logic connective left right) l
    let r ← check schema right
    requireTruth (logic connective left right) r
    .ok .boolean
  | not operand => do
    let t ← check schema operand
    requireTruth (not operand) t
    .ok .boolean

/-- Checks the items of a list and compares each with the probe. -/
def checkItems (schema : Schema) (node : Expr) (probe : ColumnType) :
    List Expr → Except Fault Unit
  | [] => .ok ()
  | item :: more => do
    let t ← check schema item
    requireComparable node probe t
    checkItems schema node probe more

end

/-- Checks a tree as a filter: it is to be a truth value or null. -/
def checkFilter (schema : Schema) (e : Expr) : Except Fault Unit := do
  let t ← check schema e
  if t.isTruth then .ok () else .error (.rejected e.text (.rootNotBoolean t))

end Expr

end RowFilter
