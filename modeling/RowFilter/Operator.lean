import RowFilter.Text.Blank

/-!
# Operator — the operators of a filter and their names

Each operator has a `Kind`, the tag under which a filter node is classified and reported.  A
`Comparator` is the set of orders that satisfy it; where two operands are in no order, only
`notEquals` is satisfied.
-/

namespace RowFilter

set_option autoImplicit false

/-- What sort of node a filter node is. -/
inductive Kind where
  | literal
  | column
  | isNull
  | isNotNull
  | equals
  | notEquals
  | greaterThan
  | greaterThanEquals
  | lessThan
  | lessThanEquals
  | isIn
  | notIn
  | and
  | or
  | not
  deriving DecidableEq, Repr

namespace Kind

/-- The tag of the kind. -/
def tag : Kind → String
  | literal => "LITERAL"
  | column => "COLUMN"
  | isNull => "ISNULL"
  | isNotNull => "ISNOTNULL"
  | equals => "EQUALS"
  | notEquals => "NOT_EQUALS"
  | greaterThan => "GREATERTHAN"
  | greaterThanEquals => "GREATERTHAN_EQUALTO"
  | lessThan => "LESSTHAN"
  | lessThanEquals => "LESSTHAN_EQUALTO"
  | isIn => "IN"
  | notIn => "NOT_IN"
  | and => "AND"
  | or => "OR"
  | not => "NOT"

/-- The name of the kind in the text of a filter. -/
def name : Kind → String
  | literal => "Literal"
  | column => "Column"
  | isNull => "IsNull"
  | isNotNull => "IsNotNull"
  | equals => "Equals"
  | notEquals => "NotEquals"
  | greaterThan => "GreaterThan"
  | greaterThanEquals => "GreaterThanEquals"
  | lessThan => "LessThan"
  | lessThanEquals => "LessThanEquals"
  | isIn => "In"
  | notIn => "NotIn"
  | and => "And"
  | or => "Or"
  | not => "Not"

/-- Whether the kind is that of one of the six comparators. -/
def isComparison : Kind → Bool
  | equals | notEquals | greaterThan | greaterThanEquals | lessThan | lessThanEquals => true
  | _ => false

end Kind

/-! ## Comparators -/

inductive Comparator where
  | equals
  | notEquals
  | greaterThan
  | greaterThanEquals
  | lessThan
  | lessThanEquals
  deriving DecidableEq, Repr

namespace Comparator

def kind : Comparator → Kind
  | equals => .equals
  | notEquals => .notEquals
  | greaterThan => .greaterThan
  | greaterThanEquals => .greaterThanEquals
  | lessThan => .lessThan
  | lessThanEquals => .lessThanEquals

def symbol : Comparator → String
  | equals => "="
  | notEquals => "!="
  | greaterThan => ">"
  | greaterThanEquals => ">="
  | lessThan => "<"
  | lessThanEquals => "<="

/-- Whether the comparator is satisfied by the order of two operands, `none` being no order. -/
def holds : Comparator → Option Ordering → Bool
  | equals, o => o == some .eq
  | notEquals, o => o != some .eq
  | greaterThan, o => o == some .gt
  | greaterThanEquals, o => o == some .gt || o == some .eq
  | lessThan, o => o == some .lt
  | lessThanEquals, o => o == some .lt || o == some .eq

/-- The comparator that holds of swapped operands. -/
def swap : Comparator → Comparator
  | equals => equals
  | notEquals => notEquals
  | greaterThan => lessThan
  | greaterThanEquals => lessThanEquals
  | lessThan => greaterThan
  | lessThanEquals => greaterThanEquals

/-- The comparator of a mnemonic or symbol, between blanks and in letters of either case. -/
def read? (s : List Char) : Option Comparator :=
  match String.ofList (Text.lower (Text.trim s)) with
  | "eq" | "=" | "==" => some equals
  | "ne" | "!=" | "<>" => some notEquals
  | "gt" | ">" => some greaterThan
  | "ge" | ">=" => some greaterThanEquals
  | "lt" | "<" => some lessThan
  | "le" | "<=" => some lessThanEquals
  | _ => none

theorem holds_swap (c : Comparator) (o : Option Ordering) :
    c.swap.holds (o.map Ordering.swap) = c.holds o := by
  cases c <;> rcases o with _ | _ | _ | _ <;> rfl

end Comparator

/-! ## Connectives and null tests -/

inductive Connective where
  | and
  | or
  deriving DecidableEq, Repr

namespace Connective

def kind : Connective → Kind
  | and => .and
  | or => .or

def apply : Connective → Bool → Bool → Bool
  | and, a, b => a && b
  | or, a, b => a || b

end Connective

inductive NullTest where
  | isNull
  | isNotNull
  deriving DecidableEq, Repr

namespace NullTest

def kind : NullTest → Kind
  | isNull => .isNull
  | isNotNull => .isNotNull

/-- The outcome of the test for an operand that is null or is not. -/
def apply : NullTest → Bool → Bool
  | isNull, null => null
  | isNotNull, null => !null

end NullTest

end RowFilter
