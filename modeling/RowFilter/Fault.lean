import RowFilter.Files
import RowFilter.Operator
import RowFilter.Plan.Fault
import RowFilter.Row

/-!
# Fault — what can go wrong with a filter, a row or a plan

Every operation of the library that can fail, setting up a run apart, fails with a `Fault`.  A fault
is a cause; `Fault.message` words it.
-/

namespace RowFilter

set_option autoImplicit false

/-- Why a result cannot be read through a frame. -/
inductive Coercion where
  /-- Results of type `source` are never read through the frame. -/
  | cannotRead (source frame : ColumnType)
  /-- The value has no counterpart in the frame. -/
  | cannotConvert (value : Value) (frame : ColumnType)
  deriving DecidableEq

def Coercion.message : Coercion → String
  | cannotRead source frame => "cannot read " ++ source.name ++ " as " ++ frame.name
  | cannotConvert value frame => "cannot convert " ++ value.text ++ " to " ++ frame.name

namespace Fault

/-- The operation that a fault is reported for: reading through a frame on its own, or a node. -/
inductive Operation where
  | coercion
  | node (kind : Kind)
  deriving DecidableEq, Repr

def Operation.name : Operation → String
  | coercion => "coercion"
  | node kind => kind.tag

/-- Why an operation has no meaning for its operands. -/
inductive Reason where
  | coercion (reason : Coercion)
  | operandNotBoolean (found : ColumnType)
  /-- The root of a filter is no truth value. -/
  | rootNotBoolean (found : ColumnType)
  deriving DecidableEq

def Reason.message : Reason → String
  | coercion reason => reason.message
  | operandNotBoolean found => "expected a boolean operand, got " ++ found.name
  | rootNotBoolean found => "filter evaluated to " ++ found.name ++ ", not boolean"

/-- Why a filter is rejected for a schema. -/
inductive Rejection where
  | incomparable (left right : ColumnType)
  | operandNotBoolean (kind : Kind) (found : ColumnType)
  | rootNotBoolean (found : ColumnType)
  deriving DecidableEq, Repr

def Rejection.message : Rejection → String
  | incomparable left right => "cannot compare " ++ left.name ++ " with " ++ right.name
  | operandNotBoolean kind found => kind.tag ++ " expects boolean operands, got " ++ found.name
  | rootNotBoolean found => "filter predicate must be boolean, got " ++ found.name

end Fault

inductive Fault where
  /-- An operation has no meaning for its operands. -/
  | unsupported (operation : Fault.Operation) (reason : Fault.Reason)
  /-- A value of one type stands or is wanted where another is. -/
  | typeMismatch (expected actual : ColumnType)
  /-- A value of the type is wanted from a null. -/
  | unexpectedNull (expected : ColumnType)
  | columnOutOfBounds (index : UInt64) (width : Nat)
  | columnTypeMismatch (index : UInt64) (declared actual : ColumnType)
  /-- A list of candidates is empty. -/
  | emptyList (kind : Kind)
  | malformedRow (fault : Row.Fault)
  /-- The checker rejects the filter node with the given text. -/
  | rejected (node : String) (reason : Fault.Rejection)
  | plan (fault : Plan.Fault)
  | file (fault : Files.Fault)
  deriving DecidableEq

namespace Fault

/-- The name under which a value of the type is asked for. -/
def accessor : ColumnType → String
  | .null => "get_null"
  | .boolean => "get_boolean"
  | .string => "get_string"
  | .timestamp => "get_time"
  | .integer => "get_int"
  | .long => "get_long"
  | .double => "get_double"
  | .decimal => "get_decimal"

def message : Fault → String
  | unsupported operation reason =>
    "Unsupported filter " ++ operation.name ++ ": " ++ reason.message
  | typeMismatch expected actual =>
    "Type mismatch: expected " ++ expected.name ++ ", got " ++ actual.name
  | unexpectedNull expected => "Unexpected NULL value in " ++ accessor expected
  | columnOutOfBounds index width =>
    "Column index " ++ toString index.toNat ++ " out of bounds for row with " ++ toString width ++
      " columns"
  | columnTypeMismatch index declared actual =>
    "Column " ++ toString index.toNat ++ " declared as " ++ declared.name ++ " but row holds " ++
      actual.name
  | emptyList kind => "Malformed expression tree: " ++ kind.tag ++ " requires at least one list item"
  | malformedRow fault => "Malformed row: " ++ fault.message
  | rejected node reason =>
    "Type check failed for expression '" ++ node ++ "': " ++ reason.message
  | plan fault => "Plan codec error: " ++ fault.message
  | file fault => "IO error: " ++ fault.message

end Fault

end RowFilter
