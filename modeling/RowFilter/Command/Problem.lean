import RowFilter.Command.Clause
import RowFilter.Fault

/-!
# Command.Problem — why a run ends early

A problem is shown as a headline and, where another fault lies behind it, as that cause.
-/

namespace RowFilter.Command

set_option autoImplicit false

inductive Problem where
  | unknownType (name : ColumnType.UnknownName)
  | clause (fault : ClauseFault)
  | noFilter
  | load (path : String) (fault : Fault)
  | schema (fault : Fault)
  | save (path : String) (fault : Fault)
  | openInput (path : String) (fault : Files.Fault)
  | readInput (fault : Files.Fault)
  /-- A line of the input is no UTF-8. -/
  | notText
  | line (number : Nat) (fault : Fault)
  deriving DecidableEq

namespace Problem

/-- The headline, and the cause if there is one. -/
def wording : Problem → String × Option String
  | unknownType name => (name.message, none)
  | clause (.parts text) => ("Predicate '" ++ text ++ "' is not column:op:literal", none)
  | clause (.columnNumber text fault) =>
    ("Bad column index in '" ++ text ++ "'", some fault.message)
  | clause (.noColumn index width) =>
    ("Column " ++ toString index ++ " is outside the " ++ toString width ++ "-column schema", none)
  | clause (.unknownComparator token) => ("Unknown comparison operator '" ++ token ++ "'", none)
  | clause (.literal reason) => (reason.message, none)
  | noFilter => ("No predicate given; use --where or --plan", none)
  | load path fault => ("Failed to load plan from " ++ path, some fault.message)
  | schema fault => ("Filter does not fit the schema", some fault.message)
  | save path fault => ("Failed to save plan to " ++ path, some fault.message)
  | openInput path fault => ("Failed to open " ++ path, some fault.message)
  | readInput fault => ("Failed to read input", some fault.message)
  | notText => ("Failed to read input", some "stream did not contain valid UTF-8")
  | line number fault => ("Line " ++ toString number, some fault.message)

/-- The lines of a text. -/
def linesOf (s : String) : List String := (Text.split '\n' s.toList).map String.ofList

/-- The lines of a cause and of what follows the first line of a message. -/
def indented (lines : List String) : List String := lines.map ("    " ++ ·)

/-- The problem as it is shown. -/
def render (p : Problem) : List String :=
  match p.wording with
  | (headline, none) => linesOf ("Error: " ++ headline)
  | (headline, some cause) =>
    linesOf ("Error: " ++ headline) ++ ["", "Caused by:"] ++ indented (linesOf cause)

end Problem

end RowFilter.Command
