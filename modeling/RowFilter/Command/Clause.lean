import RowFilter.Expr.Basic
import RowFilter.Text.Split

/-!
# Command.Clause — filters given as text

A clause is `column:op:literal`: a column by its number, a comparator, and a literal that is read at
the type of the column.  The literal may have colons of its own.  Several clauses make the
conjunction of their comparisons.
-/

namespace RowFilter.Command

set_option autoImplicit false

/-- Why a text is no clause for a schema. -/
inductive ClauseFault where
  /-- The clause has fewer than three parts. -/
  | parts (clause : String)
  | columnNumber (clause : String) (fault : Text.NumeralFault)
  | noColumn (index width : Nat)
  | unknownComparator (token : String)
  | literal (reason : Value.Unreadable)
  deriving DecidableEq, Repr

/-- The three parts of a clause. -/
def clauseParts? (clause : List Char) : Option (List Char × List Char × List Char) :=
  match Text.split ':' clause with
  | column :: token :: part :: more => some (column, token, Text.join ':' (part :: more))
  | _ => none

/-- The comparison of a clause. -/
def readClause (schema : Schema) (clause : String) : Except ClauseFault Expr :=
  match clauseParts? clause.toList with
  | none => .error (.parts clause)
  | some (column, token, literal) =>
    match Text.readInteger 0 (UInt64.size - 1) (Text.trim column) with
    | .error fault => .error (.columnNumber clause fault)
    | .ok number =>
      match schema[number.toNat]? with
      | none => .error (.noColumn number.toNat schema.length)
      | some type =>
        match Comparator.read? token with
        | none => .error (.unknownComparator (String.ofList token))
        | some comparator =>
          match Value.read literal type with
          | .error reason => .error (.literal reason)
          | .ok v =>
            .ok (.comparison comparator (.column ⟨UInt64.ofNat number.toNat, type, none⟩)
              (.ofTyped type v))

/-- The comparisons of clauses; the first that is none is at fault. -/
def readClauses (schema : Schema) : List String → Except ClauseFault (List Expr)
  | [] => .ok []
  | clause :: more => do
    let e ← readClause schema clause
    let es ← readClauses schema more
    pure (e :: es)

/-- The types of a schema by their names between commas. -/
def readSchema (text : String) : Except ColumnType.UnknownName Schema :=
  readTypes (Text.split ',' text.toList)
where
  /-- The types of the given names; the first unknown name is at fault. -/
  readTypes : List (List Char) → Except ColumnType.UnknownName Schema
    | [] => .ok []
    | name :: more => do
      let t ← ColumnType.read name
      let ts ← readTypes more
      pure (t :: ts)

end RowFilter.Command
