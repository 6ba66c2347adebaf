import RowFilter.Text.Split
import RowFilter.Value

/-!
# Row — values in the order of their columns

A row is read from a line of fields between delimiters.  A field is whatever stands between two
delimiters, the empty text too, so a line has one field more than delimiters.
-/

namespace RowFilter

set_option autoImplicit false

/-- The types of the columns, by index. -/
abbrev Schema := List ColumnType

/-- The values of the columns, by index. -/
abbrev Row := List Value

namespace Row

/-- Why a line is no row of a schema. -/
inductive Fault where
  | fieldCount (expected found : Nat)
  | field (reason : Value.Unreadable)
  deriving DecidableEq, Repr

namespace Fault

def message : Fault → String
  | fieldCount expected found =>
    "expected " ++ toString expected ++ " fields but found " ++ toString found
  | field reason => reason.message

end Fault

/-- The values of fields, each read at its type; the first that cannot be read is at fault. -/
def readFields : List (List Char) → Schema → Except Value.Unreadable Row
  | field :: fields, type :: types => do
    let v ← Value.read field type
    let row ← readFields fields types
    pure (v :: row)
  | _, _ => pure []

/-- Reads a line as a row of the schema. -/
def read (line : List Char) (delimiter : Char) (schema : Schema) : Except Fault Row :=
  let parts := Text.split delimiter line
  if parts.length = schema.length then (readFields parts schema).mapError .field
  else .error (.fieldCount schema.length parts.length)

/-- Whether the row has the columns of the schema, each null or of its type, and maybe more. -/
def Fits (row : Row) (schema : Schema) : Prop :=
  ∀ (i : Nat) (t : ColumnType), schema[i]? = some t → ∃ v : Value, row[i]? = some v ∧ v.fits t = true

/-! ## Small laws -/

theorem length_readFields {fields : List (List Char)} {schema : Schema} {row : Row}
    (h : fields.length = schema.length) (e : readFields fields schema = .ok row) :
    row.length = schema.length := by
  induction fields generalizing schema row with
  | nil =>
    cases schema with
    | nil => cases e; rfl
    | cons => simp at h
  | cons field fields ih =>
    cases schema with
    | nil => simp at h
    | cons type types =>
      simp only [List.length_cons, Nat.add_right_cancel_iff] at h
      simp only [readFields] at e
      cases hv : Value.read field type with
      | error _ => rw [hv] at e; cases e
      | ok v =>
        cases hr : readFields fields types with
        | error _ => rw [hv, hr] at e; cases e
        | ok rest =>
          rw [hv, hr] at e
          cases e
          simp [ih h hr]

end Row

end RowFilter
