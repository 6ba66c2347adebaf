import RowFilter.ColumnType
import RowFilter.Number.Decimal
import RowFilter.Number.Reader
import RowFilter.Text.Blank
import RowFilter.Time.Printer
import RowFilter.Time.Reader

/-!
# Value — what a column of a row holds

A value is null or of one of the seven types that hold something.  `Value.read` makes a value of a
wanted type from the text of a field: an empty field and the word `NULL` are null for every type.
`Value.same` is equality as a user means it: decimals by their number, doubles as numbers, so that
NaN is unequal to itself and the two zeros are equal.
-/

namespace RowFilter

set_option autoImplicit false

open RowFilter.Time (Instant)

inductive Value where
  | null
  | boolean (b : Bool)
  | integer (n : Int32)
  | long (n : Int64)
  | double (d : Double)
  | decimal (d : Decimal)
  | string (s : String)
  | timestamp (t : Instant)
  deriving DecidableEq

namespace Value

def type : Value → ColumnType
  | null => .null
  | boolean _ => .boolean
  | integer _ => .integer
  | long _ => .long
  | double _ => .double
  | decimal _ => .decimal
  | string _ => .string
  | timestamp _ => .timestamp

def isNull : Value → Bool
  | null => true
  | _ => false

/-- Whether a column of the type may hold the value. -/
def fits (v : Value) (t : ColumnType) : Bool := v.isNull || v.type == t

/-- Equality of values: of the same type and with equal contents. -/
def same : Value → Value → Bool
  | null, null => true
  | boolean a, boolean b => a == b
  | integer a, integer b => a == b
  | long a, long b => a == b
  | double a, double b => a.same b
  | decimal a, decimal b => a.same b
  | string a, string b => a == b
  | timestamp a, timestamp b => a == b
  | _, _ => false

/-! ## Text -/

def booleanText (b : Bool) : String := if b then "true" else "false"

def text : Value → String
  | null => "NULL"
  | boolean b => booleanText b
  | integer n => String.ofList (Text.integer n.toInt)
  | long n => String.ofList (Text.integer n.toInt)
  | double d => String.ofList d.text
  | decimal d => String.ofList d.text
  | string s => "'" ++ s ++ "'"
  | timestamp t => String.ofList t.text

/-! ## Reading -/

/-- What is wrong with a text for a type. -/
inductive Complaint where
  /-- The type has no values but null. -/
  | noValues
  | notBoolean
  | notInteger (fault : Text.NumeralFault)
  | notDouble
  | notDecimal (fault : Decimal.Fault)
  | notTimestamp
  deriving DecidableEq, Repr

/-- A text without its blank ends that is no value of the wanted type. -/
structure Unreadable where
  text : String
  type : ColumnType
  complaint : Complaint
  deriving DecidableEq, Repr

namespace Unreadable

/-- The complaint as it follows the text and the type. -/
def suffix : Complaint → String
  | .noValues => ""
  | .notBoolean => ": provided string was not \x60true\x60 or \x60false\x60"
  | .notInteger fault => ": " ++ fault.message
  | .notDouble => ": invalid float literal"
  | .notDecimal fault => ": " ++ fault.message
  | .notTimestamp => ": unrecognized timestamp format"

def message (u : Unreadable) : String :=
  "Cannot parse '" ++ u.text ++ "' as " ++ u.type.name ++ suffix u.complaint

end Unreadable

/-- The words for the two truth values. -/
def readBoolean? (s : List Char) : Option Bool :=
  if s == ['t', 'r', 'u', 'e'] then some true
  else if s == ['f', 'a', 'l', 's', 'e'] then some false
  else none

def readInt32 (s : List Char) : Except Text.NumeralFault Int32 :=
  (Text.readSized 32 s).map Int32.ofInt

def readInt64 (s : List Char) : Except Text.NumeralFault Int64 :=
  (Text.readSized 64 s).map Int64.ofInt

/-- Reads a text without blank ends that is not the word for null. -/
def readContent (s : List Char) : ColumnType → Except Complaint Value
  | .null => .error .noValues
  | .boolean =>
    match readBoolean? s with
    | some b => .ok (boolean b)
    | none => .error .notBoolean
  | .integer => ((readInt32 s).map integer).mapError .notInteger
  | .long => ((readInt64 s).map long).mapError .notInteger
  | .double =>
    match Double.read? s with
    | some d => .ok (double d)
    | none => .error .notDouble
  | .decimal => ((Decimal.read s).map decimal).mapError .notDecimal
  | .string => .ok (string (String.ofList s))
  | .timestamp =>
    match Instant.read? s with
    | some t => .ok (timestamp t)
    | none => .error .notTimestamp

/-- Whether a text without blank ends stands for null. -/
def isNullWord (s : List Char) : Bool := s.isEmpty || Text.sameLetters s ['n', 'u', 'l', 'l']

/-- Reads a field as a value of the type. -/
def read (field : List Char) (type : ColumnType) : Except Unreadable Value :=
  let s := Text.trim field
  if isNullWord s then .ok null
  else (readContent s type).mapError (fun complaint => ⟨String.ofList s, type, complaint⟩)

/-! ## Small laws -/

theorem isNull_iff {v : Value} : v.isNull = true ↔ v = null := by cases v <;> simp [isNull]

theorem fits_iff {v : Value} {t : ColumnType} : v.fits t = true ↔ v = null ∨ v.type = t := by
  simp [fits, isNull_iff]

theorem fits_type (v : Value) : v.fits v.type = true := by simp [fits]

end Value

end RowFilter
