import RowFilter.Text.Blank

/-!
# ColumnType — the types of columns and results

The types are ranked.  Two operands of a comparison are both read through the type of higher rank,
their `frame`; `canReadAs` says which types may be read through which frame.  Texts may have to be
parsed for that, everything else is read without loss of range.
-/

namespace RowFilter

set_option autoImplicit false

inductive ColumnType where
  | null
  | boolean
  | string
  | timestamp
  | integer
  | long
  | double
  | decimal
  deriving DecidableEq, Repr

namespace ColumnType

/-- All types, by rank. -/
def all : List ColumnType := [null, boolean, string, timestamp, integer, long, double, decimal]

/-- The place of the type in `all`. -/
def rank : ColumnType → Nat
  | null => 0
  | boolean => 1
  | string => 2
  | timestamp => 3
  | integer => 4
  | long => 5
  | double => 6
  | decimal => 7

/-- The type through which two operands are read: the one of higher rank. -/
def frame (left right : ColumnType) : ColumnType := if left.rank < right.rank then right else left

/-- Whether a value of the first type may be read through the second. -/
def canReadAs : ColumnType → ColumnType → Bool
  | null, _ => true
  | boolean, string => true
  | string, timestamp | string, integer | string, long | string, double | string, decimal => true
  | timestamp, long | timestamp, double | timestamp, decimal => true
  | integer, long | integer, double | integer, decimal => true
  | long, double | long, decimal => true
  | double, decimal => true
  | source, target => source == target

def name : ColumnType → String
  | null => "null"
  | boolean => "boolean"
  | string => "string"
  | timestamp => "timestamp"
  | integer => "integer"
  | long => "long"
  | double => "double"
  | decimal => "decimal"

/-- A text that names no type, without its blank ends and in small letters. -/
structure UnknownName where
  name : String
  deriving DecidableEq, Repr

def UnknownName.message (u : UnknownName) : String := "Unknown data type: " ++ u.name

/-- The type of the given name, in letters of either case and between blanks. -/
def read (s : List Char) : Except UnknownName ColumnType :=
  match String.ofList (Text.lower (Text.trim s)) with
  | "null" => .ok null
  | "bool" | "boolean" => .ok boolean
  | "string" | "varchar" | "text" => .ok string
  | "timestamp" => .ok timestamp
  | "int" | "integer" => .ok integer
  | "long" | "bigint" => .ok long
  | "double" => .ok double
  | "decimal" => .ok decimal
  | other => .error ⟨other⟩

/-! ## Small laws -/

theorem mem_all (t : ColumnType) : t ∈ all := by cases t <;> decide

theorem all_get_rank (t : ColumnType) : all[t.rank]? = some t := by cases t <;> rfl

theorem rank_inj {s t : ColumnType} (h : s.rank = t.rank) : s = t := by
  have found := s.all_get_rank
  rw [h, t.all_get_rank] at found
  exact (Option.some.inj found).symm

theorem frame_self (t : ColumnType) : frame t t = t := by simp [frame]

theorem frame_comm (s t : ColumnType) : frame s t = frame t s := by
  unfold frame
  rcases Nat.lt_trichotomy s.rank t.rank with lower | same | higher
  · rw [if_pos lower, if_neg (Nat.lt_asymm lower)]
  · rw [rank_inj same]
  · rw [if_neg (Nat.lt_asymm higher), if_pos higher]

theorem canReadAs_self (t : ColumnType) : t.canReadAs t = true := by cases t <;> rfl

end ColumnType

end RowFilter
