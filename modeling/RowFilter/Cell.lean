import RowFilter.Fault

/-!
# Cell — results of evaluation

A cell is a value with the type it was declared or computed with; a null keeps that type.  The `get`
functions give the value of a cell of exactly that type.  The `read` functions give it through the
frame of a comparison, and parse a text or widen a number where that is needed; nothing narrows.
`standing` is where two cells stand to each other in the order of their common frame.
-/

namespace RowFilter

set_option autoImplicit false

open RowFilter.Time (Instant)

structure Cell where
  type : ColumnType
  value : Value
  deriving DecidableEq

namespace Cell

/-- The cell of a value and its own type. -/
def of (v : Value) : Cell := ⟨v.type, v⟩

/-- The cell of a value in a column of the type. -/
def typed (t : ColumnType) (v : Value) : Except Fault Cell :=
  if v.fits t then .ok ⟨t, v⟩ else .error (.typeMismatch t v.type)

def null (t : ColumnType) : Cell := ⟨t, .null⟩

def boolean (b : Bool) : Cell := of (.boolean b)

/-- The cell with a new value, which brings its own type. -/
def set (_ : Cell) (v : Value) : Cell := of v

def isNull (c : Cell) : Bool := c.value.isNull

/-- The value is null or of the type of the cell. -/
def WellTagged (c : Cell) : Prop := c.value.fits c.type = true

/-- Equality of cells: the same type and equal values. -/
def same (a b : Cell) : Bool := a.type == b.type && a.value.same b.value

/-! ## Values of one type -/

/-- Why a cell has no value of the wanted type. -/
def accessFault (c : Cell) (wanted : ColumnType) : Fault :=
  if c.isNull then .unexpectedNull wanted else .typeMismatch wanted c.type

def getBoolean (c : Cell) : Except Fault Bool :=
  match c.value with
  | .boolean b => .ok b
  | _ => .error (c.accessFault .boolean)

def getInteger (c : Cell) : Except Fault Int32 :=
  match c.value with
  | .integer n => .ok n
  | _ => .error (c.accessFault .integer)

def getLong (c : Cell) : Except Fault Int64 :=
  match c.value with
  | .long n => .ok n
  | _ => .error (c.accessFault .long)

def getDouble (c : Cell) : Except Fault Double :=
  match c.value with
  | .double d => .ok d
  | _ => .error (c.accessFault .double)

def getDecimal (c : Cell) : Except Fault Decimal :=
  match c.value with
  | .decimal d => .ok d
  | _ => .error (c.accessFault .decimal)

def getString (c : Cell) : Except Fault String :=
  match c.value with
  | .string s => .ok s
  | _ => .error (c.accessFault .string)

def getTimestamp (c : Cell) : Except Fault Instant :=
  match c.value with
  | .timestamp t => .ok t
  | _ => .error (c.accessFault .timestamp)

/-! ## Reading through a frame -/

/-- What is read out of the value, or that the value cannot be converted to the frame. -/
def converted {α : Type} (c : Cell) (frame : ColumnType) : Option α → Except Coercion α
  | some a => .ok a
  | none => .error (.cannotConvert c.value frame)

/-- The characters of a text without its blank ends. -/
def content (s : String) : List Char := Text.trim s.toList

def readString (c : Cell) : Except Coercion String :=
  match c.value with
  | .string s => .ok s
  | .boolean b => .ok (Value.booleanText b)
  | _ => .error (.cannotRead c.type .string)

def readTimestamp (c : Cell) : Except Coercion Instant :=
  match c.value with
  | .timestamp t => .ok t
  | .string s => c.converted .timestamp (Instant.read? (content s))
  | _ => .error (.cannotRead c.type .timestamp)

def readInteger (c : Cell) : Except Coercion Int32 :=
  match c.value with
  | .integer n => .ok n
  | .string s => c.converted .integer (Value.readInt32 (content s)).toOption
  | _ => .error (.cannotRead c.type .integer)

def readLong (c : Cell) : Except Coercion Int64 :=
  match c.value with
  | .integer n => .ok n.toInt64
  | .long n => .ok n
  | .timestamp t => .ok (Int64.ofInt t.epochMillis)
  | .string s => c.converted .long (Value.readInt64 (content s)).toOption
  | _ => .error (.cannotRead c.type .long)

def readDouble (c : Cell) : Except Coercion Double :=
  match c.value with
  | .integer n => .ok (.ofInt n.toInt)
  | .long n => .ok (.ofInt n.toInt)
  | .double d => .ok d
  | .timestamp t => .ok (.ofInt t.epochMillis)
  | .string s => c.converted .double (Double.read? (content s))
  | _ => .error (.cannotRead c.type .double)

def readDecimal (c : Cell) : Except Coercion Decimal :=
  match c.value with
  | .decimal d => .ok d
  | .integer n => .ok (.ofInt n.toInt)
  | .long n => .ok (.ofInt n.toInt)
  | .double d => c.converted .decimal (Decimal.ofDouble? d)
  | .timestamp t => .ok (.ofInt t.epochMillis)
  | .string s => c.converted .decimal (Decimal.read (content s)).toOption
  | _ => .error (.cannotRead c.type .decimal)

/-! ## Comparing -/

/-- Where two operands stand in their frame. -/
inductive Standing where
  /-- The frame has no order at all. -/
  | unranked
  /-- The frame has an order and the operands are not in it. -/
  | unordered
  | ordered (o : Ordering)
  deriving DecidableEq, Repr

def Standing.ofOption : Option Ordering → Standing
  | none => unordered
  | some o => ordered o

/-- Whether the comparator is satisfied; in a frame without an order none is. -/
def Standing.satisfies (comparator : Comparator) : Standing → Bool
  | unranked => false
  | unordered => comparator.holds none
  | ordered o => comparator.holds (some o)

/-- Reads two operands, the left one first, and orders them. -/
def standingBy {α : Type} (read : Cell → Except Coercion α) (order : α → α → Option Ordering)
    (l r : Cell) : Except Coercion Standing :=
  match read l with
  | .error reason => .error reason
  | .ok a =>
    match read r with
    | .error reason => .error reason
    | .ok b => .ok (.ofOption (order a b))

/-- Where two operands that are not null stand to each other in their frame. -/
def standing (l r : Cell) : Except Coercion Standing :=
  match ColumnType.frame l.type r.type with
  | .null | .boolean => .ok .unranked
  | .string => standingBy readString (fun a b => some (Ord.compare a b)) l r
  | .timestamp => standingBy readTimestamp (fun a b => some (a.compare b)) l r
  | .integer => standingBy readInteger (fun a b => some (Ord.compare a.toInt b.toInt)) l r
  | .long => standingBy readLong (fun a b => some (Ord.compare a.toInt b.toInt)) l r
  | .double => standingBy readDouble Double.compare? l r
  | .decimal => standingBy readDecimal (fun a b => some (a.compare b)) l r

/-- Compares on behalf of a node of the given kind; a null satisfies no comparator. -/
def compareFor (kind : Kind) (comparator : Comparator) (l r : Cell) : Except Fault Bool :=
  if l.isNull || r.isNull then .ok false
  else
    match standing l r with
    | .ok s => .ok (s.satisfies comparator)
    | .error reason => .error (.unsupported (.node kind) (.coercion reason))

def compare (comparator : Comparator) (l r : Cell) : Except Fault Bool :=
  compareFor comparator.kind comparator l r

/-! ## Truth values -/

/-- The truth value of an operand of a node, none for null. -/
def operand (kind : Kind) (c : Cell) : Except Fault (Option Bool) :=
  match c.value with
  | .null => .ok none
  | .boolean b => .ok (some b)
  | _ => .error (.unsupported (.node kind) (.operandNotBoolean c.type))

/-! ## Small laws -/

theorem wellTagged_of (v : Value) : (of v).WellTagged := Value.fits_type v

theorem wellTagged_null (t : ColumnType) : (null t).WellTagged := rfl

theorem wellTagged_of_typed {t : ColumnType} {v : Value} {c : Cell} (h : typed t v = .ok c) :
    c.WellTagged := by
  simp only [typed] at h
  split at h
  · cases h
    assumption
  · cases h

end Cell

end RowFilter
