import RowFilter.Expr.Basic
import RowFilter.Plan.Word

/-!
# Plan.Codec — filters as bytes

`encode` writes a filter tree from the root down, each node as the number of its shape and its parts
in order.  `decode` reads a tree and ignores the bytes behind it.  A decimal is written as its text
and an instant as its milliseconds, so decoding gives an equal decimal and an instant cut to the
millisecond; all else comes back as it was.  The type of a literal and its value are two fields, and
nothing makes them agree.
-/

namespace RowFilter.Plan

set_option autoImplicit false

open RowFilter.Time (Instant)

/-! ## Values -/

/-- The number of an alternative in its list. -/
def choice {α : Type} [BEq α] (alternatives : List α) (a : α) : Bytes :=
  variant (alternatives.idxOf a)

/-- The types of values in the order of their numbers in a plan. -/
def valueTypes : List ColumnType :=
  [.null, .boolean, .integer, .long, .double, .decimal, .string, .timestamp]

/-- What a value holds beside its type. -/
def content : Value → Bytes
  | .null => []
  | .boolean b => boolean b
  | .integer n => word 4 n.toUInt32.toNat
  | .long n => word 8 n.toUInt64.toNat
  | .double d => word 8 d.bits.toNat
  | .decimal d => text (String.ofList d.text)
  | .string s => text s
  | .timestamp t => word 8 (Int64.ofInt t.epochMillis).toUInt64.toNat

def value (v : Value) : Bytes := choice valueTypes v.type ++ content v

def readDecimal : Reader Decimal := do
  let s ← readText
  match Decimal.read s.toList with
  | .ok d => pure d
  | .error fault => throw (.badDecimal fault)

def readInstant : Reader Instant := do
  let n ← readWord 8
  let millis := (UInt64.ofNat n).toInt64.toInt
  match Instant.ofEpochMillis? millis with
  | some t => pure t
  | none => throw (.badInstant millis)

def readValue : Reader Value := do
  match ← readVariant valueTypes with
  | .null => pure .null
  | .boolean => do
    let b ← readBoolean
    pure (.boolean b)
  | .integer => do
    let n ← readWord 4
    pure (.integer (UInt32.ofNat n).toInt32)
  | .long => do
    let n ← readWord 8
    pure (.long (UInt64.ofNat n).toInt64)
  | .double => do
    let n ← readWord 8
    pure (.double ⟨UInt64.ofNat n⟩)
  | .decimal => do
    let d ← readDecimal
    pure (.decimal d)
  | .string => do
    let s ← readText
    pure (.string s)
  | .timestamp => do
    let t ← readInstant
    pure (.timestamp t)

/-! ## Leaves and operators -/

def columnType (t : ColumnType) : Bytes := choice ColumnType.all t

def readColumnType : Reader ColumnType := readVariant ColumnType.all

def cell (c : Cell) : Bytes := columnType c.type ++ value c.value

def readCell : Reader Cell := do
  let t ← readColumnType
  let v ← readValue
  pure ⟨t, v⟩

def column (c : Column) : Bytes :=
  word 8 c.index.toNat ++ columnType c.type ++ optional text c.name

def readColumn : Reader Column := do
  let index ← readWord 8
  let type ← readColumnType
  let name ← readOptional readText
  pure ⟨UInt64.ofNat index, type, name⟩

def nullTests : List NullTest := [.isNull, .isNotNull]

def comparators : List Comparator :=
  [.equals, .notEquals, .greaterThan, .greaterThanEquals, .lessThan, .lessThanEquals]

def connectives : List Connective := [.and, .or]

/-! ## Trees -/

/-- The shapes of nodes, in the order of their numbers in a plan. -/
inductive Shape where
  | literal
  | column
  | nullTest
  | comparison
  | member
  | logic
  | not
  deriving DecidableEq, Repr

def shapes : List Shape := [.literal, .column, .nullTest, .comparison, .member, .logic, .not]

mutual

/-- The bytes of a tree. -/
def encode : Expr → Bytes
  | .literal c => choice shapes .literal ++ cell c
  | .column c => choice shapes .column ++ column c
  | .nullTest test operand => choice shapes .nullTest ++ choice nullTests test ++ encode operand
  | .comparison comparator left right =>
    choice shapes .comparison ++ choice comparators comparator ++ encode left ++ encode right
  | .member negated probe items =>
    choice shapes .member ++ encode probe ++ word 8 items.length ++ encodeItems items ++
      boolean negated
  | .logic connective left right =>
    choice shapes .logic ++ choice connectives connective ++ encode left ++ encode right
  | .not operand => choice shapes .not ++ encode operand

def encodeItems : List Expr → Bytes
  | [] => []
  | item :: more => encode item ++ encodeItems more

end

/-- Reads a tree of depth up to `depth`.  No tree is deeper than it has bytes, so a deeper one is
wanted only where the bytes have ended. -/
def readExpr : Nat → Reader Expr
  | 0 => throw .truncated
  | depth + 1 => do
    match ← readVariant shapes with
    | .literal => do
      let c ← readCell
      pure (.literal c)
    | .column => do
      let c ← readColumn
      pure (.column c)
    | .nullTest => do
      let test ← readVariant nullTests
      let operand ← readExpr depth
      pure (.nullTest test operand)
    | .comparison => do
      let comparator ← readVariant comparators
      let left ← readExpr depth
      let right ← readExpr depth
      pure (.comparison comparator left right)
    | .member => do
      let probe ← readExpr depth
      let count ← readWord 8
      let items ← readMany (readExpr depth) count
      let negated ← readBoolean
      pure (.member negated probe items)
    | .logic => do
      let connective ← readVariant connectives
      let left ← readExpr depth
      let right ← readExpr depth
      pure (.logic connective left right)
    | .not => do
      let operand ← readExpr depth
      pure (.not operand)

/-- The tree that the bytes start with. -/
def decode (bytes : Bytes) : Except Fault Expr :=
  (readExpr bytes.length bytes).map (·.1)

end RowFilter.Plan
