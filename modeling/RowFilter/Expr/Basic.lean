import RowFilter.Cell

/-!
# Expr.Basic — filter trees

A filter is a tree of literals, columns, null tests, comparisons, membership in a list, and the
connectives of truth values.  Functions on trees come in pairs, one for a tree and one for the items
of a list.  `text` is the form in which a filter is shown; it is not read back.
-/

namespace RowFilter

set_option autoImplicit false

/-- A column of the rows, with the type it is declared to have. -/
structure Column where
  index : UInt64
  type : ColumnType
  name : Option String
  deriving DecidableEq, Repr

inductive Expr where
  | literal (cell : Cell)
  | column (column : Column)
  | nullTest (test : NullTest) (operand : Expr)
  | comparison (comparator : Comparator) (left right : Expr)
  /-- Whether the probe is among the items, or with `negated` is not. -/
  | member (negated : Bool) (probe : Expr) (items : List Expr)
  | logic (connective : Connective) (left right : Expr)
  | not (operand : Expr)

namespace Expr

/-- The literal of a value. -/
def ofValue (v : Value) : Expr := literal (.of v)

/-- The null literal of a type. -/
def null (t : ColumnType) : Expr := literal (.null t)

/-- The literal of a value at a type, which a null takes on. -/
def ofTyped (t : ColumnType) (v : Value) : Expr := if v.isNull then null t else ofValue v

def and (left right : Expr) : Expr := logic .and left right

def or (left right : Expr) : Expr := logic .or left right

/-- The conjunction of filters, from the left; there is none of no filters. -/
def conjunction? : List Expr → Option Expr
  | [] => none
  | e :: more => some (more.foldl and e)

def memberKind (negated : Bool) : Kind := if negated then .notIn else .isIn

def kind : Expr → Kind
  | literal _ => .literal
  | column _ => .column
  | nullTest test _ => test.kind
  | comparison comparator _ _ => comparator.kind
  | member negated _ _ => memberKind negated
  | logic connective _ _ => connective.kind
  | not _ => .not

/-- The trees directly below the root, from left to right. -/
def children : Expr → List Expr
  | literal _ | column _ => []
  | nullTest _ operand | not operand => [operand]
  | comparison _ left right | logic _ left right => [left, right]
  | member _ probe items => probe :: items

/-! ## Columns -/

mutual

/-- The indices of the columns in the tree, from left to right and as often as they occur. -/
def occurrences : Expr → List UInt64
  | literal _ => []
  | column c => [c.index]
  | nullTest _ operand | not operand => operand.occurrences
  | comparison _ left right | logic _ left right => left.occurrences ++ right.occurrences
  | member _ probe items => probe.occurrences ++ occurrencesIn items

def occurrencesIn : List Expr → List UInt64
  | [] => []
  | e :: more => e.occurrences ++ occurrencesIn more

end

/-- Puts an index into its place in an increasing list, unless it is there. -/
def insertIndex (i : UInt64) : List UInt64 → List UInt64
  | [] => [i]
  | j :: more => if i < j then i :: j :: more else if i = j then j :: more else j :: insertIndex i more

/-- The indices of the columns in the tree, increasing. -/
def columns (e : Expr) : List UInt64 := e.occurrences.foldr insertIndex []

mutual

/-- Whether the tree has no columns. -/
def isConstant : Expr → Bool
  | literal _ => true
  | column _ => false
  | nullTest _ operand | not operand => operand.isConstant
  | comparison _ left right | logic _ left right => left.isConstant && right.isConstant
  | member _ probe items => probe.isConstant && allConstant items

def allConstant : List Expr → Bool
  | [] => true
  | e :: more => e.isConstant && allConstant more

end

/-! ## Text -/

def columnText (c : Column) : String :=
  match c.name with
  | some name => "Column(" ++ name ++ ")"
  | none => "Column(#" ++ toString c.index.toNat ++ ")"

mutual

/-- The text of a tree. -/
def text : Expr → String
  | literal c => "Literal(" ++ c.value.text ++ ")"
  | column c => columnText c
  | nullTest test operand => test.kind.name ++ "(" ++ operand.text ++ ")"
  | comparison comparator left right =>
    comparator.kind.name ++ "(" ++ left.text ++ "," ++ right.text ++ ")"
  | member negated probe items =>
    (memberKind negated).name ++ "(" ++ probe.text ++ ",[" ++ ",".intercalate (texts items) ++ "])"
  | logic connective left right =>
    connective.kind.name ++ "(" ++ left.text ++ "," ++ right.text ++ ")"
  | not operand => "Not(" ++ operand.text ++ ")"

def texts : List Expr → List String
  | [] => []
  | e :: more => e.text :: texts more

end

/-! ## Equality -/

mutual

/-- Whether two trees have the same shape, types and names, and equal values. -/
def same : Expr → Expr → Bool
  | literal a, literal b => Cell.same a b
  | column a, column b => a == b
  | nullTest s a, nullTest t b => s == t && a.same b
  | comparison s a b, comparison t c d => s == t && a.same c && b.same d
  | member s a as, member t b bs => s == t && a.same b && allSame as bs
  | logic s a b, logic t c d => s == t && a.same c && b.same d
  | not a, not b => a.same b
  | _, _ => false

def allSame : List Expr → List Expr → Bool
  | [], [] => true
  | a :: as, b :: bs => a.same b && allSame as bs
  | _, _ => false

end

/-! ## Small laws -/

theorem occurrencesIn_eq (es : List Expr) : occurrencesIn es = es.flatMap occurrences := by
  induction es with
  | nil => rfl
  | cons e more ih => simp [occurrencesIn, ih]

theorem occurrences_eq_children (e : Expr) (h : ∀ c, e ≠ column c) :
    e.occurrences = e.children.flatMap occurrences := by
  cases e <;> simp_all [occurrences, children, occurrencesIn_eq]

theorem texts_eq (es : List Expr) : texts es = es.map text := by
  induction es with
  | nil => rfl
  | cons e more ih => simp [texts, ih]

theorem mem_insertIndex {i j : UInt64} {l : List UInt64} :
    j ∈ insertIndex i l ↔ j = i ∨ j ∈ l := by
  induction l with
  | nil => simp [insertIndex]
  | cons k more ih =>
    simp only [insertIndex]
    split
    · simp
    · split
      · subst k
        simp
      · simp only [List.mem_cons, ih]
        constructor <;> rintro (h | h | h) <;> simp [h]

theorem mem_columns {e : Expr} {i : UInt64} : i ∈ e.columns ↔ i ∈ e.occurrences := by
  simp only [columns]
  induction e.occurrences with
  | nil => simp
  | cons j more ih => simp [mem_insertIndex, ih]

end Expr

end RowFilter
