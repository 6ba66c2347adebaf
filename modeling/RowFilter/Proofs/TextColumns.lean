import RowFilter.Proofs.Alike
import RowFilter.Proofs.TextFrames

/-!
# Proofs.TextColumns — columns declared to hold texts

A line that is a row of a schema is still one when a column is declared to hold texts, and only that value
is another one (`read_set`).  Filters that compare the column with values of its first type, look for it
among such values and test it for null cannot tell (`evaluate_redeclared`).  So it does not matter
whether a field is read with its row or where it is compared (`text_column_agrees`).
-/

namespace RowFilter

set_option autoImplicit false

/-! ## Rows -/

namespace Row

section

variable {schema : Schema} {row : Row} {i : Nat} {T : ColumnType}

/-- Where one column is declared to hold texts, its field is read as one and the others as before. -/
theorem readFields_set {fields : List (List Char)} (same : fields.length = schema.length)
    (found : schema[i]? = some T) (h : readFields fields schema = .ok row) :
    ∃ v w, row[i]? = some v ∧ Value.OneField T v w ∧
      readFields fields (schema.set i .string) = .ok (row.set i w) := by
  induction fields generalizing schema row i with
  | nil =>
      have empty : schema = [] := List.eq_nil_of_length_eq_zero same.symm
      subst empty
      cases found
  | cons field fields ih =>
      cases schema with
      | nil => cases same
      | cons t types =>
          simp only [readFields, bind_eq_ok] at h
          obtain ⟨first, readFirst, rest, readRest, done⟩ := h
          cases done
          cases i with
          | zero =>
              cases found
              obtain ⟨w, readText, one⟩ := Value.oneField_of_read readFirst
              refine ⟨first, w, rfl, one, ?_⟩
              simp only [List.set_cons_zero, readFields, readText, readRest]
              rfl
          | succ i =>
              obtain ⟨v, w, inside, one, more⟩ := ih (Nat.succ.inj same) found readRest
              refine ⟨v, w, inside, one, ?_⟩
              simp only [List.set_cons_succ, readFields, readFirst, more]
              rfl

theorem read_set {line : List Char} {delimiter : Char} (found : schema[i]? = some T)
    (h : read line delimiter schema = .ok row) :
    ∃ v w, row[i]? = some v ∧ Value.OneField T v w ∧
      read line delimiter (schema.set i .string) = .ok (row.set i w) := by
  simp only [read] at h
  split at h
  · rename_i same
    obtain ⟨v, w, inside, one, all⟩ := readFields_set same found (mapError_eq_ok.mp h)
    refine ⟨v, w, inside, one, ?_⟩
    simp only [read]
    rw [if_pos (by rw [same, List.length_set]), all]
    rfl
  · cases h

end

/-- Two rows of one line: a column that is read at the type in one is read as a text in the other. -/
structure Reread (i : UInt64) (T : ColumnType) (row row' : Row) : Prop where
  column : ∃ v w, row.fetch i = .ok v ∧ row'.fetch i = .ok w ∧ Value.OneField T v w
  others : ∀ j, j ≠ i → row'.fetch j = row.fetch j

theorem reread_set {row : Row} {i : UInt64} {T : ColumnType} {v w : Value}
    (inside : row[i.toNat]? = some v) (one : Value.OneField T v w) :
    Reread i T row (row.set i.toNat w) where
  column := by
    have lt : i.toNat < row.length := (List.getElem?_eq_some_iff.mp inside).1
    exact ⟨v, w, fetch_eq_ok.mpr inside, fetch_eq_ok.mpr (List.getElem?_set_self lt), one⟩
  others j other := by
    have apart : i.toNat ≠ j.toNat := fun same => other (UInt64.toNat_inj.mp same).symm
    rw [fetch, fetch, List.getElem?_set_ne apart, List.length_set]

end Row

/-! ## Trees -/

namespace Expr

/-- What may stand beside a column of the type: a literal or another column, of that type. -/
inductive Counterpart (i : UInt64) (T : ColumnType) : Expr → Prop where
  | literal {c : Cell} (type : c.type = T) : Counterpart i T (literal c)
  | column {c : Column} (other : c.index ≠ i) (type : c.type = T) : Counterpart i T (column c)

/-- Two trees that differ in how one column is declared, at the type or to hold texts.  The column is only
compared with counterparts, looked for among them, and tested for null. -/
inductive Redeclared (i : UInt64) (T : ColumnType) : Expr → Expr → Prop where
  | literal (c : Cell) : Redeclared i T (literal c) (literal c)
  | column {c : Column} (other : c.index ≠ i) : Redeclared i T (column c) (column c)
  | nullTest (test : NullTest) {e e' : Expr} (operand : Redeclared i T e e') :
    Redeclared i T (nullTest test e) (nullTest test e')
  | comparison (c : Comparator) {l l' r r' : Expr} (left : Redeclared i T l l')
    (right : Redeclared i T r r') : Redeclared i T (comparison c l r) (comparison c l' r')
  | member (negated : Bool) {p p' : Expr} {es es' : List Expr} (probe : Redeclared i T p p')
    (items : List.Forall₂ (Redeclared i T) es es') :
    Redeclared i T (member negated p es) (member negated p' es')
  | logic (c : Connective) {l l' r r' : Expr} (left : Redeclared i T l l')
    (right : Redeclared i T r r') : Redeclared i T (logic c l r) (logic c l' r')
  | not {e e' : Expr} (operand : Redeclared i T e e') : Redeclared i T (not e) (not e')
  | tested (test : NullTest) (name : Option String) :
    Redeclared i T (nullTest test (column ⟨i, T, name⟩))
      (nullTest test (column ⟨i, .string, name⟩))
  | left (c : Comparator) (name : Option String) {e : Expr} (beside : Counterpart i T e) :
    Redeclared i T (comparison c (column ⟨i, T, name⟩) e)
      (comparison c (column ⟨i, .string, name⟩) e)
  | right (c : Comparator) (name : Option String) {e : Expr} (beside : Counterpart i T e) :
    Redeclared i T (comparison c e (column ⟨i, T, name⟩))
      (comparison c e (column ⟨i, .string, name⟩))
  | among (negated : Bool) (name : Option String) {es : List Expr}
    (beside : ∀ e ∈ es, Counterpart i T e) :
    Redeclared i T (member negated (column ⟨i, T, name⟩) es)
      (member negated (column ⟨i, .string, name⟩) es)

section

variable {i : UInt64} {T : ColumnType} {row row' : Row} {e e' : Expr}

theorem Redeclared.kind_eq (h : Redeclared i T e e') : e'.kind = e.kind := by
  cases h <;> rfl

/-- Counterparts do not see how the column is read, and their results are of its type. -/
theorem Counterpart.evaluate (rows : row.Reread i T row') (h : Counterpart i T e) :
    e.evaluate row' = e.evaluate row ∧ ∀ a, e.evaluate row = .ok a → a.type = T := by
  refine ⟨?_, ?_⟩
  · cases h with
    | literal => rw [evaluate_literal, evaluate_literal]
    | column other => rw [evaluate_column, evaluate_column, rows.others _ other]
  · intro a given
    rw [type_of_evaluate given]
    cases h with
    | literal type => exact type
    | column _ type => exact type

/-- The column gives a cell of its field either way. -/
theorem evaluate_redeclared_column (rows : row.Reread i T row') (name : Option String) :
    ∃ a b, (column ⟨i, T, name⟩).evaluate row = .ok a ∧
      (column ⟨i, .string, name⟩).evaluate row' = .ok b ∧ Cell.Reread T a b := by
  obtain ⟨v, w, fetched, fetched', fits, text, reread⟩ := rows.column
  refine ⟨⟨T, v⟩, ⟨.string, w⟩, ?_, ?_, reread⟩
  · exact evaluate_column_eq_ok.mpr ⟨v, Row.fetch_eq_ok.mp fetched, fits, rfl⟩
  · exact evaluate_column_eq_ok.mpr ⟨w, Row.fetch_eq_ok.mp fetched', text, rfl⟩

/-- On their rows two items come to one outcome, and compare alike with two probes. -/
def ItemsAlike (row row' : Row) (kind : Kind) (probe probe' : Cell) (item item' : Expr) : Prop :=
  item'.evaluate row' = item.evaluate row ∧
    ∀ n, item.evaluate row = .ok n →
      Cell.compareFor kind .equals probe' n = Cell.compareFor kind .equals probe n

/-- A search goes the same way through such items. -/
theorem searchBy_itemsAlike {kind : Kind} {probe probe' : Cell} {items items' : List Expr}
    (alike : List.Forall₂ (ItemsAlike row row' kind probe probe') items items') (s : Search) :
    searchBy row'.fetch kind probe' items' s = searchBy row.fetch kind probe items s := by
  induction alike generalizing s with
  | nil => rw [searchBy_nil, searchBy_nil]
  | cons head _ ih =>
      obtain ⟨same, compared⟩ := head
      rw [searchBy_cons, searchBy_cons, same]
      refine bind_congr_of_ok fun n given => ?_
      rw [Search.step, Search.step, compared n given]
      exact congrArg _ (funext ih)

/-- Where both probes fail alike, or are both null or both not and the items are alike beside them,
membership comes to one outcome. -/
theorem evaluate_member_itemsAlike {negated : Bool} {p p' : Expr} {es es' : List Expr}
    (probes : Agree (fun a b => b.isNull = a.isNull ∧
      List.Forall₂ (ItemsAlike row row' (memberKind negated) a b) es es')
        (p.evaluate row) (p'.evaluate row'))
    (empty : es = [] ↔ es' = []) :
    (member negated p' es').evaluate row' = (member negated p es).evaluate row := by
  by_cases void : es = []
  · have void' := empty.mp void
    subst void void'
    rw [evaluate_member_nil, evaluate_member_nil]
  · have full : es' ≠ [] := mt empty.mpr void
    rw [evaluate_member_of_ne_nil void, evaluate_member_of_ne_nil full, eq_comm, ← agree_eq_iff]
    refine probes.bind fun a b _ _ related => ?_
    obtain ⟨null, alike⟩ := related
    rw [agree_eq_iff]
    simp only [searchBy_itemsAlike alike, Search.outcome, null]

section Column

variable (above : T ∈ ColumnType.textFrames) (rows : row.Reread i T row') (name : Option String)

include above rows

theorem evaluate_beside (beside : Counterpart i T e) (c : Comparator) :
    (comparison c (column ⟨i, .string, name⟩) e).evaluate row' =
        (comparison c (column ⟨i, T, name⟩) e).evaluate row ∧
      (comparison c e (column ⟨i, .string, name⟩)).evaluate row' =
        (comparison c e (column ⟨i, T, name⟩)).evaluate row := by
  obtain ⟨a, b, ha, hb, reread⟩ := evaluate_redeclared_column rows name
  obtain ⟨same, type⟩ := beside.evaluate rows
  simp only [evaluate_comparison, ha, hb, same]
  constructor
  · refine bind_congr_of_ok fun n given => congrArg (Except.map Cell.boolean) ?_
    exact (Cell.compareFor_reread above reread (type n given) c).1
  · refine bind_congr_of_ok fun n given => congrArg (Except.map Cell.boolean) ?_
    exact (Cell.compareFor_reread above reread (type n given) c).2

theorem evaluate_among {es : List Expr} (beside : ∀ e ∈ es, Counterpart i T e) (negated : Bool) :
    (member negated (column ⟨i, .string, name⟩) es).evaluate row' =
      (member negated (column ⟨i, T, name⟩) es).evaluate row := by
  obtain ⟨a, b, ha, hb, reread⟩ := evaluate_redeclared_column rows name
  refine evaluate_member_itemsAlike ?_ Iff.rfl
  rw [ha, hb]
  refine ⟨reread.isNull_eq, List.forall₂_same.mpr fun item mem => ?_⟩
  obtain ⟨same, type⟩ := (beside item mem).evaluate rows
  exact ⟨same, fun n given => (Cell.compareFor_reread above reread (type n given) .equals).1⟩

/-- **A tree has one outcome on a row, whichever way the column is declared.** -/
theorem evaluate_redeclared (h : Redeclared i T e e') : e'.evaluate row' = e.evaluate row := by
  induction e generalizing e' with
  | literal c =>
      cases h
      rw [evaluate_literal, evaluate_literal]
  | column c =>
      cases h with
      | column other => rw [evaluate_column, evaluate_column, rows.others _ other]
  | nullTest test operand ih =>
      cases h with
      | nullTest _ operand => rw [evaluate_nullTest, evaluate_nullTest, ih operand]
      | tested _ name =>
          obtain ⟨a, b, ha, hb, reread⟩ := evaluate_redeclared_column rows name
          rw [evaluate_nullTest, evaluate_nullTest, ha, hb]
          show Except.ok (Cell.nullTest test b) = Except.ok (Cell.nullTest test a)
          rw [Cell.nullTest, Cell.nullTest, reread.isNull_eq]
  | comparison c l r ihl ihr =>
      cases h with
      | comparison _ left right =>
          rw [evaluate_comparison, evaluate_comparison, ihl left, ihr right]
      | left _ name beside => exact (evaluate_beside above rows name beside c).1
      | right _ name beside => exact (evaluate_beside above rows name beside c).2
  | member negated probe items ihp ihi =>
      cases h with
      | @member _ _ probe' _ items' head rest =>
          refine evaluate_member_itemsAlike ?_ ?_
          · rw [ihp head]
            refine agree_refl (fun a => ⟨rfl, forall₂_imp rest fun item mem _ h => ?_⟩) _
            exact ⟨ihi item mem h, fun _ _ => rfl⟩
          · rw [← List.length_eq_zero_iff, rest.length_eq, List.length_eq_zero_iff]
      | among _ name beside => exact evaluate_among above rows name beside negated
  | logic c l r ihl ihr =>
      cases h with
      | logic _ left right => rw [evaluate_logic, evaluate_logic, ihl left, ihr right]
  | not operand ih =>
      cases h with
      | not operand => rw [evaluate_not, evaluate_not, ih operand]

theorem keeps_redeclared (h : Redeclared i T e e') :
    (Filter.mk e').keeps row' = (Filter.mk e).keeps row := by
  simp only [Filter.keeps, evaluate_redeclared above rows h, h.kind_eq]

end Column

end

end Expr

/-! ## Columns of texts -/

section

variable {T : ColumnType}

/-- **It does not matter whether a field is read with its row or where it is compared.**  Its text compares
with a value of the type as its own value does, on either side, and fails just where it has none.  So a
filter decides alike whichever way the column is declared, on all lines that are rows of its type. -/
theorem text_column_agrees (above : T ∈ ColumnType.textFrames) :
    (∀ field, ∃ w, Value.read field .string = .ok w ∧ ∀ n : Value, n.type = T → ∀ c,
      (∀ v, Value.read field T = .ok v →
        Cell.compare c (.of w) (.of n) = Cell.compare c (.of v) (.of n) ∧
          Cell.compare c (.of n) (.of w) = Cell.compare c (.of n) (.of v) ∧
          (∃ b, Cell.compare c (.of v) (.of n) = .ok b) ∧
          ∃ b, Cell.compare c (.of n) (.of v) = .ok b) ∧
      ∀ fault, Value.read field T = .error fault →
        Cell.compare c (.of w) (.of n) = .error (Cell.unconverted c.kind w T) ∧
          Cell.compare c (.of n) (.of w) = .error (Cell.unconverted c.kind w T)) ∧
    ∀ (line : List Char) (delimiter : Char) (schema : Schema) (row : Row) (i : UInt64),
      schema[i.toNat]? = some T → Row.read line delimiter schema = .ok row →
      ∃ row', Row.read line delimiter (schema.set i.toNat .string) = .ok row' ∧
        ∀ e e', Expr.Redeclared i T e e' → (Filter.mk e').keeps row' = (Filter.mk e).keeps row := by
  constructor
  · intro field
    refine ⟨_, Value.read_string field, fun n type c => ⟨?_, ?_⟩⟩
    · intro v given
      obtain ⟨w, text, reread⟩ := Value.reread_of_read given
      rw [Value.read_string, Except.ok.injEq] at text
      rw [text]
      have cell : (Cell.of n).type = T := type
      obtain ⟨there, back⟩ := Cell.compareFor_reread above reread cell c
      have fits : v.fits n.type = true := by
        rw [type]
        exact Value.fits_of_read given
      exact ⟨there, back, Cell.compare_own fits c⟩
    · intro fault given
      obtain ⟨s, complaint, text, refused⟩ := Value.refused_of_read given
      rw [Value.read_string, Except.ok.injEq] at text
      rw [text]
      exact Cell.compare_of_refused above type refused c
  · intro line delimiter schema row i found given
    obtain ⟨v, w, inside, one, text⟩ := Row.read_set found given
    exact ⟨_, text, fun e e' => Expr.keeps_redeclared above (Row.reread_set inside one)⟩

/-- `#1 >= 1000.0`, where the column is of the type. -/
def fromThousand (t : ColumnType) : Expr :=
  .comparison .greaterThanEquals (.column ⟨1, t, none⟩) (.ofValue (.double ⟨0x408F400000000000⟩))

/-- ` 1e3 ` is 1000, as a double or as a text, and `1e` is no double. -/
theorem exponentText_agrees :
    (∃ w, Value.read [' ', '1', 'e', '3', ' '] .string = .ok w ∧
        Cell.compare .equals (.of w) (.of (.double ⟨0x408F400000000000⟩)) = .ok true) ∧
      (∃ w, Value.read ['1', 'e'] .string = .ok w ∧
        Cell.compare .equals (.of w) (.of (.double ⟨0x408F400000000000⟩)) =
          .error (Cell.unconverted .equals w .double)) ∧
      ∃ row, Row.read ['x', ',', ' ', '1', 'e', '3'] ',' [.string, .string] = .ok row ∧
        (Filter.mk (fromThousand .string)).keeps row = .ok true := by
  have above : ColumnType.double ∈ ColumnType.textFrames := by decide
  have parsed : Value.read [' ', '1', 'e', '3', ' '] .double = .ok (.double ⟨0x408F400000000000⟩) := by
    decide +kernel
  have refused : Value.read ['1', 'e'] .double = .error ⟨"1e", .double, .notDouble⟩ := by
    decide +kernel
  have row : Row.read ['x', ',', ' ', '1', 'e', '3'] ',' [.string, .double] =
      .ok [.string "x", .double ⟨0x408F400000000000⟩] := by
    decide +kernel
  have redeclared : Expr.Redeclared 1 .double (fromThousand .double) (fromThousand .string) :=
    .left .greaterThanEquals none (.literal rfl)
  obtain ⟨fields, lines⟩ := text_column_agrees above
  refine ⟨?_, ?_, ?_⟩
  · obtain ⟨w, text, agree⟩ := fields [' ', '1', 'e', '3', ' ']
    refine ⟨w, text, ?_⟩
    rw [((agree (.double ⟨0x408F400000000000⟩) rfl .equals).1 _ parsed).1]
    rfl
  · obtain ⟨w, text, agree⟩ := fields ['1', 'e']
    exact ⟨w, text, ((agree (.double ⟨0x408F400000000000⟩) rfl .equals).2 _ refused).1⟩
  · obtain ⟨row', text, agree⟩ := lines _ ',' [.string, .double] _ 1 rfl row
    refine ⟨row', text, ?_⟩
    rw [agree _ _ redeclared]
    rfl

end

end RowFilter
