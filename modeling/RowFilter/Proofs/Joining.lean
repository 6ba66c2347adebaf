import RowFilter.Proofs.Origins
import RowFilter.Proofs.Reading
import RowFilter.Proofs.Reads

/-!
# Proofs.Joining — reading a line undoes joining its fields

Fields without the delimiter are the parts of the line that joins them (`split_join`), and a line is read
by what its parts come to: a wrong number of them is a fault, then the first that cannot be read is, and
else each is a value of the row (`read_eq_iff`).  A row that was read has the columns of the schema, and
so every column of a tree that is accepted for it (`covers_of_check`): no evaluation fails for a column.
-/

namespace RowFilter

set_option autoImplicit false

namespace Text

/-- Parts without the separator are found again. -/
theorem split_join {separator : Char} {parts : List (List Char)} (ne : parts ≠ [])
    (apart : ∀ part ∈ parts, separator ∉ part) : split separator (join separator parts) = parts := by
  induction parts with
  | nil => exact absurd rfl ne
  | cons part more ih =>
      rw [List.forall_mem_cons] at apart
      cases more with
      | nil => exact split_of_not_mem apart.1
      | cons next more =>
          show split separator (part ++ separator :: join separator (next :: more)) = _
          rw [split_append apart.1, ih (List.cons_ne_nil next more) apart.2]

end Text

/-! ## What fields come to -/

namespace Row

/-- What the texts of fields come to as a row of the schema.  Their number is looked at before any of
them is read, each at the type of its column. -/
inductive OfFields (fields : List (List Char)) (schema : Schema) : Except Fault Row → Prop where
  | fieldCount (differ : fields.length ≠ schema.length) :
    OfFields fields schema (.error (.fieldCount schema.length fields.length))
  | row (same : fields.length = schema.length) {row : Row}
    (values : List.zipWith Value.read fields schema = row.map .ok) : OfFields fields schema (.ok row)
  | field (same : fields.length = schema.length) {reason : Value.Unreadable}
    (first : FirstFault (List.zipWith Value.read fields schema) reason) :
    OfFields fields schema (.error (.field reason))

section Reading

variable {fields : List (List Char)} {schema : Schema}

theorem readFields_eq_ok_iff {row : Row} :
    readFields fields schema = .ok row ↔ List.zipWith Value.read fields schema = row.map .ok := by
  induction fields generalizing schema row with
  | nil => cases row <;> simp [readFields, pure, Except.pure]
  | cons field fields ih =>
      cases schema with
      | nil => cases row <;> simp [readFields, pure, Except.pure]
      | cons t types =>
          simp only [readFields, bind_eq_ok, ih, List.zipWith_cons_cons]
          constructor
          · rintro ⟨v, first, rest, others, done⟩
            cases done
            rw [first, others, List.map_cons]
          · intro all
            cases row with
            | nil => cases all
            | cons v rest =>
                rw [List.map_cons, List.cons.injEq] at all
                exact ⟨v, all.1, rest, all.2, rfl⟩

theorem readFields_eq_error_iff {reason : Value.Unreadable} :
    readFields fields schema = .error reason ↔
      FirstFault (List.zipWith Value.read fields schema) reason := by
  induction fields generalizing schema with
  | nil => exact iff_of_false (fun failed => nomatch failed) not_firstFault_nil
  | cons field fields ih =>
      cases schema with
      | nil => exact iff_of_false (fun failed => nomatch failed) not_firstFault_nil
      | cons t types =>
          have rest : ∀ v, (readFields fields types >>= fun row => pure (v :: row)) = .error reason ↔
              readFields fields types = .error reason := by
            intro v
            cases readFields fields types <;> simp [bind, Except.bind, pure, Except.pure]
          rw [List.zipWith_cons_cons, firstFault_cons, ← ih, readFields, bind_eq_error]
          simp only [rest, exists_and_right]

/-- A line is read by what its fields come to. -/
theorem read_eq_iff {line : List Char} {delimiter : Char} {outcome : Except Fault Row} :
    read line delimiter schema = outcome ↔
      OfFields (Text.split delimiter line) schema outcome := by
  unfold read
  by_cases same : (Text.split delimiter line).length = schema.length
  · rw [if_pos same]
    cases outcome with
    | ok row =>
        rw [mapError_eq_ok, readFields_eq_ok_iff]
        constructor
        · exact .row same
        · intro came
          cases came with
          | row _ values => exact values
    | error fault =>
        simp only [mapError_eq_error, readFields_eq_error_iff]
        constructor
        · rintro ⟨reason, first, rfl⟩
          exact .field same first
        · intro came
          cases came with
          | fieldCount differ => exact absurd same differ
          | field _ first => exact ⟨_, first, rfl⟩
  · rw [if_neg same]
    constructor
    · rintro rfl
      exact .fieldCount same
    · intro came
      cases came with
      | fieldCount => rfl
      | row width | field width => exact absurd width same

end Reading

/-! ## Accepted trees on rows that were read -/

/-- The row has a value for every column of the tree, null or of the type it is read at. -/
def Covers (row : Row) (e : Expr) : Prop :=
  ∀ c : Column, .column c ∈ e.nodes → ∃ v, row[c.index.toNat]? = some v ∧ v.fits c.type = true

section Covers

variable {row : Row} {schema : Schema} {e : Expr} {t : ColumnType}

theorem covers_of_check (fits : row.Fits schema) (accepted : e.check schema = .ok t) :
    row.Covers e := by
  intro c within
  obtain ⟨s, checked⟩ := Expr.node_accepted accepted within
  obtain ⟨found, rfl⟩ := Expr.check_column_eq_ok.mp checked
  exact fits _ _ found

/-- What an evaluation fails for is no column, if the row has them all. -/
theorem Covers.column?_eq_none (covers : row.Covers e) {fault : RowFilter.Fault}
    (failed : e.evaluate row = .error fault) : fault.column? = none := by
  have explained : Gives (fun _ => True) (e.Explains row) (e.evaluate row) :=
    Expr.gives_explained (Expr.self_mem_nodes e)
  rw [failed] at explained
  cases fault with
  | columnOutOfBounds i width =>
      obtain ⟨listed, outside, -⟩ := explained
      obtain ⟨c, within, rfl⟩ := Expr.mem_occurrences.mp (Expr.mem_columns.mp listed)
      obtain ⟨v, inside, -⟩ := covers c within
      rw [List.getElem?_eq_none outside] at inside
      cases inside
  | columnTypeMismatch i declared actual =>
      obtain ⟨-, ⟨name, within⟩, v, found, full, rfl, other⟩ := explained
      obtain ⟨w, inside, fit⟩ := covers _ within
      cases found.symm.trans inside
      rcases Value.fits_iff.mp fit with rfl | same
      · cases full
      · exact absurd same other
  | _ => rfl

end Covers

/-- **Reading a line undoes joining its fields.**  Fields without the delimiter come to the same when
they are joined to a line.  Whatever the line, a row that is read from it has as many values as the schema
has columns, each null or of its type, so it covers every tree that is accepted for the schema. -/
theorem joined_fields_are_read (delimiter : Char) (schema : Schema) :
    (∀ fields : List (List Char), fields ≠ [] → (∀ field ∈ fields, delimiter ∉ field) →
      ∀ outcome, read (Text.join delimiter fields) delimiter schema = outcome ↔
        OfFields fields schema outcome) ∧
      ∀ line row, read line delimiter schema = .ok row →
        row.length = schema.length ∧ row.Fits schema ∧
          ∀ (e : Expr) (t : ColumnType), e.check schema = .ok t →
            row.Covers e ∧ ∀ fault, e.evaluate row = .error fault → fault.column? = none := by
  constructor
  · intro fields ne apart outcome
    rw [read_eq_iff, Text.split_join ne apart]
  · intro line row h
    have fits := fits_of_read h
    have width : row.length = schema.length := by
      cases read_eq_iff.mp h with
      | row same values => exact length_readFields same (readFields_eq_ok_iff.mpr values)
    refine ⟨width, fits, fun e t accepted => ?_⟩
    have covers := covers_of_check fits accepted
    exact ⟨covers, fun fault failed => covers.column?_eq_none failed⟩

/-- Four fields, of which the last two cannot be read as a decimal and an instant. -/
def fourFields : List (List Char) := ["7".toList, " null ".toList, "2.5x".toList, "noon".toList]

/-- `#2 > #0`. -/
def thirdAboveFirst : Expr :=
  .comparison .greaterThan (.column ⟨2, .decimal, none⟩) (.column ⟨0, .integer, none⟩)

theorem fourFields_are_read :
    fourFields ≠ [] ∧ (∀ field ∈ fourFields, '|' ∉ field) ∧
      read (Text.join '|' fourFields) '|' [.integer, .string, .decimal, .timestamp] =
        .error (.field ⟨"2.5x", .decimal, .notDecimal (.numeral .invalidDigit)⟩) ∧
      read "7||2.5".toList '|' [.integer, .string, .decimal] =
        .ok [.integer 7, .null, .decimal ⟨25, 1⟩] ∧
      thirdAboveFirst.check [.integer, .string, .decimal] = .ok .boolean ∧
      Covers [.integer 7, .null, .decimal ⟨25, 1⟩] thirdAboveFirst := by
  have ne : fourFields ≠ [] := List.cons_ne_nil _ _
  have apart : ∀ field ∈ fourFields, '|' ∉ field := by decide
  have first : FirstFault
      (List.zipWith Value.read fourFields [.integer, .string, .decimal, .timestamp])
      ⟨"2.5x", .decimal, .notDecimal (.numeral .invalidDigit)⟩ := by
    refine ⟨2, rfl, fun j lt => ?_⟩
    have before : j = 0 ∨ j = 1 := by omega
    rcases before with rfl | rfl
    · exact ⟨.integer 7, rfl⟩
    · exact ⟨.null, rfl⟩
  have whole : read "7||2.5".toList '|' [.integer, .string, .decimal] =
      .ok [.integer 7, .null, .decimal ⟨25, 1⟩] := rfl
  obtain ⟨joined, -⟩ := joined_fields_are_read '|' [.integer, .string, .decimal, .timestamp]
  obtain ⟨-, fits⟩ := joined_fields_are_read '|' [.integer, .string, .decimal]
  refine ⟨ne, apart, (joined fourFields ne apart _).mpr (.field rfl first), whole, rfl, ?_⟩
  exact ((fits _ _ whole).2.2 thirdAboveFirst .boolean rfl).1

end Row

end RowFilter
