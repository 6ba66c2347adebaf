import RowFilter.Proofs.TextFrames
import RowFilter.Proofs.TimeReadings

/-!
# Proofs.CellRuns — cells that are overwritten again and again

A cell starts out well tagged, and overwriting keeps it so (`wellTagged_run`).  What its accessors and
its readers do then follows from the tag and the value alone: an accessor tells a null from a value of
another type (`Gets`), and a reader fails in one way where `canReadAs` forbids the frame and in another
where the value has no counterpart there (`ReadsThrough`).
-/

namespace RowFilter

set_option autoImplicit false

open RowFilter.Time (Instant)

/-- The two ways in which reading fails are worded differently. -/
theorem Coercion.message_cannotConvert_ne (v : Value) (s frame frame' : ColumnType) :
    (cannotConvert v frame).message ≠ (cannotRead s frame').message := by
  intro same
  have eighth : ("cannot convert " ++ v.text ++ " to " ++ frame.name).toList[7]? =
      ("cannot read " ++ s.name ++ " as " ++ frame'.name).toList[7]? :=
    congrArg (fun text => text.toList[7]?) same
  simp at eighth

namespace Cell

/-! ## Runs -/

/-- The cells that a run starts with. -/
inductive Start : Cell → Prop where
  | of (v : Value) : Start (of v)
  | typed {t : ColumnType} {v : Value} {c : Cell} (fits : typed t v = .ok c) : Start c
  | null (t : ColumnType) : Start (null t)
  | boolean (b : Bool) : Start (boolean b)

/-- The cell after its value has been set to each of the values in turn. -/
def run (c : Cell) (vs : List Value) : Cell := vs.foldl set c

theorem Start.wellTagged {c : Cell} (start : Start c) : c.WellTagged := by
  cases start with
  | of v => exact wellTagged_of v
  | typed fits => exact wellTagged_of_typed fits
  | null t => exact wellTagged_null t
  | boolean b => exact wellTagged_of (.boolean b)

theorem wellTagged_set (c : Cell) (v : Value) : (c.set v).WellTagged := wellTagged_of v

theorem wellTagged_run {c : Cell} (tagged : c.WellTagged) (vs : List Value) :
    (c.run vs).WellTagged := by
  induction vs generalizing c with
  | nil => exact tagged
  | cons v vs ih => exact ih (wellTagged_set c v)

theorem isNull_eq_false_iff {c : Cell} : c.isNull = false ↔ c.value ≠ .null := by
  rw [isNull, ← Bool.not_eq_true, Value.isNull_iff]

/-! ## Values of one type -/

/-- What an accessor does: it gives the value if that is of the wanted type, and otherwise says which
of the two reasons there is. -/
structure Gets {α : Type} (get : Cell → Except Fault α) (make : α → Value) (wanted : ColumnType)
    (c : Cell) : Prop where
  gives : ∀ a, get c = .ok a ↔ c.value = make a
  succeeds : (∃ a, get c = .ok a) ↔ c.value ≠ .null ∧ c.type = wanted
  null : get c = .error (.unexpectedNull wanted) ↔ c.value = .null
  other : get c = .error (.typeMismatch wanted c.type) ↔ c.value ≠ .null ∧ c.type ≠ wanted

/-- An accessor takes the values that `make` gives, those of the wanted type, and no others. -/
structure Accesses {α : Type} (get : Cell → Except Fault α) (make : α → Value)
    (wanted : ColumnType) : Prop where
  full : wanted ≠ .null
  own : ∀ t a, get ⟨t, make a⟩ = .ok a
  others : ∀ c, c.value.type ≠ wanted → get c = .error (c.accessFault wanted)
  exists_make : ∀ v : Value, v.type = wanted → ∃ a, v = make a

section Accessors

variable {α : Type} {get : Cell → Except Fault α} {make : α → Value} {wanted : ColumnType}

theorem Accesses.gives (h : Accesses get make wanted) (c : Cell) (a : α) :
    get c = .ok a ↔ c.value = make a := by
  obtain ⟨t, v⟩ := c
  constructor
  · intro given
    by_cases type : v.type = wanted
    · obtain ⟨b, rfl⟩ := h.exists_make v type
      rw [h.own] at given
      cases given
      rfl
    · rw [h.others _ type] at given
      cases given
  · rintro rfl
    exact h.own t a

theorem Accesses.gets (h : Accesses get make wanted) {c : Cell} (tagged : c.WellTagged) :
    Gets get make wanted c := by
  by_cases empty : c.value = .null
  · have nothing : c.value.type ≠ wanted := by
      rw [empty]
      exact h.full.symm
    have failed : get c = .error (.unexpectedNull wanted) := by
      rw [h.others c nothing, accessFault, isNull, empty]
      rfl
    exact ⟨h.gives c, by simp [failed, empty], by simp [failed, empty], by simp [failed, empty]⟩
  · have type := tagged.type_eq (isNull_eq_false_iff.mpr empty)
    by_cases same : c.type = wanted
    · obtain ⟨a, made⟩ := h.exists_make c.value (type.trans same)
      have given := (h.gives c a).mpr made
      exact ⟨h.gives c, by simp [given, empty, same], by simp [given, empty],
        by simp [given, same]⟩
    · have failed : get c = .error (.typeMismatch wanted c.type) := by
        rw [h.others c (type ▸ same), accessFault, isNull_eq_false_iff.mpr empty]
        rfl
      exact ⟨h.gives c, by simp [failed, same], by simp [failed, empty],
        by simp [failed, empty, same]⟩

end Accessors

theorem accesses_getBoolean : Accesses getBoolean .boolean .boolean where
  full := by decide
  own _ _ := rfl
  others c other := by
    obtain ⟨t, v⟩ := c
    cases v <;> first | rfl | exact absurd rfl other
  exists_make v type := by
    cases v <;> cases type
    exact ⟨_, rfl⟩

theorem accesses_getInteger : Accesses getInteger .integer .integer where
  full := by decide
  own _ _ := rfl
  others c other := by
    obtain ⟨t, v⟩ := c
    cases v <;> first | rfl | exact absurd rfl other
  exists_make v type := by
    cases v <;> cases type
    exact ⟨_, rfl⟩

theorem accesses_getLong : Accesses getLong .long .long where
  full := by decide
  own _ _ := rfl
  others c other := by
    obtain ⟨t, v⟩ := c
    cases v <;> first | rfl | exact absurd rfl other
  exists_make v type := by
    cases v <;> cases type
    exact ⟨_, rfl⟩

theorem accesses_getDouble : Accesses getDouble .double .double where
  full := by decide
  own _ _ := rfl
  others c other := by
    obtain ⟨t, v⟩ := c
    cases v <;> first | rfl | exact absurd rfl other
  exists_make v type := by
    cases v <;> cases type
    exact ⟨_, rfl⟩

theorem accesses_getDecimal : Accesses getDecimal .decimal .decimal where
  full := by decide
  own _ _ := rfl
  others c other := by
    obtain ⟨t, v⟩ := c
    cases v <;> first | rfl | exact absurd rfl other
  exists_make v type := by
    cases v <;> cases type
    exact ⟨_, rfl⟩

theorem accesses_getString : Accesses getString .string .string where
  full := by decide
  own _ _ := rfl
  others c other := by
    obtain ⟨t, v⟩ := c
    cases v <;> first | rfl | exact absurd rfl other
  exists_make v type := by
    cases v <;> cases type
    exact ⟨_, rfl⟩

theorem accesses_getTimestamp : Accesses getTimestamp .timestamp .timestamp where
  full := by decide
  own _ _ := rfl
  others c other := by
    obtain ⟨t, v⟩ := c
    cases v <;> first | rfl | exact absurd rfl other
  exists_make v type := by
    cases v <;> cases type
    exact ⟨_, rfl⟩

/-! ## Reading through a frame -/

/-- What a reader does: it refuses a null and a type that may not be read through the frame, and of the
others it reads what has a counterpart there. -/
structure ReadsThrough {α : Type} (read : Cell → Except Coercion α) (frame : ColumnType)
    (c : Cell) : Prop where
  refuses : read c = .error (.cannotRead c.type frame) ↔
    c.value = .null ∨ c.type.canReadAs frame = false
  words : (∃ reason, read c = .error reason ∧
      reason.message = "cannot read " ++ c.type.name ++ " as " ++ frame.name) ↔
    c.value = .null ∨ c.type.canReadAs frame = false
  reads : c.value ≠ .null → c.type.canReadAs frame = true →
    ((∃ a, read c = .ok a) ↔ ¬ c.value.Inconvertible frame)
  fails : c.value.Inconvertible frame → c.type.canReadAs frame = true →
    read c = .error (.cannotConvert c.value frame)

section Readers

variable {α : Type} {read : Cell → Except Coercion α} {frame : ColumnType}

/-- A text without a counterpart is refused. -/
theorem ReadsText.fails (texts : ReadsText read frame) {s : String}
    (lost : (Value.string s).Inconvertible frame) :
    read (of (.string s)) = .error (.cannotConvert (.string s) frame) := by
  cases lost with
  | text _ _ unreadable =>
      cases given : Value.readContent (content s) frame with
      | ok v => exact absurd given (unreadable v)
      | error complaint => exact texts.refused s complaint given

theorem ReadsText.fails_of_ne (texts : ReadsText read frame) (other : frame ≠ .decimal) (v : Value)
    (lost : v.Inconvertible frame) : read (of v) = .error (.cannotConvert v frame) := by
  cases v with
  | string s => exact texts.fails lost
  | double d =>
      cases lost
      exact absurd rfl other
  | _ => cases lost

theorem readsThrough_of_refused {c : Cell} (refused : read c = .error (.cannotRead c.type frame))
    (why : c.value = .null ∨ c.type.canReadAs frame = false) : ReadsThrough read frame c where
  refuses := by simp only [refused, why]
  words := by
    simp only [why, iff_true]
    exact ⟨_, refused, rfl⟩
  reads full readable := by simp [full, readable] at why
  fails lost readable := by
    rcases why with empty | unreadable
    · rw [empty] at lost
      cases lost
    · simp [readable] at unreadable

theorem ReadsFrame.through (reads : ReadsFrame read frame)
    (fails : ∀ v : Value, v.Inconvertible frame → read (of v) = .error (.cannotConvert v frame))
    {c : Cell} (tagged : c.WellTagged) : ReadsThrough read frame c := by
  by_cases empty : c.value = .null
  · refine readsThrough_of_refused ?_ (.inl empty)
    obtain ⟨t, v⟩ := c
    cases empty
    exact reads.null t
  have full : c.isNull = false := isNull_eq_false_iff.mpr empty
  have type := tagged.type_eq full
  have same : of c.value = c := eq_of_type_eq type
  -- From here on the cell is that of its value, which is what `reads` and `fails` speak of.
  by_cases readable : c.type.canReadAs frame = true
  · have given := reads.reads c.value full (type ▸ readable)
    have lost := fails c.value
    rw [same] at given lost
    have allowed : ¬ (c.value = .null ∨ c.type.canReadAs frame = false) := by
      simp [empty, readable]
    cases outcome : read c with
    | ok a =>
        rw [outcome] at lost
        have kept : ¬ c.value.Inconvertible frame := fun gone => nomatch lost gone
        exact ⟨by simp [outcome, allowed], by simp [outcome, allowed],
          fun _ _ => by simp [outcome, kept], fun gone => absurd gone kept⟩
    | error reason =>
        rw [outcome] at given
        obtain ⟨rfl, -, gone⟩ := given
        refine ⟨by simp [outcome, allowed], iff_of_false ?_ allowed,
          fun _ _ => by simp [outcome, gone], fun _ _ => outcome⟩
        rintro ⟨reason, failed, same⟩
        cases outcome.symm.trans failed
        exact Coercion.message_cannotConvert_ne c.value c.type frame frame same
  · rw [Bool.not_eq_true] at readable
    refine readsThrough_of_refused ?_ (.inr readable)
    have refused := reads.refuses c.value full (type ▸ readable)
    rwa [same, type] at refused

end Readers

theorem readsThrough_string {c : Cell} (tagged : c.WellTagged) :
    ReadsThrough readString .string c := by
  refine readsFrame_string.through ?_ tagged
  -- Every text is read as a text, so none is without a counterpart.
  rintro v (⟨s, -, unreadable⟩ | -)
  exact absurd rfl (unreadable _)

theorem readsThrough_decimal {c : Cell} (tagged : c.WellTagged) :
    ReadsThrough readDecimal .decimal c := by
  refine readsFrame_decimal.through ?_ tagged
  rintro v lost
  cases v with
  | string s => exact readsText_decimal.fails lost
  | double d =>
      cases lost with
      | double _ infinite =>
          show converted _ _ _ = _
          rw [(ofDouble?_eq_none_iff d).mpr infinite]
          rfl
  | _ => cases lost

/-! ## Whole numbers -/

/-- A whole number or a count of milliseconds is one number as a long and as a decimal. -/
theorem reads_whole {c : Cell} (tagged : c.WellTagged) (full : c.value ≠ .null)
    (whole : c.type = .integer ∨ c.type = .long ∨ c.type = .timestamp) :
    ∃ n d, readLong c = .ok n ∧ readDecimal c = .ok d ∧ d.toRat = n.toInt := by
  have type := tagged.type_eq (isNull_eq_false_iff.mpr full)
  obtain ⟨t, v⟩ := c
  simp only at type whole full
  subst type
  cases v with
  | integer n => exact ⟨_, _, rfl, rfl, by rw [toRat_ofInt, Int32.toInt_toInt64]⟩
  | long n => exact ⟨_, _, rfl, rfl, toRat_ofInt _⟩
  | timestamp t => exact ⟨_, _, rfl, rfl, by rw [toRat_ofInt, t.toInt_epochMillis]⟩
  | _ => simp [Value.type] at whole full

/-! ## What a run ends with -/

/-- How a cell answers, by its tag and its value. -/
structure Answers (c : Cell) : Prop where
  payload : c.value = .null ∨ c.value.type = c.type
  getBoolean : Gets getBoolean .boolean .boolean c
  getInteger : Gets getInteger .integer .integer c
  getLong : Gets getLong .long .long c
  getDouble : Gets getDouble .double .double c
  getDecimal : Gets getDecimal .decimal .decimal c
  getString : Gets getString .string .string c
  getTimestamp : Gets getTimestamp .timestamp .timestamp c
  readString : ReadsThrough readString .string c
  readTimestamp : ReadsThrough readTimestamp .timestamp c
  readInteger : ReadsThrough readInteger .integer c
  readLong : ReadsThrough readLong .long c
  readDouble : ReadsThrough readDouble .double c
  readDecimal : ReadsThrough readDecimal .decimal c
  whole : c.value ≠ .null → c.type = .integer ∨ c.type = .long ∨ c.type = .timestamp →
    ∃ n d, Cell.readLong c = .ok n ∧ Cell.readDecimal c = .ok d ∧ d.toRat = n.toInt

/-- **Every run ends with a cell that answers by its tag and its value**, wherever it starts and whatever
the cell held on the way. -/
theorem run_answers {c : Cell} (start : Start c) (vs : List Value) : Answers (c.run vs) := by
  have tagged := wellTagged_run start.wellTagged vs
  exact {
    payload := Value.fits_iff.mp tagged
    getBoolean := accesses_getBoolean.gets tagged
    getInteger := accesses_getInteger.gets tagged
    getLong := accesses_getLong.gets tagged
    getDouble := accesses_getDouble.gets tagged
    getDecimal := accesses_getDecimal.gets tagged
    getString := accesses_getString.gets tagged
    getTimestamp := accesses_getTimestamp.gets tagged
    readString := readsThrough_string tagged
    readTimestamp :=
      readsFrame_timestamp.through (readsText_timestamp.fails_of_ne (by decide)) tagged
    readInteger := readsFrame_integer.through (readsText_integer.fails_of_ne (by decide)) tagged
    readLong := readsFrame_long.through (readsText_long.fails_of_ne (by decide)) tagged
    readDouble := readsFrame_double.through (readsText_double.fails_of_ne (by decide)) tagged
    readDecimal := readsThrough_decimal tagged
    whole := reads_whole tagged }

/-- Half a second past `1970-01-01 00:00:02`. -/
def halfPastTwo : Instant := ⟨2, 500000000, by decide, by decide, by decide, by decide⟩

/-- A null boolean that is overwritten by a text and then by an instant. -/
def overwritten : Cell := (null .boolean).run [.string "x", .timestamp halfPastTwo]

/-- As a long the instant is there only through the frame, and there it counts `2500`, as it does as a
decimal. -/
theorem overwritten_answers :
    Answers overwritten ∧ overwritten.getLong = .error (.typeMismatch .long .timestamp) ∧
      ∃ d, overwritten.readLong = .ok 2500 ∧ overwritten.readDecimal = .ok d ∧ d.toRat = 2500 := by
  have answers : Answers overwritten := run_answers (.null .boolean) _
  have full : overwritten.value ≠ .null := by decide
  refine ⟨answers, answers.getLong.other.mpr ⟨full, by decide⟩, ?_⟩
  obtain ⟨n, d, long, decimal, same⟩ := answers.whole full (by decide)
  have count : overwritten.readLong = .ok 2500 := rfl
  cases count.symm.trans long
  exact ⟨d, count, decimal, same⟩

end Cell

end RowFilter
