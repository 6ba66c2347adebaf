import RowFilter.Proofs.Coherence
import RowFilter.Proofs.OneType
import RowFilter.Proofs.Reading
import Mathlib.Data.List.DropRight

/-!
# Proofs.TextFrames — texts that are read where they are compared

A field may be read at a type when its row is, or be kept as a text and read where it is compared with a
value of that type.  Both cut the same blanks off, and cutting them twice is cutting them once
(`trim_trim`).  Both then use one reader (`ReadsText`).  So a field is read either way or neither way, and
what is read compares alike (`compareFor_reread`).
-/

namespace RowFilter

set_option autoImplicit false

namespace Text

/-- What is left of a text has no blank in front, also when blanks are then cut off behind. -/
theorem trimStart_trim (s : List Char) : trimStart (trim s) = trim s := by
  have front : trimStart (trimStart s) = trimStart s := List.dropWhile_idempotent isBlank s
  have shorter : trim s <+: trimStart s := List.rdropWhile_prefix isBlank (trimStart s)
  rw [trimStart, List.dropWhile_eq_self_iff] at front ⊢
  intro pos
  rw [shorter.getElem pos]
  exact front (Nat.lt_of_lt_of_le pos shorter.length_le)

theorem trim_trim (s : List Char) : trim (trim s) = trim s := by
  rw [trim, trimStart_trim]
  exact List.rdropWhile_idempotent isBlank (trimStart s)

end Text

/-- The types that a text is read at where it is compared with a value of theirs. -/
def ColumnType.textFrames : List ColumnType := [.timestamp, .integer, .long, .double, .decimal]

namespace Cell

/-! ## Texts in a frame -/

/-- What reading a text through the frame does: it gives what the value of the text gives, or says that
there is no such value. -/
structure ReadsText {α : Type} (read : Cell → Except Coercion α) (frame : ColumnType) : Prop where
  parsed : ∀ s v, Value.readContent (content s) frame = .ok v → read (of (.string s)) = read (of v)
  refused : ∀ s complaint, Value.readContent (content s) frame = .error complaint →
    read (of (.string s)) = .error (.cannotConvert (.string s) frame)

section Readers

variable {ε α : Type} {read : Cell → Except Coercion α} {frame : ColumnType}

/-- Texts and contents are both read by `f`, contents as the values that `make` gives. -/
theorem readsText_of (f : List Char → Option α) (make : α → Value)
    (text : ∀ s, read (of (.string s)) = (of (.string s)).converted frame (f (content s)))
    (own : ∀ a, read (of (make a)) = .ok a)
    (found : ∀ s a, f s = some a → Value.readContent s frame = .ok (make a))
    (missing : ∀ s, f s = none → ∃ complaint, Value.readContent s frame = .error complaint) :
    ReadsText read frame where
  parsed s v parsed := by
    rw [text]
    cases h : f (content s) with
    | none =>
        obtain ⟨complaint, refused⟩ := missing _ h
        rw [refused] at parsed
        cases parsed
    | some a =>
        rw [found _ _ h] at parsed
        cases parsed
        exact (own a).symm
  refused s complaint refused := by
    rw [text]
    cases h : f (content s) with
    | none => rfl
    | some a =>
        rw [found _ _ h] at refused
        cases refused

/-- The same where `x` says what is wrong with a content. -/
theorem readsText_of_except (x : List Char → Except ε α) (make : α → Value)
    {complain : ε → Value.Complaint}
    (text : ∀ s, read (of (.string s)) =
      (of (.string s)).converted frame (x (content s)).toOption)
    (own : ∀ a, read (of (make a)) = .ok a)
    (same : ∀ s, Value.readContent s frame = ((x s).map make).mapError complain) :
    ReadsText read frame := by
  refine readsText_of (fun s => (x s).toOption) make text own ?_ ?_
  · intro s a h
    rw [same]
    cases made : x s <;> rw [made] at h <;> cases h
    rfl
  · intro s h
    rw [same]
    cases made : x s <;> rw [made] at h <;> cases h
    exact ⟨_, rfl⟩

end Readers

theorem readsText_timestamp : ReadsText readTimestamp .timestamp :=
  readsText_of Time.Instant.read? .timestamp (fun _ => rfl) (fun _ => rfl)
    (fun s t h => by simp [Value.readContent, h]) (fun s h => by simp [Value.readContent, h])

theorem readsText_integer : ReadsText readInteger .integer :=
  readsText_of_except Value.readInt32 .integer (fun _ => rfl) (fun _ => rfl) (fun _ => rfl)

theorem readsText_long : ReadsText readLong .long :=
  readsText_of_except Value.readInt64 .long (fun _ => rfl) (fun _ => rfl) (fun _ => rfl)

theorem readsText_double : ReadsText readDouble .double :=
  readsText_of Double.read? .double (fun _ => rfl) (fun _ => rfl)
    (fun s d h => by simp [Value.readContent, h]) (fun s h => by simp [Value.readContent, h])

theorem readsText_decimal : ReadsText readDecimal .decimal :=
  readsText_of_except Decimal.read .decimal (fun _ => rfl) (fun _ => rfl) (fun _ => rfl)

/-! ## Comparing texts -/

section Frames

variable {T : ColumnType}

/-- Two cells of one field: both null, or a value of the type and a text with that content. -/
inductive Reread (T : ColumnType) : Cell → Cell → Prop where
  | null {a b : Cell} (left : a.isNull = true) (right : b.isNull = true) : Reread T a b
  | text {s : String} {v : Value} (read : Value.readContent (content s) T = .ok v) :
    Reread T (of v) (of (.string s))

theorem Reread.isNull_eq {a b : Cell} (h : Reread T a b) : b.isNull = a.isNull := by
  cases h with
  | null left right => rw [left, right]
  | @text s v read =>
      have type := Value.type_of_readContent read
      cases v with
      | null =>
          subst type
          cases read
      | _ => rfl

/-- A value and another one of its type, or null, can be compared on either side. -/
theorem compare_own {v w : Value} (fits : v.fits w.type = true) (c : Comparator) :
    (∃ b, compare c (of v) (of w) = .ok b) ∧ ∃ b, compare c (of w) (of v) = .ok b := by
  rcases Value.fits_iff.mp fits with rfl | same
  · exact ⟨⟨false, compareFor_null (.inl rfl)⟩, false, compareFor_null (.inr rfl)⟩
  · have cell : of v = ⟨w.type, v⟩ := congrArg (Cell.mk · v) same
    obtain ⟨b, there, -⟩ := compareFor_of_fits c.kind c fits (Value.fits_type w)
    obtain ⟨b', back, -⟩ := compareFor_of_fits c.kind c (Value.fits_type w) fits
    rw [cell]
    exact ⟨⟨b, there⟩, b', back⟩

theorem full_of_text_frame {v : Value} (above : v.type ∈ ColumnType.textFrames) :
    v.isNull = false := by
  cases v with
  | null => simp [Value.type, ColumnType.textFrames] at above
  | _ => rfl

variable (above : T ∈ ColumnType.textFrames) {n : Cell} {s : String} {kind : Kind}

include above

/-- Above the texts, cells are compared in each frame as its reader has it, which also reads texts. -/
theorem standing_of_text_frame :
    ∃ (α : Type) (read : Cell → Except Coercion α) (order : α → α → Option Ordering),
      ReadsFrame read T ∧ ReadsText read T ∧
        ∀ l r : Cell, ColumnType.frame l.type r.type = T → standing l r = standingBy read order l r := by
  simp only [ColumnType.textFrames, List.mem_cons, List.not_mem_nil, or_false] at above
  rcases above with rfl | rfl | rfl | rfl | rfl
  · refine ⟨_, _, fun a b => some (a.compare b), readsFrame_timestamp, readsText_timestamp, ?_⟩
    intro l r h
    simp only [standing, h]
  · refine ⟨_, _, fun a b => some (Ord.compare a.toInt b.toInt), readsFrame_integer,
      readsText_integer, ?_⟩
    intro l r h
    simp only [standing, h]
  · refine ⟨_, _, fun a b => some (Ord.compare a.toInt b.toInt), readsFrame_long, readsText_long, ?_⟩
    intro l r h
    simp only [standing, h]
  · refine ⟨_, _, Double.compare?, readsFrame_double, readsText_double, ?_⟩
    intro l r h
    simp only [standing, h]
  · refine ⟨_, _, fun a b => some (a.compare b), readsFrame_decimal, readsText_decimal, ?_⟩
    intro l r h
    simp only [standing, h]

theorem frame_of_text :
    ColumnType.frame .string T = T ∧ ColumnType.frame T .string = T ∧ ColumnType.frame T T = T := by
  simp only [ColumnType.textFrames, List.mem_cons, List.not_mem_nil, or_false] at above
  rcases above with rfl | rfl | rfl | rfl | rfl <;> decide

/-- Where it has a value of the type, a text stands as that value does beside a value of the type. -/
theorem standing_of_parsed (type : n.type = T) {v : Value}
    (parsed : Value.readContent (content s) T = .ok v) :
    standing (of (.string s)) n = standing (of v) n ∧
      standing n (of (.string s)) = standing n (of v) := by
  obtain ⟨α, read, order, -, texts, standing⟩ := standing_of_text_frame above
  obtain ⟨left, right, both⟩ := frame_of_text above
  have own : (of v).type = T := Value.type_of_readContent parsed
  have same := texts.parsed s v parsed
  subst type
  rw [standing _ _ left, standing (of v) n (by rw [own]; exact both), standing _ _ right,
    standing n (of v) (by rw [own]; exact both)]
  unfold standingBy
  rw [same]
  exact ⟨rfl, rfl⟩

/-- Where it has none, it cannot be converted, on either side of a value of the type. -/
theorem standing_of_refused {v : Value} (type : v.type = T)
    {complaint : Value.Complaint} (refused : Value.readContent (content s) T = .error complaint) :
    standing (of (.string s)) (of v) = .error (.cannotConvert (.string s) T) ∧
      standing (of v) (of (.string s)) = .error (.cannotConvert (.string s) T) := by
  obtain ⟨α, read, order, reads, texts, standing⟩ := standing_of_text_frame above
  subst type
  obtain ⟨left, right, -⟩ := frame_of_text above
  obtain ⟨a, readable⟩ := reads.own (full_of_text_frame above) rfl
  rw [standing _ _ left, standing _ _ right]
  unfold standingBy
  rw [texts.refused s complaint refused, readable]
  exact ⟨rfl, rfl⟩

theorem compare_of_refused {v : Value} (type : v.type = T)
    {complaint : Value.Complaint} (refused : Value.readContent (content s) T = .error complaint)
    (c : Comparator) :
    compare c (of (.string s)) (of v) = .error (unconverted c.kind (.string s) T) ∧
      compare c (of v) (of (.string s)) = .error (unconverted c.kind (.string s) T) := by
  obtain ⟨there, back⟩ := standing_of_refused above type refused
  subst type
  have full : (of v).isNull = false := full_of_text_frame above
  rw [compare, compare, compareFor_full rfl full, compareFor_full full rfl, there, back]
  exact ⟨rfl, rfl⟩

/-- **Cells of one field compare alike with whatever is at the type.** -/
theorem compareFor_reread {a b : Cell} (h : Reread T a b)
    (type : n.type = T) (c : Comparator) :
    compareFor kind c b n = compareFor kind c a n ∧ compareFor kind c n b = compareFor kind c n a := by
  cases h with
  | null left right =>
      rw [compareFor_null (.inl left), compareFor_null (.inl right), compareFor_null (.inr left),
        compareFor_null (.inr right)]
      exact ⟨rfl, rfl⟩
  | @text s v parsed =>
      obtain ⟨there, back⟩ := standing_of_parsed above type parsed
      have full : (of v).isNull = (of (.string s)).isNull := (Reread.text parsed).isNull_eq.symm
      unfold compareFor
      rw [there, back, full]
      exact ⟨rfl, rfl⟩

end Frames

end Cell

/-! ## Fields -/

namespace Value

section Fields

variable {field : List Char} {T : ColumnType}

theorem content_trim (field : List Char) :
    Cell.content (String.ofList (Text.trim field)) = Text.trim field := by
  rw [Cell.content, String.toList_ofList, Text.trim_trim]

/-- As a text every field can be read. -/
theorem read_string (field : List Char) :
    read field .string = .ok (if isNullWord (Text.trim field) then null
      else string (String.ofList (Text.trim field))) := by
  rw [read]
  by_cases word : isNullWord (Text.trim field) = true
  · rw [if_pos word, if_pos word]
  · rw [if_neg word, if_neg word]
    rfl

/-- A field that can be read at the type is read as a text that the value can be read from. -/
theorem reread_of_read {v : Value} (h : read field T = .ok v) :
    ∃ w, read field .string = .ok w ∧ Cell.Reread T (.of v) (.of w) := by
  refine ⟨_, read_string field, ?_⟩
  rw [read] at h
  by_cases word : isNullWord (Text.trim field) = true
  · rw [if_pos word] at h ⊢
    cases h
    exact .null rfl rfl
  · rw [if_neg word] at h ⊢
    refine .text ?_
    rw [content_trim]
    exact mapError_eq_ok.mp h

/-- What a column of the type and a column of texts hold of one field. -/
structure OneField (T : ColumnType) (v w : Value) : Prop where
  fits : v.fits T = true
  text : w.fits .string = true
  reread : Cell.Reread T ⟨T, v⟩ ⟨.string, w⟩

/-- The cells of the columns have their types, also where they are null. -/
theorem oneField_of_read {v : Value} (h : read field T = .ok v) :
    ∃ w, read field .string = .ok w ∧ OneField T v w := by
  obtain ⟨w, text, reread⟩ := reread_of_read h
  have null : w.isNull = v.isNull := reread.isNull_eq
  refine ⟨w, text, fits_of_read h, fits_of_read text, ?_⟩
  by_cases empty : v.isNull = true
  · exact .null empty (null.trans empty)
  · rw [← null] at empty
    rcases fits_iff.mp (fits_of_read text) with rfl | type
    · exact absurd rfl empty
    rcases fits_iff.mp (fits_of_read h) with rfl | own
    · exact absurd null empty
    have left : Cell.of v = ⟨T, v⟩ := congrArg (Cell.mk · v) own
    have right : Cell.of w = ⟨.string, w⟩ := congrArg (Cell.mk · w) type
    rwa [left, right] at reread

/-- A field that cannot be read at the type is read as a text that it cannot be read from either. -/
theorem refused_of_read {fault : Unreadable} (h : read field T = .error fault) :
    ∃ s complaint, read field .string = .ok (string s) ∧
      readContent (Cell.content s) T = .error complaint := by
  rw [read] at h
  by_cases word : isNullWord (Text.trim field) = true
  · rw [if_pos word] at h
    cases h
  · rw [if_neg word] at h
    cases refused : readContent (Text.trim field) T with
    | ok v =>
        rw [refused] at h
        cases h
    | error complaint =>
        refine ⟨String.ofList (Text.trim field), complaint, ?_, ?_⟩
        · rw [read_string, if_neg word]
        · rw [content_trim]
          exact refused

end Fields

end Value

end RowFilter
