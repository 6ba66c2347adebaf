import RowFilter.Proofs.Lines
import RowFilter.Proofs.Reading
import RowFilter.Proofs.Utf8
import Mathlib.Data.List.TakeWhile

/-!
# Proofs.Delimiters — the same lines with another delimiter

A line whose delimiter is replaced by a character of none of its fields has the same fields
(`split_replace`), so it is read as the same row.  It is also blank together with the first, unless it
has delimiters, only blank fields between them, and exactly one of the two delimiters is blank
(`trim_replace_iff`).  Lines of an input that is a text correspond one by one (`redelimited_of_text`), and
stay so when carriage returns are dropped.
-/

namespace RowFilter

set_option autoImplicit false

namespace Text

/-! ## Texts -/

/-- The text with the new character in every place of the old one. -/
def replace (old new : Char) (s : List Char) : List Char := s.map fun c => if c = old then new else c

/-- The text without a carriage return at its end, if there is one. -/
def chomp (s : List Char) : List Char := if s.getLast? = some '\r' then s.dropLast else s

/-- Replacing the old delimiter by the new one does not make the line blank or cease to be so: there is
none in the line, both are blank or neither is, or some field is not blank. -/
def BlankAlike (old new : Char) (line : List Char) : Prop :=
  old ∈ line → isBlank old = isBlank new ∨ ∃ field ∈ split old line, trim field ≠ []

section Texts

variable {old new separator : Char} {s : List Char}

theorem replace_cons_self (rest : List Char) :
    replace old new (old :: rest) = new :: replace old new rest := by
  rw [replace, List.map_cons, if_pos rfl, ← replace]

theorem replace_cons_of_ne {c : Char} (other : c ≠ old) (rest : List Char) :
    replace old new (c :: rest) = c :: replace old new rest := by
  rw [replace, List.map_cons, if_neg other, ← replace]

theorem replace_of_not_mem (absent : old ∉ s) : replace old new s = s := by
  have each : ∀ c ∈ s, (if c = old then new else c) = id c := by
    intro c mem
    exact if_neg (ne_of_mem_of_not_mem mem absent)
  rw [replace, List.map_congr_left each, List.map_id]

theorem replace_self : replace old old s = s := by
  induction s with
  | nil => rfl
  | cons c rest ih =>
      by_cases delimiter : c = old
      · rw [delimiter, replace_cons_self, ih]
      · rw [replace_cons_of_ne delimiter, ih]

theorem split_cons_self (rest : List Char) :
    split separator (separator :: rest) = [] :: split separator rest := by
  rw [split, if_pos rfl]

/-- A character that is no separator goes to the front of the first part. -/
theorem split_cons_of_ne {c : Char} (other : c ≠ separator) (rest : List Char) :
    split separator (c :: rest) = (split separator rest).modifyHead (c :: ·) := by
  rw [split, if_neg other]
  obtain ⟨part, more, h⟩ := List.exists_cons_of_ne_nil (split_ne_nil separator rest)
  rw [h]
  rfl

theorem split_replace (absent : new ∉ s) : split new (replace old new s) = split old s := by
  induction s with
  | nil => rfl
  | cons c rest ih =>
      rw [List.mem_cons, not_or] at absent
      by_cases delimiter : c = old
      · subst delimiter
        rw [replace_cons_self, split_cons_self, split_cons_self, ih absent.2]
      · rw [replace_cons_of_ne delimiter, split_cons_of_ne (Ne.symm absent.1),
          split_cons_of_ne delimiter, ih absent.2]

/-- Other separators separate the same parts, in which the character is replaced. -/
theorem split_replace_of_ne (notOld : old ≠ separator) (notNew : new ≠ separator) :
    split separator (replace old new s) = (split separator s).map (replace old new) := by
  induction s with
  | nil => rfl
  | cons c rest ih =>
      obtain ⟨part, more, h⟩ := List.exists_cons_of_ne_nil (split_ne_nil separator rest)
      by_cases delimiter : c = old
      · subst delimiter
        rw [replace_cons_self, split_cons_of_ne notNew, split_cons_of_ne notOld, ih, h]
        simp [replace_cons_self]
      · rw [replace_cons_of_ne delimiter]
        by_cases ends : c = separator
        · subst ends
          rw [split_cons_self, split_cons_self, ih]
          rfl
        · rw [split_cons_of_ne ends, split_cons_of_ne ends, ih, h]
          simp [replace_cons_of_ne delimiter]

/-- The parts are made of the characters that do not separate them. -/
theorem mem_of_mem_split {part : List Char} {c : Char} (h : part ∈ split separator s)
    (mem : c ∈ part) : c ∈ s ∧ c ≠ separator := by
  induction s generalizing part with
  | nil => simp_all [split]
  | cons b rest ih =>
      by_cases ends : b = separator
      · subst ends
        rw [split_cons_self, List.mem_cons] at h
        rcases h with rfl | h
        · cases mem
        · exact ⟨List.mem_cons_of_mem _ (ih h mem).1, (ih h mem).2⟩
      · obtain ⟨first, more, parts⟩ := List.exists_cons_of_ne_nil (split_ne_nil separator rest)
        rw [split_cons_of_ne ends, parts, List.modifyHead_cons, List.mem_cons] at h
        rw [parts] at ih
        rcases h with rfl | h
        · rcases List.mem_cons.mp mem with rfl | mem
          · exact ⟨List.mem_cons_self, ends⟩
          · have found := ih List.mem_cons_self mem
            exact ⟨List.mem_cons_of_mem _ found.1, found.2⟩
        · have found := ih (List.mem_cons_of_mem _ h) mem
          exact ⟨List.mem_cons_of_mem _ found.1, found.2⟩

/-- Each other character stands in a part. -/
theorem mem_part_of_mem {c : Char} (mem : c ∈ s) (other : c ≠ separator) :
    ∃ part ∈ split separator s, c ∈ part := by
  induction s with
  | nil => cases mem
  | cons b rest ih =>
      by_cases ends : b = separator
      · subst ends
        obtain ⟨part, among, inside⟩ := ih ((List.mem_cons.mp mem).resolve_left other)
        exact ⟨part, by rw [split_cons_self]; exact List.mem_cons_of_mem _ among, inside⟩
      · obtain ⟨first, more, parts⟩ := List.exists_cons_of_ne_nil (split_ne_nil separator rest)
        rw [split_cons_of_ne ends, parts, List.modifyHead_cons]
        rw [parts] at ih
        rcases List.mem_cons.mp mem with rfl | mem
        · exact ⟨_, List.mem_cons_self, List.mem_cons_self⟩
        · obtain ⟨part, among, inside⟩ := ih mem
          rcases List.mem_cons.mp among with rfl | among
          · exact ⟨_, List.mem_cons_self, List.mem_cons_of_mem _ inside⟩
          · exact ⟨part, List.mem_cons_of_mem _ among, inside⟩

theorem trimStart_eq_nil_iff : trimStart s = [] ↔ ∀ c ∈ s, isBlank c = true :=
  List.dropWhile_eq_nil_iff

/-- What trimming leaves of a text has no blank in front, so nothing is left only of blanks. -/
theorem trim_eq_nil_iff : trim s = [] ↔ ∀ c ∈ s, isBlank c = true := by
  rw [← trimStart_eq_nil_iff, trim, trimEnd, List.reverse_eq_nil_iff, List.dropWhile_eq_nil_iff]
  constructor
  · intro blank
    cases h : trimStart s with
    | nil => rfl
    | cons c more =>
        have front : isBlank c = true := blank c (by simp [h])
        have kept : isBlank c = false := by
          have head := List.head?_dropWhile_not isBlank s
          rwa [← trimStart, h] at head
        rw [front] at kept
        cases kept
  · intro empty
    simp [empty]

theorem trim_replace (alike : BlankAlike old new s) :
    trim (replace old new s) = [] ↔ trim s = [] := by
  by_cases found : old ∈ s
  · rw [trim_eq_nil_iff, trim_eq_nil_iff, replace, List.forall_mem_map]
    rcases alike found with same | ⟨field, part, full⟩
    · refine forall₂_congr fun c _ => ?_
      split
      · rename_i delimiter
        rw [delimiter, same]
      · rfl
    · -- A character of the field is neither blank nor replaced, so neither line is blank.
      rw [ne_eq, trim_eq_nil_iff, not_forall₂] at full
      obtain ⟨c, inside, dark⟩ := full
      obtain ⟨mem, other⟩ := mem_of_mem_split part inside
      constructor
      · intro blank
        have := blank c mem
        rw [if_neg other] at this
        exact absurd this dark
      · intro blank
        exact absurd (blank c mem) dark
  · rw [replace_of_not_mem found]

/-- Where only blank fields stand between delimiters, the line is blank just as the delimiter is. -/
theorem trim_eq_nil_iff_of_blank_fields (found : old ∈ s)
    (blank : ∀ field ∈ split old s, trim field = []) :
    trim (replace old new s) = [] ↔ isBlank new = true := by
  have others : ∀ c ∈ s, c ≠ old → isBlank c = true := by
    intro c mem other
    obtain ⟨part, among, inside⟩ := mem_part_of_mem mem other
    exact trim_eq_nil_iff.mp (blank part among) c inside
  rw [trim_eq_nil_iff, replace, List.forall_mem_map]
  constructor
  · intro all
    have front := all old found
    rwa [if_pos rfl] at front
  · intro new c mem
    split
    · exact new
    · rename_i other
      exact others c mem other

/-- Any other line is blank with one of the delimiters only. -/
theorem trim_replace_iff :
    (trim (replace old new s) = [] ↔ trim s = []) ↔ BlankAlike old new s := by
  refine ⟨fun same found => ?_, trim_replace⟩
  by_cases full : ∃ field ∈ split old s, trim field ≠ []
  · exact .inr full
  · push Not at full
    have before : trim (replace old old s) = [] ↔ isBlank old = true :=
      trim_eq_nil_iff_of_blank_fields found full
    have after : trim (replace old new s) = [] ↔ isBlank new = true :=
      trim_eq_nil_iff_of_blank_fields found full
    rw [replace_self] at before
    rw [before, after] at same
    exact .inl (Bool.eq_iff_iff.mpr same.symm)

theorem chomp_replace (notOld : old ≠ '\r') (notNew : new ≠ '\r') :
    chomp (replace old new s) = replace old new (chomp s) := by
  have last : (replace old new s).getLast? = some '\r' ↔ s.getLast? = some '\r' := by
    rw [replace, List.getLast?_map, Option.map_eq_some_iff]
    constructor
    · rintro ⟨c, h, same⟩
      split at same
      · exact absurd same notNew
      · rwa [same] at h
    · intro h
      exact ⟨_, h, if_neg (Ne.symm notOld)⟩
  unfold chomp
  simp only [last]
  split
  · exact (List.map_dropLast).symm
  · rfl

end Texts

end Text

/-! ## Rows -/

namespace Row

/-- A line with another delimiter is read as the same row, or refused for the same reason. -/
theorem read_replace {old new : Char} {line : List Char} (absent : new ∉ line) (schema : Schema) :
    read (Text.replace old new line) new schema = read line old schema := by
  simp only [read, Text.split_replace absent]

theorem readFields_nil_fields {n : Nat} {schema : Schema} (width : schema.length = n) :
    readFields (List.replicate n []) schema = .ok (List.replicate n .null) := by
  induction n generalizing schema with
  | zero => rfl
  | succ n ih =>
      cases schema with
      | nil => cases width
      | cons t types =>
          rw [List.replicate_succ, readFields, ih (Nat.succ.inj width)]
          rfl

/-- A line of delimiters alone is read as nulls, whatever the delimiter. -/
theorem read_delimiters {delimiter : Char} {n : Nat} {schema : Schema}
    (width : schema.length = n + 1) :
    read (List.replicate n delimiter) delimiter schema = .ok (List.replicate (n + 1) .null) := by
  have parts : Text.split delimiter (List.replicate n delimiter) = List.replicate (n + 1) [] := by
    clear width
    induction n with
    | zero => rfl
    | succ n ih => rw [List.replicate_succ, Text.split_cons_self, ih, ← List.replicate_succ]
  simp only [read, parts, List.length_replicate, width, if_true, readFields_nil_fields width]
  rfl

end Row

/-! ## Lines in bytes -/

namespace Command

open Text (replace chomp)

/-- The same line with the new delimiter in every place of the old one, which was in no field; or no text
either time. -/
inductive Redelimited (old new : Char) : Bytes → Bytes → Prop where
  | text (line : List Char) (absent : new ∉ line) :
    Redelimited old new (Text.Utf8.encode line) (Text.Utf8.encode (replace old new line))
  | noText {bytes bytes' : Bytes} {fault fault' : Text.Utf8.Fault}
    (first : Text.Utf8.decode bytes = .error fault)
    (second : Text.Utf8.decode bytes' = .error fault') : Redelimited old new bytes bytes'

/-- A byte below 0x80 is a character of its own. -/
theorem toNat_of_mem_encodeChar {c : Char} {b : UInt8} (mem : b ∈ Text.Utf8.encodeChar c)
    (small : b.toNat < 0x80) : c.toNat = b.toNat := by
  have scalar : c.toNat < 0xD800 ∨ 0xDFFF < c.toNat ∧ c.toNat < 0x110000 := c.valid
  simp only [Text.Utf8.encodeChar] at mem
  split at mem
  · rw [List.mem_singleton.mp mem, Text.Utf8.byte_toNat (by omega)]
  · have large : 0x80 ≤ b.toNat := by
      split at mem
      · simp only [List.mem_cons, List.not_mem_nil, or_false] at mem
        rcases mem with rfl | rfl <;> rw [Text.Utf8.byte_toNat (by omega)] <;> omega
      · split at mem <;> simp only [List.mem_cons, List.not_mem_nil, or_false] at mem
        · rcases mem with rfl | rfl | rfl <;> rw [Text.Utf8.byte_toNat (by omega)] <;> omega
        · rcases mem with rfl | rfl | rfl | rfl <;> rw [Text.Utf8.byte_toNat (by omega)] <;> omega
    omega

theorem newline_not_mem_encodeChar {c : Char} (other : c ≠ '\n') :
    newline ∉ Text.Utf8.encodeChar c :=
  fun mem => other (Char.toNat_inj.mp (toNat_of_mem_encodeChar mem (by decide)))

theorem return_not_mem_encodeChar {c : Char} (other : c ≠ '\r') :
    carriageReturn ∉ Text.Utf8.encodeChar c :=
  fun mem => other (Char.toNat_inj.mp (toNat_of_mem_encodeChar mem (by decide)))

theorem encodeChar_ne_nil (c : Char) : Text.Utf8.encodeChar c ≠ [] := by
  unfold Text.Utf8.encodeChar
  simp only
  repeat' split
  all_goals simp

theorem encode_append_singleton (init : List Char) (c : Char) :
    Text.Utf8.encode (init ++ [c]) = Text.Utf8.encode init ++ Text.Utf8.encodeChar c := by
  simp [Text.Utf8.encode]

theorem dropReturn_encode (line : List Char) :
    dropReturn (Text.Utf8.encode line) = Text.Utf8.encode (chomp line) := by
  rcases List.eq_nil_or_concat line with rfl | ⟨init, c, rfl⟩
  · rfl
  rw [List.concat_eq_append, encode_append_singleton]
  by_cases ends : c = '\r'
  · subst ends
    have single : Text.Utf8.encodeChar '\r' = [carriageReturn] := rfl
    simp [dropReturn, chomp, single]
  · have other : (Text.Utf8.encode init ++ Text.Utf8.encodeChar c).getLast? ≠
        some carriageReturn := by
      rw [List.getLast?_append_of_ne_nil _ (encodeChar_ne_nil c)]
      exact fun last => return_not_mem_encodeChar ends (List.mem_of_getLast? last)
    rw [dropReturn, if_neg other, chomp, if_neg (by simpa using ends), encode_append_singleton]

/-- Dropping a carriage return makes no text of what is none. -/
theorem decode_dropReturn {bytes : Bytes} {fault : Text.Utf8.Fault}
    (h : Text.Utf8.decode bytes = .error fault) :
    ∃ fault', Text.Utf8.decode (dropReturn bytes) = .error fault' := by
  unfold dropReturn
  split
  · rename_i last
    cases text : Text.Utf8.decode bytes.dropLast with
    | error fault' => exact ⟨fault', rfl⟩
    | ok line =>
        have whole : Text.Utf8.encode (line ++ ['\r']) = bytes := by
          rw [encode_append_singleton, Text.Utf8.encode_decode text]
          exact List.dropLast_append_getLast? _ last
        rw [← whole, Text.Utf8.decode_encode] at h
        cases h
  · exact ⟨fault, h⟩

section Lines

variable {old new : Char} {bytes bytes' : Bytes} {pieces pieces' : List Bytes}

theorem Redelimited.dropReturn (notOld : old ≠ '\r') (notNew : new ≠ '\r')
    (h : Redelimited old new bytes bytes') :
    Redelimited old new (dropReturn bytes) (dropReturn bytes') := by
  cases h with
  | text line absent =>
      rw [dropReturn_encode, dropReturn_encode, Text.chomp_replace notOld notNew]
      refine .text _ fun mem => absent ?_
      unfold chomp at mem
      split at mem
      · exact List.dropLast_subset _ mem
      · exact mem
  | noText first second =>
      obtain ⟨_, first⟩ := decode_dropReturn first
      obtain ⟨_, second⟩ := decode_dropReturn second
      exact .noText first second

theorem Redelimited.isEmpty_eq (h : Redelimited old new bytes bytes') :
    bytes'.isEmpty = bytes.isEmpty := by
  cases h with
  | text line absent =>
      have full : ∀ c s, (Text.Utf8.encode (c :: s)).isEmpty = false := by
        intro c s
        rw [List.isEmpty_eq_false_iff, Text.Utf8.encode_cons]
        exact List.append_ne_nil_of_left_ne_nil (encodeChar_ne_nil c) _
      cases line with
      | nil => rfl
      | cons c rest => rw [replace, List.map_cons, full, full]
  | noText first second =>
      have full : ∀ {b : Bytes} {fault}, Text.Utf8.decode b = .error fault → b.isEmpty = false := by
        intro b fault failed
        cases b with
        | nil => cases failed
        | cons => rfl
      rw [full first, full second]

/-- With the pieces between newlines the lines correspond. -/
theorem redelimited_lines (notOld : old ≠ '\r') (notNew : new ≠ '\r')
    (h : List.Forall₂ (Redelimited old new) pieces pieces') :
    List.Forall₂ (Redelimited old new) (linesOfPieces pieces) (linesOfPieces pieces') := by
  induction h with
  | nil => exact .nil
  | @cons piece piece' rest rest' first others ih =>
      cases others with
      | nil =>
          simp only [linesOfPieces, first.isEmpty_eq]
          split
          · exact .nil
          · exact .cons first .nil
      | cons next others =>
          rw [linesOfPieces_cons _ (List.cons_ne_nil _ _), linesOfPieces_cons _ (List.cons_ne_nil _ _)]
          exact .cons (first.dropReturn notOld notNew) ih

theorem splitOn_append_of_not_mem {start : Bytes} (absent : newline ∉ start) (rest : Bytes) :
    (start ++ rest).splitOn newline = (rest.splitOn newline).modifyHead (start ++ ·) := by
  induction start with
  | nil => cases h : rest.splitOn newline <;> simp [h]
  | cons b start ih =>
      rw [List.mem_cons, not_or] at absent
      rw [List.cons_append, splitOn_cons_of_ne _ (Ne.symm absent.1), ih absent.2,
        List.modifyHead_modifyHead]
      rfl

theorem splitOn_encode (text : List Char) :
    (Text.Utf8.encode text).splitOn newline = (Text.split '\n' text).map Text.Utf8.encode := by
  induction text with
  | nil => rfl
  | cons c rest ih =>
      rw [Text.Utf8.encode_cons]
      by_cases ends : c = '\n'
      · subst ends
        rw [Text.split_cons_self, List.map_cons, ← ih]
        exact splitOn_newline_cons _
      · obtain ⟨part, more, h⟩ := List.exists_cons_of_ne_nil (Text.split_ne_nil '\n' rest)
        rw [splitOn_append_of_not_mem (newline_not_mem_encodeChar ends), ih,
          Text.split_cons_of_ne ends, h]
        simp [Text.Utf8.encode_cons]

/-- The lines of a text correspond to those of the text with another delimiter. -/
theorem redelimited_of_text {text : List Char} (absent : new ∉ text) (notOld : old ≠ '\n')
    (notNew : new ≠ '\n') :
    List.Forall₂ (Redelimited old new) ((Text.Utf8.encode text).splitOn newline)
      ((Text.Utf8.encode (replace old new text)).splitOn newline) := by
  rw [splitOn_encode, splitOn_encode, Text.split_replace_of_ne notOld notNew, List.map_map,
    List.forall₂_map_left_iff, List.forall₂_map_right_iff, List.forall₂_same]
  intro line mem
  exact .text line fun inside => absent (Text.mem_of_mem_split mem inside).1

end Lines

end Command

end RowFilter
