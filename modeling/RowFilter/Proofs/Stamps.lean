import RowFilter.Proofs.Numeral
import RowFilter.Time.Reader
import Mathlib.Data.List.TakeWhile

/-!
# Proofs.Stamps — dates and times of fixed width

A stamp is a date and a time of day in words of digits, `2024-03-01 12:30:00`.  Each piece of a
reader takes its word from a text and leaves what follows.  A stamp lacks the offset of the internet
form and is more than a date, so only the plain form reads it (`Stamp.read?_text`), and a date alone is
read as the first second of its day (`DateWords.read?_text`).
-/

namespace RowFilter.Time

set_option autoImplicit false

open RowFilter.Text (Digits)

/-- A word of `n` digits. -/
structure Word (n : Nat) where
  chars : List Char
  digits : Digits chars
  length_eq : chars.length = n

namespace Word

variable {n : Nat}

def value (w : Word n) : Nat := Text.value w.chars

theorem isBlank_of_isDigit {c : Char} (digit : c.isDigit = true) : Text.isBlank c = false := by
  have bounds := Char.isDigit_iff_toNat.mp digit
  have low : '0'.toNat = 48 := rfl
  have high : '9'.toNat = 57 := rfl
  rw [low, high] at bounds
  simp only [Text.isBlank, Bool.or_eq_false_iff, Bool.and_eq_false_iff, beq_eq_false_iff_ne,
    decide_eq_false_iff_not]
  omega

/-- A word that is not empty starts with a digit. -/
theorem exists_cons (w : Word (n + 1)) : ∃ c more, w.chars = c :: more ∧ c.isDigit = true := by
  obtain ⟨chars, digits, length⟩ := w
  cases chars with
  | nil => cases length
  | cons c more => exact ⟨c, more, rfl, digits c List.mem_cons_self⟩

/-- A word that is not empty ends in a digit. -/
theorem exists_append (w : Word (n + 1)) : ∃ more c, w.chars = more ++ [c] ∧ c.isDigit = true := by
  obtain ⟨chars, digits, length⟩ := w
  rcases List.eq_nil_or_concat chars with rfl | ⟨more, c, rfl⟩
  · cases length
  · rw [List.concat_eq_append] at digits
    exact ⟨more, c, List.concat_eq_append, digits c (List.mem_append_right more List.mem_cons_self)⟩

/-! ## Taking a word -/

variable (rest : List Char)

theorem takeFixed_append (w : Word n) : takeFixed n (w.chars ++ rest) = some (w.value, rest) := by
  obtain ⟨chars, digits, rfl⟩ := w
  have all : chars.all Char.isDigit = true := List.all_eq_true.mpr digits
  simp [takeFixed, value, all]

theorem takeShort_append (w : Word (n + 1)) :
    takeShort (n + 1) (w.chars ++ rest) = some (w.value, rest) := by
  obtain ⟨c, more, starts, -⟩ := w.exists_cons
  obtain ⟨chars, digits, length⟩ := w
  have all : chars.takeWhile Char.isDigit = chars := List.takeWhile_eq_self_iff.mpr digits
  have some : chars.isEmpty = false := by
    simp only at starts
    rw [starts]
    rfl
  simp [takeShort, value, ← length, all, some]

theorem trimStart_append (w : Word (n + 1)) :
    Text.trimStart (w.chars ++ rest) = w.chars ++ rest := by
  obtain ⟨c, more, starts, digit⟩ := w.exists_cons
  rw [starts]
  exact Text.trimStart_cons _ (isBlank_of_isDigit digit)

theorem takeField_append (w : Word 2) : takeField (w.chars ++ rest) = some (w.value, rest) := by
  rw [takeField, trimStart_append, takeShort_append]

theorem takeYear_append (w : Word 4) :
    takeYear (w.chars ++ rest) = some ((w.value : Int), rest) := by
  obtain ⟨c, more, starts, digit⟩ := w.exists_cons
  have short : takeShort 4 (w.chars ++ rest) = some (w.value, rest) := w.takeShort_append rest
  unfold takeYear
  rw [w.trimStart_append]
  split
  · rename_i minus
    rw [starts] at minus
    cases minus
    cases digit
  · rename_i plus
    rw [starts] at plus
    cases plus
    cases digit
  · rw [short]
    rfl

end Word

theorem takeChar_self (c : Char) (rest : List Char) : takeChar c (c :: rest) = some rest := if_pos rfl

theorem takeMark_cons {c : Char} (mark : isDateTimeMark c = true) (rest : List Char) :
    takeMark (c :: rest) = some rest := if_pos mark

/-! ## Dates -/

/-- Year, month and day in words. -/
structure DateWords where
  year : Word 4
  month : Word 2
  day : Word 2

namespace DateWords

def date (d : DateWords) : Date := ⟨d.year.value, d.month.value, d.day.value⟩

def text (d : DateWords) : List Char :=
  d.year.chars ++ '-' :: d.month.chars ++ '-' :: d.day.chars

theorem takeDate_append (d : DateWords) (rest : List Char) :
    takeDate (d.text ++ rest) = some (d.date, rest) := by
  simp [text, takeDate, Word.takeYear_append, Word.takeField_append, takeChar_self, date]

end DateWords

/-! ## Stamps -/

/-- Hour, minute and second in words. -/
structure ClockWords where
  hour : Word 2
  minute : Word 2
  second : Word 2

namespace ClockWords

def text (c : ClockWords) : List Char :=
  c.hour.chars ++ ':' :: c.minute.chars ++ ':' :: c.second.chars

end ClockWords

structure Stamp where
  date : DateWords
  clock : ClockWords

namespace Stamp

/-- A date and a time of day with a character between them. -/
def textWith (s : Stamp) (mark : Char) : List Char := s.date.text ++ mark :: s.clock.text

def text (s : Stamp) : List Char := s.textWith ' '

/-- The instant of the stamp in universal time, with nanoseconds and an offset in seconds. -/
def instant? (s : Stamp) (nano : Nat) (offset : Int) : Option Instant :=
  Instant.ofCivil? s.date.date s.clock.hour.value s.clock.minute.value s.clock.second.value nano offset

theorem readPlain?_text (s : Stamp) : readPlain? s.text = s.instant? 0 0 := by
  have second := s.clock.second.takeField_append []
  rw [List.append_nil] at second
  have blank (w : Word 2) (rest : List Char) :
      takeField (' ' :: (w.chars ++ rest)) = some (w.value, rest) := w.takeField_append rest
  simp [readPlain?, text, textWith, ClockWords.text, DateWords.takeDate_append, blank,
    Word.takeField_append, takeChar_self, second, instant?]

/-- What starts with a date and a time is read in the internet form by what follows the time. -/
theorem readInternet?_textWith (s : Stamp) {mark : Char} (isMark : isDateTimeMark mark = true)
    (rest : List Char) :
    readInternet? (s.textWith mark ++ rest) =
      (takeFraction rest).bind fun (nano, zone) => (readOffset? zone).bind (s.instant? nano) := by
  simp only [readInternet?, textWith, DateWords.text, ClockWords.text, List.append_assoc,
    List.cons_append, Word.takeFixed_append, takeChar_self, takeMark_cons isMark,
    Option.bind_eq_bind, Option.bind_some]
  rfl

/-- Only the plain form reads a stamp. -/
theorem read?_text (s : Stamp) : Instant.read? s.text = s.instant? 0 0 := by
  have internet : readInternet? s.text = none := by
    have blank : isDateTimeMark ' ' = true := rfl
    have zoneless := s.readInternet?_textWith blank []
    rw [List.append_nil] at zoneless
    exact zoneless
  have date : readDate? s.text = none := by
    simp [readDate?, text, textWith, DateWords.takeDate_append]
  rw [Instant.read?, internet, date, s.readPlain?_text, Option.or_none, Option.none_or]

end Stamp

/-- A date alone is read as the first second of its day. -/
theorem DateWords.read?_text (d : DateWords) :
    Instant.read? d.text = Instant.ofCivil? d.date 0 0 0 0 0 := by
  have taken := d.takeDate_append []
  rw [List.append_nil] at taken
  have internet : readInternet? d.text = none := by
    have day := d.day.takeFixed_append []
    rw [List.append_nil] at day
    simp [readInternet?, text, Word.takeFixed_append, takeChar_self, day, takeMark]
  have plain : readPlain? d.text = none := by
    simp [readPlain?, taken, takeField, takeShort, Text.trimStart]
  have date : readDate? d.text = Instant.ofCivil? d.date 0 0 0 0 0 := by
    simp [readDate?, taken]
  rw [Instant.read?, internet, plain, date, Option.none_or, Option.none_or]

end RowFilter.Time
