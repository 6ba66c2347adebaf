import RowFilter.Proofs.Calendar
import RowFilter.Proofs.Stamps
import RowFilter.Time.Printer

/-!
# Proofs.TimeForms — one instant in three forms

A date and a time of day denote one instant in the plain form and in the internet form; there a fraction
adds nanoseconds and an offset moves the instant by whole minutes, so that a leap second stays one
(`readInternet?_internetText`).  A date alone denotes its midnight.  The forms are tried in turn, and none
takes a text of another (`forms_agree`).
-/

namespace RowFilter

set_option autoImplicit false

/-! ## Fractions -/

namespace Text

/-- The number that the first nine digits of a fraction denote, zeros filling up a shorter one. -/
def firstNine (fraction : List Char) : Nat := value ((fraction ++ List.replicate 9 '0').take 9)

theorem fractionOf_eq (fraction : List Char) : Time.fractionOf fraction = firstNine fraction := by
  have filled : (fraction ++ List.replicate 9 '0').take 9 =
      fraction.take 9 ++ List.replicate (9 - (fraction.take 9).length) '0' := by
    rw [List.take_append, List.take_replicate, List.length_take]
    congr 2
    omega
  rw [firstNine, filled, value_append_zeros, Nat.mul_comm]
  rfl

theorem firstNine_lt {fraction : List Char} (word : Digits fraction) :
    firstNine fraction < Time.nanosPerSecond := by
  have digits : Digits ((fraction ++ List.replicate 9 '0').take 9) :=
    fun c mem => word.append (digits_replicate_zero 9) c (List.mem_of_mem_take mem)
  have length : ((fraction ++ List.replicate 9 '0').take 9).length = 9 := by
    rw [List.length_take, List.length_append, List.length_replicate]
    omega
  have bound := valueFrom_lt digits 0
  rw [length] at bound
  exact bound

theorem spanDigits_append {s : List Char} (word : Digits s) {c : Char} (stop : c.isDigit = false)
    (rest : List Char) : spanDigits (s ++ c :: rest) = (s, c :: rest) := by
  rw [spanDigits, List.takeWhile_append_of_pos word, List.dropWhile_append_of_pos word]
  simp [stop]

end Text

namespace Time

open RowFilter.Text (Digits padded firstNine)

/-- A point and a fraction, or nothing where it has no digits. -/
def fractionText (fraction : List Char) : List Char :=
  if fraction = [] then [] else '.' :: fraction

theorem takeFraction_append {fraction : List Char} (word : Digits fraction) {c : Char}
    (stop : c.isDigit = false) (point : c ≠ '.') (rest : List Char) :
    takeFraction (fractionText fraction ++ c :: rest) = some (firstNine fraction, c :: rest) := by
  by_cases empty : fraction = []
  · subst empty
    rw [fractionText, if_pos rfl, List.nil_append, takeFraction]
    · rfl
    · rintro s h
      exact point (List.cons.inj h).1
  · rw [fractionText, if_neg empty, List.cons_append, takeFraction]
    simp only [Text.spanDigits_append word stop, List.isEmpty_eq_false_iff.mpr empty,
      Text.fractionOf_eq]
    rfl

/-! ## Offsets -/

/-- The ways to write an offset of so many minutes: a sign, hours and minutes, and for none a letter
too.  The minus sign may be the mathematical one. -/
def offsetTexts (minutes : Int) : List (List Char) :=
  let size := padded 2 (minutes.natAbs / 60) ++ ':' :: padded 2 (minutes.natAbs % 60)
  if 0 < minutes then ['+' :: size]
  else if minutes < 0 then ['-' :: size, '\u2212' :: size]
  else [['Z'], ['z'], '+' :: size, '-' :: size, '\u2212' :: size]

theorem Word.exists_padded {n k : Nat} (pos : 0 < n) (lt : k < Nat.pow 10 n) :
    ∃ w : Word n, w.chars = padded n k ∧ w.value = k := by
  have digits : Digits (padded n k) :=
    (Text.digits_replicate_zero _).append (Text.digits_digits k)
  refine ⟨⟨padded n k, digits, Text.length_padded pos lt⟩, rfl, ?_⟩
  show Text.value (List.replicate _ '0' ++ Text.digits k) = k
  rw [Text.value_zeros_append, Text.value_digits]

/-- Hours and minutes behind a sign are read, and a sign is not all there is. -/
theorem exists_readOffsetSize {n : Nat} (near : n < 24 * 60) :
    ∃ c more, padded 2 (n / 60) ++ ':' :: padded 2 (n % 60) = c :: more ∧
      readOffsetSize (c :: more) = some (n * 60 : Int) := by
  have hours_lt : n / 60 < 24 := by omega
  have minutes_lt : n % 60 < 60 := by omega
  obtain ⟨hours, spelled, value⟩ := Word.exists_padded (n := 2) (k := n / 60) (by decide) (by
    show _ < 100
    omega)
  obtain ⟨minutes, spelled', value'⟩ := Word.exists_padded (n := 2) (k := n % 60) (by decide) (by
    show _ < 100
    omega)
  obtain ⟨c, more, starts, -⟩ := hours.exists_cons
  have last := minutes.takeFixed_append []
  rw [List.append_nil] at last
  have total : ((n / 60 : Nat) : Int) * 3600 + ((n % 60 : Nat) : Int) * 60 = n * 60 := by omega
  refine ⟨c, more ++ ':' :: minutes.chars, ?_, ?_⟩
  · rw [← spelled, ← spelled', starts, List.cons_append]
  · rw [← List.cons_append, ← starts]
    simp only [readOffsetSize, Word.takeFixed_append, takeChar_self, last, value, value',
      Option.bind_eq_bind, Option.bind_some, List.isEmpty_nil, hours_lt, minutes_lt, decide_true,
      Bool.and_self, if_true, total]

theorem readOffset?_of_mem {o : Int} (near : o.natAbs < 24 * 60) {zone : List Char}
    (mem : zone ∈ offsetTexts o) :
    readOffset? zone = some (o * 60) ∧
      ∃ c rest, zone = c :: rest ∧ c.isDigit = false ∧ c ≠ '.' := by
  obtain ⟨c, more, size, read⟩ := exists_readOffsetSize near
  have plus : readOffset? ('+' :: c :: more) = some (o.natAbs * 60 : Int) := read
  have minus : readOffset? ('-' :: c :: more) = some (-(o.natAbs * 60 : Int)) :=
    congrArg (Option.map fun n => -n) read
  have long : readOffset? ('\u2212' :: c :: more) = some (-(o.natAbs * 60 : Int)) :=
    congrArg (Option.map fun n => -n) read
  simp only [offsetTexts, size] at mem
  split at mem
  · have same : (o.natAbs * 60 : Int) = o * 60 := by omega
    rw [List.mem_singleton] at mem
    subst mem
    exact ⟨by rw [plus, same], _, _, rfl, rfl, by decide⟩
  split at mem
  · have same : -(o.natAbs * 60 : Int) = o * 60 := by omega
    simp only [List.mem_cons, List.not_mem_nil, or_false] at mem
    rcases mem with rfl | rfl
    · exact ⟨by rw [minus, same], _, _, rfl, rfl, by decide⟩
    · exact ⟨by rw [long, same], _, _, rfl, rfl, by decide⟩
  · obtain rfl : o = 0 := by omega
    simp only [List.mem_cons, List.not_mem_nil, or_false] at mem
    rcases mem with rfl | rfl | rfl | rfl | rfl
    · exact ⟨rfl, _, _, rfl, rfl, by decide⟩
    · exact ⟨rfl, _, _, rfl, rfl, by decide⟩
    · exact ⟨plus, _, _, rfl, rfl, by decide⟩
    · exact ⟨minus, _, _, rfl, rfl, by decide⟩
    · exact ⟨long, _, _, rfl, rfl, by decide⟩

/-! ## Instants -/

/-- There is an instant for every time of day in the years of four digits, up to a day before or
after. -/
theorem Instant.exists_ofCivil? {d : Date} {hour minute s nano : Nat} {offset : Int}
    (valid : d.isValid = true) (first : 0 ≤ d.year) (last : d.year ≤ 9999)
    (clock : OnClock hour minute s) (nano_lt : nano < nanosPerSecond) (whole : offset % 60 = 0)
    (near : offset.natAbs ≤ 86400) : ∃ t, ofCivil? d hour minute s nano offset = some t := by
  obtain ⟨low, high⟩ := Date.dayOfYear_bounds valid
  have from_zero := daysBeforeYear_mono first
  have to_last := daysBeforeYear_mono last
  have zero : daysBeforeYear 0 = -366 := rfl
  have most : daysBeforeYear 9999 = 3651694 := rfl
  have year : yearLength (isLeap d.year) ≤ 366 := by
    unfold yearLength
    split <;> decide
  obtain ⟨hour_lt, minute_lt, s_le⟩ := clock
  have day := d.dayNumber_eq
  simp only [epochDay, nanosPerSecond] at day nano_lt
  -- The bounds of time are much farther from these years than any offset can move an instant.
  refine ⟨⟨d.dayNumber * 86400 + hour * 3600 + minute * 60 - offset + (min s 59 : Nat),
    s / 60 * nanosPerSecond + nano, ?_, ?_, ?_, ?_⟩, ofCivil?_eq_some_iff.mpr
      ⟨⟨valid, ⟨hour_lt, minute_lt, s_le⟩, nano_lt⟩, rfl, rfl⟩⟩
  · simp only [firstSecond]
    omega
  · simp only [lastSecond]
    omega
  · simp only [nanosPerSecond]
    omega
  · simp only [nanosPerSecond]
    omega

/-! ## The three forms -/

/-- A time of day in two digits each. -/
def clockText (hour minute s : Nat) : List Char :=
  padded 2 hour ++ ':' :: padded 2 minute ++ ':' :: padded 2 s

theorem exists_dateWords {d : Date} (valid : d.isValid = true) (first : 0 ≤ d.year)
    (last : d.year ≤ 9999) : ∃ w : DateWords, w.text = dateText d ∧ w.date = d := by
  obtain ⟨-, month_le, -, day_le⟩ := Date.isValid_iff.mp valid
  have short := monthLength_le (isLeap d.year) d.month
  have year_lt : d.year.toNat < 10000 := by omega
  have month_lt : d.month < 100 := by omega
  have day_lt : d.day < 100 := by omega
  obtain ⟨year, spelled, value⟩ := Word.exists_padded (n := 4) (by decide) year_lt
  obtain ⟨month, spelled', value'⟩ := Word.exists_padded (n := 2) (by decide) month_lt
  obtain ⟨day, spelled'', value''⟩ := Word.exists_padded (n := 2) (by decide) day_lt
  refine ⟨⟨year, month, day⟩, ?_, ?_⟩
  · rw [DateWords.text, dateText, yearText, if_pos ⟨first, last⟩, spelled, spelled', spelled'']
  · have whole : (d.year.toNat : Int) = d.year := Int.toNat_of_nonneg first
    rw [DateWords.date, value, value', value'', whole]

theorem exists_clockWords {hour minute s : Nat} (clock : OnClock hour minute s) :
    ∃ w : ClockWords, w.text = clockText hour minute s ∧
      w.hour.value = hour ∧ w.minute.value = minute ∧ w.second.value = s := by
  obtain ⟨hour_lt, minute_lt, s_le⟩ := clock
  obtain ⟨first, spelled, value⟩ :=
    Word.exists_padded (n := 2) (k := hour) (by decide) (by show _ < 100; omega)
  obtain ⟨second, spelled', value'⟩ :=
    Word.exists_padded (n := 2) (k := minute) (by decide) (by show _ < 100; omega)
  obtain ⟨third, spelled'', value''⟩ :=
    Word.exists_padded (n := 2) (k := s) (by decide) (by show _ < 100; omega)
  refine ⟨⟨first, second, third⟩, ?_, value, value', value''⟩
  rw [ClockWords.text, clockText, spelled, spelled', spelled'']

/-- A date and a time of day are written as a stamp. -/
theorem exists_stamp {d : Date} {hour minute s : Nat} (valid : d.isValid = true)
    (first : 0 ≤ d.year) (last : d.year ≤ 9999) (clock : OnClock hour minute s) :
    ∃ w : Stamp, (∀ mark, w.textWith mark = dateText d ++ mark :: clockText hour minute s) ∧
      w.instant? = Instant.ofCivil? d hour minute s := by
  obtain ⟨date, spelled, same⟩ := exists_dateWords valid first last
  obtain ⟨words, spelled', sameHour, sameMinute, sameSecond⟩ := exists_clockWords clock
  refine ⟨⟨date, words⟩, fun mark => ?_, ?_⟩
  · rw [Stamp.textWith, spelled, spelled']
  · funext nano offset
    rw [Stamp.instant?, same, sameHour, sameMinute, sameSecond]

/-- The internet form, with the character before the time, the digits of a fraction and the text of an
offset. -/
def internetText (d : Date) (hour minute s : Nat) (mark : Char) (fraction zone : List Char) :
    List Char :=
  dateText d ++ mark :: clockText hour minute s ++ fractionText fraction ++ zone

/-- What the internet form denotes. -/
theorem readInternet?_internetText {d : Date} {hour minute s : Nat} (valid : d.isValid = true)
    (first : 0 ≤ d.year) (last : d.year ≤ 9999) (clock : OnClock hour minute s) {mark : Char}
    (isMark : isDateTimeMark mark = true) {fraction : List Char} (word : Digits fraction) {o : Int}
    (near : o.natAbs < 24 * 60) {zone : List Char} (mem : zone ∈ offsetTexts o) :
    readInternet? (internetText d hour minute s mark fraction zone) =
      Instant.ofCivil? d hour minute s (firstNine fraction) (o * 60) := by
  obtain ⟨w, text, instant⟩ := exists_stamp valid first last clock
  obtain ⟨read, c, rest, rfl, stop, point⟩ := readOffset?_of_mem near mem
  rw [internetText, ← text mark, List.append_assoc, w.readInternet?_textWith isMark,
    takeFraction_append word stop point]
  simp only [Option.bind_some, read, instant]

namespace Instant

/-- **The three forms agree.**  A date and a time of day denote an instant in the plain form, the second
`60` too.  In the internet form the offset moves it back and the fraction adds nanoseconds, so that
without either it is the same.  The date alone denotes its midnight. -/
theorem forms_agree {d : Date} {hour minute s : Nat} (valid : d.isValid = true)
    (first : 0 ≤ d.year) (last : d.year ≤ 9999) (clock : OnClock hour minute s) :
    ∃ t, read? (dateText d ++ ' ' :: clockText hour minute s) = some t ∧
      (∀ mark fraction o, isDateTimeMark mark = true → Digits fraction → o.natAbs < 24 * 60 →
        ∀ zone ∈ offsetTexts o, ∃ u,
          read? (internetText d hour minute s mark fraction zone) = some u ∧
            u.second = t.second - o * 60 ∧ u.nano = t.nano + firstNine fraction) ∧
      (∀ mark, isDateTimeMark mark = true → ∀ zone ∈ offsetTexts 0,
        read? (internetText d hour minute s mark [] zone) = some t) ∧
      ∃ m, read? (dateText d) = some m ∧ read? (dateText d ++ ' ' :: clockText 0 0 0) = some m := by
  have plain {hour minute s : Nat} (clock : OnClock hour minute s) :
      ∃ t, ofCivil? d hour minute s 0 0 = some t ∧
        read? (dateText d ++ ' ' :: clockText hour minute s) = some t := by
    obtain ⟨w, text, instant⟩ := exists_stamp valid first last clock
    obtain ⟨t, civil⟩ : ∃ t, ofCivil? d hour minute s 0 0 = some t :=
      exists_ofCivil? valid first last clock (by decide) rfl (by decide)
    refine ⟨t, civil, ?_⟩
    rw [← civil, ← instant, ← text]
    exact w.read?_text
  obtain ⟨t, civil, read⟩ := plain clock
  have internet {mark : Char} {fraction : List Char} {o : Int}
      (isMark : isDateTimeMark mark = true) (word : Digits fraction) (near : o.natAbs < 24 * 60)
      {zone : List Char} (mem : zone ∈ offsetTexts o) :
      ∃ u, read? (internetText d hour minute s mark fraction zone) = some u ∧
        u.second = t.second - o * 60 ∧ u.nano = t.nano + firstNine fraction := by
    obtain ⟨u, moved⟩ : ∃ u, ofCivil? d hour minute s (firstNine fraction) (o * 60) = some u :=
      exists_ofCivil? valid first last clock (Text.firstNine_lt word) (by omega) (by omega)
    obtain ⟨-, second, nano⟩ := ofCivil?_eq_some_iff.mp civil
    obtain ⟨-, second', nano'⟩ := ofCivil?_eq_some_iff.mp moved
    have first_form := readInternet?_internetText valid first last clock isMark word near mem
    refine ⟨u, ?_, by omega, by omega⟩
    rw [read?, first_form, moved, Option.some_or]
  refine ⟨t, read, fun _ _ _ => internet, fun mark isMark zone mem => ?_, ?_⟩
  · obtain ⟨u, read_u, second, nano⟩ :=
      internet isMark (Text.digits_replicate_zero 0) (by decide) mem
    have same : u = t := ext (by omega) nano
    rw [← same]
    exact read_u
  · have midnight : OnClock 0 0 0 := ⟨by decide, by decide, by decide⟩
    obtain ⟨m, civil_m, read_m⟩ := plain midnight
    obtain ⟨w, spelled, same⟩ := exists_dateWords valid first last
    refine ⟨m, ?_, read_m⟩
    rw [← spelled, w.read?_text, same, civil_m]

/-- A leap second at the start of the year `0000`, moved into the year before it. -/
theorem leap_second_crosses_years :
    ∃ t u, read? (dateText ⟨0, 1, 1⟩ ++ ' ' :: clockText 0 0 60) = some t ∧
      read? (internetText ⟨0, 1, 1⟩ 0 0 60 'T' ['5'] ['+', '2', '3', ':', '5', '9']) = some u ∧
      u.second = t.second - 86340 ∧ u.nano = 1500000000 := by
  have clock : OnClock 0 0 60 := ⟨by decide, by decide, by decide⟩
  obtain ⟨t, plain, internet, -⟩ :=
    forms_agree (d := ⟨0, 1, 1⟩) (by decide) (by decide) (by decide) clock
  obtain ⟨u, read, second, nano⟩ := internet 'T' ['5'] 1439 rfl (by decide) (by decide)
    ['+', '2', '3', ':', '5', '9'] (by decide)
  have leap : read? (dateText ⟨0, 1, 1⟩ ++ ' ' :: clockText 0 0 60) =
      some ⟨-62167219141, nanosPerSecond, by decide, by decide, by decide, by decide⟩ := by rfl
  have leap_nano : t.nano = nanosPerSecond :=
    congrArg Instant.nano (Option.some.inj (plain.symm.trans leap))
  refine ⟨t, u, plain, read, second, ?_⟩
  rw [nano, leap_nano]
  rfl

end Instant

end Time

end RowFilter
