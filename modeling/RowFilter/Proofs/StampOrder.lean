import RowFilter.Proofs.Calendar
import RowFilter.Proofs.Stamps
import RowFilter.Proofs.TextFrames
import RowFilter.Proofs.TextOrder

/-!
# Proofs.StampOrder — stamps are in the order of time

Stamps are compared word by word, the year first, and words of one length are in the order of their
numbers (`compare_text`).  Instants are in that same order of their dates and times of day.  So it does
not matter whether stamps are compared as texts, as instants, or one as each
(`stamps_follow_time`).
-/

namespace RowFilter.Time

set_option autoImplicit false

open RowFilter.Text (Digits)

theorem Word.compare_value {n : Nat} (v w : Word n) :
    Ord.compare v.chars w.chars = Ord.compare v.value w.value :=
  (Text.compare_value v.digits w.digits (v.length_eq.trans w.length_eq.symm)).symm

namespace Stamp

theorem text_eq (s : Stamp) : s.text =
    s.date.year.chars ++ '-' :: (s.date.month.chars ++ '-' :: (s.date.day.chars ++
      ' ' :: (s.clock.hour.chars ++ ':' :: (s.clock.minute.chars ++ ':' :: s.clock.second.chars)))) := by
  simp [text, textWith, DateWords.text, ClockWords.text]

/-- Stamps are in the order of their numbers. -/
theorem compare_text (v w : Stamp) : Ord.compare v.text w.text =
    (Ord.compare v.date.date.year w.date.date.year).then
      ((Ord.compare v.date.date.month w.date.date.month).then
        ((Ord.compare v.date.date.day w.date.date.day).then
          ((Ord.compare v.clock.hour.value w.clock.hour.value).then
            ((Ord.compare v.clock.minute.value w.clock.minute.value).then
              (Ord.compare v.clock.second.value w.clock.second.value))))) := by
  have part {n : Nat} (x y : Word n) (s t : List Char) : Ord.compare (x.chars ++ s) (y.chars ++ t) =
      (Ord.compare x.value y.value).then (Ord.compare s t) := by
    rw [compare_append (x.length_eq.trans y.length_eq.symm), x.compare_value y]
  have year : Ord.compare v.date.date.year w.date.date.year =
      Ord.compare v.date.year.value w.date.year.value := by
    simp only [DateWords.date]
    exact compare_congr (by omega) (by omega) (by omega)
  rw [text_eq, text_eq, year]
  -- Every word is as long as its counterpart, so the words are compared one after the other.
  simp only [part, compare_cons_self, Word.compare_value]
  rfl

/-- **The instants of two stamps are in the order of their texts.** -/
theorem compare_instants {v w : Stamp} {t u : Instant} (left : Instant.read? v.text = some t)
    (right : Instant.read? w.text = some u) : t.compare u = Ord.compare v.text w.text := by
  rw [read?_text] at left right
  rw [compare_text]
  exact Instant.compare_ofCivil? left right

theorem trim_text (s : Stamp) : Text.trim s.text = s.text := by
  obtain ⟨more, c, ends, digit⟩ := s.clock.second.exists_append
  have front : Text.trimStart s.text = s.text := by
    rw [text_eq]
    exact s.date.year.trimStart_append _
  have back : ∃ init, s.text = init ++ [c] := by
    refine ⟨s.date.text ++ ' ' :: s.clock.hour.chars ++ ':' :: s.clock.minute.chars ++ ':' :: more, ?_⟩
    simp [text, textWith, ClockWords.text, ends]
  obtain ⟨init, whole⟩ := back
  rw [Text.trim, front, whole]
  exact Text.trimEnd_append_singleton init (Word.isBlank_of_isDigit digit)

theorem ascii_text (s : Stamp) : ∀ c ∈ s.text, c.toNat < 128 := by
  have word {n : Nat} (w : Word n) : ∀ c ∈ w.chars, c.toNat < 128 := by
    intro c mem
    have high : c.toNat ≤ 57 := (Char.isDigit_iff_toNat.mp (w.digits c mem)).2
    omega
  rw [text_eq]
  simp only [List.forall_mem_append, List.forall_mem_cons]
  refine ⟨word _, by decide, word _, by decide, word _, by decide, word _, by decide, word _,
    by decide, word _⟩

/-- The cell of the stamp as a text. -/
def cell (s : Stamp) : Cell := .of (.string (String.ofList s.text))

/-- Beside instants the text of a stamp stands for its instant. -/
theorem reread_cell {s : Stamp} {t : Instant} (given : Instant.read? s.text = some t) :
    Cell.Reread .timestamp (.of (.timestamp t)) s.cell := by
  refine .text ?_
  rw [Cell.content, String.toList_ofList, trim_text, Value.readContent, given]

/-- **Stamps follow time.**  Two stamps compare as their bytes do, whether both are compared as texts, both
as instants, or one as each, and different stamps denote different instants. -/
theorem stamps_follow_time {v w : Stamp} {t u : Instant} (left : Instant.read? v.text = some t)
    (right : Instant.read? w.text = some u) :
    t.compare u = Ord.compare (Text.Utf8.encode v.text) (Text.Utf8.encode w.text) ∧
      (∀ c : Comparator, ∃ b, b = c.holds (some (t.compare u)) ∧
        Cell.compare c v.cell w.cell = .ok b ∧
        Cell.compare c (.of (.timestamp t)) (.of (.timestamp u)) = .ok b ∧
        Cell.compare c (.of (.timestamp t)) w.cell = .ok b ∧
        Cell.compare c v.cell (.of (.timestamp u)) = .ok b) ∧
      (v.text ≠ w.text → t ≠ u) := by
  have order := compare_instants left right
  have above : ColumnType.timestamp ∈ ColumnType.textFrames := by decide
  refine ⟨?_, fun c => ⟨_, rfl, ?_, rfl, ?_, ?_⟩, ?_⟩
  · rw [order, Text.Utf8.compare_encode v.ascii_text w.ascii_text]
  · have texts : Ord.compare (String.ofList v.text) (String.ofList w.text) = t.compare u := by
      rw [← Text.compare_toList, String.toList_ofList, String.toList_ofList, order]
    exact congrArg (fun o => Except.ok (c.holds (some o))) texts
  · exact (Cell.compareFor_reread above (reread_cell right) rfl c).2
  · exact (Cell.compareFor_reread above (reread_cell left) rfl c).1
  · rintro other rfl
    have same : t.compare t = .eq := by
      rw [Instant.compare_eq_place]
      exact Std.ReflCmp.compare_self
    rw [order] at same
    exact other (Std.LawfulEqCmp.eq_of_compare same)

/-- The last leap second of a February, `2024-02-29 23:59:60`. -/
def lateFebruary : Stamp where
  date := ⟨⟨['2', '0', '2', '4'], by decide, rfl⟩, ⟨['0', '2'], by decide, rfl⟩,
    ⟨['2', '9'], by decide, rfl⟩⟩
  clock := ⟨⟨['2', '3'], by decide, rfl⟩, ⟨['5', '9'], by decide, rfl⟩, ⟨['6', '0'], by decide, rfl⟩⟩

/-- `2024-03-01 00:00:00`. -/
def earlyMarch : Stamp where
  date := ⟨⟨['2', '0', '2', '4'], by decide, rfl⟩, ⟨['0', '3'], by decide, rfl⟩,
    ⟨['0', '1'], by decide, rfl⟩⟩
  clock := ⟨⟨['0', '0'], by decide, rfl⟩, ⟨['0', '0'], by decide, rfl⟩, ⟨['0', '0'], by decide, rfl⟩⟩

/-- A leap second at the end of a leap day is before the day after it, as text and in time. -/
theorem lateFebruary_is_less :
    ∃ t u, Instant.read? lateFebruary.text = some t ∧ Instant.read? earlyMarch.text = some u ∧
      Cell.compare .lessThan lateFebruary.cell earlyMarch.cell = .ok true ∧
      Cell.compare .lessThan (.of (.timestamp t)) earlyMarch.cell = .ok true ∧ t ≠ u := by
  have left : Instant.read? lateFebruary.text =
      some ⟨1709251199, 1000000000, by decide, by decide, by decide, by decide⟩ := by rfl
  have right : Instant.read? earlyMarch.text =
      some ⟨1709251200, 0, by decide, by decide, by decide, by decide⟩ := by rfl
  obtain ⟨-, answers, distinct⟩ := stamps_follow_time left right
  obtain ⟨b, holds, texts, -, mixed, -⟩ := answers .lessThan
  refine ⟨_, _, left, right, ?_, ?_, distinct (by decide)⟩
  · rw [texts, holds]
    rfl
  · rw [mixed, holds]
    rfl

end Stamp

end RowFilter.Time
