import RowFilter.Proofs.Evaluation
import Mathlib.Data.List.Forall2

/-!
# Proofs.Reading — what fields and lines are read as

A value is read from a field at the type that was asked for, or as null, whatever the field says.  So
a row that is read from a line fits its schema, column by column (`fits_of_read`).
-/

namespace RowFilter

set_option autoImplicit false

namespace Text

theorem split_append {separator : Char} {s : List Char} (h : separator ∉ s) (rest : List Char) :
    split separator (s ++ separator :: rest) = s :: split separator rest := by
  induction s with
  | nil => simp [split]
  | cons c s ih =>
      simp only [List.mem_cons, not_or] at h
      rw [List.cons_append, split, if_neg (Ne.symm h.1), ih h.2]

theorem natural_of_readUnsigned {most : Nat} {fault : NumeralFault} {s : List Char} {f : Int → Int}
    {n : Int} (h : (readUnsigned most fault s >>= fun m => pure (m : Int)).map f = .ok n) :
    ∃ m : Nat, m ≤ most ∧ f m = n := by
  obtain ⟨_, lifted, same⟩ := map_eq_ok.mp h
  obtain ⟨m, read, natural⟩ := bind_eq_ok.mp lifted
  cases natural
  exact ⟨m, readUnsigned_le read, same⟩

theorem readInteger_bounds {lower upper n : Int} {s : List Char} (low : lower ≤ 0) (up : 0 ≤ upper)
    (h : readInteger lower upper s = .ok n) : lower ≤ n ∧ n ≤ upper := by
  unfold readInteger at h
  split at h
  · cases h
  · obtain ⟨m, le, rfl⟩ := natural_of_readUnsigned h
    omega
  · split at h
    · obtain ⟨m, le, rfl⟩ := natural_of_readUnsigned h
      omega
    · cases h
  · obtain ⟨m, le, rfl⟩ := natural_of_readUnsigned h
    omega

end Text

namespace Value

theorem type_of_readContent {s : List Char} {t : ColumnType} {v : Value}
    (h : readContent s t = .ok v) : v.type = t := by
  cases t with
  | null => cases h
  | integer | long | decimal =>
      obtain ⟨_, -, rfl⟩ := map_eq_ok.mp (mapError_eq_ok.mp h)
      rfl
  | string =>
      cases h
      rfl
  | boolean | double | timestamp =>
      simp only [readContent] at h
      split at h
      · cases h
        rfl
      · cases h

/-- A field is read as null or at the type that was asked for. -/
theorem fits_of_read {field : List Char} {t : ColumnType} {v : Value} (h : read field t = .ok v) :
    v.fits t = true := by
  simp only [read] at h
  split at h
  · cases h
    rfl
  · exact fits_iff.mpr (.inr (type_of_readContent (mapError_eq_ok.mp h)))

end Value

namespace Row

theorem forall₂_of_readFields {fields : List (List Char)} {schema : Schema} {row : Row}
    (same : fields.length = schema.length) (h : readFields fields schema = .ok row) :
    List.Forall₂ (fun v t => Value.fits v t = true) row schema := by
  induction fields generalizing schema row with
  | nil =>
      cases schema with
      | nil => cases h; exact .nil
      | cons => cases same
  | cons field fields ih =>
      cases schema with
      | nil => cases same
      | cons t types =>
          simp only [readFields, bind_eq_ok] at h
          obtain ⟨v, first, row, rest, done⟩ := h
          cases done
          exact .cons (Value.fits_of_read first) (ih (Nat.succ.inj same) rest)

/-- A row that is read from a line fits the schema. -/
theorem fits_of_read {line : List Char} {delimiter : Char} {schema : Schema} {row : Row}
    (h : read line delimiter schema = .ok row) : row.Fits schema := by
  simp only [read] at h
  split at h
  · rename_i same
    have all := forall₂_of_readFields same (mapError_eq_ok.mp h)
    intro i t found
    obtain ⟨lt, rfl⟩ := List.getElem?_eq_some_iff.mp found
    have inside : i < row.length := all.length_eq ▸ lt
    exact ⟨row[i], List.getElem?_eq_getElem inside, all.get inside lt⟩
  · cases h

end Row

end RowFilter
