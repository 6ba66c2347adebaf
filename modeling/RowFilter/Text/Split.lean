/-!
# Text.Split — parts of a text between separators

`split` has one part more than there are separators, so parts may be empty and `join` undoes it.
-/

namespace RowFilter.Text

set_option autoImplicit false

/-- The parts between the separators. -/
def split (separator : Char) : List Char → List (List Char)
  | [] => [[]]
  | c :: rest =>
    if c = separator then [] :: split separator rest
    else
      match split separator rest with
      | [] => [[c]]
      | part :: more => (c :: part) :: more

/-- The parts with the separator between them. -/
def join (separator : Char) : List (List Char) → List Char
  | [] => []
  | [part] => part
  | part :: more => part ++ separator :: join separator more

theorem split_ne_nil (separator : Char) (s : List Char) : split separator s ≠ [] := by
  cases s with
  | nil => simp [split]
  | cons c rest =>
    simp only [split]
    split
    · simp
    · split <;> simp

/-- Splitting loses nothing. -/
theorem join_split (separator : Char) (s : List Char) : join separator (split separator s) = s := by
  induction s with
  | nil => rfl
  | cons c rest ih =>
    simp only [split]
    cases h : split separator rest with
    | nil => exact absurd h (split_ne_nil separator rest)
    | cons part more =>
      rw [h] at ih
      split
      · subst c
        simp [join, ih]
      · cases more with
        | nil => simpa [join] using ih
        | cons next more => simpa [join] using ih

theorem split_of_not_mem {separator : Char} {s : List Char} (h : separator ∉ s) :
    split separator s = [s] := by
  induction s with
  | nil => rfl
  | cons c rest ih =>
    simp only [List.mem_cons, not_or] at h
    simp [split, Ne.symm h.1, ih h.2]

end RowFilter.Text
