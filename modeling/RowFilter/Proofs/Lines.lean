import RowFilter.Command.Scan

/-!
# Proofs.Lines — the lines of an input

The lines are the pieces between the newlines.  A piece that a newline ends loses a carriage return at
its end.  The piece behind the last newline is a line as it stands, and none if it is empty.
-/

namespace RowFilter.Command

set_option autoImplicit false

def newline : UInt8 := 10

def carriageReturn : UInt8 := 13

/-- The line without a carriage return at its end, if there is one. -/
def dropReturn (line : Bytes) : Bytes :=
  if line.getLast? = some carriageReturn then line.dropLast else line

/-- The lines of an input by its pieces between newlines. -/
def linesOfPieces : List Bytes → List Bytes
  | [] => []
  | [rest] => if rest.isEmpty then [] else [rest]
  | piece :: next :: more => dropReturn piece :: linesOfPieces (next :: more)

theorem dropReturn_cons {b : UInt8} {line : Bytes} (h : line = [] → b ≠ carriageReturn) :
    dropReturn (b :: line) = b :: dropReturn line := by
  cases line with
  | nil => simp [dropReturn, h rfl]
  | cons c more =>
      unfold dropReturn
      rw [List.getLast?_cons_cons]
      split <;> simp

theorem linesOfPieces_cons (piece : Bytes) {pieces : List Bytes} (ne : pieces ≠ []) :
    linesOfPieces (piece :: pieces) = dropReturn piece :: linesOfPieces pieces := by
  obtain ⟨next, more, rfl⟩ := List.exists_cons_of_ne_nil ne
  rfl

section Split

variable (input : Bytes)

theorem splitOn_newline_cons :
    (newline :: input).splitOn newline = [] :: input.splitOn newline := by
  simp [List.splitOn_cons_eq_if_modifyHead]

theorem splitOn_cons_of_ne {b : UInt8} (other : b ≠ newline) :
    (b :: input).splitOn newline = (input.splitOn newline).modifyHead (b :: ·) := by
  simp [List.splitOn_cons_eq_if_modifyHead, other]

end Split

/-- A byte that ends no line goes to the front of the first one. -/
theorem linesOfPieces_modifyHead {b : UInt8} {pieces : List Bytes} (ne : pieces ≠ [])
    (h : ∀ next more, pieces = [] :: next :: more → b ≠ carriageReturn) :
    linesOfPieces (pieces.modifyHead (b :: ·)) =
      match linesOfPieces pieces with
      | [] => [[b]]
      | line :: more => (b :: line) :: more := by
  cases pieces with
  | nil => exact absurd rfl ne
  | cons piece pieces =>
      cases pieces with
      | nil => cases piece <;> rfl
      | cons next more =>
          -- The byte would be dropped only if the newline came right behind it.
          have kept : piece = [] → b ≠ carriageReturn := by
            rintro rfl
            exact h next more rfl
          show dropReturn (b :: piece) :: _ = _
          rw [dropReturn_cons kept]
          rfl

/-- Only a newline makes an empty first piece with others behind it. -/
theorem starts_of_splitOn {input next : Bytes} {more : List Bytes}
    (h : input.splitOn newline = [] :: next :: more) : ∃ rest, input = newline :: rest := by
  cases input with
  | nil => simp at h
  | cons b rest =>
      by_cases ends : b = newline
      · exact ⟨rest, by rw [ends]⟩
      · rw [splitOn_cons_of_ne _ ends] at h
        obtain ⟨piece, pieces, split⟩ := List.exists_cons_of_ne_nil (List.splitOn_ne_nil newline rest)
        rw [split] at h
        cases h

theorem linesOfPieces_splitOn_cons {b : UInt8} {rest : Bytes} (other : b ≠ newline)
    (h : ∀ more, b = carriageReturn → rest ≠ newline :: more) :
    linesOfPieces ((b :: rest).splitOn newline) =
      match linesOfPieces (rest.splitOn newline) with
      | [] => [[b]]
      | line :: more => (b :: line) :: more := by
  rw [splitOn_cons_of_ne _ other]
  refine linesOfPieces_modifyHead (List.splitOn_ne_nil _ _) ?_
  intro next more split ends
  obtain ⟨tail, starts⟩ := starts_of_splitOn split
  exact h tail ends starts

/-- The lines are those of the pieces between newlines. -/
theorem inputLines_eq (input : Bytes) :
    inputLines input = linesOfPieces (input.splitOn newline) := by
  fun_induction inputLines input with
  | case1 => rfl
  | case2 rest ih =>
      have pieces : (13 :: 10 :: rest).splitOn newline = [13] :: rest.splitOn newline := by
        rw [splitOn_cons_of_ne _ (by decide)]
        exact congrArg _ (splitOn_newline_cons rest)
      rw [pieces, linesOfPieces_cons _ (List.splitOn_ne_nil _ _), ih]
      rfl
  | case3 rest ih =>
      show _ = linesOfPieces ((newline :: rest).splitOn newline)
      rw [splitOn_newline_cons, linesOfPieces_cons _ (List.splitOn_ne_nil _ _), ih]
      rfl
  | case4 b rest inside notNewline empty ih =>
      rw [linesOfPieces_splitOn_cons notNewline inside, ← ih, empty]
  | case5 b rest inside notNewline line more h ih =>
      rw [linesOfPieces_splitOn_cons notNewline inside, ← ih, h]

end RowFilter.Command
