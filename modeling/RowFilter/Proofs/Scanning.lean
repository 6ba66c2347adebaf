import RowFilter.Command.Run
import RowFilter.Proofs.Lines
import RowFilter.Proofs.Numeral
import RowFilter.Proofs.Selection

/-!
# Proofs.Scanning — a scan is a selection from the lines of the input

A line alone says whether it fails, is passed over, or is read as a row and decided (`line_cases`).  A
scan adds up what its lines come to until one fails (`scanFrom_append`).  So a run prints the lines whose
rows match among those before the first line that fails; where none fails, these are the lines that the
filter selects from the rows of the input, and their number is logged.
-/

namespace RowFilter.Command

set_option autoImplicit false

/-! ## Single lines -/

namespace Scanner

/-- The line is one for the filter: it is not blank, nor the header that is to be skipped. -/
def Considers (scanner : Scanner) (number : Nat) (line : List Char) : Prop :=
  Text.trim line ≠ [] ∧ ¬ (scanner.skipHeader = true ∧ number = 1)

instance (scanner : Scanner) (number : Nat) (line : List Char) :
    Decidable (scanner.Considers number line) :=
  inferInstanceAs (Decidable (_ ∧ _))

/-- Whether the line is read as a row that matches. -/
def accepts (scanner : Scanner) (line : List Char) : Bool :=
  match Row.read line scanner.delimiter scanner.schema with
  | .error _ => false
  | .ok row =>
    match scanner.filter.keeps row with
    | .error _ => false
    | .ok kept => kept

/-- Why the line with the number fails: it is no text, it is to be considered and is no row, or its row
cannot be decided. -/
inductive Fails (scanner : Scanner) (number : Nat) (bytes : Bytes) : Problem → Prop where
  | notText {fault : Text.Utf8.Fault} (text : Text.Utf8.decode bytes = .error fault) :
    Fails scanner number bytes .notText
  | noRow {line : List Char} {fault : Row.Fault} (text : Text.Utf8.decode bytes = .ok line)
    (considered : scanner.Considers number line)
    (read : Row.read line scanner.delimiter scanner.schema = .error fault) :
    Fails scanner number bytes (.line number (.malformedRow fault))
  | undecided {line : List Char} {row : Row} {fault : Fault}
    (text : Text.Utf8.decode bytes = .ok line) (considered : scanner.Considers number line)
    (read : Row.read line scanner.delimiter scanner.schema = .ok row)
    (failed : scanner.filter.keeps row = .error fault) :
    Fails scanner number bytes (.line number fault)

/-- The text of a numbered line that is considered. -/
def considered? (scanner : Scanner) (line : Bytes × Nat) : Option (List Char) :=
  match Text.Utf8.decode line.1 with
  | .error _ => none
  | .ok text => if scanner.Considers line.2 text then some text else none

/-- The texts of the lines considered, the first line having the number. -/
def considered (scanner : Scanner) (number : Nat) (lines : List Bytes) : List (List Char) :=
  (lines.zipIdx number).filterMap scanner.considered?

/-- No line fails, the first one having the number. -/
def Clean (scanner : Scanner) (number : Nat) (lines : List Bytes) : Prop :=
  ∀ line ∈ lines.zipIdx number, ∀ p, ¬ scanner.Fails line.2 line.1 p

section Line

variable {scanner : Scanner} {number : Nat} {line : List Char} {bytes : Bytes}

theorem passes_iff : scanner.passes number line = true ↔ ¬ scanner.Considers number line := by
  simp only [passes, Considers, Bool.or_eq_true, Bool.and_eq_true, List.isEmpty_iff, beq_iff_eq]
  tauto

theorem passes_of_considers (taken : scanner.Considers number line) :
    scanner.passes number line = false :=
  Bool.eq_false_iff.mpr fun passed => passes_iff.mp passed taken

/-- A line fails, or it is passed over, or it is read as a row that is decided. -/
theorem line_cases (scanner : Scanner) (number : Nat) (bytes : Bytes) :
    (∃ p, scanner.Fails number bytes p) ∨
      ∃ line, Text.Utf8.decode bytes = .ok line ∧
        (¬ scanner.Considers number line ∨ scanner.Considers number line ∧
          ∃ row, Row.read line scanner.delimiter scanner.schema = .ok row ∧
            scanner.filter.keeps row = .ok (scanner.accepts line)) := by
  cases text : Text.Utf8.decode bytes with
  | error fault => exact .inl ⟨_, .notText text⟩
  | ok line =>
      by_cases considered : scanner.Considers number line
      · cases read : Row.read line scanner.delimiter scanner.schema with
        | error fault => exact .inl ⟨_, .noRow text considered read⟩
        | ok row =>
            cases decided : scanner.filter.keeps row with
            | error fault => exact .inl ⟨_, .undecided text considered read decided⟩
            | ok kept =>
                refine .inr ⟨line, rfl, .inr ⟨considered, row, read, ?_⟩⟩
                simp [accepts, read, decided]
      · exact .inr ⟨line, rfl, .inl considered⟩

theorem considered_cons (bytes : Bytes) (more : List Bytes) :
    scanner.considered number (bytes :: more) =
      scanner.considered number [bytes] ++ scanner.considered (number + 1) more := by
  simp only [considered, List.zipIdx_cons, List.zipIdx_nil]
  rw [← List.filterMap_append, List.singleton_append]

theorem considered_of_passed (text : Text.Utf8.decode bytes = .ok line)
    (passed : ¬ scanner.Considers number line) : scanner.considered number [bytes] = [] := by
  simp [considered, considered?, text, passed]

theorem considered_of_considers (text : Text.Utf8.decode bytes = .ok line)
    (taken : scanner.Considers number line) : scanner.considered number [bytes] = [line] := by
  simp [considered, considered?, text, taken]

theorem clean_cons {more : List Bytes} : scanner.Clean number (bytes :: more) ↔
    (∀ p, ¬ scanner.Fails number bytes p) ∧ scanner.Clean (number + 1) more := by
  simp only [Clean, List.zipIdx_cons, List.forall_mem_cons]

end Line

end Scanner

/-! ## Scans -/

/-- The scan with lines kept, and a number of lines considered, before it. -/
def Scan.behind (kept : List (List Char)) (considered : Nat) (scan : Scan) : Scan :=
  ⟨kept ++ scan.kept, considered + scan.considered, scan.problem⟩

namespace Scanner

section Scans

variable {scanner : Scanner} {number : Nat} {bytes : Bytes}

/-- The first line that fails ends a scan. -/
theorem scanFrom_of_fails {p : Problem} (h : scanner.Fails number bytes p) (more : List Bytes) :
    scanner.scanFrom number (bytes :: more) = ⟨[], 0, some p⟩ := by
  cases h with
  | notText text => simp only [scanFrom, text]
  | noRow text considered read => simp [scanFrom, text, passes_of_considers considered, keeps, read]
  | undecided text considered read failed =>
      simp [scanFrom, text, passes_of_considers considered, keeps, read, failed]

/-- A line that does not fail goes before the scan of the others. -/
theorem scanFrom_of_not_fails (h : ∀ p, ¬ scanner.Fails number bytes p) (more : List Bytes) :
    scanner.scanFrom number (bytes :: more) =
      (scanner.scanFrom (number + 1) more).behind
        ((scanner.considered number [bytes]).filter scanner.accepts)
        (scanner.considered number [bytes]).length := by
  rcases line_cases scanner number bytes with ⟨p, fails⟩ | ⟨line, text, passed | ⟨taken, row, read, decided⟩⟩
  · exact absurd fails (h p)
  · rw [considered_of_passed text passed]
    simp [scanFrom, text, passes_iff.mpr passed, Scan.behind]
  · rw [considered_of_considers text taken]
    simp only [scanFrom, text, passes_of_considers taken, keeps, read, decided, Scan.behind]
    cases kept : scanner.accepts line <;> simp [kept, Nat.add_comm]

theorem scanFrom_append {before : List Bytes} (clean : scanner.Clean number before)
    (rest : List Bytes) :
    scanner.scanFrom number (before ++ rest) =
      (scanner.scanFrom (number + before.length) rest).behind
        ((scanner.considered number before).filter scanner.accepts)
        (scanner.considered number before).length := by
  -- The number of the first line varies, since a header is told by it.
  induction before generalizing number with
  | nil => simp [considered, Scan.behind]
  | cons bytes more ih =>
      obtain ⟨first, others⟩ := clean_cons.mp clean
      rw [List.cons_append, scanFrom_of_not_fails first, ih others, considered_cons bytes more]
      simp [Scan.behind, Nat.add_assoc, Nat.add_comm 1]

/-- Either no line fails, or there is a first one that does. -/
theorem clean_or_first_fails (scanner : Scanner) (number : Nat) (lines : List Bytes) :
    scanner.Clean number lines ∨ ∃ before bytes after p, lines = before ++ bytes :: after ∧
      scanner.Clean number before ∧ scanner.Fails (number + before.length) bytes p := by
  induction lines generalizing number with
  | nil => exact .inl (by simp [Clean])
  | cons bytes more ih =>
      by_cases fails : ∃ p, scanner.Fails number bytes p
      · obtain ⟨p, fails⟩ := fails
        exact .inr ⟨[], bytes, more, p, rfl, by simp [Clean], fails⟩
      · rw [not_exists] at fails
        rcases ih (number + 1) with clean | ⟨before, other, after, p, rfl, clean, last⟩
        · exact .inl (clean_cons.mpr ⟨fails, clean⟩)
        · refine .inr ⟨bytes :: before, other, after, p, rfl, clean_cons.mpr ⟨fails, clean⟩, ?_⟩
          rwa [List.length_cons, Nat.add_comm before.length, ← Nat.add_assoc]

/-- Where no line fails, the lines considered are read as rows, all decided. -/
theorem rows_of_clean {lines : List Bytes} (clean : scanner.Clean number lines) :
    ∃ rows, List.Forall₂ (fun line row =>
      Row.read line scanner.delimiter scanner.schema = .ok row ∧
        scanner.filter.keeps row = .ok (scanner.accepts line)) (scanner.considered number lines) rows := by
  induction lines generalizing number with
  | nil => exact ⟨[], .nil⟩
  | cons bytes more ih =>
      obtain ⟨first, others⟩ := clean_cons.mp clean
      obtain ⟨rows, all⟩ := ih others
      rw [considered_cons]
      rcases line_cases scanner number bytes with
        ⟨p, fails⟩ | ⟨line, text, passed | ⟨taken, row, read, decided⟩⟩
      · exact absurd fails (first p)
      · rw [considered_of_passed text passed]
        exact ⟨rows, all⟩
      · rw [considered_of_considers text taken]
        exact ⟨row :: rows, .cons ⟨read, decided⟩ all⟩

end Scans

end Scanner

end RowFilter.Command
