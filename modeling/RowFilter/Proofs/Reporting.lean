import RowFilter.Proofs.Scanning

/-!
# Proofs.Reporting — what a run shows of its scan

A run that scans an input ends in one of two ways.  Where no line fails it ends with 0, and logs how
many of the considered lines it has printed (`Finished`).  Otherwise it ends with 1 at the first line
that fails, has printed what matched before, and says which line that is (`Stopped`).  Messages on plans
may stand before either, and none of them can be taken for a count.
-/

namespace RowFilter.Command

set_option autoImplicit false

/-! ## Lines of messages -/

/-- What is logged of a scan: how many of how many rows are kept. -/
def countText (kept considered : Nat) : String :=
  "Kept " ++ toString kept ++ " of " ++ toString considered ++ " rows"

theorem newline_not_mem_digits (n : Nat) : '\n' ∉ Nat.toDigits 10 n :=
  fun mem => (Text.digits_digits n).ne mem (by decide) rfl

namespace Problem

/-- A text without newlines is one line. -/
theorem linesOf_of_not_mem {s : String} (h : '\n' ∉ s.toList) : linesOf s = [s] := by
  simp [linesOf, Text.split_of_not_mem h]

theorem linesOf_countText (kept considered : Nat) :
    linesOf (countText kept considered) = [countText kept considered] := by
  apply linesOf_of_not_mem
  simp [countText, newline_not_mem_digits]

/-- The first line of a text starts as the text does. -/
theorem head_linesOf {s : String} {c : Char} (other : c ≠ '\n') (starts : s.toList.head? = some c) :
    ((linesOf s).headD "").toList.head? = some c := by
  obtain ⟨rest, text⟩ := List.head?_eq_some_iff.mp starts
  rw [linesOf, text, Text.split, if_neg other]
  cases Text.split '\n' rest <;> simp

theorem render_line (number : Nat) (fault : Fault) :
    (line number fault).render =
      ("Error: Line " ++ toString number) :: "" :: "Caused by:" ::
        indented (linesOf fault.message) := by
  have headline : linesOf ("Error: Line " ++ toString number) = ["Error: Line " ++ toString number] := by
    apply linesOf_of_not_mem
    simp [newline_not_mem_digits]
  have joined : "Error: " ++ ("Line " ++ toString number) = "Error: Line " ++ toString number := by
    rw [← String.append_assoc]
    simp
  have worded : (line number fault).wording = ("Line " ++ toString number, some fault.message) := rfl
  unfold render
  rw [worded]
  simp only [joined, headline, List.cons_append, List.nil_append]

end Problem

/-! ## Messages on plans -/

/-- A message on the debugging level that starts as no count does. -/
def Message.Plain (m : Message) : Prop :=
  ∃ text c, m = .log .debug text ∧ text.toList.head? = some c ∧ c ≠ '\n' ∧ c ≠ 'K'

/-- No entry is a count, on any level. -/
def Uncounted (log : List (Level × String)) : Prop :=
  ∀ level kept considered, (level, countText kept considered) ∉ log

section Messages

variable {o : Options} {e : Expr}

theorem plain_of_debugging {text : String} {c : Char} (starts : text.toList.head? = some c)
    (line : c ≠ '\n') (other : c ≠ 'K') : ∀ m ∈ debugging o text, m.Plain := by
  unfold debugging
  split
  · simpa using ⟨text, c, rfl, starts, line, other⟩
  · simp

theorem plain_of_loadMessages : ∀ m ∈ loadMessages o e, m.Plain := by
  unfold loadMessages
  split
  · exact plain_of_debugging (c := 'L') (by simp) (by decide) (by decide)
  · simp

theorem plain_of_saveMessages : ∀ m ∈ saveMessages o e, m.Plain := by
  unfold saveMessages
  split
  · exact plain_of_debugging (c := 'W') (by simp) (by decide) (by decide)
  · simp

end Messages

namespace Report

variable {exit : Nat} {output : String} {messages : List Message} {files : Files}

theorem uncounted_of_plain (plain : ∀ m ∈ messages, m.Plain) :
    Uncounted (Report.mk exit output messages files).log := by
  intro level kept considered mem
  obtain ⟨m, mem, shown⟩ := List.mem_filterMap.mp mem
  obtain ⟨text, c, rfl, starts, line, other⟩ := plain m mem
  have head := Problem.head_linesOf line starts
  simp only [Option.some.injEq, Prod.mk.injEq] at shown
  rw [shown.2] at head
  simp [countText] at head
  exact other head.symm

theorem log_append_count (kept considered : Nat) :
    (Report.mk exit output (messages ++ [.log .info (countText kept considered)]) files).log =
      (Report.mk exit output messages files).log ++ [(.info, countText kept considered)] := by
  simp [log, Problem.linesOf_countText]

theorem log_failed (p : Problem) :
    (failed files output messages p).log = (Report.mk 1 output messages files).log := by
  simp [failed, log]

theorem errors_failed (p : Problem) :
    (failed files output messages p).errors =
      (Report.mk 1 output messages files).errors ++ p.render := by
  simp [failed, errors]

end Report

/-! ## Runs -/

/-- The run went through all lines: no line fails, the lines considered whose rows match are printed,
which are those that the filter selects from the rows, and the last message counts them. -/
structure Finished (scanner : Scanner) (lines : List Bytes) (report : Report) : Prop where
  clean : scanner.Clean 1 lines
  exit : report.exit = 0
  output : report.output =
    printed ((scanner.considered 1 lines).filter scanner.accepts)
  selected : ∃ rows numbers,
    List.Forall₂ (fun line row => Row.read line scanner.delimiter scanner.schema = .ok row)
      (scanner.considered 1 lines) rows ∧
    scanner.filter.select rows = .ok numbers ∧
    (scanner.considered 1 lines).filter scanner.accepts =
      numbers.filterMap ((scanner.considered 1 lines)[·]?)
  log : ∃ earlier, Uncounted earlier ∧
    report.log = earlier ++ [(.info, countText
      ((scanner.considered 1 lines).filter scanner.accepts).length
      (scanner.considered 1 lines).length)]

/-- The run came to the line behind some that do not fail, which fails with the problem: the lines
before it whose rows match are printed, nothing is counted, and a fault of the row is shown with the
number of the line. -/
structure Stopped (scanner : Scanner) (before : List Bytes) (bytes : Bytes) (p : Problem)
    (report : Report) : Prop where
  clean : scanner.Clean 1 before
  fails : scanner.Fails (before.length + 1) bytes p
  exit : report.exit = 1
  output : report.output = printed ((scanner.considered 1 before).filter scanner.accepts)
  log : Uncounted report.log
  errors : ∃ earlier, report.errors = earlier ++ p.render
  headline : p ≠ .notText → ∃ fault : Fault, p = .line (before.length + 1) fault ∧
    p.render = ("Error: Line " ++ toString (before.length + 1)) :: "" :: "Caused by:" ::
      Problem.indented (Problem.linesOf fault.message)

/-- The report is what the lines come to. -/
def Reports (scanner : Scanner) (lines : List Bytes) (report : Report) : Prop :=
  Finished scanner lines report ∨
    ∃ before bytes after p, lines = before ++ bytes :: after ∧
      Stopped scanner before bytes p report

section Runs

variable {scanner : Scanner} {files : Files} {messages : List Message}

theorem finished_of_clean {lines : List Bytes} (clean : scanner.Clean 1 lines)
    (plain : ∀ m ∈ messages, m.Plain) :
    (scanner.scanFrom 1 lines).problem = none ∧
      Finished scanner lines ⟨0, printed (scanner.scanFrom 1 lines).kept,
        messages ++ [countMessage (scanner.scanFrom 1 lines)], files⟩ := by
  have scanned : scanner.scanFrom 1 lines =
      ⟨(scanner.considered 1 lines).filter scanner.accepts,
        (scanner.considered 1 lines).length, none⟩ := by
    have all := Scanner.scanFrom_append clean []
    simpa [Scan.behind, Scanner.scanFrom] using all
  obtain ⟨rows, decided⟩ := Scanner.rows_of_clean clean
  obtain ⟨numbers, selected, picked⟩ :=
    Filter.select_of_decided (decided.imp fun _ _ both => both.2)
  rw [scanned]
  refine ⟨rfl, clean, rfl, rfl, ⟨rows, numbers, ?_, selected, picked.symm⟩, ?_⟩
  · exact decided.imp fun _ _ both => both.1
  · exact ⟨_, Report.uncounted_of_plain plain, Report.log_append_count _ _⟩

theorem stopped_of_fails {before after : List Bytes} {bytes : Bytes} {p : Problem}
    (clean : scanner.Clean 1 before) (fails : scanner.Fails (before.length + 1) bytes p)
    (plain : ∀ m ∈ messages, m.Plain) :
    (scanner.scanFrom 1 (before ++ bytes :: after)).problem = some p ∧
      Stopped scanner before bytes p
        (.failed files (printed (scanner.scanFrom 1 (before ++ bytes :: after)).kept) messages p) := by
  have scanned : scanner.scanFrom 1 (before ++ bytes :: after) =
      ⟨(scanner.considered 1 before).filter scanner.accepts,
        (scanner.considered 1 before).length, some p⟩ := by
    rw [Scanner.scanFrom_append clean, Nat.add_comm, Scanner.scanFrom_of_fails fails]
    simp [Scan.behind]
  rw [scanned]
  refine ⟨rfl, clean, fails, rfl, rfl, ?_, ⟨_, Report.errors_failed p⟩, ?_⟩
  · rw [Report.log_failed]
    exact Report.uncounted_of_plain plain
  · intro other
    cases fails with
    | notText => exact absurd rfl other
    | noRow => exact ⟨_, rfl, Problem.render_line _ _⟩
    | undecided => exact ⟨_, rfl, Problem.render_line _ _⟩

theorem reports_of_runScan {o : Options} {schema : Schema} {f : Filter} {stdin input : Bytes}
    (given : inputBytes o files stdin = .ok input) (plain : ∀ m ∈ messages, m.Plain) :
    Reports ⟨schema, f, o.delimiter, o.skipHeader⟩ (inputLines input)
      (runScan o files stdin schema f messages) := by
  simp only [runScan, given, Scanner.scan]
  rcases Scanner.clean_or_first_fails ⟨schema, f, o.delimiter, o.skipHeader⟩ 1 (inputLines input) with
    clean | ⟨before, bytes, after, p, lines, clean, fails⟩
  · obtain ⟨none, finished⟩ := finished_of_clean clean plain
    rw [none]
    exact .inl finished
  · rw [Nat.add_comm] at fails
    obtain ⟨found, stopped⟩ := stopped_of_fails clean fails plain
    rw [lines, found]
    exact .inr ⟨before, bytes, after, p, rfl, stopped⟩

end Runs

/-- **A run prints the rows that its filter selects, up to the first line that fails.**  The lines of
its input are the pieces between newlines, without a carriage return where a newline ends them. -/
theorem run_reports_selection {o : Options} {files saved : Files} {stdin input : Bytes}
    {schema : Schema} {e : Expr} {f : Filter} (schemaRead : readSchema o.schema = .ok schema)
    (made : givenTree o files schema = .ok e) (fits : Filter.ofSchema schema e = .ok f)
    (save : savedFiles o files f.expr = .ok saved) (scanning : o.explain = false)
    (given : inputBytes o saved stdin = .ok input) :
    Reports ⟨schema, f, o.delimiter, o.skipHeader⟩ (linesOfPieces (input.splitOn newline))
      (run o files stdin) := by
  rw [← inputLines_eq]
  simp only [run, schemaRead, made, fits, runFilter, save, scanning]
  apply reports_of_runScan given
  intro m mem
  exact (List.mem_append.mp mem).elim (plain_of_loadMessages m) (plain_of_saveMessages m)

/-- Integers above 1, read without the header. -/
def aboveOne : Options := ⟨"int", ["0:gt:1"], none, none, none, ',', true, false, false⟩

def aboveOneTree : Expr :=
  .comparison .greaterThan (.column ⟨0, .integer, none⟩) (.ofValue (.integer 1))

/-- A header, `2` with a carriage return, a blank, `1`, `x` and `3`. -/
def sixLines : Bytes := [104, 10, 50, 13, 10, 32, 10, 49, 10, 120, 10, 51]

theorem aboveOne_stops_at_word :
    readSchema aboveOne.schema = .ok [.integer] ∧
      givenTree aboveOne ⟨[], []⟩ [.integer] = .ok aboveOneTree ∧
      Filter.ofSchema [.integer] aboveOneTree = .ok ⟨aboveOneTree⟩ ∧
      savedFiles aboveOne ⟨[], []⟩ aboveOneTree = .ok ⟨[], []⟩ ∧
      inputBytes aboveOne ⟨[], []⟩ sixLines = .ok sixLines ∧
      (run aboveOne ⟨[], []⟩ sixLines).output = "2\n" ∧
      ∃ before bytes after p,
        linesOfPieces (sixLines.splitOn newline) = before ++ bytes :: after ∧
          Stopped ⟨[.integer], ⟨aboveOneTree⟩, ',', true⟩ before bytes p
            (run aboveOne ⟨[], []⟩ sixLines) := by
  have made : givenTree aboveOne ⟨[], []⟩ [.integer] = .ok aboveOneTree := rfl
  have fits : Filter.ofSchema [.integer] aboveOneTree = .ok ⟨aboveOneTree⟩ := rfl
  have save : savedFiles aboveOne ⟨[], []⟩ aboveOneTree = .ok ⟨[], []⟩ := rfl
  have given : inputBytes aboveOne ⟨[], []⟩ sixLines = .ok sixLines := rfl
  refine ⟨rfl, made, fits, save, given, rfl, ?_⟩
  apply (run_reports_selection rfl made fits save rfl given).resolve_left
  intro finished
  exact absurd finished.exit (by decide)

/-- `1` and a carriage return, without a newline. -/
def looseReturn : Bytes := [49, 13]

/-- Integers equal to 1. -/
def equalOne : Options := ⟨"int", ["0:eq:1"], none, none, none, ',', false, false, false⟩

def equalOneTree : Expr :=
  .comparison .equals (.column ⟨0, .integer, none⟩) (.ofValue (.integer 1))

/-- A carriage return that no newline follows stays: it does not go with every piece. -/
theorem looseReturn_stays :
    readSchema equalOne.schema = .ok [.integer] ∧
      givenTree equalOne ⟨[], []⟩ [.integer] = .ok equalOneTree ∧
      Filter.ofSchema [.integer] equalOneTree = .ok ⟨equalOneTree⟩ ∧
      savedFiles equalOne ⟨[], []⟩ equalOneTree = .ok ⟨[], []⟩ ∧ equalOne.explain = false ∧
      inputBytes equalOne ⟨[], []⟩ looseReturn = .ok looseReturn ∧
      (run equalOne ⟨[], []⟩ looseReturn).output = "1\r\n" ∧
      ¬ Reports ⟨[.integer], ⟨equalOneTree⟩, ',', false⟩
        ((looseReturn.splitOn newline).map dropReturn) (run equalOne ⟨[], []⟩ looseReturn) := by
  refine ⟨rfl, rfl, rfl, rfl, rfl, rfl, rfl, ?_⟩
  rintro (finished | ⟨before, bytes, after, p, -, stopped⟩)
  · exact absurd finished.output (by decide)
  · exact absurd stopped.exit (by decide)

end RowFilter.Command
