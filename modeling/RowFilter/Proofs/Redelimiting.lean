import RowFilter.Proofs.Delimiters
import RowFilter.Proofs.Reporting

/-!
# Proofs.Redelimiting — a run on the same input with another delimiter

Two inputs that differ only in the delimiter are scanned alike: line by line the same are considered,
kept and refused (`scanFrom_redelimited`), so the runs end alike and show the same
(`redelimited_run_is_parallel`).  The test for blank lines looks at a line before it is split, and is
the one place where the delimiter itself counts: a line of blank fields between blank delimiters is
passed over, while between others it is a row.
-/

namespace RowFilter.Command

set_option autoImplicit false

open Text (replace BlankAlike)

/-! ## Scans -/

/-- The scan with the new delimiter in the lines kept. -/
def Scan.redelimited (old new : Char) (scan : Scan) : Scan :=
  ⟨scan.kept.map (replace old new), scan.considered, scan.problem⟩

namespace Scanner

/-- The scanner with another delimiter. -/
def redelimited (s : Scanner) (delimiter : Char) : Scanner := { s with delimiter }

/-- Each line, but for a header that is skipped, is blank with both delimiters or with neither.  The
first line has the number. -/
def BlanksAlike (s : Scanner) (new : Char) (number : Nat) (lines : List Bytes) : Prop :=
  ∀ line ∈ lines.zipIdx number, ¬ (s.skipHeader = true ∧ line.2 = 1) →
    ∀ text, Text.Utf8.decode line.1 = .ok text → BlankAlike s.delimiter new text

section Lines

variable {s : Scanner} {new : Char} {number : Nat} {line : List Char} {bytes bytes' : Bytes}
  {lines lines' more : List Bytes} {p : Problem}

theorem blanksAlike_append : s.BlanksAlike new number (lines ++ more) ↔
    s.BlanksAlike new number lines ∧ s.BlanksAlike new (number + lines.length) more := by
  simp only [BlanksAlike, List.zipIdx_append, List.forall_mem_append]

theorem blanksAlike_cons : s.BlanksAlike new number (bytes :: more) ↔
    s.BlanksAlike new number [bytes] ∧ s.BlanksAlike new (number + 1) more :=
  @blanksAlike_append s new number [bytes] more

theorem keeps_replace (absent : new ∉ line) :
    (s.redelimited new).keeps (replace s.delimiter new line) = s.keeps line := by
  simp only [keeps, redelimited, Row.read_replace absent]

theorem considers_replace (blanks : s.BlanksAlike new number [Text.Utf8.encode line]) :
    (s.redelimited new).Considers number (replace s.delimiter new line) ↔
      s.Considers number line := by
  by_cases header : s.skipHeader = true ∧ number = 1
  · simp [Considers, redelimited, header]
  · have alike : BlankAlike s.delimiter new line :=
      blanks _ List.mem_cons_self header line (Text.Utf8.decode_encode line)
    simp only [Considers, redelimited, ne_eq, Text.trim_replace alike]

/-- The same lines are kept and considered, and the same problem is found, with another delimiter. -/
theorem scanFrom_redelimited (same : List.Forall₂ (Redelimited s.delimiter new) lines lines')
    (blanks : s.BlanksAlike new number lines) :
    (s.redelimited new).scanFrom number lines' =
      (s.scanFrom number lines).redelimited s.delimiter new := by
  induction same generalizing number with
  | nil => rfl
  | cons first others ih =>
      obtain ⟨now, later⟩ := blanksAlike_cons.mp blanks
      have rest := ih later
      cases first with
      | noText first second => simp only [scanFrom, first, second]; rfl
      | text line absent =>
          have passed : (s.redelimited new).passes number (replace s.delimiter new line) =
              s.passes number line := by
            rw [Bool.eq_iff_iff, passes_iff, passes_iff, considers_replace now]
          simp only [scanFrom, Text.Utf8.decode_encode, passed, keeps_replace absent, rest]
          split
          · rfl
          · cases s.keeps line with
            | error fault => rfl
            | ok kept => cases kept <;> rfl

theorem considered_redelimited (same : List.Forall₂ (Redelimited s.delimiter new) lines lines')
    (blanks : s.BlanksAlike new number lines) :
    (s.redelimited new).considered number lines' =
      (s.considered number lines).map (replace s.delimiter new) := by
  induction same generalizing number with
  | nil => rfl
  | @cons bytes bytes' more more' first others ih =>
      obtain ⟨now, later⟩ := blanksAlike_cons.mp blanks
      rw [considered_cons bytes', considered_cons bytes, ih later, List.map_append]
      congr 1
      cases first with
      | noText first second => simp [considered, considered?, first, second]
      | text line absent =>
          have text := Text.Utf8.decode_encode line
          have text' := Text.Utf8.decode_encode (replace s.delimiter new line)
          by_cases taken : s.Considers number line
          · rw [considered_of_considers text taken,
              considered_of_considers text' ((considers_replace now).mpr taken)]
            rfl
          · rw [considered_of_passed text taken,
              considered_of_passed text' (mt (considers_replace now).mp taken)]
            rfl

/-! ## Problems of scans -/

theorem fails_iff_problem : s.Fails number bytes p ↔ (s.scanFrom number [bytes]).problem = some p := by
  constructor
  · intro fails
    rw [scanFrom_of_fails fails]
  · intro found
    by_cases fails : ∃ q, s.Fails number bytes q
    · obtain ⟨q, fails⟩ := fails
      rw [scanFrom_of_fails fails] at found
      cases found
      exact fails
    · rw [scanFrom_of_not_fails (not_exists.mp fails)] at found
      cases found

theorem clean_iff_problem : s.Clean number lines ↔ (s.scanFrom number lines).problem = none := by
  constructor
  · intro clean
    have all := scanFrom_append clean []
    rw [List.append_nil] at all
    rw [all]
    rfl
  · intro none
    rcases clean_or_first_fails s number lines with
      clean | ⟨before, bytes, after, p, rfl, clean, fails⟩
    · exact clean
    · rw [scanFrom_append clean, scanFrom_of_fails fails] at none
      cases none

theorem fails_redelimited (same : Redelimited s.delimiter new bytes bytes')
    (blanks : s.BlanksAlike new number [bytes]) (fails : s.Fails number bytes p) :
    (s.redelimited new).Fails number bytes' p := by
  rw [fails_iff_problem] at fails ⊢
  rw [scanFrom_redelimited (.cons same .nil) blanks]
  exact fails

theorem clean_redelimited (same : List.Forall₂ (Redelimited s.delimiter new) lines lines')
    (blanks : s.BlanksAlike new number lines) (clean : s.Clean number lines) :
    (s.redelimited new).Clean number lines' := by
  rw [clean_iff_problem] at clean ⊢
  rw [scanFrom_redelimited same blanks]
  exact clean

end Lines

end Scanner

/-! ## Runs -/

/-- The run of the options gets as far as to scan the input, with the filter of the tree. -/
structure Scans (o : Options) (files : Files) (stdin : Bytes) (schema : Schema) (e : Expr)
    (f : Filter) (input : Bytes) : Prop where
  schemaRead : readSchema o.schema = .ok schema
  made : givenTree o files schema = .ok e
  fits : Filter.ofSchema schema e = .ok f
  scanning : o.explain = false
  given : ∃ saved, savedFiles o files f.expr = .ok saved ∧ inputBytes o saved stdin = .ok input

/-- The options with another delimiter, and an input from another place. -/
def Options.redelimited (o : Options) (delimiter : Char) (input : Option String) : Options :=
  { o with delimiter, input }

/-- What a run shows of its scan. -/
def Scan.report (scan : Scan) (files : Files) (messages : List Message) : Report :=
  match scan.problem with
  | some p => .failed files (printed scan.kept) messages p
  | none => ⟨0, printed scan.kept, messages ++ [countMessage scan], files⟩

/-- Both runs come to the end of their lines, or both stop at the line with the same number. -/
def Course (s : Scanner) (new : Char) (lines lines' : List Bytes) (report report' : Report) : Prop :=
  Finished s lines report ∧ Finished (s.redelimited new) lines' report' ∨
    ∃ before bytes after before' bytes' after' p, lines = before ++ bytes :: after ∧
      lines' = before' ++ bytes' :: after' ∧ before'.length = before.length ∧
      Stopped s before bytes p report ∧ Stopped (s.redelimited new) before' bytes' p report'

/-- Two runs with delimiters of their own go alike.  The same lines are considered, up to the
delimiter, and the runs end alike; they show the same messages, and print the same up to the
delimiter. -/
structure Parallel (s : Scanner) (new : Char) (lines lines' : List Bytes)
    (report report' : Report) : Prop where
  considered : ∀ n, (s.redelimited new).considered 1 (lines'.take n) =
    (s.considered 1 (lines.take n)).map (replace s.delimiter new)
  exit : report'.exit = report.exit
  messages : report'.messages = report.messages
  output : report'.output.toList = replace s.delimiter new report.output.toList
  course : Course s new lines lines' report report'

section Runs

variable {o : Options} {files : Files} {stdin input : Bytes} {schema : Schema} {e : Expr}
  {f : Filter} {s : Scanner} {new : Char} {lines lines' : List Bytes} {messages : List Message}

theorem run_of_scans (h : Scans o files stdin schema e f input) :
    ∃ saved, run o files stdin =
      (Scanner.scanFrom ⟨schema, f, o.delimiter, o.skipHeader⟩ 1
        (linesOfPieces (input.splitOn newline))).report saved
        (loadMessages o e ++ saveMessages o f.expr) := by
  obtain ⟨schemaRead, made, fits, scanning, saved, save, given⟩ := h
  refine ⟨saved, ?_⟩
  simp only [run, schemaRead, made, fits, runFilter, save, scanning, runScan, given, Scanner.scan,
    inputLines_eq, Scan.report]
  rfl

theorem printed_replace (other : s.delimiter ≠ '\n') (kept : List (List Char)) :
    (printed (kept.map (replace s.delimiter new))).toList =
      replace s.delimiter new (printed kept).toList := by
  simp only [printed, String.toList_ofList]
  induction kept with
  | nil => rfl
  | cons line kept ih =>
      rw [List.map_cons, List.flatMap_cons, List.flatMap_cons, ih]
      simp [replace, Ne.symm other]

theorem report_redelimited (other : s.delimiter ≠ '\n') (scan : Scan) (files files' : Files)
    (messages : List Message) :
    ((scan.redelimited s.delimiter new).report files' messages).exit =
        (scan.report files messages).exit ∧
      ((scan.redelimited s.delimiter new).report files' messages).messages =
        (scan.report files messages).messages ∧
      ((scan.redelimited s.delimiter new).report files' messages).output.toList =
        replace s.delimiter new (scan.report files messages).output.toList := by
  obtain ⟨kept, considered, problem⟩ := scan
  cases problem with
  | some p => exact ⟨rfl, rfl, printed_replace other kept⟩
  | none =>
      refine ⟨rfl, ?_, printed_replace other kept⟩
      simp [Scan.report, Scan.redelimited, countMessage]

theorem split_same {before after : List Bytes} {bytes : Bytes}
    (same : List.Forall₂ (Redelimited s.delimiter new) (before ++ bytes :: after) lines') :
    ∃ before' bytes' after', lines' = before' ++ bytes' :: after' ∧
      List.Forall₂ (Redelimited s.delimiter new) before before' ∧
      Redelimited s.delimiter new bytes bytes' := by
  have first := List.forall₂_take before.length same
  have second := List.forall₂_drop before.length same
  rw [List.take_left] at first
  rw [List.drop_left] at second
  cases rest : lines'.drop before.length with
  | nil => rw [rest] at second; cases second
  | cons bytes' after' =>
      rw [rest] at second
      cases second with
      | cons here _ =>
          exact ⟨_, bytes', after', by rw [← rest, List.take_append_drop], first, here⟩

/-- With two delimiters a scan of the same lines comes to the same end. -/
theorem course_of_scans (saved saved' : Files) (plain : ∀ m ∈ messages, m.Plain)
    (same : List.Forall₂ (Redelimited s.delimiter new) lines lines')
    (blanks : s.BlanksAlike new 1 lines) :
    Course s new lines lines' ((s.scanFrom 1 lines).report saved messages)
      (((s.redelimited new).scanFrom 1 lines').report saved' messages) := by
  rcases Scanner.clean_or_first_fails s 1 lines with
    clean | ⟨before, bytes, after, p, rfl, clean, fails⟩
  · have clean' := Scanner.clean_redelimited same blanks clean
    obtain ⟨none, finished⟩ := @finished_of_clean s saved _ _ clean plain
    obtain ⟨none', finished'⟩ := @finished_of_clean _ saved' _ _ clean' plain
    rw [Scan.report, Scan.report, none, none']
    exact .inl ⟨finished, finished'⟩
  · obtain ⟨before', bytes', after', rfl, sameBefore, first⟩ := split_same same
    obtain ⟨blanksBefore, blanks⟩ := Scanner.blanksAlike_append.mp blanks
    have length := sameBefore.length_eq
    rw [Nat.add_comm] at fails blanks
    have clean' := Scanner.clean_redelimited sameBefore blanksBefore clean
    have fails' := Scanner.fails_redelimited first (Scanner.blanksAlike_cons.mp blanks).1 fails
    rw [length] at fails'
    obtain ⟨found, stopped⟩ := @stopped_of_fails s saved _ before after _ _ clean fails plain
    obtain ⟨found', stopped'⟩ :=
      @stopped_of_fails _ saved' _ before' after' _ _ clean' fails' plain
    rw [Scan.report, Scan.report, found, found']
    exact .inr ⟨before, bytes, after, before', bytes', after', p, rfl, rfl, length.symm, stopped,
      stopped'⟩

/-- The reports of scans of the same lines with two delimiters. -/
theorem parallel_of_scans {saved saved' : Files} (other : s.delimiter ≠ '\n')
    (plain : ∀ m ∈ messages, m.Plain)
    (same : List.Forall₂ (Redelimited s.delimiter new) lines lines')
    (blanks : s.BlanksAlike new 1 lines) :
    Parallel s new lines lines' ((s.scanFrom 1 lines).report saved messages)
      (((s.redelimited new).scanFrom 1 lines').report saved' messages) := by
  have course := course_of_scans saved saved' plain same blanks
  have considered : ∀ n, (s.redelimited new).considered 1 (lines'.take n) =
      (s.considered 1 (lines.take n)).map (replace s.delimiter new) := by
    intro n
    rw [← List.take_append_drop n lines, Scanner.blanksAlike_append] at blanks
    exact Scanner.considered_redelimited (List.forall₂_take n same) blanks.1
  rw [Scanner.scanFrom_redelimited same blanks] at course ⊢
  obtain ⟨exit, shown, output⟩ :=
    report_redelimited other (s.scanFrom 1 lines) saved saved' messages
  exact ⟨considered, exit, shown, output, course⟩

end Runs

/-- **The delimiter counts for nothing but blank lines.**  Where the lines of two inputs differ only in
the delimiter, and each is blank with both delimiters or with neither, the runs on them go alike; only a
line of blank fields can be blank with one delimiter and not with the other.  A line of delimiters alone
is read as nulls, whatever the delimiter; but the run takes it for a blank line where there is no
delimiter in it or the delimiter is blank. -/
theorem redelimited_run_is_parallel {o : Options} {files files' : Files}
    {stdin stdin' input input' : Bytes} {schema : Schema} {e : Expr} {f : Filter} {new : Char}
    {path : Option String} (scans : Scans o files stdin schema e f input)
    (scans' : Scans (o.redelimited new path) files' stdin' schema e f input')
    (notNewline : o.delimiter ≠ '\n') (notReturn : o.delimiter ≠ '\r') (newNotReturn : new ≠ '\r')
    (same : List.Forall₂ (Redelimited o.delimiter new) (input.splitOn newline)
      (input'.splitOn newline))
    (blanks : Scanner.BlanksAlike ⟨schema, f, o.delimiter, o.skipHeader⟩ new 1
      (linesOfPieces (input.splitOn newline))) :
    Parallel ⟨schema, f, o.delimiter, o.skipHeader⟩ new (linesOfPieces (input.splitOn newline))
        (linesOfPieces (input'.splitOn newline)) (run o files stdin)
        (run (o.redelimited new path) files' stdin') ∧
      (∀ line, (Text.trim (replace o.delimiter new line) = [] ↔ Text.trim line = []) ↔
        BlankAlike o.delimiter new line) ∧
      ∀ c n, schema.length = n + 1 →
        Row.read (List.replicate n c) c schema = .ok (List.replicate (n + 1) .null) ∧
          (Text.trim (List.replicate n c) = [] ↔ n = 0 ∨ Text.isBlank c = true) := by
  refine ⟨?_, fun line => Text.trim_replace_iff, ?_⟩
  · obtain ⟨saved, ran⟩ := run_of_scans scans
    obtain ⟨saved', ran'⟩ := run_of_scans scans'
    rw [ran, ran']
    refine parallel_of_scans notNewline ?_ (redelimited_lines notReturn newNotReturn same) blanks
    intro m mem
    exact (List.mem_append.mp mem).elim (plain_of_loadMessages m) (plain_of_saveMessages m)
  · intro c n width
    refine ⟨Row.read_delimiters width, ?_⟩
    rw [Text.trim_eq_nil_iff]
    constructor
    · intro blank
      cases n with
      | zero => exact .inl rfl
      | succ n => exact .inr (blank c List.mem_cons_self)
    · rintro (rfl | blank) d mem
      · cases mem
      · rwa [List.eq_of_mem_replicate mem]

/-- Pairs of an integer 1 and a word. -/
def firstOne : Options := ⟨"int,string", ["0:eq:1"], none, none, none, ',', false, false, false⟩

def firstOneTree : Expr :=
  .comparison .equals (.column ⟨0, .integer, none⟩) (.ofValue (.integer 1))

/-- A pair that is selected, one that is not, and one without an integer. -/
def threePairs : List Char := "1,a\n2,b\nx,c\n".toList

theorem threePairs_tabbed :
    Scans firstOne ⟨[], []⟩ (Text.Utf8.encode threePairs) [.integer, .string] firstOneTree
        ⟨firstOneTree⟩ (Text.Utf8.encode threePairs) ∧
      Scans (firstOne.redelimited '\t' none) ⟨[], []⟩
        (Text.Utf8.encode (replace ',' '\t' threePairs)) [.integer, .string] firstOneTree
        ⟨firstOneTree⟩ (Text.Utf8.encode (replace ',' '\t' threePairs)) ∧
      (run firstOne ⟨[], []⟩ (Text.Utf8.encode threePairs)).output = "1,a\n" ∧
      (run (firstOne.redelimited '\t' none) ⟨[], []⟩
        (Text.Utf8.encode (replace ',' '\t' threePairs))).output.toList = "1\ta\n".toList := by
  have scans : Scans firstOne ⟨[], []⟩ (Text.Utf8.encode threePairs) [.integer, .string]
      firstOneTree ⟨firstOneTree⟩ (Text.Utf8.encode threePairs) :=
    ⟨rfl, rfl, rfl, rfl, _, rfl, rfl⟩
  have scans' : Scans (firstOne.redelimited '\t' none) ⟨[], []⟩
      (Text.Utf8.encode (replace ',' '\t' threePairs)) [.integer, .string] firstOneTree
      ⟨firstOneTree⟩ (Text.Utf8.encode (replace ',' '\t' threePairs)) :=
    ⟨rfl, rfl, rfl, rfl, _, rfl, rfl⟩
  have same := @redelimited_of_text ',' '\t' threePairs (by decide) (by decide) (by decide)
  have blanks : Scanner.BlanksAlike ⟨[.integer, .string], ⟨firstOneTree⟩, ',', false⟩ '\t' 1
      (linesOfPieces ((Text.Utf8.encode threePairs).splitOn newline)) := by
    rintro line mem - text decoded -
    have lines : (linesOfPieces ((Text.Utf8.encode threePairs).splitOn newline)).zipIdx 1 =
        [(Text.Utf8.encode ['1', ',', 'a'], 1), (Text.Utf8.encode ['2', ',', 'b'], 2),
          (Text.Utf8.encode ['x', ',', 'c'], 3)] := by
      rw [splitOn_encode]
      rfl
    simp only [lines, List.mem_cons, List.not_mem_nil, or_false] at mem
    rcases mem with rfl | rfl | rfl <;> cases decoded <;> exact .inr (by decide)
  have printed : (run firstOne ⟨[], []⟩ (Text.Utf8.encode threePairs)).output = "1,a\n" := rfl
  obtain ⟨parallel, -⟩ := redelimited_run_is_parallel scans scans' (by decide) (by decide) (by decide)
    same blanks
  refine ⟨scans, scans', printed, ?_⟩
  rw [parallel.output, printed]
  rfl

/-- Pairs of integers, the first of them 1. -/
def pairOne : Options := ⟨"int,int", ["0:eq:1"], none, none, none, ',', false, false, false⟩

/-- A line of two empty fields is a row if a comma stands between them, and a blank line if a tab
does. -/
theorem tabLine_is_passed_over :
    Scans pairOne ⟨[], []⟩ [44, 10] [.integer, .integer] firstOneTree ⟨firstOneTree⟩ [44, 10] ∧
      Scans (pairOne.redelimited '\t' none) ⟨[], []⟩ [9, 10] [.integer, .integer] firstOneTree
        ⟨firstOneTree⟩ [9, 10] ∧
      List.Forall₂ (Redelimited ',' '\t') (List.splitOn newline [44, 10])
        (List.splitOn newline [9, 10]) ∧
      (run pairOne ⟨[], []⟩ [44, 10]).log = [(.info, "Kept 0 of 1 rows")] ∧
      (run (pairOne.redelimited '\t' none) ⟨[], []⟩ [9, 10]).log = [(.info, "Kept 0 of 0 rows")] ∧
      ¬ Parallel ⟨[.integer, .integer], ⟨firstOneTree⟩, ',', false⟩ '\t'
        (linesOfPieces (List.splitOn newline [44, 10])) (linesOfPieces (List.splitOn newline [9, 10]))
        (run pairOne ⟨[], []⟩ [44, 10]) (run (pairOne.redelimited '\t' none) ⟨[], []⟩ [9, 10]) := by
  have same := @redelimited_of_text ',' '\t' [',', '\n'] (by decide) (by decide) (by decide)
  refine ⟨⟨rfl, rfl, rfl, rfl, _, rfl, rfl⟩, ⟨rfl, rfl, rfl, rfl, _, rfl, rfl⟩, same, rfl, rfl, ?_⟩
  intro parallel
  exact absurd parallel.messages (by decide)

end RowFilter.Command
