import RowFilter.Proofs.Replay

/-!
# Proofs.Setup — what a run may change before it reads its input

A run has its filter once the schema is read, the tree is made and the tree fits the schema.  Where one of
these fails nothing is written anywhere but on the error stream (`run_of_setupFails`).  Otherwise the tree
is all that can be saved, and saving it is the last thing that changes a file (`saves_of_setUp`); what
follows sees the input, unless the filter is only explained (`run_of_explain`).
-/

namespace RowFilter

set_option autoImplicit false

namespace Files

/-- The path ends in the last of the names and is led there by the others. -/
def LeadsTo (files : Files) (s : String) (names : List String) : Prop :=
  ∃ path directory name, Path.read s = .ok path ∧
    files.place path = .ok (.inside directory name) ∧ names = directory ++ [name]

/-- Nothing has changed but what stands at the path. -/
structure ChangedAt (s : String) (before after : Files) : Prop where
  here : after.here = before.here
  leadsTo : ∀ names, after.get? names ≠ before.get? names → before.LeadsTo s names

theorem changedAt_of_write {files after : Files} {s : String} {bytes : Bytes}
    (written : files.write s bytes = .ok after) : ChangedAt s files after := by
  obtain ⟨path, directory, name, readPath, -, led, -, -, rfl⟩ := put_of_write written
  refine ⟨rfl, fun names changed => ⟨path, directory, name, readPath, led, ?_⟩⟩
  by_contra other
  exact changed (get?_put_of_ne other)

end Files

namespace Command

variable {o : Options} {files files' : Files} {schema : Schema} {e : Expr}

/-! ## Setting up -/

/-- Why a run has no filter. -/
inductive SetupFails (o : Options) (files : Files) : Problem → Prop
  | schema {name : ColumnType.UnknownName} (unread : readSchema o.schema = .error name) :
    SetupFails o files (.unknownType name)
  | plan {schema : Schema} {path : String} {fault : Fault}
    (schemaRead : readSchema o.schema = .ok schema) (given : o.plan = some path)
    (unloaded : Plan.load files path = .error fault) : SetupFails o files (.load path fault)
  | clause {schema : Schema} {fault : ClauseFault} (schemaRead : readSchema o.schema = .ok schema)
    (unplanned : o.plan = none) (unread : readClauses schema o.clauses = .error fault) :
    SetupFails o files (.clause fault)
  | noClause {schema : Schema} (schemaRead : readSchema o.schema = .ok schema)
    (unplanned : o.plan = none) (empty : o.clauses = []) : SetupFails o files .noFilter
  | unfit {schema : Schema} {e : Expr} {fault : Fault}
    (schemaRead : readSchema o.schema = .ok schema) (made : givenTree o files schema = .ok e)
    (unfit : e.checkFilter schema = .error fault) : SetupFails o files (.schema fault)

/-- A run has the tree as its filter. -/
structure SetUp (o : Options) (files : Files) (schema : Schema) (e : Expr) : Prop where
  schemaRead : readSchema o.schema = .ok schema
  made : givenTree o files schema = .ok e
  fits : Filter.ofSchema schema e = .ok ⟨e⟩

theorem conjunction?_eq_none {clauses : List String} {es : List Expr}
    (read : readClauses schema clauses = .ok es) (none : Expr.conjunction? es = none) :
    clauses = [] := by
  cases clauses with
  | nil => rfl
  | cons clause more =>
      simp only [readClauses, bind_eq_ok] at read
      obtain ⟨e, -, es', -, made⟩ := read
      cases made
      cases none

theorem setupFails_of_givenTree {p : Problem} (schemaRead : readSchema o.schema = .ok schema)
    (failed : givenTree o files schema = .error p) : SetupFails o files p := by
  unfold givenTree at failed
  split at failed
  · rename_i path given
    cases loaded : Plan.load files path with
    | error fault =>
        rw [loaded] at failed
        cases failed
        exact .plan schemaRead given loaded
    | ok e =>
        rw [loaded] at failed
        cases failed
  · rename_i unplanned
    split at failed
    · rename_i fault unread
      cases failed
      exact .clause schemaRead unplanned unread
    · rename_i es read
      split at failed
      · cases failed
      · rename_i none
        cases failed
        exact .noClause schemaRead unplanned (conjunction?_eq_none read none)

theorem setUp_or_fails (o : Options) (files : Files) :
    (∃ p, SetupFails o files p) ∨ ∃ schema e, SetUp o files schema e := by
  cases schemaRead : readSchema o.schema with
  | error name => exact .inl ⟨_, .schema schemaRead⟩
  | ok schema =>
      cases made : givenTree o files schema with
      | error p => exact .inl ⟨p, setupFails_of_givenTree schemaRead made⟩
      | ok e =>
          cases checked : e.checkFilter schema with
          | error fault => exact .inl ⟨_, .unfit schemaRead made checked⟩
          | ok u =>
              have fits : Filter.ofSchema schema e = .ok ⟨e⟩ := map_eq_ok.mpr ⟨u, checked, rfl⟩
              exact .inr ⟨schema, e, schemaRead, made, fits⟩

/-- Without a filter a run ends with the problem and leaves the files alone. -/
theorem run_of_setupFails {p : Problem} (fails : SetupFails o files p) (stdin : Bytes) :
    ∃ messages, run o files stdin = ⟨1, "", messages ++ [.problem p], files⟩ := by
  cases fails with
  | schema unread => exact ⟨[], by simp only [run, unread, Report.failed]⟩
  | plan schemaRead given unloaded =>
      refine ⟨[], ?_⟩
      simp only [run, schemaRead, givenTree, given, unloaded]
      rfl
  | clause schemaRead unplanned unread =>
      exact ⟨[], by simp only [run, schemaRead, givenTree, unplanned, unread, Report.failed]⟩
  | noClause schemaRead unplanned empty =>
      refine ⟨[], ?_⟩
      simp only [run, schemaRead, givenTree, unplanned, empty]
      rfl
  | @unfit _ e _ schemaRead made unfit =>
      refine ⟨loadMessages o e, ?_⟩
      simp only [run, schemaRead, made, Filter.ofSchema, unfit]
      rfl

theorem SetUp.run_eq (ready : SetUp o files schema e) (stdin : Bytes) :
    run o files stdin = runFilter o files stdin schema ⟨e⟩ (loadMessages o e) := by
  simp only [run, ready.schemaRead, ready.made, ready.fits]

/-! ## Saving -/

/-- What becomes of the files of a run that has the tree as its filter. -/
inductive Saves (o : Options) (files : Files) (e : Expr) (r : Report) : Prop
  | unasked (unasked : o.savePlan = none) (same : r.files = files)
  | refused {path : String} {fault : Files.Fault} (asked : o.savePlan = some path)
    (refused : files.write path (Plan.encode e) = .error fault)
    (ends : r = ⟨1, "", loadMessages o e ++ [.problem (.save path (.file fault))], files⟩)
  | saved {path : String} (asked : o.savePlan = some path)
    (written : files.write path (Plan.encode e) = .ok r.files)
    (holds : r.files.read path = .ok (Plan.encode e)) (changed : Files.ChangedAt path files r.files)

theorem files_runFilter {saved : Files} (save : savedFiles o files e = .ok saved) (stdin : Bytes)
    (messages : List Message) : (runFilter o files stdin schema ⟨e⟩ messages).files = saved := by
  simp only [runFilter, save]
  split
  · rfl
  · exact files_runScan _ _

theorem saves_of_setUp (ready : SetUp o files schema e) (stdin : Bytes) :
    Saves o files e (run o files stdin) := by
  rw [ready.run_eq]
  cases asked : o.savePlan with
  | none =>
      have save : savedFiles o files e = .ok files := by simp only [savedFiles, asked]
      exact .unasked asked (files_runFilter save _ _)
  | some path =>
      cases written : files.write path (Plan.encode e) with
      | error fault =>
          refine .refused asked written ?_
          simp only [runFilter, savedFiles, asked, Plan.save, written]
          rfl
      | ok saved =>
          have save : savedFiles o files e = .ok saved := by
            simp only [savedFiles, asked, Plan.save, written]
            rfl
          have left : (runFilter o files stdin schema ⟨e⟩ (loadMessages o e)).files = saved :=
            files_runFilter save _ _
          refine .saved asked ?_ ?_ ?_
          · rw [left, written]
          · rw [left]
            exact Files.read_of_write written
          · rw [left]
            exact Files.changedAt_of_write written

/-! ## Explaining -/

/-- A filter is explained without a look at the input. -/
theorem run_of_explain (explain : o.explain = true) (files : Files) (stdin stdin' : Bytes)
    (input : Option String) : run { o with input } files stdin' = run o files stdin := by
  have filter : ∀ schema f messages, runFilter { o with input } files stdin' schema f messages =
      runFilter o files stdin schema f messages := by
    intro schema f messages
    simp only [runFilter, explain, if_true]
    rfl
  simp only [run, filter]
  rfl

theorem givenTree_congr (alike : ∀ path, o.plan = some path → files'.read path = files.read path)
    (schema : Schema) : givenTree o files' schema = givenTree o files schema := by
  unfold givenTree
  split
  · rename_i path given
    rw [Plan.load, alike path given]
    rfl
  · rfl

/-- A plan can be saved beside other files when it can be saved at all. -/
theorem savedFiles_alike (same : files.SameDirectories files') (e : Expr) :
    (∃ saved saved', savedFiles o files e = .ok saved ∧ savedFiles o files' e = .ok saved') ∨
      ∃ p p', savedFiles o files e = .error p ∧ savedFiles o files' e = .error p' := by
  unfold savedFiles
  split
  · rename_i path asked
    simp only [Plan.save]
    cases written : files.write path (Plan.encode e) with
    | ok saved =>
        obtain ⟨names, -, written'⟩ := same.write written (Plan.encode e)
        rw [written']
        exact .inl ⟨_, _, rfl, rfl⟩
    | error fault =>
        cases written' : files'.write path (Plan.encode e) with
        | ok saved' =>
            obtain ⟨names, -, back⟩ := same.symm.write written' (Plan.encode e)
            rw [written] at back
            cases back
        | error fault' => exact .inr ⟨_, _, rfl, rfl⟩
  · exact .inl ⟨_, _, rfl, rfl⟩

theorem output_of_explain (explain : o.explain = true) (same : files.SameDirectories files')
    (alike : ∀ path, o.plan = some path → files'.read path = files.read path)
    (stdin stdin' : Bytes) (input : Option String) :
    (run { o with input } files' stdin').output = (run o files stdin).output := by
  rw [run_of_explain explain files' stdin stdin' input]
  simp only [run, givenTree_congr alike]
  split
  · rfl
  split
  · rfl
  split
  · rfl
  rename_i filter _
  simp only [runFilter, explain, if_true]
  -- Only a plan that cannot be saved keeps a filter from being explained.
  obtain ⟨saved, saved', save, save'⟩ | ⟨p, p', save, save'⟩ :=
    savedFiles_alike (o := o) same filter.expr
  · rw [save, save']
  · rw [save, save']
    rfl

/-! ## Whole runs -/

/-- **A run changes nothing before its filter is there, and then only the file of the saved plan.**  A run
that is not set up ends with the problem, prints nothing and leaves the files alone.  Any other saves the
tree that fits the schema where that is asked for, whatever becomes of the run then.  What is explained
does not depend on the input, be it in a file or not. -/
theorem setup_guards_files {arguments : List String} (accepted : Options.read arguments = .ok o)
    (files : Files) :
    (∀ p, SetupFails o files p → ∀ stdin, ∃ messages,
      runArguments arguments files stdin = ⟨1, "", messages ++ [.problem p], files⟩) ∧
    ((∃ p, SetupFails o files p) ∨ ∃ schema e, SetUp o files schema e ∧
      ∀ stdin, Saves o files e (runArguments arguments files stdin)) ∧
    (∀ stdin names, (runArguments arguments files stdin).files.get? names ≠ files.get? names →
      ∃ path schema e, o.savePlan = some path ∧ files.LeadsTo path names ∧
        SetUp o files schema e ∧
        (runArguments arguments files stdin).files.read path = .ok (Plan.encode e)) ∧
    (o.explain = true → ∀ files', files.SameDirectories files' →
      (∀ path, o.plan = some path → files'.read path = files.read path) →
      ∀ stdin stdin' input, (run { o with input } files' stdin').output =
        (runArguments arguments files stdin).output) := by
  have runs : ∀ files stdin, runArguments arguments files stdin = run o files stdin := by
    intro files stdin
    simp only [runArguments, accepted]
  simp only [runs]
  refine ⟨fun p fails stdin => run_of_setupFails fails stdin, ?_, fun stdin names changed => ?_,
    fun explain files' same alike => output_of_explain explain same alike⟩
  · refine (setUp_or_fails o files).imp_right ?_
    rintro ⟨schema, e, ready⟩
    exact ⟨schema, e, ready, saves_of_setUp ready⟩
  · obtain ⟨p, fails⟩ | ⟨schema, e, ready⟩ := setUp_or_fails o files
    · obtain ⟨messages, ends⟩ := run_of_setupFails fails stdin
      rw [ends] at changed
      exact absurd rfl changed
    · cases saves_of_setUp ready stdin with
      | unasked _ same =>
          rw [same] at changed
          exact absurd rfl changed
      | refused _ _ ends =>
          rw [ends] at changed
          exact absurd rfl changed
      | @saved path asked _ holds only =>
          exact ⟨path, schema, e, asked, only.leadsTo names changed, ready, holds⟩

/-- A filter that is saved and explained, with an input that is not there. -/
def explainAboveOne : List String :=
  ["--schema", "int", "--where", "0:gt:1", "--save-plan", "f", "--input", "g", "--explain"]

/-- A filter on a column that the schema has not got, to be saved where there is a file. -/
def saveFarColumn : List String := ["--schema", "int", "--where", "1:gt:1", "--save-plan", "f"]

def oneFile : Files := ⟨[], [(["f"], .file [0])]⟩

theorem explainAboveOne_is_saved :
    (∃ o, Options.read explainAboveOne = .ok o ∧ ∀ stdin,
      (runArguments explainAboveOne ⟨[], []⟩ stdin).exit = 0 ∧
      (∃ schema e, SetUp o ⟨[], []⟩ schema e ∧
        (runArguments explainAboveOne ⟨[], []⟩ stdin).files.read "f" = .ok (Plan.encode e)) ∧
      (run { o with input := none } ⟨[], []⟩ stdin).output =
        (runArguments explainAboveOne ⟨[], []⟩ stdin).output) ∧
    ∃ o, Options.read saveFarColumn = .ok o ∧ o.savePlan = some "f" ∧
      SetupFails o oneFile (.clause (.noColumn 1 1)) ∧
      ∀ stdin, ∃ messages, runArguments saveFarColumn oneFile stdin =
        ⟨1, "", messages ++ [.problem (.clause (.noColumn 1 1))], oneFile⟩ := by
  constructor
  · have accepted : Options.read explainAboveOne =
        .ok ⟨"int", ["0:gt:1"], none, some "f", some "g", ',', false, true, false⟩ := by rfl
    refine ⟨_, accepted, fun stdin => ?_⟩
    obtain ⟨untouched, outcome, -, explained⟩ := setup_guards_files accepted ⟨[], []⟩
    have ended : (runArguments explainAboveOne ⟨[], []⟩ stdin).exit = 0 := by rfl
    refine ⟨ended, ?_, explained rfl _ (.refl _) (fun _ _ => rfl) stdin stdin none⟩
    obtain ⟨p, fails⟩ | ⟨schema, e, ready, saves⟩ := outcome
    · obtain ⟨messages, ends⟩ := untouched p fails stdin
      rw [ends] at ended
      cases ended
    · refine ⟨schema, e, ready, ?_⟩
      cases saves stdin with
      | unasked unasked => cases unasked
      | refused asked _ ends =>
          rw [ends] at ended
          cases ended
      | saved asked _ holds =>
          cases asked
          exact holds
  · have accepted : Options.read saveFarColumn =
        .ok ⟨"int", ["1:gt:1"], none, some "f", none, ',', false, false, false⟩ := by rfl
    have schemaRead : readSchema "int" = .ok [.integer] := by rfl
    have fails : SetupFails ⟨"int", ["1:gt:1"], none, some "f", none, ',', false, false, false⟩
        oneFile (.clause (.noColumn 1 1)) := .clause schemaRead rfl rfl
    obtain ⟨untouched, -⟩ := setup_guards_files accepted oneFile
    exact ⟨_, accepted, rfl, fails, untouched _ fails⟩

end Command

end RowFilter
