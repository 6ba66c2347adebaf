import RowFilter.Proofs.Canonical
import RowFilter.Proofs.Clauses
import RowFilter.Proofs.Twins

/-!
# Proofs.Replay — a saved plan does what its clauses did

A run with clauses that saves its filter and a run with the plan it saved go the same way from there:
both have nothing to say about plans unless debugging is on, and the filters look the same and decide
the same (`run_of_quiet`, `runScan_replaying`).  So the two reports are equal, files included
(`saved_plan_replays`).  Clauses state instants only for columns of instants, and without these nothing
is lost in a plan.
-/

namespace RowFilter

set_option autoImplicit false

/-! ## Filters made of clauses -/

namespace Expr

variable {e : Expr}

theorem instants_and (l r : Expr) : (l.and r).instants = l.instants ++ r.instants := by
  have below : (l.and r).nodes = l.and r :: (l.nodes ++ r.nodes) := by rw [Expr.and, nodes]
  have root : literal? (l.and r) = none := rfl
  rw [instants, literals, below, List.filterMap_cons_none root, List.filterMap_append,
    List.filterMap_append]
  rfl

theorem instants_foldl {es : List Expr} (first : e.instants = [])
    (each : ∀ x ∈ es, x.instants = []) : (es.foldl and e).instants = [] := by
  induction es generalizing e with
  | nil => exact first
  | cons x more ih =>
      rw [List.forall_mem_cons] at each
      refine ih ?_ each.2
      rw [instants_and, first, each.1, List.append_nil]

end Expr

namespace Command

section Clauses

variable {schema : Schema}

theorem Condition.Stated.instants_expr {clause : String} {c : Condition} (h : c.Stated schema clause)
    (timeless : ColumnType.timestamp ∉ schema) : c.expr.instants = [] := by
  have type : c.type ≠ .timestamp := by
    intro same
    have mem := List.mem_of_getElem? h.type
    rw [same] at mem
    exact timeless mem
  have none : c.value.instant? = none := by
    have fits := Value.fits_iff.mp h.fits
    cases hv : c.value with
    | timestamp t =>
        rw [hv] at fits
        rcases fits with null | same
        · cases null
        · exact absurd same.symm type
    | _ => rfl
  simp [Expr.instants, Expr.literals, Condition.expr, Expr.nodes, Expr.literal?, none]

theorem instants_conjunction {c : Condition} {more : List Condition}
    (stated : AllStated schema (c :: more)) (timeless : ColumnType.timestamp ∉ schema) :
    (conjunction c more).instants = [] := by
  obtain ⟨⟨_, first⟩, rest⟩ := List.forall_mem_cons.mp stated
  refine Expr.instants_foldl (first.instants_expr timeless) ?_
  intro x mem
  obtain ⟨d, below, rfl⟩ := List.mem_map.mp mem
  obtain ⟨_, stated⟩ := rest d below
  exact stated.instants_expr timeless

end Clauses

/-! ## Saving and loading -/

section Saved

variable {files saved : Files} {path : String} {e e' : Expr}

theorem load_of_save (written : Plan.save files path e = .ok saved)
    (countable : (Plan.encode e).length < UInt64.size) (shipped : Plan.ship e = .ok e') :
    Plan.load saved path = .ok e' := by
  have bytes := Files.read_of_write (mapError_eq_ok.mp written)
  simp only [Plan.load, bytes, Plan.decode_encode countable, shipped]
  rfl

theorem save_again (written : Plan.save files path e = .ok saved) (shipped : Plan.ship e = .ok e') :
    Plan.save saved path e' = .ok saved := by
  have again := Files.write_again (mapError_eq_ok.mp written)
  rw [Plan.save, Plan.encode_ship shipped, again]
  rfl

end Saved

/-! ## Two runs -/

/-- The options with a plan in place of clauses. -/
def Options.replaying (o : Options) (path : String) (savePlan : Option String) : Options :=
  { o with clauses := [], plan := some path, savePlan }

section Runs

variable {o : Options} {files saved : Files} {stdin : Bytes} {schema : Schema} {e : Expr}

/-- Filters that keep the same rows make the same scan. -/
theorem scanFrom_congr {f g : Filter} (same : ∀ row, g.keeps row = f.keeps row) {delimiter : Char}
    {skipHeader : Bool} (number : Nat) (lines : List Bytes) :
    Scanner.scanFrom ⟨schema, g, delimiter, skipHeader⟩ number lines =
      Scanner.scanFrom ⟨schema, f, delimiter, skipHeader⟩ number lines := by
  induction lines generalizing number with
  | nil => rfl
  | cons bytes more ih =>
      have decides : ∀ line, Scanner.keeps ⟨schema, g, delimiter, skipHeader⟩ line =
          Scanner.keeps ⟨schema, f, delimiter, skipHeader⟩ line := by
        intro line
        simp only [Scanner.keeps, same]
      simp only [Scanner.scanFrom, decides, ih]
      rfl

theorem runScan_replaying {f g : Filter} (same : ∀ row, g.keeps row = f.keeps row) (path : String)
    (savePlan : Option String) (messages : List Message) :
    runScan (o.replaying path savePlan) files stdin schema g messages =
      runScan o files stdin schema f messages := by
  simp only [runScan, inputBytes, Options.replaying, Scanner.scan, scanFrom_congr same]

theorem files_runScan (f : Filter) (messages : List Message) :
    (runScan o files stdin schema f messages).files = files := by
  unfold runScan
  split
  · rfl
  · simp only
    split <;> rfl

/-- A run without debugging that has a filter and has saved it explains it or scans the input. -/
theorem run_of_quiet (stdin : Bytes) (quiet : o.debug = false)
    (schemaRead : readSchema o.schema = .ok schema) (made : givenTree o files schema = .ok e)
    (fits : Filter.ofSchema schema e = .ok ⟨e⟩) (save : savedFiles o files e = .ok saved) :
    run o files stdin =
      if o.explain then ⟨0, explanation e, [], saved⟩ else runScan o saved stdin schema ⟨e⟩ [] := by
  have silent : ∀ text, debugging o text = [] := fun text => by simp [debugging, quiet]
  have loading : loadMessages o e = [] := by
    unfold loadMessages
    split
    · exact silent _
    · rfl
  have saving : saveMessages o e = [] := by
    unfold saveMessages
    split
    · exact silent _
    · rfl
  simp only [run, schemaRead, made, fits, runFilter, save, loading, saving, List.append_nil]

theorem explanation_twin {e' : Expr} (alike : e.Alike Cell.Twin e') :
    explanation e' = explanation e := by
  simp only [explanation, alike.text_eq, alike.kind_eq, alike.columns_eq]

theorem ofSchema_twin {e' : Expr} (alike : e.Alike Cell.Twin e')
    (fits : Filter.ofSchema schema e = .ok ⟨e⟩) : Filter.ofSchema schema e' = .ok ⟨e'⟩ := by
  obtain ⟨u, checked, -⟩ := map_eq_ok.mp fits
  exact map_eq_ok.mpr ⟨u, alike.checkFilter_eq.trans checked, rfl⟩

/-- **A run with a saved plan repeats the run with the clauses that saved it**, when no column is one
of instants and debugging is off.  It finds the files as that run left them, and the two reports are
equal, whether it saves the plan once more or not.  The plan is countable in 64 bits, as any file that
is written. -/
theorem saved_plan_replays {path : String} (unplanned : o.plan = none)
    (asked : o.savePlan = some path) (quiet : o.debug = false)
    (schemaRead : readSchema o.schema = .ok schema) (timeless : ColumnType.timestamp ∉ schema)
    (made : givenTree o files schema = .ok e) (countable : (Plan.encode e).length < UInt64.size)
    (written : Plan.save files path e = .ok saved) {again : Option String}
    (same : again = none ∨ again = some path) :
    run (o.replaying path again) (run o files stdin).files stdin = run o files stdin := by
  obtain ⟨c, more, stated, rfl⟩ := conditions_of_givenTree unplanned made
  have all := allStated_of_forall₂ stated
  have fits := ofSchema_conjunction all
  have bare := instants_conjunction all timeless
  obtain ⟨e', shipped⟩ := Plan.ship_ok (e := conjunction c more) (by simp [bare])
  have twin := Plan.alike_twin shipped bare
  have first : savedFiles o files (conjunction c more) = .ok saved := by
    simp only [savedFiles, asked, written]
    rfl
  have loaded : givenTree (o.replaying path again) saved schema = .ok e' := by
    simp only [givenTree, Options.replaying, load_of_save written countable shipped]
    rfl
  have second : savedFiles (o.replaying path again) saved e' = .ok saved := by
    rcases same with rfl | rfl
    · rfl
    · simp only [savedFiles, Options.replaying, save_again written shipped]
      rfl
  have left := run_of_quiet stdin quiet schemaRead made fits first
  have right := run_of_quiet stdin (o := o.replaying path again) quiet schemaRead loaded
    (ofSchema_twin twin fits) second
  have files : (run o files stdin).files = saved := by
    rw [left]
    split
    · rfl
    · exact files_runScan _ _
  rw [files, right, left, explanation_twin twin,
    runScan_replaying (Plan.keeps_of_ship shipped bare)]
  rfl

/-- Decimals from 150 on, which the clause writes in another way than a plan does. -/
def fromFifteenTens : Options :=
  ⟨"decimal", ["0:ge:15e1"], none, some "f", none, ',', true, false, false⟩

def fromFifteenTensTree : Expr :=
  .comparison .greaterThanEquals (.column ⟨0, .decimal, none⟩) (.ofValue (.decimal ⟨15, -1⟩))

/-- A header, `149.9` and `2e2`. -/
def threeLines : Bytes := [104, 10, 49, 52, 57, 46, 57, 10, 50, 101, 50, 10]

theorem fromFifteenTens_replays :
    fromFifteenTens.plan = none ∧ fromFifteenTens.savePlan = some "f" ∧
      fromFifteenTens.debug = false ∧ readSchema fromFifteenTens.schema = .ok [.decimal] ∧
      ColumnType.timestamp ∉ [ColumnType.decimal] ∧
      givenTree fromFifteenTens ⟨[], []⟩ [.decimal] = .ok fromFifteenTensTree ∧
      (Plan.encode fromFifteenTensTree).length < UInt64.size ∧
      Plan.save ⟨[], []⟩ "f" fromFifteenTensTree =
        .ok ⟨[], [(["f"], .file (Plan.encode fromFifteenTensTree))]⟩ ∧
      (run fromFifteenTens ⟨[], []⟩ threeLines).output = "2e2\n" ∧
      run (fromFifteenTens.replaying "f" none) (run fromFifteenTens ⟨[], []⟩ threeLines).files
        threeLines = run fromFifteenTens ⟨[], []⟩ threeLines := by
  have made : givenTree fromFifteenTens ⟨[], []⟩ [.decimal] = .ok fromFifteenTensTree := rfl
  have countable : (Plan.encode fromFifteenTensTree).length < UInt64.size := by
    simp only [fromFifteenTensTree, Expr.ofValue, Plan.encode, Plan.cell, Plan.column, Plan.value,
      Plan.content, Plan.text, Plan.optional, Cell.of, String.toList_ofList]
    decide +kernel
  have written : Plan.save ⟨[], []⟩ "f" fromFifteenTensTree =
      .ok ⟨[], [(["f"], .file (Plan.encode fromFifteenTensTree))]⟩ := rfl
  have bare : ColumnType.timestamp ∉ [ColumnType.decimal] := by decide
  refine ⟨rfl, rfl, rfl, rfl, bare, made, countable, written, ?_, ?_⟩
  · rfl
  · exact saved_plan_replays rfl rfl rfl rfl bare made countable written (.inl rfl)

end Runs

end Command

end RowFilter
