import RowFilter.Proofs.Columns

/-!
# Proofs.Reads — the order in which columns are read

An evaluation reads the columns of its tree from left to right, each as often as it occurs, and stops
at the first fault; a column that is at fault is the last one read.  `Records` ties a recording
evaluation to the plain one.  It goes through binds (`Records.bind`), so it holds of a tree by the way
the tree is evaluated (`records_evaluateBy`).
-/

namespace RowFilter

set_option autoImplicit false

/-! ## Recording the reads -/

namespace Fault

/-- The column that is at fault, if one is. -/
def column? : Fault → Option UInt64
  | columnOutOfBounds i _ | columnTypeMismatch i _ _ => some i
  | _ => none

end Fault

/-- The outcome is no fault of a column. -/
def Inner {α : Type} (x : Except Fault α) : Prop :=
  Gives (fun _ => True) (fun fault => fault.column? = none) x

/-- What an evaluation with the outcome reads of columns: all of them or, where it fails, those up to
some place, which is that of the column at fault if one is. -/
def ReadsOf {α : Type} (columns : List UInt64) : Except Fault α → List UInt64 → Prop
  | .ok _, reads => reads = columns
  | .error fault, reads => reads <+: columns ∧ ∀ i, fault.column? = some i → reads.getLast? = some i

/-- Evaluations that record what they read. -/
abbrev Recording (α : Type) : Type := ExceptT Fault (StateM (List UInt64)) α

/-- The recording has the outcome, and puts its reads of the columns behind those there are. -/
def Records {α : Type} (x : Recording α) (columns : List UInt64) (outcome : Except Fault α) : Prop :=
  ∃ reads, ReadsOf columns outcome reads ∧ ∀ before, x.run.run before = (outcome, before ++ reads)

section Recording

variable {α β : Type}

theorem records_pure (a : α) : Records (pure a) [] (.ok a) := by
  refine ⟨[], rfl, ?_⟩
  intro before
  rw [List.append_nil]
  rfl

/-- A fault of no column may stop before any read. -/
theorem records_throw {fault : Fault} (inner : fault.column? = none) (columns : List UInt64) :
    Records (throw fault : Recording α) columns (.error fault) := by
  refine ⟨[], ⟨List.nil_prefix, ?_⟩, ?_⟩
  · intro i found
    rw [inner] at found
    cases found
  · intro before
    rw [List.append_nil]
    rfl

theorem records_lift {x : Except Fault α} (inner : Inner x) : Records (liftExcept x) [] x := by
  cases x with
  | ok a => exact records_pure a
  | error fault => exact records_throw inner []

theorem run_bind_error {x : Recording α} {f : α → Recording β} {before after : List UInt64}
    {fault : Fault} (h : x.run.run before = (.error fault, after)) :
    (x >>= f).run.run before = (.error fault, after) := by
  rw [ExceptT.run_bind, StateT.run_bind, h]
  rfl

theorem run_bind_ok {x : Recording α} {f : α → Recording β} {before after : List UInt64} {a : α}
    (h : x.run.run before = (.ok a, after)) :
    (x >>= f).run.run before = (f a).run.run after := by
  rw [ExceptT.run_bind, StateT.run_bind, h]
  rfl

theorem Records.bind {x : Recording α} {f : α → Recording β} {columns more : List UInt64}
    {outcome : Except Fault α} {next : α → Except Fault β} (h : Records x columns outcome)
    (rest : ∀ a, outcome = .ok a → Records (f a) more (next a)) :
    Records (x >>= f) (columns ++ more) (outcome >>= next) := by
  obtain ⟨reads, partly, runs⟩ := h
  cases outcome with
  | error fault =>
      -- The rest is not run, so what has been read is a start of all columns.
      obtain ⟨start, last⟩ := partly
      refine ⟨reads, ⟨start.trans (List.prefix_append _ _), last⟩, ?_⟩
      intro before
      exact run_bind_error (runs before)
  | ok a =>
      -- The rest starts behind all columns of the first part, so its last read is the last of all.
      obtain ⟨reads', partly', runs'⟩ := rest a rfl
      have all : reads = columns := partly
      subst all
      refine ⟨reads ++ reads', ?_, ?_⟩
      · show ReadsOf _ (next a) _
        cases hn : next a with
        | ok b =>
            rw [hn] at partly'
            exact congrArg (reads ++ ·) partly'
        | error fault =>
            rw [hn] at partly'
            obtain ⟨start, last⟩ := partly'
            refine ⟨(List.prefix_append_right_inj reads).mpr start, ?_⟩
            intro i found
            rw [List.getLast?_append, last i found]
            rfl
      · intro before
        rw [run_bind_ok (runs before), runs', List.append_assoc]
        rfl

theorem Records.map {x : Recording α} {columns : List UInt64} {outcome : Except Fault α}
    (h : Records x columns outcome) (g : α → β) :
    Records (do let a ← x; pure (g a)) columns (outcome.map g) := by
  have both : Records _ (columns ++ []) (outcome >>= fun a => .ok (g a)) :=
    h.bind fun a _ => records_pure (g a)
  rw [List.append_nil] at both
  exact both

theorem Records.lift {x : Recording α} {columns : List UInt64} {outcome : Except Fault α}
    (h : Records x columns outcome) {next : α → Except Fault β} (inner : ∀ a, Inner (next a)) :
    Records (do let a ← x; liftExcept (next a)) columns (outcome >>= next) := by
  have both := h.bind fun a _ => records_lift (inner a)
  rwa [List.append_nil] at both

end Recording

/-! ## Faults of nodes -/

theorem Inner.map {α β : Type} {x : Except Fault α} (h : Inner x) (f : α → β) : Inner (x.map f) :=
  Gives.map h fun _ _ => trivial

namespace Cell

theorem inner_compareFor (kind : Kind) (comparator : Comparator) (l r : Cell) :
    Inner (compareFor kind comparator l r) := by
  unfold compareFor
  split
  · trivial
  · split
    · trivial
    · rfl

theorem inner_operand (kind : Kind) (c : Cell) : Inner (operand kind c) := by
  unfold operand
  split
  · trivial
  · trivial
  · rfl

theorem inner_comparison (comparator : Comparator) (l r : Cell) :
    Inner (comparison comparator l r) :=
  (inner_compareFor _ _ _ _).map boolean

theorem inner_logic (connective : Connective) (l r : Cell) : Inner (logic connective l r) := by
  rw [logic_eq_bind]
  refine (inner_operand _ l).bind ?_
  intro a _ _
  refine (inner_operand _ r).bind ?_
  intro b _ _
  trivial

theorem inner_not (c : Cell) : Inner c.not := by
  rw [not_eq_map]
  exact (inner_operand .not c).map _

theorem inner_step (kind : Kind) (probe item : Cell) (s : Search) :
    Inner (s.step kind probe item) := by
  unfold Search.step
  split
  · trivial
  · split
    · trivial
    · exact (inner_compareFor _ _ _ _).map _

end Cell

namespace Expr

section Trees

variable {row : Row}

/-- A column that cannot be read as declared is the one at fault. -/
theorem column_of_fault {c : Column} {fault : Fault}
    (h : row.fetch c.index >>= Cell.ofColumn c = .error fault) : fault.column? = some c.index := by
  cases fetched : row.fetch c.index with
  | error other =>
      rw [fetched] at h
      cases h
      unfold Row.fetch at fetched
      split at fetched <;> cases fetched
      rfl
  | ok v =>
      have misfit : Cell.ofColumn c v = .error fault := by
        rwa [fetched] at h
      unfold Cell.ofColumn at misfit
      split at misfit <;> cases misfit
      rfl

theorem records_column (c : Column) :
    Records (evaluateBy (fetchRecorded row) (column c)) [c.index] ((column c).evaluate row) := by
  rw [evaluate_column]
  refine ⟨[c.index], ?_, ?_⟩
  · cases h : row.fetch c.index >>= Cell.ofColumn c with
    | ok a => rfl
    | error fault =>
        refine ⟨List.prefix_rfl, ?_⟩
        intro i found
        rw [column_of_fault h] at found
        exact found
  · intro before
    simp only [evaluateBy, fetchRecorded]
    cases row.fetch c.index with
    | error fault => rfl
    | ok v =>
        show (liftExcept (Cell.ofColumn c v) : Recording Cell).run.run _ = (Cell.ofColumn c v, _)
        cases Cell.ofColumn c v <;> rfl

/-- A search records the reads of its items. -/
theorem records_searchBy {kind : Kind} {probe : Cell} {items : List Expr}
    (each : ∀ item ∈ items,
      Records (evaluateBy (fetchRecorded row) item) item.occurrences (item.evaluate row))
    (s : Search) :
    Records (searchBy (fetchRecorded row) kind probe items s) (occurrencesIn items)
      (searchBy row.fetch kind probe items s) := by
  induction items generalizing s with
  | nil =>
      rw [searchBy_nil]
      simp only [searchBy]
      exact records_pure s
  | cons item more ih =>
      rw [List.forall_mem_cons] at each
      rw [searchBy_cons, occurrencesIn]
      simp only [searchBy]
      refine each.1.bind ?_
      intro c _
      have stepped := records_lift (Cell.inner_step kind probe c s)
      exact stepped.bind fun next _ => ih each.2 next

end Trees

/-- A recording evaluation gives what the evaluation gives, and records the reads of all columns of
the tree from left to right, as far as it comes. -/
theorem records_evaluateBy (e : Expr) (row : Row) :
    Records (evaluateBy (fetchRecorded row) e) e.occurrences (e.evaluate row) := by
  induction e with
  | literal c =>
      rw [evaluate_literal]
      simp only [evaluateBy]
      exact records_pure c
  | column c => exact records_column c
  | nullTest test operand ih =>
      rw [evaluate_nullTest]
      simp only [evaluateBy]
      exact ih.map _
  | comparison c l r ihl ihr =>
      rw [evaluate_comparison]
      simp only [evaluateBy]
      exact ihl.bind fun a _ => ihr.lift (Cell.inner_comparison c a)
  | member negated probe items ihp ihi =>
      by_cases empty : items = []
      · subst empty
        rw [evaluate_member_nil]
        simp only [evaluateBy, List.isEmpty_nil, if_true]
        exact records_throw rfl _
      · rw [evaluate_member_of_ne_nil empty]
        simp only [evaluateBy, List.isEmpty_eq_false_iff.mpr empty, Bool.false_eq_true, if_false]
        exact ihp.bind fun a _ => (records_searchBy ihi _).map _
  | logic c l r ihl ihr =>
      rw [evaluate_logic]
      simp only [evaluateBy]
      exact ihl.bind fun a _ => ihr.lift (Cell.inner_logic c a)
  | not operand ih =>
      rw [evaluate_not]
      simp only [evaluateBy]
      exact ih.lift Cell.inner_not

/-- The trace is the outcome with what has been read for it. -/
theorem trace_reads (e : Expr) (row : Row) :
    (e.trace row).1 = e.evaluate row ∧ ReadsOf e.occurrences (e.evaluate row) (e.trace row).2 := by
  obtain ⟨reads, partly, runs⟩ := records_evaluateBy e row
  have traced : e.trace row = (e.evaluate row, reads) := runs []
  rw [traced]
  exact ⟨rfl, partly⟩

/-- **Nothing is read out of order, and nothing is left out.**  An evaluation with a result has read
every column of the tree, from left to right and as often as it occurs; one that fails has read a start
of these, up to the column at fault if one is.  The columns reported are those read, increasing. -/
theorem reads_left_to_right (e : Expr) (row : Row) :
    (e.trace row).1 = e.evaluate row ∧
      e.occurrences = e.nodes.filterMap index? ∧
      (∀ a, e.evaluate row = .ok a → (e.trace row).2 = e.occurrences) ∧
      (∀ fault, e.evaluate row = .error fault → (e.trace row).2 <+: e.occurrences ∧
        ∀ i, fault.column? = some i → (e.trace row).2.getLast? = some i) ∧
      e.columns.Pairwise (· < ·) ∧ (∀ i, i ∈ e.columns ↔ i ∈ e.occurrences) ∧
      ∀ a, e.evaluate row = .ok a → ∀ i ∈ e.columns, i.toNat < row.length := by
  obtain ⟨same, partly⟩ := trace_reads e row
  refine ⟨same, occurrences_eq_nodes e, ?_, ?_, columns_increasing e, fun i => mem_columns, ?_⟩
  · intro a h
    rw [h] at partly
    exact partly
  · intro fault h
    rw [h] at partly
    exact partly
  · intro a h i mem
    exact lt_length_of_evaluate h mem

/-- The tree fails in its second item, behind a match; the column of the right side is not read. -/
theorem farItem_stops :
    (Expr.and farItem (.column ⟨0, .boolean, none⟩)).evaluate [.boolean true, .integer 5] =
        .error (.columnOutOfBounds 9 2) ∧
      ((Expr.and farItem (.column ⟨0, .boolean, none⟩)).trace [.boolean true, .integer 5]).2 <+:
        [1, 9, 0] ∧
      ((Expr.and farItem (.column ⟨0, .boolean, none⟩)).trace [.boolean true, .integer 5]).2.getLast? =
        some 9 := by
  obtain ⟨-, -, -, failing, -⟩ := reads_left_to_right
    (Expr.and farItem (.column ⟨0, .boolean, none⟩)) [.boolean true, .integer 5]
  obtain ⟨start, last⟩ := failing (.columnOutOfBounds 9 2) rfl
  exact ⟨rfl, start, last 9 rfl⟩

end Expr

end RowFilter
