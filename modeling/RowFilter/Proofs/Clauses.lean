import RowFilter.Command.Run
import RowFilter.Proofs.Alike
import RowFilter.Proofs.OneType
import RowFilter.Proofs.Reading
import RowFilter.Proofs.Typing

/-!
# Proofs.Clauses — filters given as clauses

A clause states a condition on one column: its value and a given one are not null and stand in an
order that the comparator allows.  Clauses that are read as a filter make one that fits the schema and
keeps exactly the rows that meet all conditions, without a fault for any row that can be read.  So a
run with it fails after its setup only for its input (`clauses_decide`).
-/

namespace RowFilter.Command

set_option autoImplicit false

/-- What a clause asks of a row. -/
structure Condition where
  number : Nat
  type : ColumnType
  comparator : Comparator
  value : Value

namespace Condition

/-- The clause has three parts between colons, of which only the last may have colons of its own: the
number of a column of the schema, a comparator, and a value at the type of the column. -/
structure Stated (schema : Schema) (clause : String) (c : Condition) : Prop where
  parts : ∃ column token literal, clause.toList = column ++ ':' :: (token ++ ':' :: literal) ∧
    ':' ∉ column ∧ ':' ∉ token ∧
    Text.readInteger 0 (UInt64.size - 1) (Text.trim column) = .ok c.number ∧
    Comparator.read? token = some c.comparator ∧ Value.read literal c.type = .ok c.value
  type : schema[c.number]? = some c.type

/-- The value of the row in the column satisfies the comparator. -/
def Met (c : Condition) (row : Row) : Prop :=
  ∃ v, row[c.number]? = some v ∧ v.Satisfies c.comparator c.value

/-- The comparison that is made of the condition. -/
def expr (c : Condition) : Expr :=
  .comparison c.comparator (.column ⟨UInt64.ofNat c.number, c.type, none⟩)
    (.literal ⟨c.type, c.value⟩)

end Condition

/-! ## Reading clauses -/

theorem parts_of_clauseParts? {s column token literal : List Char}
    (h : clauseParts? s = some (column, token, literal)) :
    s = column ++ ':' :: (token ++ ':' :: literal) ∧ ':' ∉ column ∧ ':' ∉ token := by
  by_cases first : ':' ∈ s
  · obtain ⟨a, rest, rfl, ha⟩ := List.eq_append_cons_of_mem first
    by_cases second : ':' ∈ rest
    · obtain ⟨b, tail, rfl, hb⟩ := List.eq_append_cons_of_mem second
      obtain ⟨part, more, ht⟩ := List.exists_cons_of_ne_nil (Text.split_ne_nil ':' tail)
      rw [clauseParts?, Text.split_append ha, Text.split_append hb, ht] at h
      cases h
      rw [← ht, Text.join_split]
      exact ⟨rfl, ha, hb⟩
    · rw [clauseParts?, Text.split_append ha, Text.split_of_not_mem second] at h
      cases h
  · rw [clauseParts?, Text.split_of_not_mem first] at h
    cases h

/-- A text can be cut at its first separator in one way. -/
theorem cut_inj {separator : Char} {a b s t : List Char} (ha : separator ∉ a) (hb : separator ∉ b)
    (same : a ++ separator :: s = b ++ separator :: t) : a = b ∧ s = t := by
  have parts := congrArg (Text.split separator) same
  rw [Text.split_append ha, Text.split_append hb, List.cons.injEq] at parts
  obtain ⟨first, rest⟩ := parts
  have joined := congrArg (Text.join separator) rest
  rw [Text.join_split, Text.join_split] at joined
  exact ⟨first, joined⟩

theorem ofTyped_of_fits {t : ColumnType} {v : Value} (fits : v.fits t = true) :
    Expr.ofTyped t v = .literal ⟨t, v⟩ := by
  rcases Value.fits_iff.mp fits with rfl | rfl
  · rfl
  · cases v <;> rfl

namespace Condition.Stated

variable {schema : Schema} {clause : String} {c : Condition}

/-- A clause states one condition. -/
theorem unique {d : Condition} (h : c.Stated schema clause) (h' : d.Stated schema clause) :
    c = d := by
  obtain ⟨column, token, literal, split, noColon, noColon', numeral, known, read⟩ := h.parts
  obtain ⟨column', token', literal', split', first, second, numeral', known', read'⟩ := h'.parts
  rw [split] at split'
  obtain ⟨rfl, rest⟩ := cut_inj noColon first split'
  obtain ⟨rfl, rfl⟩ := cut_inj noColon' second rest
  obtain ⟨number, type, comparator, value⟩ := c
  obtain ⟨number', type', comparator', value'⟩ := d
  rw [numeral] at numeral'
  cases numeral'
  have types := h.type.symm.trans h'.type
  cases types
  rw [known] at known'
  cases known'
  rw [read] at read'
  cases read'
  rfl

theorem fits (h : c.Stated schema clause) : c.value.fits c.type = true := by
  obtain ⟨_, _, _, -, -, -, -, -, read⟩ := h.parts
  exact Value.fits_of_read read

theorem index_eq (h : c.Stated schema clause) : (UInt64.ofNat c.number).toNat = c.number := by
  obtain ⟨_, _, _, -, -, -, numeral, -, -⟩ := h.parts
  have most := (Text.readInteger_bounds (Int.le_refl 0) (by decide) numeral).2
  refine UInt64.toNat_ofNat_of_lt' ?_
  simp only [UInt64.size] at most ⊢
  omega

theorem check_expr (h : c.Stated schema clause) : Expr.check schema c.expr = .ok .boolean := by
  have column : Expr.check schema (.column ⟨UInt64.ofNat c.number, c.type, none⟩) = .ok c.type :=
    Expr.check_column_eq_ok.mpr ⟨by rw [h.index_eq, h.type], rfl⟩
  have comparable : c.type.comparable c.type = true := by
    rw [ColumnType.comparable, ColumnType.frame_self, ColumnType.canReadAs_self, Bool.and_self]
  exact Expr.check_comparison_eq_ok.mpr ⟨⟨c.type, c.type, column, rfl, comparable⟩, rfl⟩

end Condition.Stated

theorem stated_of_readClause {schema : Schema} {clause : String} {e : Expr}
    (h : readClause schema clause = .ok e) :
    ∃ c : Condition, c.Stated schema clause ∧ e = c.expr := by
  unfold readClause at h
  split at h
  · cases h
  rename_i column token literal parts
  split at h
  · cases h
  rename_i number numeral
  split at h
  · cases h
  rename_i type found
  split at h
  · cases h
  rename_i comparator known
  split at h
  · cases h
  rename_i v read
  cases h
  obtain ⟨split, first, second⟩ := parts_of_clauseParts? parts
  have natural : (number.toNat : Int) = number :=
    Int.toNat_of_nonneg (Text.readInteger_bounds (Int.le_refl 0) (by decide) numeral).1
  refine ⟨⟨number.toNat, type, comparator, v⟩, ⟨?_, found⟩, ?_⟩
  · exact ⟨column, token, literal, split, first, second, by rw [natural, numeral], known, read⟩
  · rw [ofTyped_of_fits (Value.fits_of_read read)]
    rfl

/-- Each of the conditions is stated by a clause. -/
def AllStated (schema : Schema) (conditions : List Condition) : Prop :=
  ∀ c ∈ conditions, ∃ clause, c.Stated schema clause

theorem allStated_of_forall₂ {schema : Schema} {clauses : List String} {conditions : List Condition}
    (h : List.Forall₂ (fun clause c => Condition.Stated schema clause c) clauses conditions) :
    AllStated schema conditions := by
  induction h with
  | nil => exact fun _ mem => nomatch mem
  | cons first _ ih => exact List.forall_mem_cons.mpr ⟨⟨_, first⟩, ih⟩

/-- To meet all conditions is to meet what each of the clauses states. -/
theorem met_iff_of_forall₂ {schema : Schema} {clauses : List String} {conditions : List Condition}
    (h : List.Forall₂ (fun clause c => Condition.Stated schema clause c) clauses conditions)
    (row : Row) :
    (∀ clause ∈ clauses, ∃ c : Condition, c.Stated schema clause ∧ c.Met row) ↔
      ∀ c ∈ conditions, c.Met row := by
  refine Expr.forall_iff_of_forall₂ h ?_
  intro clause c stated
  constructor
  · rintro ⟨d, other, met⟩
    rwa [stated.unique other]
  · exact fun met => ⟨c, stated, met⟩

theorem stated_of_readClauses {schema : Schema} {clauses : List String} {es : List Expr}
    (h : readClauses schema clauses = .ok es) :
    ∃ conditions : List Condition,
      List.Forall₂ (fun clause c => c.Stated schema clause) clauses conditions ∧
        es = conditions.map Condition.expr := by
  induction clauses generalizing es with
  | nil =>
      cases h
      exact ⟨[], .nil, rfl⟩
  | cons clause more ih =>
      simp only [readClauses, bind_eq_ok] at h
      obtain ⟨e, first, es, rest, done⟩ := h
      cases done
      obtain ⟨c, stated, rfl⟩ := stated_of_readClause first
      obtain ⟨conditions, all, rfl⟩ := ih rest
      exact ⟨c :: conditions, .cons stated all, rfl⟩

/-! ## Deciding -/

/-- The tree evaluates to a truth value for the row, which is that of the proposition. -/
def Decides (e : Expr) (row : Row) (p : Prop) : Prop :=
  ∃ b, e.evaluate row = .ok (Cell.boolean b) ∧ (b = true ↔ p)

section Decides

variable {schema : Schema} {row : Row} {e l r : Expr} {p q : Prop}

theorem Condition.Stated.decides {clause : String} {c : Condition} (h : c.Stated schema clause)
    (fits : row.Fits schema) : Decides c.expr row (c.Met row) := by
  obtain ⟨v, found, fit⟩ := fits _ _ h.type
  have column : (Expr.column ⟨UInt64.ofNat c.number, c.type, none⟩).evaluate row =
      .ok ⟨c.type, v⟩ :=
    Expr.evaluate_column_eq_ok.mpr ⟨v, by rw [h.index_eq, found], fit, rfl⟩
  obtain ⟨b, compared, satisfied⟩ :=
    Cell.compareFor_of_fits c.comparator.kind c.comparator fit h.fits
  refine ⟨b, ?_, ?_⟩
  · rw [Condition.expr, Expr.evaluate_comparison, column, Expr.evaluate_literal]
    show (Cell.compareFor c.comparator.kind c.comparator _ _).map _ = _
    rw [compared]
    rfl
  · rw [satisfied]
    constructor
    · exact fun satisfies => ⟨v, found, satisfies⟩
    · rintro ⟨w, same, satisfies⟩
      rw [found] at same
      cases same
      exact satisfies

theorem Decides.and (left : Decides l row p) (right : Decides r row q) :
    Decides (l.and r) row (p ∧ q) := by
  obtain ⟨a, hl, truel⟩ := left
  obtain ⟨b, hr, truer⟩ := right
  refine ⟨a && b, ?_, by rw [Bool.and_eq_true, truel, truer]⟩
  rw [Expr.and, Expr.evaluate_logic, hl, hr]
  rfl

theorem decides_foldl {conditions : List Condition} (first : Decides e row p)
    (each : ∀ c ∈ conditions, Decides c.expr row (c.Met row)) :
    Decides ((conditions.map Condition.expr).foldl Expr.and e) row
      (p ∧ ∀ c ∈ conditions, c.Met row) := by
  induction conditions generalizing e p with
  | nil => simpa using first
  | cons c more ih =>
      rw [List.forall_mem_cons] at each ⊢
      rw [← and_assoc]
      exact ih (first.and each.1) each.2

theorem check_foldl {es : List Expr} (first : Expr.check schema e = .ok .boolean)
    (each : ∀ x ∈ es, Expr.check schema x = .ok .boolean) :
    Expr.check schema (es.foldl Expr.and e) = .ok .boolean := by
  induction es generalizing e with
  | nil => exact first
  | cons x more ih =>
      rw [List.forall_mem_cons] at each
      refine ih ?_ each.2
      exact Expr.check_logic_eq_ok.mpr ⟨⟨_, first, rfl⟩, ⟨_, each.1, rfl⟩, rfl⟩

theorem keeps_of_decides (h : Decides e row p) :
    ∃ b, (Filter.mk e).keeps row = .ok b ∧ (b = true ↔ p) := by
  obtain ⟨b, evaluated, truth⟩ := h
  exact ⟨b, by rw [Filter.keeps, evaluated]; rfl, truth⟩

end Decides

/-! ## Runs -/

/-- The problem is that the input cannot be read, or that one of its lines is no row. -/
def Problem.OfInput : Problem → Prop
  | .openInput _ _ | .readInput _ | .notText | .line _ (.malformedRow _) => True
  | _ => False

section Runs

variable {schema : Schema} {f : Filter}

/-- The filter decides on every row that is read from a line. -/
def Total (schema : Schema) (f : Filter) : Prop :=
  ∀ line delimiter row, Row.read line delimiter schema = .ok row → ∃ b, f.keeps row = .ok b

theorem scanFrom_problem {delimiter : Char} {skipHeader : Bool} (total : Total schema f)
    {lines : List Bytes} {number : Nat} {p : Problem}
    (h : (Scanner.scanFrom ⟨schema, f, delimiter, skipHeader⟩ number lines).problem = some p) :
    p.OfInput := by
  induction lines generalizing number with
  | nil => cases h
  | cons bytes more ih =>
      simp only [Scanner.scanFrom] at h
      split at h
      · cases h
        trivial
      rename_i line decoded
      split at h
      · exact ih h
      cases read : Row.read line delimiter schema with
      | error fault =>
          simp only [Scanner.keeps, read] at h
          cases h
          trivial
      | ok row =>
          -- A row that can be read is decided on, so the problem is one of the lines behind it.
          obtain ⟨b, decided⟩ := total line delimiter row read
          simp only [Scanner.keeps, read, decided] at h
          exact ih h

theorem inputBytes_problem {o : Options} {files : Files} {stdin : Bytes} {p : Problem}
    (h : inputBytes o files stdin = .error p) : p.OfInput := by
  unfold inputBytes at h
  cases input : o.input with
  | none =>
      rw [input] at h
      cases h
  | some path =>
      simp only [input] at h
      split at h
      · cases h
        trivial
      · cases read : files.read path with
        | error fault =>
            rw [read] at h
            cases h
            trivial
        | ok bytes =>
            rw [read] at h
            cases h

/-- A run with a total filter ends well once the plan is saved, or with a problem of its input. -/
theorem runFilter_ends (total : Total schema f) {o : Options} {files saved : Files}
    {stdin : Bytes} {messages : List Message} (save : savedFiles o files f.expr = .ok saved) :
    (runFilter o files stdin schema f messages).exit = 0 ∨
      ∃ output messages' p,
        runFilter o files stdin schema f messages = .failed saved output messages' p ∧
          p.OfInput := by
  simp only [runFilter, save]
  split
  · exact .inl rfl
  unfold runScan
  split
  · rename_i p input
    exact .inr ⟨_, _, p, rfl, inputBytes_problem input⟩
  simp only
  split
  · rename_i p found
    exact .inr ⟨_, _, p, rfl, scanFrom_problem total found⟩
  · exact .inl rfl

end Runs

/-- The conjunction of the comparisons that are made of conditions. -/
def conjunction (c : Condition) (more : List Condition) : Expr :=
  (more.map Condition.expr).foldl Expr.and c.expr

section Conjunction

variable {schema : Schema} {c : Condition} {more : List Condition}

theorem ofSchema_conjunction (stated : AllStated schema (c :: more)) :
    Filter.ofSchema schema (conjunction c more) = .ok ⟨conjunction c more⟩ := by
  obtain ⟨⟨_, first⟩, rest⟩ := List.forall_mem_cons.mp stated
  have each : ∀ x ∈ more.map Condition.expr, Expr.check schema x = .ok .boolean := by
    intro x mem
    obtain ⟨d, below, rfl⟩ := List.mem_map.mp mem
    obtain ⟨_, stated⟩ := rest d below
    exact stated.check_expr
  have checked := check_foldl first.check_expr each
  exact map_eq_ok.mpr ⟨(), Expr.checkFilter_eq_ok.mpr ⟨_, checked, rfl⟩, rfl⟩

theorem keeps_conjunction (stated : AllStated schema (c :: more)) {row : Row}
    (fits : row.Fits schema) :
    ∃ b, (Filter.mk (conjunction c more)).keeps row = .ok b ∧
      (b = true ↔ ∀ d ∈ c :: more, d.Met row) := by
  obtain ⟨⟨_, first⟩, rest⟩ := List.forall_mem_cons.mp stated
  rw [List.forall_mem_cons]
  refine keeps_of_decides (decides_foldl (first.decides fits) fun d mem => ?_)
  obtain ⟨_, stated⟩ := rest d mem
  exact stated.decides fits

end Conjunction

theorem conditions_of_givenTree {o : Options} {files : Files} {schema : Schema} {e : Expr}
    (unplanned : o.plan = none) (made : givenTree o files schema = .ok e) :
    ∃ c more, List.Forall₂ (fun clause c => Condition.Stated schema clause c) o.clauses (c :: more) ∧
      e = conjunction c more := by
  simp only [givenTree, unplanned] at made
  split at made
  · cases made
  rename_i es read
  obtain ⟨conditions, stated, rfl⟩ := stated_of_readClauses read
  cases conditions with
  | nil => cases made
  | cons c more =>
      cases made
      exact ⟨c, more, stated, rfl⟩

/-- **Clauses decide every row, as they say.**  The filter that is made of clauses fits the schema; it
keeps exactly the rows that meet the condition of each clause, where a NaN meets only `notEquals`, and
has no fault for any row that is read from a line.  Once the plan is saved, where it is to be, a run
ends well or for its input. -/
theorem clauses_decide {o : Options} {files : Files} {schema : Schema} {e : Expr}
    (unplanned : o.plan = none) (made : givenTree o files schema = .ok e) :
    Filter.ofSchema schema e = .ok ⟨e⟩ ∧
      (∀ line delimiter row, Row.read line delimiter schema = .ok row →
        ∃ b, (Filter.mk e).keeps row = .ok b ∧
          (b = true ↔ ∀ clause ∈ o.clauses,
            ∃ c : Condition, c.Stated schema clause ∧ c.Met row)) ∧
      (∀ comparator x y, x.isNaN = true ∨ y.isNaN = true →
        ((Value.double x).Satisfies comparator (.double y) ↔ comparator = .notEquals)) ∧
      ∀ stdin saved, readSchema o.schema = .ok schema → savedFiles o files e = .ok saved →
        (run o files stdin).exit = 0 ∨
          ∃ output messages p, run o files stdin = .failed saved output messages p ∧ p.OfInput := by
  obtain ⟨c, more, stated, rfl⟩ := conditions_of_givenTree unplanned made
  have all := allStated_of_forall₂ stated
  have fits := ofSchema_conjunction all
  have decides := fun line delimiter row (read : Row.read line delimiter schema = .ok row) =>
    keeps_conjunction all (Row.fits_of_read read)
  refine ⟨fits, fun line delimiter row read => ?_, fun comparator _ _ nan => ?_,
    fun stdin saved schemaRead save => ?_⟩
  · obtain ⟨b, kept, truth⟩ := decides line delimiter row read
    exact ⟨b, kept, truth.trans (met_iff_of_forall₂ stated row).symm⟩
  · exact Value.satisfies_nan_iff comparator nan
  · have total : Total schema ⟨conjunction c more⟩ := fun line delimiter row read =>
      (decides line delimiter row read).imp fun _ kept => kept.1
    simp only [run, schemaRead, made, fits]
    exact runFilter_ends total save

/-- Any double, as none equals NaN, and a text from `a:b` on. -/
def doubleAndText : Options :=
  ⟨"double,string", ["0:ne:NaN", "1: >= :a:b"], none, none, none, '|', false, false, false⟩

def doubleAndTextTree : Expr :=
  .and (.comparison .notEquals (.column ⟨0, .double, none⟩) (.ofValue (.double (Double.nan false))))
    (.comparison .greaterThanEquals (.column ⟨1, .string, none⟩) (.ofValue (.string "a:b")))

/-- Positive doubles, instants from a noon in March on, and integers of at most -7. -/
def threeOrders : Options :=
  ⟨"double,timestamp,int", ["0:gt:0", "1:ge:2024-03-01T12:00:00.625Z", "2:le:-7"], none, none, none,
    ',', false, false, false⟩

def marchNoon : Time.Instant := ⟨1709294400, 625000000, by decide, by decide, by decide, by decide⟩

def threeOrdersTree : Expr :=
  .and
    (.and (.comparison .greaterThan (.column ⟨0, .double, none⟩) (.ofValue (.double ⟨0⟩)))
      (.comparison .greaterThanEquals (.column ⟨1, .timestamp, none⟩)
        (.ofValue (.timestamp marchNoon))))
    (.comparison .lessThanEquals (.column ⟨2, .integer, none⟩) (.ofValue (.integer (-7))))

theorem doubleAndText_decides :
    (doubleAndText.plan = none ∧
      givenTree doubleAndText ⟨[], []⟩ [.double, .string] = .ok doubleAndTextTree ∧
      Filter.ofSchema [.double, .string] doubleAndTextTree = .ok ⟨doubleAndTextTree⟩ ∧
      (Filter.mk doubleAndTextTree).keeps [.double (Double.nan true), .string "b"] = .ok true ∧
      (Filter.mk doubleAndTextTree).keeps [.null, .string "b"] = .ok false ∧
      ∀ stdin, (run doubleAndText ⟨[], []⟩ stdin).exit = 0 ∨
        ∃ output messages p,
          run doubleAndText ⟨[], []⟩ stdin = .failed ⟨[], []⟩ output messages p ∧ p.OfInput) ∧
    givenTree threeOrders ⟨[], []⟩ [.double, .timestamp, .integer] = .ok threeOrdersTree ∧
      (∃ row, Row.read "0.25,2024-03-01T12:00:00.625Z,-8".toList ','
          [.double, .timestamp, .integer] = .ok row ∧
        (Filter.mk threeOrdersTree).keeps row = .ok true ∧
        ∀ clause ∈ threeOrders.clauses, ∃ c : Condition,
          c.Stated [.double, .timestamp, .integer] clause ∧ c.Met row) ∧
      (∃ row, Row.read "0.25,2024-03-01T12:00:00.624Z,-8".toList ','
          [.double, .timestamp, .integer] = .ok row ∧
        (Filter.mk threeOrdersTree).keeps row = .ok false ∧
        ¬ ∀ clause ∈ threeOrders.clauses, ∃ c : Condition,
          c.Stated [.double, .timestamp, .integer] clause ∧ c.Met row) ∧
      (Filter.mk threeOrdersTree).keeps [.double ⟨0⟩, .timestamp marchNoon, .integer (-8)] =
        .ok false ∧
      (Filter.mk threeOrdersTree).keeps
        [.double (.ofSign false Double.infinite), .timestamp marchNoon, .integer (-6)] = .ok false := by
  have made : givenTree doubleAndText ⟨[], []⟩ [.double, .string] = .ok doubleAndTextTree := rfl
  obtain ⟨fits, -, -, ends⟩ := clauses_decide rfl made
  have ordered : givenTree threeOrders ⟨[], []⟩ [.double, .timestamp, .integer] =
      .ok threeOrdersTree := rfl
  obtain ⟨-, decides, -⟩ := clauses_decide rfl ordered
  have noon : Row.read "0.25,2024-03-01T12:00:00.625Z,-8".toList ','
      [.double, .timestamp, .integer] =
      .ok [.double ⟨4598175219545276416⟩, .timestamp marchNoon, .integer (-8)] := by
    decide +kernel
  have earlier : Row.read "0.25,2024-03-01T12:00:00.624Z,-8".toList ','
      [.double, .timestamp, .integer] = .ok [.double ⟨4598175219545276416⟩,
        .timestamp ⟨1709294400, 624000000, by decide, by decide, by decide, by decide⟩,
        .integer (-8)] := by
    decide +kernel
  refine ⟨⟨rfl, made, fits, rfl, rfl, fun stdin => ends stdin _ rfl rfl⟩, ordered,
    ⟨_, noon, rfl, ?_⟩, ⟨_, earlier, rfl, ?_⟩, rfl, rfl⟩
  · obtain ⟨b, kept, met⟩ := decides _ _ _ noon
    cases kept
    exact met.mp rfl
  · obtain ⟨b, kept, met⟩ := decides _ _ _ earlier
    cases kept
    exact fun all => nomatch met.mpr all

end RowFilter.Command
