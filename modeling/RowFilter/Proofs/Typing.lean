import RowFilter.Filter
import RowFilter.Proofs.Comparison

/-!
# Proofs.Typing — what the checker promises

A tree that the checker accepts evaluates, on every row that fits the schema, to a cell of the type
found, or fails because a text or a double in one of its comparisons has no counterpart in the type
it is compared with (`gives_node`).  Where nothing is null and no list is searched the converse
holds too: a tree that evaluates is accepted at the type of its cell (`check_of_evaluate`), so a
rejected one fails.
-/

namespace RowFilter

set_option autoImplicit false

namespace Expr

/-! ## What is accepted -/

section Accepted

variable {schema : Schema} {t : ColumnType}

theorem requireComparable_eq_ok {node : Expr} {s : ColumnType} {u : Unit} :
    requireComparable node s t = .ok u ↔ s.comparable t = true := by
  unfold requireComparable
  split <;> simp_all

theorem requireTruth_eq_ok {node : Expr} {u : Unit} :
    requireTruth node t = .ok u ↔ t.isTruth = true := by
  unfold requireTruth
  split <;> simp_all

theorem check_column_eq_ok {c : Column} :
    check schema (column c) = .ok t ↔ schema[c.index.toNat]? = some t ∧ c.type = t := by
  simp only [check, checkColumn]
  split
  · simp_all
  · split
    · simp_all
    · rename_i different
      simp_all only [reduceCtorEq, Option.some.injEq, false_iff, not_and]
      rintro rfl rfl
      exact different rfl

theorem check_nullTest_eq_ok {test : NullTest} {e : Expr} :
    check schema (nullTest test e) = .ok t ↔ (∃ s, check schema e = .ok s) ∧ t = .boolean := by
  simp only [check, bind_eq_ok, Except.ok.injEq]
  constructor
  · rintro ⟨s, h, rfl⟩
    exact ⟨⟨s, h⟩, rfl⟩
  · rintro ⟨⟨s, h⟩, rfl⟩
    exact ⟨s, h, rfl⟩

theorem check_comparison_eq_ok {c : Comparator} {l r : Expr} :
    check schema (comparison c l r) = .ok t ↔
      (∃ a b, check schema l = .ok a ∧ check schema r = .ok b ∧ a.comparable b = true) ∧
        t = .boolean := by
  simp only [check, bind_eq_ok, requireComparable_eq_ok, Except.ok.injEq]
  constructor
  · rintro ⟨a, hl, b, hr, -, h, rfl⟩
    exact ⟨⟨a, b, hl, hr, h⟩, rfl⟩
  · rintro ⟨⟨a, b, hl, hr, h⟩, rfl⟩
    exact ⟨a, hl, b, hr, (), h, rfl⟩

theorem checkItems_eq_ok {node : Expr} {items : List Expr} {u : Unit} :
    checkItems schema node t items = .ok u ↔
      ∀ item ∈ items, ∃ s, check schema item = .ok s ∧ t.comparable s = true := by
  induction items with
  | nil => simp [checkItems]
  | cons item more ih =>
      simp only [checkItems, bind_eq_ok, requireComparable_eq_ok, ih, List.forall_mem_cons]
      constructor
      · rintro ⟨s, hs, -, h, rest⟩
        exact ⟨⟨s, hs, h⟩, rest⟩
      · rintro ⟨⟨s, hs, h⟩, rest⟩
        exact ⟨s, hs, (), h, rest⟩

theorem check_member_eq_ok {negated : Bool} {probe : Expr} {items : List Expr} :
    check schema (member negated probe items) = .ok t ↔
      items ≠ [] ∧ (∃ a, check schema probe = .ok a ∧
        ∀ item ∈ items, ∃ b, check schema item = .ok b ∧ a.comparable b = true) ∧
        t = .boolean := by
  cases items with
  | nil => simp [check]
  | cons item more =>
      simp only [check, List.isEmpty_cons, Bool.false_eq_true, if_false, bind_eq_ok,
        checkItems_eq_ok, Except.ok.injEq]
      constructor
      · rintro ⟨a, hp, -, h, rfl⟩
        exact ⟨List.cons_ne_nil _ _, ⟨a, hp, h⟩, rfl⟩
      · rintro ⟨-, ⟨a, hp, h⟩, rfl⟩
        exact ⟨a, hp, (), h, rfl⟩

theorem check_logic_eq_ok {c : Connective} {l r : Expr} :
    check schema (logic c l r) = .ok t ↔
      (∃ a, check schema l = .ok a ∧ a.isTruth = true) ∧
        (∃ b, check schema r = .ok b ∧ b.isTruth = true) ∧ t = .boolean := by
  simp only [check, bind_eq_ok, requireTruth_eq_ok, Except.ok.injEq]
  constructor
  · rintro ⟨a, hl, -, truel, b, hr, -, truer, rfl⟩
    exact ⟨⟨a, hl, truel⟩, ⟨b, hr, truer⟩, rfl⟩
  · rintro ⟨⟨a, hl, truel⟩, ⟨b, hr, truer⟩, rfl⟩
    exact ⟨a, hl, (), truel, b, hr, (), truer, rfl⟩

theorem check_not_eq_ok {e : Expr} :
    check schema (not e) = .ok t ↔
      (∃ a, check schema e = .ok a ∧ a.isTruth = true) ∧ t = .boolean := by
  simp only [check, bind_eq_ok, requireTruth_eq_ok, Except.ok.injEq]
  constructor
  · rintro ⟨a, h, -, truth, rfl⟩
    exact ⟨⟨a, h, truth⟩, rfl⟩
  · rintro ⟨⟨a, h, truth⟩, rfl⟩
    exact ⟨a, h, (), truth, rfl⟩

theorem checkFilter_eq_ok {e : Expr} {u : Unit} :
    checkFilter schema e = .ok u ↔ ∃ s, check schema e = .ok s ∧ s.isTruth = true := by
  simp only [checkFilter, bind_eq_ok]
  constructor
  · rintro ⟨s, h, truth⟩
    split at truth
    · exact ⟨s, h, by assumption⟩
    · cases truth
  · rintro ⟨s, h, truth⟩
    exact ⟨s, h, if_pos truth⟩

/-- The children of an accepted tree are accepted. -/
theorem child_accepted {e c : Expr} (accepted : check schema e = .ok t) (child : c ∈ e.children) :
    ∃ s, check schema c = .ok s := by
  cases e with
  | literal d | column d => cases child
  | nullTest test operand =>
      obtain ⟨below, -⟩ := check_nullTest_eq_ok.mp accepted
      cases List.mem_singleton.mp child
      exact below
  | comparison comparator l r =>
      obtain ⟨⟨a, b, left, right, -⟩, -⟩ := check_comparison_eq_ok.mp accepted
      rcases List.mem_pair.mp child with rfl | rfl
      · exact ⟨a, left⟩
      · exact ⟨b, right⟩
  | member negated probe items =>
      obtain ⟨-, ⟨a, first, others⟩, -⟩ := check_member_eq_ok.mp accepted
      rcases List.mem_cons.mp child with rfl | among
      · exact ⟨a, first⟩
      · obtain ⟨b, item, -⟩ := others c among
        exact ⟨b, item⟩
  | logic connective l r =>
      obtain ⟨⟨a, left, -⟩, ⟨b, right, -⟩, -⟩ := check_logic_eq_ok.mp accepted
      rcases List.mem_pair.mp child with rfl | rfl
      · exact ⟨a, left⟩
      · exact ⟨b, right⟩
  | not operand =>
      obtain ⟨⟨a, below, -⟩, -⟩ := check_not_eq_ok.mp accepted
      cases List.mem_singleton.mp child
      exact ⟨a, below⟩

theorem node_accepted {e n : Expr} (accepted : check schema e = .ok t) (within : n ∈ e.nodes) :
    ∃ s, check schema n = .ok s := by
  induction e using childInduction generalizing t with
  | step e ih =>
      rcases mem_nodes.mp within with rfl | ⟨c, child, below⟩
      · exact ⟨t, accepted⟩
      · obtain ⟨s, checked⟩ := child_accepted accepted child
        exact ih c child checked below

end Accepted

/-! ## Accepted trees evaluate -/

/-- The fault is that of a pair of the tree, one of whose operands has no counterpart in the type of
the other. -/
def Clashes (e : Expr) (row : Row) (fault : Fault) : Prop :=
  ∃ p ∈ e.pairs, ∃ l r, p.left.evaluate row = .ok l ∧ p.right.evaluate row = .ok r ∧
    Cell.Clash p.kind l r fault

/-- The cell has the type, and its value is null or of the type. -/
def Typed (t : ColumnType) (c : Cell) : Prop := c.type = t ∧ c.WellTagged

theorem typed_boolean (b : Bool) : Typed .boolean (Cell.boolean b) := ⟨rfl, Cell.wellTagged_of _⟩

theorem operand_of_truth (kind : Kind) {c : Cell} {t : ColumnType} (typed : Typed t c)
    (truth : t.isTruth = true) : ∃ o, Cell.operand kind c = .ok o := by
  obtain ⟨rfl, tagged⟩ := typed
  rcases Value.fits_iff.mp tagged with h | h
  · exact ⟨none, by rw [Cell.operand, h]⟩
  · rw [← h] at truth
    unfold Cell.operand
    cases hv : c.value <;> rw [hv] at truth <;> first | exact ⟨_, rfl⟩ | cases truth

section Evaluates

variable {schema : Schema} {row : Row}

/-- The search goes through where every item evaluates and compares with the probe. -/
theorem gives_searchBy {kind : Kind} {probe : Cell} {bad : Fault → Prop} {items : List Expr}
    (evaluates : ∀ item ∈ items, Gives (fun _ => True) bad (item.evaluate row))
    (compares : ∀ item ∈ items, ∀ c, item.evaluate row = .ok c →
      Gives (fun _ => True) bad (Cell.compareFor kind .equals probe c)) (s : Search) :
    Gives (fun _ => True) bad (searchBy row.fetch kind probe items s) := by
  induction items generalizing s with
  | nil =>
      rw [searchBy_nil]
      trivial
  | cons item more ih =>
      rw [List.forall_mem_cons] at evaluates compares
      rw [searchBy_cons]
      refine evaluates.1.bind ?_
      intro c hc _
      have stepped : Gives (fun _ => True) bad (s.step kind probe c) := by
        unfold Search.step
        split
        · trivial
        · split
          · trivial
          · exact (compares.1 c hc).map fun _ _ => trivial
      exact stepped.bind fun next _ _ => ih evaluates.2 compares.2 next

theorem gives_pair {root : Expr} {p : Pair} (mem : p ∈ root.pairs) {comparator : Comparator}
    {l r : Cell} (hl : p.left.evaluate row = .ok l) (hr : p.right.evaluate row = .ok r)
    (tagl : l.WellTagged) (tagr : r.WellTagged) (comparable : l.type.comparable r.type = true) :
    Gives (fun _ => True) (root.Clashes row) (Cell.compareFor p.kind comparator l r) :=
  (Cell.gives_compareFor tagl tagr comparable).imp (fun _ h => h)
    fun _ clash => ⟨p, mem, l, r, hl, hr, clash⟩

/-- A node of a tree with well tagged literals evaluates at the type it is accepted with, unless a
pair of the tree clashes. -/
theorem gives_node (fits : row.Fits schema) {root e : Expr}
    (tagged : ∀ c ∈ root.literals, c.WellTagged) (within : e ∈ root.nodes) {t : ColumnType}
    (accepted : check schema e = .ok t) : Gives (Typed t) (root.Clashes row) (e.evaluate row) := by
  induction e generalizing t with
  | literal c =>
      cases accepted
      rw [evaluate_literal]
      exact ⟨rfl, tagged c (mem_literals.mpr within)⟩
  | column c =>
      obtain ⟨found, rfl⟩ := check_column_eq_ok.mp accepted
      obtain ⟨v, hv, fit⟩ := fits _ _ found
      rw [evaluate_column_eq_ok.mpr ⟨v, hv, fit, rfl⟩]
      exact ⟨rfl, fit⟩
  | nullTest test operand ih =>
      have operandIn := below_nullTest within
      obtain ⟨⟨s, hs⟩, rfl⟩ := check_nullTest_eq_ok.mp accepted
      rw [evaluate_nullTest]
      exact (ih operandIn hs).map fun _ _ => typed_boolean _
  | comparison comparator l r ihl ihr =>
      obtain ⟨leftIn, rightIn⟩ := below_comparison within
      obtain ⟨⟨a, b, hl, hr, comparable⟩, rfl⟩ := check_comparison_eq_ok.mp accepted
      rw [evaluate_comparison]
      refine (ihl leftIn hl).bind ?_
      intro c hc typedl
      refine (ihr rightIn hr).bind ?_
      intro d hd typedr
      obtain ⟨rfl, tagl⟩ := typedl
      obtain ⟨rfl, tagr⟩ := typedr
      have mem : ⟨comparator.kind, l, r⟩ ∈ root.pairs :=
        mem_pairs within (List.mem_singleton_self _)
      exact (gives_pair mem hc hd tagl tagr comparable).map fun b _ => typed_boolean b
  | member negated probe items ihp ihi =>
      obtain ⟨probeIn, itemsIn⟩ := below_member within
      obtain ⟨ne, ⟨a, hp, hi⟩, rfl⟩ := check_member_eq_ok.mp accepted
      rw [evaluate_member_of_ne_nil ne]
      refine (ihp probeIn hp).bind ?_
      intro c hc typedp
      obtain ⟨rfl, tagp⟩ := typedp
      have evaluates : ∀ item ∈ items, ∀ b, check schema item = .ok b →
          Gives (Typed b) (root.Clashes row) (item.evaluate row) := fun item mem b hb =>
        ihi item mem (itemsIn item mem) hb
      refine Gives.map (gives_searchBy (fun item mem => ?_) (fun item mem d hd => ?_) _)
        fun s _ => typed_boolean _
      · obtain ⟨b, hb, -⟩ := hi item mem
        exact (evaluates item mem b hb).imp (fun _ _ => trivial) fun _ h => h
      · obtain ⟨b, hb, comparable⟩ := hi item mem
        have typed := evaluates item mem b hb
        rw [hd] at typed
        obtain ⟨rfl, tagi⟩ := typed
        exact gives_pair (mem_pairs within (List.mem_map_of_mem mem)) hc hd tagp tagi comparable
  | logic connective l r ihl ihr =>
      obtain ⟨leftIn, rightIn⟩ := below_logic within
      obtain ⟨⟨a, hl, truel⟩, ⟨b, hr, truer⟩, rfl⟩ := check_logic_eq_ok.mp accepted
      rw [evaluate_logic]
      refine (ihl leftIn hl).bind ?_
      intro c hc typedl
      refine (ihr rightIn hr).bind ?_
      intro d hd typedr
      obtain ⟨p, hp⟩ := operand_of_truth connective.kind typedl truel
      obtain ⟨q, hq⟩ := operand_of_truth connective.kind typedr truer
      simp only [Cell.logic, hp, hq]
      split <;> exact typed_boolean _
  | not operand ih =>
      have operandIn := below_not within
      obtain ⟨⟨a, h, truth⟩, rfl⟩ := check_not_eq_ok.mp accepted
      rw [evaluate_not]
      refine (ih operandIn h).bind ?_
      intro c hc typed
      obtain ⟨p, hp⟩ := operand_of_truth .not typed truth
      simp only [Cell.not, hp]
      cases p <;> exact typed_boolean _

end Evaluates

instance (c : Cell) : Decidable c.WellTagged := inferInstanceAs (Decidable (_ = true))

theorem keeps_of_evaluate {e : Expr} {row : Row} {t : ColumnType} (truth : t.isTruth = true)
    (h : Gives (Typed t) (e.Clashes row) (e.evaluate row)) :
    Gives (fun _ => True) (e.Clashes row) ((Filter.mk e).keeps row) := by
  unfold Filter.keeps
  cases he : e.evaluate row with
  | error fault =>
      rw [he] at h
      exact h
  | ok c =>
      rw [he] at h
      obtain ⟨rfl, tagged⟩ := h
      simp only [Filter.decide]
      rcases Value.fits_iff.mp tagged with hv | hv
      · rw [hv]
        trivial
      · rw [← hv] at truth
        cases hc : c.value <;> rw [hc] at truth <;> trivial

/-- **An accepted tree evaluates at its type or clashes**, and an accepted filter decides or
clashes: nothing else can go wrong on a row that fits the schema. -/
theorem accepted_evaluates_or_clashes {schema : Schema} {row : Row} {e : Expr}
    (fits : row.Fits schema) (tagged : ∀ c ∈ e.literals, c.WellTagged) :
    (∀ t, check schema e = .ok t →
      (∃ c, e.evaluate row = .ok c ∧ c.type = t ∧ (c.isNull = true ∨ c.value.type = t)) ∨
        ∃ fault, e.evaluate row = .error fault ∧ e.Clashes row fault) ∧
      ∀ f, Filter.ofSchema schema e = .ok f →
        (∃ b, f.keeps row = .ok b) ∨ ∃ fault, f.keeps row = .error fault ∧ e.Clashes row fault := by
  refine ⟨fun t accepted => ?_, fun f accepted => ?_⟩
  · rcases gives_iff.mp (gives_node fits tagged (self_mem_nodes e) accepted) with
      ⟨c, hc, rfl, tagc⟩ | failed
    · refine .inl ⟨c, hc, rfl, ?_⟩
      rw [Cell.isNull, Value.isNull_iff]
      exact Value.fits_iff.mp tagc
    · exact .inr failed
  · obtain ⟨_, checked, rfl⟩ := map_eq_ok.mp accepted
    obtain ⟨t, ht, truth⟩ := checkFilter_eq_ok.mp checked
    have given := keeps_of_evaluate truth (gives_node fits tagged (self_mem_nodes e) ht)
    rcases gives_iff.mp given with ⟨b, hb, -⟩ | failed
    · exact .inl ⟨b, hb⟩
    · exact .inr failed

/-- `c NOT IN (NULL, 0.5)` over a column of doubles: accepted, and an infinity has no decimal. -/
def clashingNotIn : Expr :=
  .member true (.column ⟨0, .double, none⟩) [.null .integer, .ofValue (.decimal ⟨5, 1⟩)]

theorem clashingNotIn_clashes :
    Row.Fits [.double (.ofSign true Double.infinite)] [.double] ∧
      (∀ c ∈ clashingNotIn.literals, c.WellTagged) ∧
      check [.double] clashingNotIn = .ok .boolean ∧
      ∃ fault, clashingNotIn.evaluate [.double (.ofSign true Double.infinite)] = .error fault ∧
        clashingNotIn.Clashes [.double (.ofSign true Double.infinite)] fault := by
  have fits : Row.Fits [.double (.ofSign true Double.infinite)] [.double] := by
    intro i t h
    cases i with
    | zero =>
        cases h
        exact ⟨_, rfl, rfl⟩
    | succ i => simp at h
  have tagged : ∀ c ∈ clashingNotIn.literals, c.WellTagged := by decide
  have sound := accepted_evaluates_or_clashes fits tagged
  refine ⟨fits, tagged, rfl, (sound.1 .boolean rfl).resolve_left ?_⟩
  rintro ⟨c, hc, -⟩
  cases hc

/-! ## Rejected trees fail -/

def isMember : Expr → Bool
  | member _ _ _ => true
  | _ => false

end Expr

/-- The values have the types of the schema, and none is null. -/
def Row.Fills (row : Row) (schema : Schema) : Prop :=
  row.map Value.type = schema ∧ ∀ v ∈ row, v.isNull = false

instance (row : Row) (schema : Schema) : Decidable (row.Fills schema) :=
  inferInstanceAs (Decidable (_ ∧ _))

namespace Cell

/-- The cell has the type of its value, which is not null. -/
def Full (c : Cell) : Prop := c.isNull = false ∧ c.WellTagged

instance (c : Cell) : Decidable c.Full := inferInstanceAs (Decidable (_ ∧ _))

theorem full_boolean (b : Bool) : (boolean b).Full := ⟨rfl, wellTagged_of _⟩

theorem Full.type_eq {c : Cell} (full : c.Full) : c.value.type = c.type :=
  full.2.type_eq full.1

theorem Full.truth_of_operand {kind : Kind} {c : Cell} {o : Option Bool} (full : c.Full)
    (h : operand kind c = .ok o) : c.type.isTruth = true := by
  rw [← full.type_eq]
  simp only [operand] at h
  cases hv : c.value <;> rw [hv] at h <;> first | rfl | cases h

theorem Full.comparable_of_compareFor {kind : Kind} {comparator : Comparator} {l r : Cell}
    {b : Bool} (left : l.Full) (right : r.Full) (h : compareFor kind comparator l r = .ok b) :
    l.type.comparable r.type = true := by
  cases comparable : l.type.comparable r.type with
  | true => rfl
  | false =>
      have fails : ∃ fault, compareFor kind comparator l r = .error fault :=
        compareFor_incomparable left.2 right.2 left.1 right.1 comparable
      obtain ⟨fault, failed⟩ := fails
      rw [failed] at h
      cases h

end Cell

namespace Expr

section Rejected

variable {schema : Schema} {row : Row}

/-- Where nothing is null and no list is searched, what evaluates is accepted. -/
theorem check_of_evaluate (fills : row.Fills schema) {root e : Expr}
    (plain : ∀ n ∈ root.nodes, n.isMember = false) (full : ∀ c ∈ root.literals, c.Full)
    (within : e ∈ root.nodes) {c : Cell} (h : e.evaluate row = .ok c) :
    check schema e = .ok c.type ∧ c.Full := by
  induction e generalizing c with
  | literal d =>
      rw [evaluate_literal] at h
      cases h
      exact ⟨rfl, full d (mem_literals.mpr within)⟩
  | column d =>
      obtain ⟨v, found, fit, rfl⟩ := evaluate_column_eq_ok.mp h
      have nonnull : v.isNull = false := fills.2 v (List.mem_of_getElem? found)
      have type : v.type = d.type := (Value.fits_iff.mp fit).resolve_left fun same => by
        rw [same] at nonnull
        cases nonnull
      refine ⟨check_column_eq_ok.mpr ⟨?_, rfl⟩, nonnull, fit⟩
      rw [← fills.1, List.getElem?_map, found]
      exact congrArg some type
  | nullTest test operand ih =>
      have operandIn := below_nullTest within
      rw [evaluate_nullTest, map_eq_ok] at h
      obtain ⟨a, ha, rfl⟩ := h
      have checked := (ih operandIn ha).1
      exact ⟨check_nullTest_eq_ok.mpr ⟨⟨_, checked⟩, rfl⟩, Cell.full_boolean _⟩
  | comparison comparator l r ihl ihr =>
      obtain ⟨leftIn, rightIn⟩ := below_comparison within
      simp only [evaluate_comparison, bind_eq_ok, Cell.comparison, map_eq_ok] at h
      obtain ⟨a, ha, b, hb, t, compared, rfl⟩ := h
      obtain ⟨checkl, fulll⟩ := ihl leftIn ha
      obtain ⟨checkr, fullr⟩ := ihr rightIn hb
      have comparable := fulll.comparable_of_compareFor fullr compared
      exact ⟨check_comparison_eq_ok.mpr ⟨⟨_, _, checkl, checkr, comparable⟩, rfl⟩,
        Cell.full_boolean _⟩
  | member negated probe items _ _ => cases plain _ within
  | logic connective l r ihl ihr =>
      obtain ⟨leftIn, rightIn⟩ := below_logic within
      simp only [evaluate_logic, bind_eq_ok] at h
      obtain ⟨a, ha, b, hb, h⟩ := h
      obtain ⟨checkl, fulll⟩ := ihl leftIn ha
      obtain ⟨checkr, fullr⟩ := ihr rightIn hb
      obtain ⟨⟨o, ho⟩, ⟨p, hp⟩, t, rfl⟩ := operands_of_logic h
      exact ⟨check_logic_eq_ok.mpr ⟨⟨_, checkl, fulll.truth_of_operand ho⟩,
        ⟨_, checkr, fullr.truth_of_operand hp⟩, rfl⟩, Cell.full_boolean _⟩
  | not operand ih =>
      have operandIn := below_not within
      simp only [evaluate_not, bind_eq_ok] at h
      obtain ⟨a, ha, h⟩ := h
      obtain ⟨checked, full⟩ := ih operandIn ha
      obtain ⟨⟨o, ho⟩, t, rfl⟩ := operand_of_not h
      exact ⟨check_not_eq_ok.mpr ⟨⟨_, checked, full.truth_of_operand ho⟩, rfl⟩, Cell.full_boolean _⟩

/-- **A rejected tree fails** where nothing is null and no list is searched, and a rejected filter
does not decide. -/
theorem rejected_fails {e : Expr} (fills : row.Fills schema)
    (plain : ∀ n ∈ e.nodes, n.isMember = false) (full : ∀ c ∈ e.literals, c.Full) :
    ((∃ fault, check schema e = .error fault) → ∃ fault, e.evaluate row = .error fault) ∧
      ((∃ fault, checkFilter schema e = .error fault) →
        ∃ fault, (Filter.mk e).keeps row = .error fault) := by
  constructor
  · rintro ⟨fault, rejected⟩
    cases h : e.evaluate row with
    | error reason => exact ⟨reason, rfl⟩
    | ok c =>
        rw [(check_of_evaluate fills plain full (self_mem_nodes e) h).1] at rejected
        cases rejected
  · rintro ⟨fault, rejected⟩
    unfold Filter.keeps
    cases h : e.evaluate row with
    | error reason => exact ⟨reason, rfl⟩
    | ok c =>
        obtain ⟨checked, fullc⟩ := check_of_evaluate fills plain full (self_mem_nodes e) h
        have untrue : c.type.isTruth = false := by
          cases truth : c.type.isTruth with
          | false => rfl
          | true =>
              have accepted : checkFilter schema e = .ok () :=
                checkFilter_eq_ok.mpr ⟨_, checked, truth⟩
              rw [accepted] at rejected
              cases rejected
        rw [← fullc.type_eq] at untrue
        simp only [Filter.decide]
        cases hv : c.value <;> rw [hv] at untrue <;> first | exact ⟨_, rfl⟩ | cases untrue

end Rejected

/-- `i OR b = 5` over a truth value `b` and an integer `i`.  The checker rejects the left operand;
evaluation fails at the right one. -/
def untrueOr : Expr :=
  .or (.column ⟨1, .integer, none⟩)
    (.comparison .equals (.column ⟨0, .boolean, none⟩) (.ofValue (.integer 5)))

/-- The tree is rejected as a tree, and its literal `5` is a tree that is only no filter. -/
theorem untrueOr_fails :
    Row.Fills [.boolean true, .integer 5] [.boolean, .integer] ∧
      ((∀ n ∈ untrueOr.nodes, n.isMember = false) ∧ (∀ c ∈ untrueOr.literals, c.Full) ∧
        (∃ fault, check [.boolean, .integer] untrueOr = .error fault) ∧
        (∃ fault, untrueOr.evaluate [.boolean true, .integer 5] = .error fault) ∧
        (∃ fault, checkFilter [.boolean, .integer] untrueOr = .error fault) ∧
        ∃ fault, (Filter.mk untrueOr).keeps [.boolean true, .integer 5] = .error fault) ∧
      check [.boolean, .integer] (.ofValue (.integer 5)) = .ok .integer ∧
      (∃ fault, checkFilter [.boolean, .integer] (.ofValue (.integer 5)) = .error fault) ∧
      ∃ fault, (Filter.mk (.ofValue (.integer 5))).keeps [.boolean true, .integer 5] =
        .error fault := by
  have fills : Row.Fills [.boolean true, .integer 5] [.boolean, .integer] := by decide
  have plain : ∀ n ∈ untrueOr.nodes, n.isMember = false := by decide
  have full : ∀ c ∈ untrueOr.literals, c.Full := by decide
  have rejected : ∃ fault, check [.boolean, .integer] untrueOr = .error fault := ⟨_, rfl⟩
  have unfiltered : ∃ fault, checkFilter [.boolean, .integer] untrueOr = .error fault := ⟨_, rfl⟩
  obtain ⟨fails, undecided⟩ := rejected_fails fills plain full
  have plainFive : ∀ n ∈ (ofValue (.integer 5)).nodes, n.isMember = false := by decide
  have fullFive : ∀ c ∈ (ofValue (.integer 5)).literals, c.Full := by decide
  have untrue : ∃ fault, checkFilter [.boolean, .integer] (.ofValue (.integer 5)) = .error fault :=
    ⟨_, rfl⟩
  exact ⟨fills, ⟨plain, full, rejected, fails rejected, unfiltered, undecided unfiltered⟩, rfl, untrue,
    (rejected_fails fills plainFive fullFive).2 untrue⟩

end Expr

end RowFilter
